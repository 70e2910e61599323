import Colloquy.Json.Printer
import Colloquy.Text.Utf8
/-!
# Requests and responses

What the service reads of an HTTP request and writes of a response.
-/

namespace Colloquy.Service

/-- An HTTP request. -/
structure HttpRequest where
  method : String
  /-- The path, with a query behind a question mark. -/
  target : String
  headers : List (String × String) := []
  body : List UInt8 := []

/-- An HTTP response. -/
structure HttpResponse where
  status : Nat
  headers : List (String × String) := []
  body : String := ""

/-- Capital letters as small ones. -/
def lowerCase (s : String) : String :=
  String.ofList (s.toList.map Char.toLower)

namespace HttpRequest

/-- The path without the query. -/
def path (r : HttpRequest) : String :=
  String.ofList (r.target.toList.takeWhile fun c => c ≠ '?' && c ≠ '#')

/-- The first value of a header, whose name may be in either case. -/
def header? (r : HttpRequest) (name : String) : Option String :=
  (r.headers.find? fun h => lowerCase h.1 = name).map (·.2)

end HttpRequest

namespace HttpResponse

/-- A response of plain text. -/
def plain (status : Nat) (text : String) : HttpResponse :=
  ⟨status, [("content-type", "text/plain; charset=utf-8")], text⟩

/-- A response of JSON. -/
def json (status : Nat) (j : Json) : HttpResponse :=
  ⟨status, [("content-type", "application/json")], j.compact⟩

/-- A response with a header more. -/
def adding (r : HttpResponse) (name value : String) : HttpResponse :=
  { r with headers := r.headers ++ [(name, value)] }

/-- A response without its body. -/
def bodiless (r : HttpResponse) : HttpResponse := { r with body := "" }

end HttpResponse

end Colloquy.Service
