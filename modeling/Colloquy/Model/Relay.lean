import Colloquy.Model.Completion
import Colloquy.Model.Request
/-!
# A relay to a model server

A relay stands for a server that cannot be asked at once. It gives out the
answers that are known, and holds the first request behind them. Work that
has left a request behind is done again from its beginning when the answer to
that request is there; as all work is a function of the answers, it takes the
same course up to that point.
-/

namespace Colloquy

/-- Answers with their durations, and the first request without one. -/
structure Relay where
  answers : List (Nat × ModelResponse) := []
  held : Option ModelRequest := none

namespace Relay

/-- Answers a request, or holds it. -/
def send (request : ModelRequest) (r : Relay) : Relay × Nat × ModelResponse :=
  match r.answers with
  | (takes, response) :: rest => ({ r with answers := rest }, takes, response)
  | [] => ({ r with held := some (r.held.getD request) }, 0, .unreachable "")

end Relay

end Colloquy
