import Colloquy.Console.Conduct
import Colloquy.Host.Office
import Colloquy.Service.Handler
/-!
# A run of the program

The arguments say whether there is anything to do at all; only then is the
office opened and the errand carried out. A run that serves answers visits
until it is stopped.
-/

namespace Colloquy

/-- How a run ends: its exit code, what it wrote, and why it failed. -/
structure Exit where
  code : Nat
  output : String
  failure : Option String := none
deriving DecidableEq, Repr

namespace Exit

/-- The end of a run that has nothing to do. -/
def ofUsage (e : Arguments.UsageError) : Exit :=
  ⟨e.exitCode, Console.usageText e, none⟩

/-- The end of a run that failed. -/
def failed (reason : String) : Exit := ⟨1, "", some reason⟩

/-- The end of a run with a report. -/
def ofReport : Console.Report → Exit
  | .ok output => ⟨0, output, none⟩
  | .error reason => failed reason

end Exit

namespace Office

variable {S : Type}

/-- Answers visits, one after another. -/
def receive (o : Office S) (visits : List Service.HttpRequest) :
    Office S × List (Option Service.HttpResponse) :=
  let (hall, responses) := visits.foldl
    (fun (hall, responses) visit =>
      let (hall, response) := Service.handle o.equipment hall visit
      (hall, responses ++ [response])) (o.hall, [])
  ({ o with hall := hall }, responses)

end Office

namespace Host

variable {S : Type}

/-- Runs an errand in an office. -/
def runIn (h : Host S) (o : Office S) (json : Bool) (visits : List Service.HttpRequest) :
    Errand → Office S × Exit × List (Option Service.HttpResponse)
  | .serve host port =>
    match h.listenFault host port with
    | some reason => (o, .failed reason, [])
    | none =>
      let (o, responses) := o.receive visits
      (o, ⟨0, Console.Report.listening host port ++ Console.Report.stopped, none⟩, responses)
  | errand =>
    let (hall, report) := Console.carryOut o.equipment o.settings json o.hall errand
    ({ o with hall := hall }, .ofReport report, [])

/-- Runs the program with arguments, behind its own name. If it serves, some
requests are sent to it before it is stopped. -/
def run (e : Equipment S) (h : Host S) (arguments : List String)
    (visits : List Service.HttpRequest) : Host S × Exit × List (Option Service.HttpResponse) :=
  match CommandLine.parse arguments with
  | .error fault => (h, .ofUsage fault, [])
  | .ok c =>
    match c.errand with
    | .completions shell => (h, ⟨0, Console.completions shell, none⟩, [])
    | errand =>
      match h.openOffice e with
      | (h, .error reason) => (h, .failed reason, [])
      | (h, .ok o) =>
        let (o, exit, responses) := h.runIn o c.json visits errand
        (h.leave o, exit, responses)

end Host

end Colloquy
