/-!
# How much is logged
-/

namespace Colloquy.Verbosity

/-- The least level that is logged, for a count of requests for more. -/
def filter (quiet : Bool) (verbose : Nat) : String :=
  if quiet then "error"
  else
    match verbose with
    | 0 => "warn"
    | 1 => "info"
    | 2 => "debug"
    | _ => "trace"

end Colloquy.Verbosity
