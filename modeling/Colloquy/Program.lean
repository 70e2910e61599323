/-!
# The program's own name
-/

namespace Colloquy.Program

/-- The name that the program is run by. -/
def name : String := "parley"

/-- The version that the program and its service report. -/
def version : String := "0.1.0"

end Colloquy.Program
