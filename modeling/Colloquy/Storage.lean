/-!
# Failures of storage

What can go wrong between the program and the place where rooms and records
are kept.
-/

namespace Colloquy

/-- Why a stored thing could not be read or written. -/
inductive StorageError where
  | connection
  | query (reason : String)
  | notFound
deriving DecidableEq, Repr

/-- The wording of a storage error. -/
def StorageError.message : StorageError → String
  | .connection => "database connection error"
  | .query reason => "query error: " ++ reason
  | .notFound => "entity not found"

end Colloquy
