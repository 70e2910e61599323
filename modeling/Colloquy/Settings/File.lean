import Colloquy.Settings.Basic
import Colloquy.Toml.Document
/-!
# The settings file

A TOML document whose sections and keys override single defaults. A file that
cannot be read in full, for whatever reason, overrides nothing.
-/

namespace Colloquy.Settings

/-- The settings of a document, when all of its known values fit. -/
def ofDocument? (root : Toml.Entries) : Option Settings :=
  (Toml.Value.conform? shape (.table .header root)).map ofJson

/-- The settings that a file gives, if it is one and is text. -/
def ofFile (content : Option (List UInt8)) : Settings :=
  let settings := do
    let bytes ← content
    let text ← Text.Utf8.decode? bytes
    let root ← Toml.parse? text
    ofDocument? root
  settings.getD {}

end Colloquy.Settings
