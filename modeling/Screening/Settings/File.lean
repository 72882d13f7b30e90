import Screening.Ini
import Screening.Json.Reader
import Screening.Json5
import Screening.Ron
import Screening.Settings.Setting
import Screening.Toml.Document
import Screening.Yaml.Document

/-!
# Files of settings

A file is written in one of the formats in `Setting.formats`, which the end of its name tells.  A
byte order mark in front of its text is passed over.
-/

set_option autoImplicit false

namespace Screening

namespace Setting

mutual

def ofJson : Json.Value → Setting
  | .null => nothing
  | .bool b => flag b
  | .number (.integer n _) => integer n
  | .number (.real x) => real (.finite x)
  | .string s => text s
  | .array vs => list (itemsOfJson vs)
  | .object ms => table (entriesOfJson ms)

def itemsOfJson : List Json.Value → List Setting
  | [] => []
  | v :: rest => ofJson v :: itemsOfJson rest

def entriesOfJson : List (String × Json.Value) → Entries
  | [] => []
  | (k, v) :: rest => (k, ofJson v) :: entriesOfJson rest

end

/-- The members of the object that a JSON text holds. -/
def ofJsonText? (text : String) : Option Entries :=
  match Json.Value.ofText? text with
  | some (.object ms) => some (entriesOfJson ms)
  | _ => none

/-- What a file name may end in, and how the text of such a file is read. -/
def formats : List (String × (String → Option Entries)) :=
  [("toml", ofToml?), ("json", ofJsonText?), ("yaml", ofYaml?), ("yml", ofYaml?), ("ini", ofIni?),
   ("ron", ofRon?), ("json5", ofJson5?)]

/-- The text of a file without the mark that tells its byte order. -/
def withoutMark (text : String) : String :=
  match text.toList with
  | '\uFEFF' :: rest => String.ofList rest
  | _ => text

end Setting

end Screening
