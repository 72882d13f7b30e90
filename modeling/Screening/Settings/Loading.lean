import Screening.Settings.File
import Screening.Settings.Path
import Screening.Settings.Reading
import Screening.Settings.Variable

/-!
# Loading the settings

Settings come in layers, each laid over the ones before: what follows from the names of the service
and the environment; the files `default.toml`, then the one named for the environment, then the one
named for the service, as far as they are there; the variables.  Last of all the port that the
service listens on can be set by a variable of its own.

For a file that is not there another one stands in whose name goes on with the ending of a format,
as in `default.toml.json`.  A file whose whole name is an ending, as with an environment that has no
name, is of no format and is passed over.

A file that cannot be read stops the loading, whatever is in the layers above it; any other fault is
found only when all layers have been laid.
-/

set_option autoImplicit false

namespace Screening

/-- What can be wrong with settings: the text of a file, or the value of a setting. -/
inductive SettingsError where
  | file (name : String)
  | value
  deriving DecidableEq

/-- Where settings are loaded from.  A file has the name under which it is opened from the directory
of the settings, with the folders on the way if there are any; the variables are in the order in
which the process has them, and no two have one name. -/
structure Sources where
  files : List (String × String)
  vars : List (String × String)

namespace Sources

/-- Settings to be laid over others, each under its path. -/
abbrev Layer := List (List Step × Setting)

def lay (base : Entries) (layer : Layer) : Entries :=
  layer.foldl (fun es (path, t) => (t.layAt path (some (.table es))).entries) base

def baseLayer (service environment : String) : Layer :=
  [([.word "service_name"], .text service), ([.word "environment"], .text environment),
   ([.word "observability", .word "service_name"], .text service)]

/-- The layer in a file, given a reader of its format. -/
def layerOf (name text : String) (read : String → Option Entries) : Except SettingsError Layer :=
  match read (Setting.withoutMark text) with
  | some es => .ok (es.map fun (k, t) => (Setting.path k, t))
  | none => .error (.file name)

/-- Whether a file has a name in front of its ending: one that ends the name of a folder does not.
-/
def isNamed (stem : String) : Bool := stem.toList.getLast?.any (· ≠ '/')

/-- The layer in the file of the given stem, or in the one that stands in for it; a file without a
name is of no format and gives no layer.  Nothing is laid down about which of several files stands
in; here it is the one whose format comes first. -/
def fileLayer (s : Sources) (stem : String) : Except SettingsError Layer :=
  let name := stem ++ ".toml"
  match s.files.lookup name with
  | some text => if isNamed stem then layerOf name text Setting.ofToml? else .ok []
  | none =>
    let others := Setting.formats.map fun (ending, read) => (name ++ "." ++ ending, read)
    match others.findSome? fun (other, read) => (s.files.lookup other).map (other, ·, read) with
    | some (other, text, read) => layerOf other text read
    | none => .ok []

/-- The layer of the variables.  Names that differ in case alone can give the same setting, and then
the later variable has its way. -/
def variableLayer (s : Sources) : Layer :=
  s.vars.filterMap fun (name, text) =>
    (Setting.ofVariable? name).map fun setting => (Setting.path setting, Setting.ofText text)

/-- The port that a variable holds, if it is there and holds one. -/
def portIn? (s : Sources) (name : String) : Option UInt16 := do
  let n ← Numeral.naturalUpTo? 65535 (← s.vars.lookup name).toList
  return UInt16.ofNat n

/-- The port set by a variable of its own: the first of the two that holds one. -/
def port? (s : Sources) : Option UInt16 := ["RULE_SERVICE_PORT", "PORT"].findSome? s.portIn?

/-- All layers, from the lowest to the highest. -/
def layers (s : Sources) (service environment : String) : Except SettingsError (List Layer) := do
  let files ← ["default", environment, service].mapM s.fileLayer
  return baseLayer service environment :: files ++ [s.variableLayer]

def load (s : Sources) (service environment : String) : Except SettingsError Settings := do
  let layers ← s.layers service environment
  match Settings.ofEntries? (layers.foldl lay []) with
  | none => throw .value
  | some settings =>
    match s.port? with
    | some port => return { settings with server := { settings.server with port } }
    | none => return settings

/-- The environment that the variables name. -/
def environment (s : Sources) : String := (s.vars.lookup "RULE_ENV").getD "development"

end Sources

end Screening
