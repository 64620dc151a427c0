import CachedViews.Config
import CachedViews.Host
import CachedViews.Yaml.Reader

/-
# Loading configurations and template variables

A configuration comes from a file, from environment variables and from further
fields, each on top of the one before. Files are written in YAML or JSON, as
their suffix says. Variables for templates come from files of the same formats.

Key definitions: `Config.entriesOfFile`, `Config.entriesOfVariables`, `Config.load`,
`readContext`.
-/

namespace CachedViews

open CachedViews.Text

namespace Config

/-- The suffixes of configuration files. -/
def fileSuffixes : List String := [".yaml", ".yml", ".json"]

/-- The value that a configuration text writes. -/
def parseText (path suffix text : String) : Except Fault Value :=
  if suffix = ".json" then
    match Json.read text with
    | .ok v => .ok v
    | .error (.hugeInteger digits) => .error (.value (.hugeInteger digits))
    | .error f => .error (.view (.malformedJson path f))
  else
    match Yaml.read text with
    | .ok v => .ok v
    | .error .malformed => .error (.view (.malformedYaml path))
    | .error (.fault f) => .error f

/-- The entries of the mapping in a configuration file. A value that is taken
for false is an empty mapping. -/
def entriesOfFile (h : Host) (path : String) : Except Fault (List (Value × Value)) := do
  let file ← h.expandHome path
  if !(← h.exists? file) then .error (.view (.missingConfiguration path))
  else if !fileSuffixes.contains (Path.suffix file) then
    .error (.view (.configurationFormat path))
  else
    match h.readText file with
    | .error (.file f) => .error (.view (.unreadableConfiguration path f))
    | .error (.notText e) => .error (.notText e)
    | .ok text =>
      let v ← parseText path (Path.suffix file) text
      match v.isTrue, v with
      | false, _ => .ok []
      | true, .dict es => .ok es
      | true, _ => .error (.view (.configurationNotMapping path))

/-- The settings that may come from the environment. -/
def variableSettings : List Setting := [.extname, .layoutsDir, .partialsDir, .defaultLayout]

/-- The name of the variable for a setting. -/
def variableName (start : String) (s : Setting) : String :=
  start ++ String.ofList (s.key.toList.map Char.toUpper)

/-- The value of a setting that a variable gives. Several directories for
partials are separated by colons. -/
def variableValue (s : Setting) (text : String) : Value :=
  if s = .partialsDir ∧ text.toList.contains ':' then
    .list (((splitOn ':' text.toList).filter (· ≠ [])).map fun part => .str (String.ofList part))
  else .str text

/-- The settings that environment variables give. -/
def entriesOfVariables (h : Host) (start : String) : List (String × Value) :=
  variableSettings.filterMap fun s =>
    (h.environment.lookup (variableName start s)).map fun text => (s.key, variableValue s text)

/-- The usual beginning of the names of variables. -/
def usualStart : String := "TEMPLATE_VIEWS_"

/-- The configuration from a file, the environment and further entries. No file
is read when its path is missing or empty. -/
def load (h : Host) (path : Option String) (start : String) (added : List (Value × Value)) :
    Except Fault Config := do
  let file ← match path with
    | none | some "" => .ok []
    | some path => entriesOfFile h path
  let given := (entriesOfVariables h start).map fun (k, v) => (Value.str k, v)
  ofValue (.dict (Value.onTop file (given ++ added)))

end Config

/-- The value that a text of variables writes. Everything wrong with it that is a
matter of its format or of its values has the same fault. -/
def parseContext (path suffix text : String) : Except Fault Value :=
  let unreadable : Except Fault Value := .error (.unreadableContext path)
  if suffix = ".json" then
    match Json.read text with
    | .ok v => .ok v
    | .error _ => unreadable
  else
    match Yaml.read text with
    | .ok v => .ok v
    | .error .malformed | .error (.fault (.value _)) => unreadable
    | .error (.fault f) => .error f

/-- The entries of the mapping of template variables in a file, if there is one. -/
def readContext (h : Host) : Option String → Except Fault (List (Value × Value))
  | none => .ok []
  | some path => do
    let path := Path.tidy path
    match h.readText path with
    | .error _ => .error (.unreadableContext path)
    | .ok text =>
      match ← parseContext path (Path.suffix path) text with
      | .null => .ok []
      | .dict es => .ok es
      | _ => .error (.contextNotMapping path)

end CachedViews
