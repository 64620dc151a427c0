import CachedViews.Fields

/-
# Sources of partials

Partials come from a directory, which is listed, or from a mapping of templates.
Either may have a namespace that is put in front of the names. An entry of the
configuration is a source itself, a path, or a mapping that names a directory or
gives templates; anything else is refused.

Key definitions: `Source`, `Source.ofEntry`, `partialName`.
-/

namespace CachedViews

/-- Where partials come from. -/
inductive Source where
  | directory (path : String) (namesp : Option String)
  | templates (templates : Value) (namesp : Option String)
  deriving Inhabited

namespace Source

/-- The name put in front of the names of a source. -/
def namesp : Source → Option String
  | directory _ n => n
  | templates _ n => n

/-- The source as a value. -/
def value : Source → Value
  | directory p n => .directorySource p n
  | templates t n => .inlineSource t n

/-- A directory source of checked fields. -/
def ofDirectoryFields (fields : List (String × Value)) : Except Fault Source :=
  let path : Checked String := match fields.lookup "path" with
    | some v => checkText ["path"] v
    | none => Checked.fail ["path"] .required
  let namesp := checkOptionalText ["namespace"] ((fields.lookup "namespace").getD .null)
  match path, namesp with
  | .ok p, .ok n => .ok (.directory p n)
  | path, namesp => .error (.validation "DirectorySource" (path.faults ++ namesp.faults))

/-- A source of given templates, of checked fields. -/
def ofTemplateFields (fields : List (String × Value)) : Except Fault Source :=
  let templates : Checked Value := match fields.lookup "templates" with
    | some v => .ok v
    | none => Checked.fail ["templates"] .required
  let namesp := checkOptionalText ["namespace"] ((fields.lookup "namespace").getD .null)
  match templates, namesp with
  | .ok t, .ok n => .ok (.templates t n)
  | templates, namesp => .error (.validation "InlineSource" (templates.faults ++ namesp.faults))

/-- A path as it is handed on: a text, or the octets of one. -/
def plainPath : Value → Except Fault Value
  | .bytes octets => .ok (.bytes octets)
  | v => v.asPath.map .str

/-- The source that a mapping names: its templates, unless they are absent, or
else its directory. -/
def ofMapping (entries : List (Value × Value)) : Except Fault Source :=
  let namesp := (Value.entry? "namespace" entries).getD .null
  let refused := Except.error (.view (.source (Value.dict entries).shown))
  let ofDirectory (dir : Value) : Except Fault Source :=
    if dir.isTrue then do
      ofDirectoryFields [("path", ← plainPath dir), ("namespace", namesp)]
    else refused
  match Value.entry? "templates" entries with
  | some .null | none =>
    match Value.entry? "dir" entries with
    | some dir => ofDirectory dir
    | none => refused
  | some given => ofTemplateFields [("templates", given), ("namespace", namesp)]

/-- The source that an entry of the configuration names. -/
def ofEntry (entry : Value) : Except Fault Source :=
  match entry with
  | .directorySource p n => .ok (.directory p n)
  | .inlineSource t n => .ok (.templates t n)
  | .dict entries => ofMapping entries
  | entry =>
    match entry.path? with
    | some "" | none => .error (.view (.source entry.shown))
    | some p => .ok (.directory p none)

end Source

/-- The name of a partial: the path without the extension, below the namespace. -/
def partialName (path : String) (namesp : Option String) (extname : String) : String :=
  let name :=
    if extname = "" then path
    else match Text.dropSuffix? extname.toList path.toList with
      | some s => String.ofList s
      | none => path
  match namesp with
  | none | some "" => name
  | some n => n ++ "/" ++ name

end CachedViews
