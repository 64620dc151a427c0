import CachedViews.Fields

/-
# Configuration of an engine

An engine has six settings, each with a default. A configuration remembers which
settings were given: a directory that was not given is looked for below the
views directory of a render. Every setting is brought into a normal form when
it is checked, and checking a normal form changes nothing, but for the empty
layout that empty octets leave.

Key definitions: `Setting`, `PartialsDir`, `Config`, `Config.ofFields`,
`Config.ofValue`, `Config.overlaid`.
-/

namespace CachedViews

/-- The settings of an engine. -/
inductive Setting where
  | extname | layoutsDir | partialsDir | defaultLayout | helpers | compilerOptions
  deriving Repr, BEq, DecidableEq

namespace Setting

/-- All settings in their order. -/
def all : List Setting :=
  [extname, layoutsDir, partialsDir, defaultLayout, helpers, compilerOptions]

/-- The key of a setting. -/
def key : Setting → String
  | extname => "extname"
  | layoutsDir => "layouts_dir"
  | partialsDir => "partials_dir"
  | defaultLayout => "default_layout"
  | helpers => "helpers"
  | compilerOptions => "compiler_options"

theorem mem_all (s : Setting) : s ∈ all := by cases s <;> simp [all]

theorem key_injective (s t : Setting) (h : s.key = t.key) : s = t := by
  cases s <;> cases t <;> first | rfl | exact absurd h (by decide)

end Setting

/-- Where partials are looked for: one directory, or several sources. -/
inductive PartialsDir where
  | one (path : String)
  | several (entries : List Value)
  deriving Inhabited

/-- The partials directory as a value. -/
def PartialsDir.value : PartialsDir → Value
  | one p => .str p
  | several es => .list es

/-- The settings of an engine, and which of them were given. -/
structure Config where
  extname : String := ".html"
  layoutsDir : String := "views/layouts/"
  partialsDir : PartialsDir := .one "views/partials/"
  defaultLayout : Option String := none
  helpers : List (String × Value) := []
  compilerOptions : List (String × Value) := []
  explicit : List Setting := []
  deriving Inhabited

namespace Config

/-- Was the setting left at its default? -/
def isDefault (c : Config) (s : Setting) : Bool := !c.explicit.contains s

/-- An extension starts with a dot and is not empty. -/
def checkExtname (v : Value) : Checked String := do
  let s ← checkText ["extname"] v
  if s = "" then Checked.fail ["extname"] .emptyExtension
  else if s.toList.head? = some '.' then .ok s
  else .ok ("." ++ s)

/-- A directory is a text or a path object. -/
def checkLayoutsDir : Value → Checked String
  | .path p => .ok p
  | v => checkText ["layouts_dir"] v

/-- The partials are in one directory or come from several sources, which are
given in a list, a tuple or a set. -/
def checkPartialsDir (v : Value) : Checked PartialsDir :=
  match v with
  | .path p => .ok (.one p)
  | .tuple xs | .list xs | .set xs => .ok (.several xs)
  | v =>
    match v.asText? with
    | some s => .ok (.one s)
    | none => .error [⟨["partials_dir", "str"], textProblem v⟩,
        ⟨["partials_dir", "list[any]"], .notList⟩]

/-- A layout is a text; false and the empty text stand for none. What octets write
is known only behind that step, so an empty text is left where they are empty. -/
def checkDefaultLayout (v : Value) : Checked (Option String) :=
  checkOptionalText ["default_layout"] (withoutLayout v)

/-- Nothing stands for the empty mapping. -/
def orEmpty : Value → Value
  | .null => .dict []
  | v => v

/-- The helpers can all be called. -/
def checkHelpers (v : Value) : Checked (List (String × Value)) :=
  checkCallables ["helpers"] (orEmpty v)

/-- The options of the compiler may be anything. -/
def checkCompilerOptions (v : Value) : Checked (List (String × Value)) :=
  checkMapping ["compiler_options"] (orEmpty v)

/-- The default for a setting that is not given, the checked value for one that
is. -/
def checkSetting {α : Type} (fields : List (String × Value)) (s : Setting) (default : α)
    (check : Value → Checked α) : Checked α :=
  match fields.lookup s.key with
  | some v => check v
  | none => .ok default

/-- The faults of fields that are no settings. -/
def unknownFields (fields : List (String × Value)) : List FieldFault :=
  (fields.filter fun f => !(Setting.all.any fun s => s.key = f.1)).map fun f =>
    ⟨[f.1], .unknownField⟩

/-- The settings that are given, in their order. -/
def givenSettings (fields : List (String × Value)) : List Setting :=
  Setting.all.filter fun s => (fields.lookup s.key).isSome

/-- The configuration with the given fields. -/
def ofFields (fields : List (String × Value)) : Checked Config :=
  let base : Config := {}
  let extname := checkSetting fields .extname base.extname checkExtname
  let layoutsDir := checkSetting fields .layoutsDir base.layoutsDir checkLayoutsDir
  let partialsDir := checkSetting fields .partialsDir base.partialsDir checkPartialsDir
  let defaultLayout := checkSetting fields .defaultLayout base.defaultLayout checkDefaultLayout
  let helpers := checkSetting fields .helpers base.helpers checkHelpers
  let options := checkSetting fields .compilerOptions base.compilerOptions checkCompilerOptions
  match extname, layoutsDir, partialsDir, defaultLayout, helpers, options, unknownFields fields with
  | .ok e, .ok l, .ok p, .ok d, .ok h, .ok o, [] =>
    .ok ⟨e, l, p, d, h, o, givenSettings fields⟩
  | e, l, p, d, h, o, unknown =>
    .error (e.faults ++ l.faults ++ p.faults ++ d.faults ++ h.faults ++ o.faults ++ unknown)

/-- The string-keyed fields of a mapping that is given as keyword arguments. -/
def keywordFields (entries : List (Value × Value)) : Except Fault (List (String × Value)) :=
  if entries.all fun e => e.1.string?.isSome then .ok (Value.stringFields entries)
  else .error (.type .keywordsNotStrings)

/-- The fields that a value gives: none for a value that is taken for false. -/
def fieldsOf (v : Value) : Except Fault (List (String × Value)) :=
  if v.isTrue then
    match v with
    | .dict es => keywordFields es
    | v => .error (.type (.notMappingArgument
        "template_views.config.configuration.EngineConfig" v.kind))
  else .ok []

/-- The configuration that a mapping of settings describes, with the faults of
its fields as they are. -/
def ofMapping (v : Value) : Except Fault Config := do
  let fields ← match v with
    | .dict es => keywordFields es
    | v => .error (.type (.notMappingArgument
        "template_views.config.configuration.EngineConfig" v.kind))
  match ofFields fields with
  | .ok c => .ok c
  | .error fs => .error (.validation "EngineConfig" fs)

/-- The configuration of checked fields; faults are faults of the configuration. -/
def build (fields : List (String × Value)) : Except Fault Config :=
  match ofFields fields with
  | .ok c => .ok c
  | .error fs => .error (.view (.invalidConfiguration fs))

/-- The configuration that a value describes. -/
def ofValue (v : Value) : Except Fault Config := do
  build (← fieldsOf v)

/-- The value of a setting. -/
def value (c : Config) : Setting → Value
  | .extname => .str c.extname
  | .layoutsDir => .str c.layoutsDir
  | .partialsDir => c.partialsDir.value
  | .defaultLayout => (c.defaultLayout.map Value.str).getD .null
  | .helpers => Value.ofFields c.helpers
  | .compilerOptions => Value.ofFields c.compilerOptions

/-- The given settings as fields. -/
def fields (c : Config) : List (String × Value) := c.explicit.map fun s => (s.key, c.value s)

/-- The configuration with further fields on top of those given. -/
def overlaid (c : Config) (added : List (String × Value)) : Except Fault Config :=
  build (Value.overlay c.fields added)

/-- A new configuration from a mapping with further fields on top of it. -/
def create (v : Value) (added : List (String × Value)) : Except Fault Config := do
  let under ← match v.isTrue, v with
    | false, _ => .ok []
    | true, .dict es => keywordFields es
    | true, v => .error (.type (.notMapping v.kind))
  build (Value.overlay under added)

end Config

end CachedViews
