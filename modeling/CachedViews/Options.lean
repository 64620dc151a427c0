import CachedViews.Fields

/-
# Options of a render, and what templates learn about it

`RenderOptions` are the choices for one render; fields that are no options are
passed over. `RenderMeta` is the record that templates see under the name
`view`: the file, the names of view and layout, the helpers and the partials.

Key definitions: `RenderOptions`, `RenderOptions.ofFields`, `RenderMeta`,
`RenderMeta.ofFields`, `RenderMeta.value`.
-/

namespace CachedViews

/-- The choices for one render. -/
structure RenderOptions where
  cache : Bool := false
  view : Option String := none
  layout : Option String := none
  /-- Helpers in place of the engine's. -/
  helpers : Option (List (String × Value)) := none
  /-- Partials that are used as they are, without looking for any. -/
  partials : Option (List (String × Value)) := none
  /-- Sources of partials in place of the engine's. -/
  partialsDir : Value := .null
  deriving Inhabited

namespace RenderOptions

/-- The keys of the options. -/
def keys : List String := ["cache", "view", "layout", "helpers", "partials", "partials_dir"]

/-- Nothing or a checked mapping. -/
def checkOptional (check : Value → Checked (List (String × Value))) :
    Value → Checked (Option (List (String × Value)))
  | .null => .ok none
  | v => (check v).map some

/-- The options that fields give. -/
def ofFields (fields : List (String × Value)) : Checked RenderOptions :=
  let get (key : String) : Value := (fields.lookup key).getD .null
  let cache : Checked Bool := match fields.lookup "cache" with
    | some v => checkFlag ["cache"] v
    | none => .ok false
  let view := checkOptionalText ["view"] (get "view")
  let layout := checkOptionalText ["layout"] (withoutLayout (get "layout"))
  let helpers := checkOptional (checkCallables ["helpers"]) (get "helpers")
  let partials := checkOptional (checkMapping ["partials"]) (get "partials")
  match cache, view, layout, helpers, partials with
  | .ok c, .ok v, .ok l, .ok h, .ok p => .ok ⟨c, v, l, h, p, get "partials_dir"⟩
  | c, v, l, h, p => .error (c.faults ++ v.faults ++ l.faults ++ h.faults ++ p.faults)

/-- The options that fields give, with a fault of the whole record. -/
def build (fields : List (String × Value)) : Except Fault RenderOptions :=
  match ofFields fields with
  | .ok o => .ok o
  | .error fs => .error (.validation "RenderOptions" fs)

end RenderOptions

/-- What templates learn about the render they are part of. -/
structure RenderMeta where
  filePath : String
  view : Option String
  layout : Option String
  cache : Bool
  helpers : List (String × Value)
  partials : List (String × Value)
  deriving Inhabited

namespace RenderMeta

/-- A text or nothing as a value. -/
def optionalText : Option String → Value
  | some s => .str s
  | none => .null

/-- The record as templates see it. -/
def value (m : RenderMeta) : Value :=
  .record .renderMeta [("file_path", .str m.filePath), ("view", optionalText m.view),
    ("layout", optionalText m.layout), ("cache", .bool m.cache),
    ("helpers", Value.ofFields m.helpers), ("partials", Value.ofFields m.partials)]

/-- The record that fields give. -/
def ofFields (fields : List (String × Value)) : Checked RenderMeta :=
  let get (key : String) : Value := (fields.lookup key).getD .null
  let file : Checked String := match fields.lookup "file_path" with
    | some v => checkText ["file_path"] v
    | none => Checked.fail ["file_path"] .required
  let view := checkOptionalText ["view"] (get "view")
  let layout := checkOptionalText ["layout"] (get "layout")
  let cache : Checked Bool := match fields.lookup "cache" with
    | some v => checkFlag ["cache"] v
    | none => .ok false
  let mapping (key : String) (check : Value → Checked (List (String × Value))) :
      Checked (List (String × Value)) := match fields.lookup key with
    | some v => check v
    | none => .ok []
  let helpers := mapping "helpers" (checkCallables ["helpers"])
  let partials := mapping "partials" (checkMapping ["partials"])
  match file, view, layout, cache, helpers, partials with
  | .ok f, .ok v, .ok l, .ok c, .ok h, .ok p => .ok ⟨f, v, l, c, h, p⟩
  | f, v, l, c, h, p =>
    .error (f.faults ++ v.faults ++ l.faults ++ c.faults ++ h.faults ++ p.faults)

/-- The record that fields give, with a fault of the whole record. -/
def build (fields : List (String × Value)) : Except Fault RenderMeta :=
  match ofFields fields with
  | .ok m => .ok m
  | .error fs => .error (.validation "RenderMeta" fs)

end RenderMeta

end CachedViews
