import CachedViews.Engine.Partials

/-
# Rendering

A render needs a template and partials, which are looked up at the same time;
partials that the options bring are used as they are. A view is rendered first
and then, if it has a layout, the layout around it, with the same partials and
with the view as the variable `body`.

What the options of a view say is settled before any work begins (`ViewPlan`):
the name of the view, the directories of layouts and partials, which are those
of the configuration when it sets them and lie below the views directory
otherwise, the helpers, and the layout, which is that of the options when they
name one, even none, and the default otherwise.

Key definitions: `Engine.load`, `Engine.apply`, `Engine.render`, `ViewPlan`,
`Engine.planView`, `Engine.view`, `Engine.program`.
-/

namespace CachedViews.Engine

/-- What the partials of a mapping are to templates. -/
def partialValues (hs : List (String × Handle)) : List (String × Value) :=
  hs.map fun (name, h) => (name, h.value)

/-- The template of a file and the partials that it is rendered with. -/
def load (e : Engine) (file : Value) (o : RenderOptions) :
    Work (Handle × List (String × Value)) := do
  match o.partials with
  | some ps =>
    let key ← Program.ofExcept (e.keyOf file)
    let found ← template key o.cache
    return (found.asTemplate, ps)
  | none =>
    let sources := match o.partialsDir with
      | .null => e.config.partialsDir.value
      | v => v
    match ← allJobs [.template file o.cache, .partials sources o.cache] with
    | [found, partials] => return (found.asTemplate, partialValues partials.asTemplates)
    | _ => return (default, [])

/-- The variables of a context. -/
def contextEntries (context : Value) : Except Fault (List (Value × Value)) :=
  match context with
  | .dict es => .ok es
  | v => .error (.type (.notMapping v.kind))

/-- Call a template with the variables of a context and the record about the
render, which takes the place of a variable named `view`. -/
def apply (e : Engine) (h : Handle) (file context : Value) (o : RenderOptions)
    (partials : List (String × Value)) : Work Value := do
  let context := if context.isTrue then context else .dict []
  if ← Program.ofExcept (Template.isIn (.str "view") context) then
    note (.variableReplaced file.text)
  let key ← Program.ofExcept (e.keyOf file)
  let about : RenderMeta :=
    { filePath := key, view := o.view, layout := o.layout, cache := o.cache
      helpers := o.helpers.getD e.config.helpers, partials }
  let entries ← Program.ofExcept (contextEntries context)
  Program.ofExcept (Template.callTemplate e.runtime h.value
    (Value.insertEntry (.str "view") about.value entries))

/-- Render a template file. -/
def render (e : Engine) (file context : Value) (o : RenderOptions) : Work Value := do
  let (h, partials) ← e.load file o
  e.apply h file context o partials

/-! ### Views -/

/-- The options of a view that are no variables of its templates. -/
def optionKeys : List String := ["cache", "layout", "helpers", "partials"]

/-- Is the key one of the options of a view that are for the engine? -/
def isOptionKey (key : Value) : Bool := key.string?.any optionKeys.contains

/-- The views directory that the settings among the options name. -/
def viewsPath? (options : List (Value × Value)) : Option String :=
  match Value.entry? "settings" options with
  | some (.dict es) => (Value.entry? "views" es).bind Value.path?
  | _ => none

/-- What the options of a view settle. -/
structure ViewPlan where
  layoutsDir : String
  options : RenderOptions
  context : List (Value × Value)
  deriving Inhabited

/-- The name of a view: its path from the views directory without the extension. -/
def viewName (e : Engine) (file : Value) (views : String) : Except Fault String :=
  if file.isTrue then do
    let path ← file.asPath
    return partialName (Path.relative e.cwd views path) none e.config.extname
  else .error (.value .noPath)

/-- The helpers of a render: those of the options on top of those of the engine. -/
def helperEntries (e : Engine) (options : List (Value × Value)) :
    Except Fault (List (Value × Value)) :=
  let own := e.config.helpers.map fun (name, f) => (Value.str name, f)
  match Value.entry? "helpers" options with
  | none => .ok own
  | some v =>
    match v.isTrue, v with
    | false, _ => .ok own
    | true, .dict es => .ok (Value.onTop own es)
    | true, v => .error (.type (.notMapping v.kind))

/-- The sources of partials for a views directory: those of the configuration when
it sets them, and a directory below the views otherwise. -/
def partialsBelow (e : Engine) (views : Option String) : Value :=
  match views, e.config.isDefault .partialsDir with
  | some dir, true => .str (Path.join dir "partials/")
  | _, _ => e.config.partialsDir.value

/-- What the options of a view settle, or what is wrong with them. -/
def planView (e : Engine) (file options : Value) : Except Fault ViewPlan := do
  let options ← Template.entriesOf options
  let views := viewsPath? options
  let view ← match views with
    | some dir => (e.viewName file dir).map some
    | none => .ok none
  let layoutsDir := match views, e.config.isDefault .layoutsDir with
    | some dir, true => Path.join dir "layouts/"
    | _, _ => e.config.layoutsDir
  let helpers ← e.helperEntries options
  let layout := match Value.entry? "layout" options with
    | some v => v
    | none => RenderMeta.optionalText e.config.defaultLayout
  let choices ← RenderOptions.build [
    ("cache", .bool ((Value.entry? "cache" options).getD .null).isTrue),
    ("view", RenderMeta.optionalText view),
    ("layout", layout),
    ("helpers", .dict helpers),
    ("partials", (Value.entry? "partials" options).getD .null),
    ("partials_dir", e.partialsBelow views)]
  return { layoutsDir, options := choices
           context := options.filter fun f => !isOptionKey f.1 }

/-- What a view is called in the log: its name, or else its file. -/
def logName (file : Value) : Option String → Value
  | some "" | none => file
  | some name => .str name

/-- Render a view and, if it has one, its layout around it. -/
def view (e : Engine) (file options : Value) : Work Value := do
  let plan ← Program.ofExcept (e.planView file options)
  let (h, partials) ← e.load file plan.options
  let body ← e.apply h file (.dict plan.context) plan.options partials
  match layoutPath e.cwd plan.layoutsDir e.config.extname plan.options.layout with
  | none => return .str body.text
  | some path =>
    note (.layout (logName file plan.options.view) path)
    let context := .dict (Value.insertEntry (.str "body") body plan.context)
    let whole ← e.render (.str path) context
      { plan.options with layout := none, partials := some partials }
    return .str whole.text

/-! ### Programs of jobs -/

/-- The program of a job. -/
def program (e : Engine) : Job → Work Product
  | .list dir cached => do listing (← Program.ofExcept (e.keyOf dir)) cached
  | .walk dir => walking dir
  | .read file cached => do reading (← Program.ofExcept (e.keyOf file)) cached
  | .open file => opening file
  | .template file cached => do template (← Program.ofExcept (e.keyOf file)) cached
  | .compile file cached => compiling file cached
  | .templates dir cached => e.templatesBelow dir cached
  | .source s cached => e.templatesOf s cached
  | .partials sources cached => e.aggregate sources cached
  | .render file context options => do return .value (← e.render file context options)
  | .view file options => do return .value (← e.view file options)

end CachedViews.Engine
