import CachedViews.Template.Render
import CachedViews.Template.Parser

/-
# Environments of compilers

How a text is read and printed depends on a few recognised options. Option sets
that agree on these share an environment: it is kept under the names of the
options that are present, each with the shown form of its value. An environment
that cannot be built is not kept.

An engine may be given any compiler (`Compiler`); that of pages is the common one.

Key definitions: `recognised`, `settingsOf`, `environmentKey`, `Environments`,
`compilePage`, `Compiler`, `Compiler.compile`.
-/

namespace CachedViews.Template

open CachedViews.Text

/-- The options that an environment depends on, in the order of their names. -/
def recognised : List String :=
  ["autoescape", "extensions", "keep_trailing_newline", "lstrip_blocks", "trim_blocks"]

/-- Statements that extensions add. -/
inductive Extension where
  | doStatement | loopControls | translation | debugging
  deriving Repr, BEq, DecidableEq

/-- The tags of the statements of an extension that are not followed. -/
def Extension.furtherTags : Extension → List String
  | .doStatement | .loopControls => []
  | .translation => ["trans"]
  | .debugging => ["debug"]

/-- The extensions by their names inside their module. -/
def extensionNames : List (String × Extension) :=
  [("do", .doStatement), ("ExprStmtExtension", .doStatement),
   ("loopcontrols", .loopControls), ("LoopControlExtension", .loopControls),
   ("i18n", .translation), ("InternationalizationExtension", .translation),
   ("debug", .debugging), ("DebugExtension", .debugging)]

/-- The first part of a dotted name that is no known module, or nothing. -/
def unknownModule? (module : String) : Option String :=
  match splitOn '.' module.toList with
  | [root] => if root = "jinja2".toList then none else some (String.ofList root)
  | [root, sub] =>
    if root ≠ "jinja2".toList then some (String.ofList root)
    else if sub = "ext".toList then none
    else some module
  | root :: _ => if root ≠ "jinja2".toList then some (String.ofList root) else some module
  | [] => some module

/-- The extension of a full name. -/
def findExtension (name : String) : Except Fault Extension :=
  let s := name.toList
  let separator := if s.contains ':' then ':' else '.'
  if !s.contains separator then
    match unknownModule? name with
    | some m => .error (.noModule m)
    | none => .error (.type (.notCallable "module"))
  else
    let cut : List Char × List Char := if separator = ':' then
        (s.takeWhile (· ≠ ':'), (s.dropWhile (· ≠ ':')).tail)
      else
        let r := s.reverse
        ((r.dropWhile (· ≠ '.')).tail.reverse, (r.takeWhile (· ≠ '.')).reverse)
    let module := String.ofList cut.1
    let object := String.ofList cut.2
    match unknownModule? module with
    | some m => .error (.noModule m)
    | none =>
      match extensionNames.lookup object with
      | some e => if module = "jinja2.ext" then .ok e else .error (.moduleAttribute module object)
      | none => .error (.moduleAttribute module object)

/-- The extensions that an option names. -/
def extensionsOf (v : Value) : Except Fault (List Extension) := do
  let items ← itemsOf v
  items.mapM fun item =>
    match item.string? with
    | some name => findExtension name
    | none => .error (.type (.notCallable item.kind))

/-- The settings that options ask for. Output is escaped unless an option says
otherwise. -/
def settingsOf (options : List (String × Value)) : Except Fault Settings := do
  let isOn (key : String) (other : Bool) : Bool := ((options.lookup key).map Value.isTrue).getD other
  let extensions ← match options.lookup "extensions" with
    | some v => extensionsOf v
    | none => pure []
  return {
    autoescape := isOn "autoescape" true
    trimBlocks := isOn "trim_blocks" false
    lstripBlocks := isOn "lstrip_blocks" false
    keepTrailingNewline := isOn "keep_trailing_newline" false
    doStatement := extensions.contains .doStatement
    loopControls := extensions.contains .loopControls
    furtherTags := extensions.flatMap Extension.furtherTags }

/-- What an environment is kept under: the recognised options that are present,
with the shown forms of their values. -/
def environmentKey (options : List (String × Value)) : List (String × String) :=
  recognised.filterMap fun name => (options.lookup name).map fun v => (name, v.shown)

/-- The environments built so far, in the order in which they were built. -/
structure Environments where
  kept : List (List (String × String) × Settings) := []
  deriving Inhabited

/-- The number of the environment for the given options, built now if there is
none yet. -/
def Environments.get (envs : Environments) (options : List (String × Value)) :
    Except Fault Nat × Environments :=
  let key := environmentKey options
  match envs.kept.findIdx? fun e => e.1 = key with
  | some i => (.ok i, envs)
  | none =>
    match settingsOf options with
    | .ok st => (.ok envs.kept.length, ⟨envs.kept ++ [(key, st)]⟩)
    | .error f => (.error f, envs)

/-! ### Compilers -/

/-- The page that a text describes under the given options. -/
def compilePage (options : List (String × Value)) (text : String) : Except Fault Page := do
  let st ← settingsOf options
  let name : Option String := match options.lookup "name" with
    | none | some .null => none
    | some v => some v.text
  match parseTemplate st text with
  | .ok body => return ⟨name, st.autoescape, body⟩
  | .error f => .error f.fault

theorem tellsNoView_itemsOf (v : Value) : TellsNoView (itemsOf v) := by
  unfold itemsOf refusal
  repeat' split
  all_goals exact fun _ h => nomatch h

theorem tellsNoView_findExtension (name : String) : TellsNoView (findExtension name) := by
  unfold findExtension
  dsimp only
  repeat' split
  all_goals exact fun _ h => nomatch h

theorem tellsNoView_settingsOf (options : List (String × Value)) :
    TellsNoView (settingsOf options) := by
  have hextensions : ∀ v, TellsNoView (extensionsOf v) := by
    intro v
    refine (tellsNoView_itemsOf v).bind fun items => tellsNoView_mapM (fun item => ?_) items
    split
    · exact tellsNoView_findExtension _
    · exact fun _ h => nomatch h
  unfold settingsOf
  cases options.lookup "extensions" with
  | none => exact tellsNoView_ok _
  | some v => exact (hextensions v).bind fun _ => tellsNoView_ok _

theorem tellsNoView_compilePage (options : List (String × Value)) (text : String) :
    TellsNoView (compilePage options text) := by
  refine (tellsNoView_settingsOf _).bind fun st => ?_
  dsimp only
  cases parseTemplate st text with
  | ok body => exact tellsNoView_ok _
  | error f => cases f <;> exact fun _ h => nomatch h

/-- What makes templates of texts under given options. A template is any value that
can be called with a model. The faults of a compiler are its own: none tells of a
view. -/
structure Compiler where
  translate : List (String × Value) → String → Except Fault Value
  tellsNoView : ∀ options text, TellsNoView (translate options text)

/-- The compiler of pages. -/
def Compiler.pages : Compiler where
  translate options text := (compilePage options text).map (.page 0)
  tellsNoView options text := (tellsNoView_compilePage options text).map _

instance : Inhabited Compiler := ⟨.pages⟩

/-- The template that a compiler makes of the text of a file. The options are
those of the configuration, with the compiler itself and the file added. -/
def Compiler.compile (c : Compiler) (options : List (String × Value)) (file text : String) :
    Except Fault Value :=
  c.translate (Value.overlay options [("compiler", .null), ("name", .str file)]) text

end CachedViews.Template
