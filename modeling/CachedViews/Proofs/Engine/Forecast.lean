import CachedViews.Engine.Render
import CachedViews.Proofs.Fields
import Mathlib.Data.List.Forall2

/-
# What a job comes to

What the jobs of an engine give is a function of two kinds of lookups: the templates below
a directory, and the text of a file (`Engine.Lookups`). The forecast of a job follows its
program and looks everything up in order, with no tasks and no caches. Where a job waits
for several others at once, any of their faults may become its own, so a forecast that
fails lists all of them.

How often files were compiled says nothing about what templates do: a forecast leaves the
numbers of compilations out (`Engine.Product.bare`).

Key definitions: `Engine.Lookups`, `Engine.Forecast`, `Engine.Forecast.Blames`,
`Engine.Product.bare`, `Engine.planForecast`, `Engine.viewForecast`, `Engine.forecast`,
`Engine.loadKeys`.
Key theorems: `Engine.Forecast.all_eq_ok`, `Engine.merge_bare`.
-/

namespace CachedViews

/-- A template without the number of its compilation. -/
def Handle.bare (h : Handle) : Handle := ⟨none, h.value⟩

namespace Engine

/-- Named templates without the numbers of their compilations. -/
def bareTemplates (hs : List (String × Handle)) : List (String × Handle) :=
  hs.map fun (name, h) => (name, h.bare)

/-- A result without the numbers of compilations. -/
def Product.bare : Product → Product
  | .template h => .template h.bare
  | .templates hs => .templates (bareTemplates hs)
  | p => p

/-- What an engine looks up: the templates below a directory, and the text of a file. Both
are asked for under resolved paths. -/
structure Lookups where
  names : String → Except FileFault (List String)
  text : String → Except FileTree.OpenFault String

/-! ### Forecasts -/

/-- What is to be expected: a result, or one of several faults. -/
abbrev Forecast (α : Type) := Except (List Fault) α

namespace Forecast

variable {α β : Type}

/-- Nothing else is to be expected. -/
def of : Except Fault α → Forecast α := Except.mapError fun f => [f]

/-- What may go wrong. -/
def faults : Forecast α → List Fault
  | .ok _ => []
  | .error fs => fs

/-- All results, or all that may go wrong. -/
def all : List (Forecast α) → Forecast (List α)
  | [] => .ok []
  | v :: vs =>
    match v with
    | .ok a => (all vs).map (a :: ·)
    | .error fs => .error (fs ++ (all vs).faults)

end Forecast

/-! ### Looking things up -/

variable (e : Engine) (L : Lookups)

/-- The names of the templates below a directory. -/
def namesForecast (dir : String) : Forecast Product :=
  match L.names dir with
  | .ok names => .ok (.names names)
  | .error f => .error [.view (.listing dir f)]

/-- The text of a file. -/
def textForecast (file : String) : Forecast Product :=
  match L.text file with
  | .ok text => .ok (.text text)
  | .error (.unreadable f) => .error [.view (.reading file f)]
  | .error .nullByte => .error [.value .nullByte]

/-- The template that a file gives. -/
def compileForecast (file : String) : Forecast Product := do
  let text ← textForecast L file
  match e.compiler.compile e.config.compilerOptions file text.asText with
  | .ok v => .ok (.template ⟨none, v⟩)
  | .error (.malformedTemplate f) => .error [.view (.compiling file f)]
  | .error f => .error [f]

/-- The template of a path, however it is given. -/
def templateForecast (file : Value) : Forecast Product := do
  let key ← Forecast.of (e.keyOf file)
  e.compileForecast L key

/-! ### Partials -/

/-- The templates below a directory, by their paths from it. -/
def templatesForecast (dir : Value) : Forecast Product := do
  let key ← Forecast.of (e.keyOf dir)
  let names := (← namesForecast L key).asNames
  let found ← Forecast.all
    (names.map fun f => e.templateForecast L (.str (Path.join dir.text f)))
  return .templates (names.zip (found.map Product.asTemplate))

/-- The templates of a source. -/
def sourceForecast : Source → Forecast Product
  | .directory path _ => e.templatesForecast L (.str path)
  | .templates (.future v) _ => .ok (.given v)
  | .templates v _ => .ok (.given v)

/-- The partials of all sources that a value lists. -/
def partialsForecast (sources : Value) : Forecast Product := do
  let resolved ← Forecast.of ((entriesOf sources).mapM Source.ofEntry)
  let products ← Forecast.all (resolved.map (e.sourceForecast L))
  let merged ← Forecast.of (merge e.config.extname (resolved.zip products) [])
  return .templates merged

/-! ### Rendering -/

/-- The template of a file and the partials that it is rendered with. -/
def loadForecast (file : Value) (o : RenderOptions) :
    Forecast (Handle × List (String × Value)) :=
  match o.partials with
  | some ps => do
    let key ← Forecast.of (e.keyOf file)
    let found ← e.compileForecast L key
    return (found.asTemplate, ps)
  | none => do
    let sources := match o.partialsDir with
      | .null => e.config.partialsDir.value
      | v => v
    match ← Forecast.all [e.templateForecast L file, e.partialsForecast L sources] with
    | [found, partials] => return (found.asTemplate, partialValues partials.asTemplates)
    | _ => return (default, [])

/-- What a template gives when it is called. Nothing is looked up any more. -/
def called (h : Handle) (file context : Value) (o : RenderOptions)
    (partials : List (String × Value)) : Except Fault Value := do
  let context := if context.isTrue then context else .dict []
  let _ ← Template.isIn (.str "view") context
  let key ← e.keyOf file
  let about : RenderMeta :=
    { filePath := key, view := o.view, layout := o.layout, cache := o.cache
      helpers := o.helpers.getD e.config.helpers, partials }
  let entries ← contextEntries context
  Template.callTemplate e.runtime h.value (Value.insertEntry (.str "view") about.value entries)

/-- What rendering a file gives. -/
def renderForecast (file context : Value) (o : RenderOptions) : Forecast Value := do
  let (h, partials) ← e.loadForecast L file o
  Forecast.of (e.called h file context o partials)

/-- What a view gives when its options are settled, with the layout around it if it has
one. -/
def planForecast (file : Value) (plan : ViewPlan) : Forecast Value := do
  let (h, partials) ← e.loadForecast L file plan.options
  let body ← Forecast.of
    (e.called h file (.dict plan.context) plan.options partials)
  match layoutPath e.cwd plan.layoutsDir e.config.extname plan.options.layout with
  | none => return .str body.text
  | some path =>
    let context := .dict (Value.insertEntry (.str "body") body plan.context)
    let whole ← e.renderForecast L (.str path) context
      { plan.options with layout := none, partials := some partials }
    return .str whole.text

/-- What a view gives. -/
def viewForecast (file options : Value) : Forecast Value := do
  let plan ← Forecast.of (e.planView file options)
  e.planForecast L file plan

/-- What a job comes to. Whether it uses caches matters only for what it tells templates
about that. -/
def forecast : Job → Forecast Product
  | .list dir _ => do namesForecast L (← Forecast.of (e.keyOf dir))
  | .walk dir => namesForecast L dir
  | .read file _ => do textForecast L (← Forecast.of (e.keyOf file))
  | .open file => textForecast L file
  | .template file _ => e.templateForecast L file
  | .compile file _ => e.compileForecast L file
  | .templates dir _ => e.templatesForecast L dir
  | .source s _ => e.sourceForecast L s
  | .partials sources _ => e.partialsForecast L sources
  | .render file context options => do return .value (← e.renderForecast L file context options)
  | .view file options => do return .value (← e.viewForecast L file options)

/-! ### The keys that are looked up -/

/-- The key of the template of a path. -/
def templateKeys (file : Value) : List (CacheName × String) :=
  match e.keyOf file with
  | .ok key => [(.template, key)]
  | .error _ => []

/-- The keys of a directory and of the templates below it. -/
def templatesKeys (dir : Value) : List (CacheName × String) :=
  match e.keyOf dir with
  | .ok key =>
    (.directory, key) ::
      match namesForecast L key with
      | .ok names => names.asNames.flatMap fun f => e.templateKeys (.str (Path.join dir.text f))
      | .error _ => []
  | .error _ => []

/-- The keys of a source. -/
def sourceKeys : Source → List (CacheName × String)
  | .directory path _ => e.templatesKeys L (.str path)
  | .templates _ _ => []

/-- The keys of all sources that a value lists. -/
def partialsKeys (sources : Value) : List (CacheName × String) :=
  match (entriesOf sources).mapM Source.ofEntry with
  | .ok resolved => resolved.flatMap (e.sourceKeys L)
  | .error _ => []

/-- The keys of a file and of the partials that it is rendered with. -/
def loadKeys (file : Value) (o : RenderOptions) : List (CacheName × String) :=
  match o.partials with
  | some _ => e.templateKeys file
  | none =>
    e.templateKeys file ++ e.partialsKeys L
      (match o.partialsDir with
      | .null => e.config.partialsDir.value
      | v => v)

/-! ### Results of one and of several jobs -/

theorem Forecast.of_eq_ok {α : Type} {r : Except Fault α} {a : α} :
    Forecast.of r = .ok a ↔ r = .ok a := by
  cases r <;> simp [Forecast.of, Except.mapError]

theorem Forecast.of_bind {α β : Type} (r : Except Fault α) (f : α → Except Fault β) :
    Forecast.of (r >>= f) = Forecast.of r >>= fun a => Forecast.of (f a) := by
  cases r <;> rfl

theorem Forecast.all_eq_ok {α β : Type} {vs : β → Forecast α} {as : List α} {bs : List β}
    (h : List.Forall₂ (fun b a => vs b = .ok a) bs as) : Forecast.all (bs.map vs) = .ok as := by
  induction h with
  | nil => rfl
  | cons h _ ih =>
    rw [List.map_cons, h, Forecast.all, ih]
    rfl

theorem Forecast.mem_faults_all {α β : Type} {vs : β → Forecast α} {bs : List β} {b : β}
    (hb : b ∈ bs) {fs : List Fault} (h : vs b = .error fs) {f : Fault} (hf : f ∈ fs) :
    ∃ gs, Forecast.all (bs.map vs) = .error gs ∧ f ∈ gs := by
  induction bs with
  | nil => simp at hb
  | cons b' bs ih =>
    rw [List.map_cons]
    rcases List.mem_cons.1 hb with rfl | hb
    · rw [h, Forecast.all]
      exact ⟨_, rfl, List.mem_append_left _ hf⟩
    · obtain ⟨gs, hgs, hf⟩ := ih hb
      cases vs b' with
      | ok a =>
        rw [Forecast.all, hgs]
        exact ⟨gs, rfl, hf⟩
      | error fs' =>
        rw [Forecast.all, hgs]
        exact ⟨fs' ++ gs, rfl, List.mem_append_right _ hf⟩

/-! ### What may go wrong -/

/-- Whatever may go wrong has the property. -/
def Forecast.Blames {α : Type} (Q : Fault → Prop) (v : Forecast α) : Prop := ∀ f ∈ v.faults, Q f

section Blames

variable {α β : Type} {Q : Fault → Prop} {v : Forecast α}

theorem Forecast.blames_ok (a : α) : Forecast.Blames Q (.ok a : Forecast α) := nofun

theorem Forecast.blames_error {f : Fault} (h : Q f) :
    Forecast.Blames Q (.error [f] : Forecast α) := fun _ hg => List.mem_singleton.1 hg ▸ h

theorem Forecast.blames_of {r : Except Fault α} (h : ∀ f, r = .error f → Q f) :
    Forecast.Blames Q (Forecast.of r) := by
  cases r with
  | ok a => exact blames_ok a
  | error f => exact blames_error (h f rfl)

theorem Forecast.Blames.bind {k : α → Forecast β} (h : v.Blames Q) (hk : ∀ a, (k a).Blames Q) :
    Forecast.Blames Q (v >>= k) := by
  cases v with
  | ok a => exact hk a
  | error fs => exact h

theorem Forecast.blames_all {vs : List (Forecast α)} (h : ∀ v ∈ vs, Forecast.Blames Q v) :
    Forecast.Blames Q (Forecast.all vs) := by
  induction vs with
  | nil => exact blames_ok _
  | cons v vs ih =>
    have hrest := ih fun v' hv' => h v' (List.mem_cons_of_mem _ hv')
    have hv := h v List.mem_cons_self
    cases v with
    | ok a =>
      rw [Forecast.all]
      cases hall : Forecast.all vs with
      | ok as => exact blames_ok _
      | error fs =>
        rw [hall] at hrest
        exact hrest
    | error fs =>
      rw [Forecast.all]
      intro f hf
      rcases List.mem_append.1 hf with hf | hf
      · exact hv f hf
      · exact hrest f hf

end Blames

/-! ### Lookups that go well -/

theorem namesForecast_of_ok {L : Lookups} {dir : String} {names : List String}
    (h : L.names dir = .ok names) : namesForecast L dir = .ok (.names names) := by
  rw [namesForecast, h]

theorem textForecast_of_ok {L : Lookups} {file text : String} (h : L.text file = .ok text) :
    textForecast L file = .ok (.text text) := by
  rw [textForecast, h]

theorem compileForecast_of_ok {e : Engine} {L : Lookups} {file text : String} {v : Value}
    (h : L.text file = .ok text)
    (hc : e.compiler.compile e.config.compilerOptions file text = .ok v) :
    e.compileForecast L file = .ok (.template ⟨none, v⟩) := by
  rw [compileForecast, textForecast_of_ok h]
  simp only [bind, Except.bind, Product.asText, hc]

/-! ### Numbers of compilations -/

@[simp] theorem Product.bare_asNames (p : Product) : p.bare.asNames = p.asNames := by
  cases p <;> rfl

@[simp] theorem Product.bare_asText (p : Product) : p.bare.asText = p.asText := by
  cases p <;> rfl

@[simp] theorem Product.bare_asTemplate (p : Product) : p.bare.asTemplate = p.asTemplate.bare := by
  cases p <;> rfl

@[simp] theorem Product.bare_asTemplates (p : Product) :
    p.bare.asTemplates = bareTemplates p.asTemplates := by
  cases p <;> rfl

@[simp] theorem partialValues_bare (hs : List (String × Handle)) :
    partialValues (bareTemplates hs) = partialValues hs := by
  simp [partialValues, bareTemplates, Handle.bare]

theorem bareTemplates_zip (names : List String) (hs : List Handle) :
    bareTemplates (names.zip hs) = names.zip (hs.map Handle.bare) := by
  rw [bareTemplates, List.zip_map_right]
  rfl

theorem givenTemplates_bare (es : List (Value × Value)) :
    (givenTemplates es).map bareTemplates = givenTemplates es := by
  induction es with
  | nil => rfl
  | cons entry es ih =>
    obtain ⟨k, v⟩ := entry
    rw [givenTemplates]
    cases k.string? with
    | none => rfl
    | some name =>
      simp only
      rw [← ih]
      cases givenTemplates es with
      | error f => rfl
      | ok hs => simp [bareTemplates, Except.map, Handle.bare, bind, Except.bind, pure, Except.pure]

theorem namedTemplates_bare (p : Product) :
    namedTemplates p.bare = (namedTemplates p).map bareTemplates := by
  cases p with
  | given v =>
    cases v with
    | dict es => exact (givenTemplates_bare es).symm
    | _ => rfl
  | _ => rfl

theorem foldl_insert_bare (name : String → String) (found merged : List (String × Handle)) :
    bareTemplates (found.foldl (fun hs (path, h) => Value.insertField (name path) h hs) merged) =
      (bareTemplates found).foldl (fun hs (path, h) => Value.insertField (name path) h hs)
        (bareTemplates merged) := by
  induction found generalizing merged with
  | nil => rfl
  | cons f found ih =>
    obtain ⟨path, h⟩ := f
    rw [List.foldl_cons, ih, bareTemplates, insertField_map]
    rfl

/-- Merging leaves the numbers of compilations alone. -/
theorem merge_bare (extname : String) (products : List (Source × Product))
    (merged : List (String × Handle)) :
    merge extname (products.map fun (s, p) => (s, p.bare)) (bareTemplates merged) =
      (merge extname products merged).map bareTemplates := by
  induction products generalizing merged with
  | nil => rfl
  | cons sp products ih =>
    obtain ⟨s, p⟩ := sp
    rw [List.map_cons, merge, merge, namedTemplates_bare]
    cases namedTemplates p with
    | error f => rfl
    | ok found =>
      refine Eq.trans ?_ (ih _)
      rw [foldl_insert_bare fun path => partialName path s.namesp extname]
      rfl

end Engine

end CachedViews
