import CachedViews.Proofs.Config.NormalForm
import CachedViews.Proofs.Engine.Forecast
import CachedViews.Proofs.Engine.Uncached

/-
# What a view is composed of

The text of a view is put together from what is looked up for it: its template, its partials,
and the template of its layout if it is to have one (`Engine.ViewParts`). Which files these
are and what templates are told follows from the host options and the configuration: options
win over the configuration, and a directory that the configuration leaves at its default lies
below the views directory, if that is known.

A view for which all lookups succeed is forecast to be the text that is composed of these parts
(`Engine.composed`), or the fault of one of its templates.

Key definitions: `Engine.viewsOf`, `Engine.ViewParts`, `Engine.aboutView`, `Engine.bodyOf`,
`Engine.wrapped`, `Engine.composed`, `Engine.HostRequest`, `Engine.LookupsSucceed`.
Key theorems: `Engine.viewsPath?_eq`, `Engine.HostRequest.planView_eq`,
`Engine.LookupsSucceed.loadForecast_eq`, `Engine.LookupsSucceed.wrapped_eq`,
`Engine.viewForecast_composed`.
-/

namespace CachedViews.Engine

/-! ### The views directory -/

/-- What stands under a text in a mapping. -/
def under (name : String) : Value → Option Value
  | .dict entries => (entries.find? fun f => f.1.string? = some name).map (·.2)
  | _ => none

/-- The views directory that the host options name: a text or a path that stands under `views` in
their `settings`. -/
def viewsOf (options : List (Value × Value)) : Option String :=
  match (under "settings" (.dict options)).bind (under "views") with
  | some (.str views) | some (.markup views) | some (.path views) => some views
  | _ => none

/-! ### The composition of a view -/

/-- What is looked up for a view: its template, its partials, and the path and the template of
its layout, if there is to be one. -/
structure ViewParts where
  template : Value
  partials : List (String × Value)
  layout : Option (String × Value)

variable (e : Engine) (path : String) (entries : List (Value × Value)) (parts : ViewParts)

/-- The variables of the templates: all host options but those that are for the engine. -/
def contextOf : List (Value × Value) :=
  entries.filter fun f => ¬∃ name ∈ ["cache", "layout", "helpers", "partials"],
    f.1.string? = some name

/-- The helpers of the configuration, overridden by those of the options. -/
def helpersOf : List (String × Value) :=
  match Value.entry? "helpers" entries with
  | some (.dict es) => Value.overlay e.config.helpers (Value.stringFields es)
  | _ => e.config.helpers

/-- The partials that the options bring. -/
def givenPartials? : Option (List (String × Value)) :=
  match Value.entry? "partials" entries with
  | some (.dict es) => some (Value.stringFields es)
  | _ => none

/-- The sources of partials: below the views directory if the options name one and the
configuration sets no sources. -/
def sourcesOf : Value :=
  match viewsOf entries with
  | some views =>
    if e.config.explicit.contains .partialsDir then e.config.partialsDir.value
    else .str (Path.join views "partials/")
  | none => e.config.partialsDir.value

/-- The directory of layouts: below the views directory if the options name one and the
configuration sets no other. -/
def layoutsDirOf : String :=
  match viewsOf entries with
  | some views =>
    if e.config.explicit.contains .layoutsDir then e.config.layoutsDir
    else Path.join views "layouts/"
  | none => e.config.layoutsDir

/-- The layout that the options name, even none, and the default if they name none at all. The
empty text names no layout. -/
def layoutOf : Option String :=
  let named := match Value.entry? "layout" entries with
    | some v => v.string?
    | none => e.config.defaultLayout
  if named = some "" then none else named

/-- What templates are told about the render of the view. -/
def aboutView : RenderMeta where
  filePath := Path.absolute e.cwd path
  view := (viewsOf entries).map fun views =>
    partialName (Path.relative e.cwd views path) none e.config.extname
  layout := e.layoutOf entries
  cache := ((Value.entry? "cache" entries).getD .null).isTrue
  helpers := e.helpersOf entries
  partials := parts.partials

/-- The body of a view: its template applied to the variables, of which `view` is what
templates are told. -/
def bodyOf : Except Fault Value :=
  Template.callTemplate e.runtime parts.template
    (Value.insertEntry (.str "view") (e.aboutView path entries parts).value (contextOf entries))

/-- A body in its layout, which is applied to the variables and the body, or the body alone. -/
def wrapped (body : Value) : Except Fault Value :=
  match parts.layout with
  | none => .ok (.str body.text)
  | some (file, template) => do
    let about := { e.aboutView path entries parts with
      filePath := Path.absolute e.cwd file, layout := none }
    let context := Value.insertEntry (.str "body") body (contextOf entries)
    let whole ← Template.callTemplate e.runtime template
      (Value.insertEntry (.str "view") about.value context)
    return .str whole.text

/-- The view: its body, in its layout if there is to be one. -/
def composed : Except Fault Value := do
  e.wrapped path entries parts (← e.bodyOf path entries parts)

/-! ### Requests whose lookups succeed -/

/-- The host options of a view are as they are to be: the layout is a text, none or false, the
helpers can be called, and helpers and partials have names. The empty path stands for the
working directory, so a view that has a name has a path. -/
structure HostRequest (file options : Value) : Prop where
  entries_eq : Template.entriesOf options = .ok entries
  path_eq : file.asPath = .ok path
  named : viewsOf entries ≠ none → file.isTrue = true
  layout : ∀ v, Value.entry? "layout" entries = some v →
    v = .null ∨ v = .bool false ∨ v.string? ≠ none
  helpers : ∀ v, Value.entry? "helpers" entries = some v → v.isTrue = false ∨
    ∃ es, v = .dict es ∧ ∀ f ∈ es, f.1.string? ≠ none ∧ f.2.isCallable = true
  /-- This is so in every configuration that was checked. -/
  configured : ∀ f ∈ e.config.helpers, f.2.isCallable = true
  partials : ∀ v, Value.entry? "partials" entries = some v →
    v = .null ∨ ∃ es, v = .dict es ∧ ∀ f ∈ es, f.1.string? ≠ none

/-- A file can be read, and compiled to a template. -/
def Gives (L : Lookups) (file : String) (v : Value) : Prop :=
  ∃ text, L.text file = .ok text ∧
    e.compiler.compile e.config.compilerOptions file text = .ok v

/-- All lookups of a view succeed, and these are its parts. If the options bring partials, none
are discovered. -/
structure LookupsSucceed (L : Lookups) : Prop where
  template : e.Gives L (Path.absolute e.cwd path) parts.template
  partials :
    match givenPartials? entries with
    | some ps => parts.partials = ps
    | none => ∃ hs, e.partialsForecast L (e.sourcesOf entries) = .ok (.templates hs) ∧
      parts.partials = partialValues hs
  layout :
    match e.layoutOf entries with
    | none => parts.layout = none
    | some name =>
      let file := layoutFile e.cwd (e.layoutsDirOf entries) e.config.extname name
      ∃ v, e.Gives L (Path.absolute e.cwd file) v ∧ parts.layout = some (file, v)

variable {e path entries parts} {file options : Value} {L : Lookups}

/-! ### Checks -/

theorem checkOptionalText_optionalText (place : List String) (s : Option String) :
    checkOptionalText place (RenderMeta.optionalText s) = .ok s := by
  cases s <;> rfl

/-! ### What the options settle -/

/-- The helpers of the options on top of those of the configuration have texts for names and can
be called. -/
theorem HostRequest.callable_configured (h : e.HostRequest path entries file options) :
    ∀ f ∈ e.config.helpers.map fun (name, f) => (Value.str name, f),
      f.1.string? ≠ none ∧ f.2.isCallable = true := by
  intro f hf
  obtain ⟨g, hg, rfl⟩ := List.mem_map.1 hf
  exact ⟨Option.some_ne_none g.1, h.configured g hg⟩

theorem HostRequest.helperEntries_eq (h : e.HostRequest path entries file options) :
    ∃ hs, e.helperEntries entries = .ok hs ∧ Value.stringFields hs = e.helpersOf entries ∧
      ∀ f ∈ hs, f.1.string? ≠ none ∧ f.2.isCallable = true := by
  have hown := h.callable_configured
  have hconfigured := stringFields_map e.config.helpers
  unfold helperEntries helpersOf
  cases hl : Value.entry? "helpers" entries with
  | none => exact ⟨_, rfl, hconfigured, hown⟩
  | some v =>
    cases hv : v.isTrue with
    | false =>
      refine ⟨_, by simp [hv], ?_, hown⟩
      -- the empty mapping overrides nothing
      cases v with
      | dict es =>
        obtain rfl : es = [] := by simpa [Value.isTrue] using hv
        exact hconfigured
      | _ => exact hconfigured
    | true =>
      rcases h.helpers v hl with hfalse | ⟨es, rfl, hes⟩
      · rw [hv] at hfalse
        cases hfalse
      · cases es with
        | nil => cases hv
        | cons f es =>
          refine ⟨_, rfl, ?_,
            forall_onTop (P := (·.string? ≠ none)) (Q := (·.isCallable = true)) hown hes⟩
          rw [stringFields_onTop, hconfigured]

theorem withoutLayout_checked {v : Value} {name : String} (hv : v.string? = some name) :
    checkOptionalText ["layout"] (withoutLayout v) =
      .ok (if some name = some "" then none else some name) := by
  by_cases hname : name = ""
  · subst hname
    cases v <;> cases hv <;> rfl
  · have hwithout : withoutLayout v = v := by
      unfold withoutLayout
      split <;> simp_all [Value.string?]
    rw [hwithout, if_neg (by simpa using hname)]
    cases v <;> cases hv <;> rfl

theorem HostRequest.layout_checked (h : e.HostRequest path entries file options) :
    checkOptionalText ["layout"] (withoutLayout (match Value.entry? "layout" entries with
      | some v => v
      | none => RenderMeta.optionalText e.config.defaultLayout)) = .ok (e.layoutOf entries) := by
  unfold layoutOf
  cases hl : Value.entry? "layout" entries with
  | none =>
    cases e.config.defaultLayout with
    | none => rfl
    | some name => exact withoutLayout_checked rfl
  | some v =>
    rcases h.layout v hl with rfl | rfl | hname
    · rfl
    · rfl
    · obtain ⟨name, hv⟩ := Option.ne_none_iff_exists'.1 hname
      simp only [hv]
      exact withoutLayout_checked hv

theorem HostRequest.partials_checked (h : e.HostRequest path entries file options) :
    RenderOptions.checkOptional (checkMapping ["partials"])
      ((Value.entry? "partials" entries).getD .null) = .ok (givenPartials? entries) := by
  unfold givenPartials?
  cases hl : Value.entry? "partials" entries with
  | none => rfl
  | some v =>
    rcases h.partials v hl with rfl | ⟨es, rfl, hes⟩
    · rfl
    · exact congrArg (Except.map some) (checkMapping_named hes)

/-- What the host options of a view settle. -/
def settledPlan (e : Engine) (path : String) (entries : List (Value × Value)) : ViewPlan where
  layoutsDir := e.layoutsDirOf entries
  options :=
    { cache := ((Value.entry? "cache" entries).getD .null).isTrue
      view := (viewsOf entries).map fun views =>
        partialName (Path.relative e.cwd views path) none e.config.extname
      layout := e.layoutOf entries
      helpers := some (e.helpersOf entries)
      partials := givenPartials? entries
      partialsDir := e.sourcesOf entries }
  context := contextOf entries

theorem HostRequest.build_eq (h : e.HostRequest path entries file options) {hs : List (Value × Value)}
    (hnamed : Value.stringFields hs = e.helpersOf entries)
    (hcallable : ∀ f ∈ hs, f.1.string? ≠ none ∧ f.2.isCallable = true) (cached : Bool)
    (view : Option String) {layout : Value} (sources : Value)
    (hl : checkOptionalText ["layout"] (withoutLayout layout) = .ok (e.layoutOf entries)) :
    RenderOptions.build [("cache", .bool cached), ("view", RenderMeta.optionalText view),
      ("layout", layout), ("helpers", .dict hs),
      ("partials", (Value.entry? "partials" entries).getD .null), ("partials_dir", sources)] =
    .ok ⟨cached, view, e.layoutOf entries, some (e.helpersOf entries), givenPartials? entries,
      sources⟩ := by
  have hpartials := h.partials_checked
  have hview := checkOptionalText_optionalText ["view"] view
  have hhelpers : RenderOptions.checkOptional (checkCallables ["helpers"]) (.dict hs) =
      .ok (some (e.helpersOf entries)) := by
    rw [← hnamed]
    exact congrArg (Except.map some) (checkFields_named (fun f hf => (hcallable f hf).1)
      fun f hf _ => if_pos (hcallable f hf).2)
  unfold RenderOptions.build RenderOptions.ofFields
  simp only [lookup_field]
  simp [hl, hpartials, hview, hhelpers, checkFlag]

theorem entry?_eq_under (name : String) (entries : List (Value × Value)) :
    Value.entry? name entries = under name (.dict entries) := by
  unfold under
  fun_induction Value.entry? name entries with
  | case1 => rfl
  | case2 v es => simp [Value.string?]
  | case3 k v es hk ih => simpa [Value.string?, hk] using ih
  | case4 v es => simp [Value.string?]
  | case5 k v es hk ih => simpa [Value.string?, hk] using ih
  | case6 f es hs hm ih =>
    have hf : f.1.string? = none := by
      obtain ⟨k, v⟩ := f
      cases k <;> first | rfl | exact absurd rfl (hs _ v) | exact absurd rfl (hm _ v)
    simpa [hf] using ih

/-- **The views directory is that of the settings.** -/
theorem viewsPath?_eq (entries : List (Value × Value)) : viewsPath? entries = viewsOf entries := by
  unfold viewsPath? viewsOf
  rw [entry?_eq_under]
  cases hsettings : under "settings" (.dict entries) with
  | none => rfl
  | some settings =>
    cases settings with
    | dict es =>
      dsimp only
      rw [entry?_eq_under, Option.bind_some]
      cases hviews : under "views" (.dict es) with
      | none => rfl
      | some views => cases views <;> rfl
    | _ => rfl

theorem HostRequest.viewName_eq (h : e.HostRequest path entries file options) {views : String}
    (hv : viewsOf entries = some views) : e.viewName file views =
      .ok (partialName (Path.relative e.cwd views path) none e.config.extname) := by
  unfold viewName
  rw [if_pos (h.named (by simp [hv])), h.path_eq]
  rfl

theorem partialsBelow_eq (e : Engine) (entries : List (Value × Value)) :
    e.partialsBelow (viewsOf entries) = e.sourcesOf entries := by
  unfold partialsBelow sourcesOf Config.isDefault
  cases viewsOf entries with
  | none => rfl
  | some views => cases e.config.explicit.contains .partialsDir <;> rfl

theorem layoutsBelow_eq (e : Engine) (entries : List (Value × Value)) :
    (match viewsOf entries, e.config.isDefault .layoutsDir with
      | some views, true => Path.join views "layouts/"
      | _, _ => e.config.layoutsDir) = e.layoutsDirOf entries := by
  unfold layoutsDirOf Config.isDefault
  cases viewsOf entries with
  | none => rfl
  | some views => cases e.config.explicit.contains .layoutsDir <;> rfl

theorem contextOf_eq (entries : List (Value × Value)) :
    (entries.filter fun f => !isOptionKey f.1) = contextOf entries := by
  refine List.filter_congr fun f _ => ?_
  unfold isOptionKey
  cases f.1.string? with
  | none => simp
  | some name => simp [optionKeys]

/-- **What is looked up for a view and what its templates are told** follows from the host
options and the configuration. -/
theorem HostRequest.planView_eq (h : e.HostRequest path entries file options) :
    e.planView file options = .ok (e.settledPlan path entries) := by
  have hlayouts := layoutsBelow_eq e entries
  have hlayout := h.layout_checked
  unfold planView settledPlan
  rw [h.entries_eq]
  obtain ⟨hs, hhelpers, hnamed, hcallable⟩ := h.helperEntries_eq
  simp only [bind, Except.bind, hhelpers, viewsPath?_eq, partialsBelow_eq, contextOf_eq]
  cases hviews : viewsOf entries with
  | none =>
    rw [hviews] at hlayouts
    dsimp only
    rw [h.build_eq hnamed hcallable, ← hlayouts]
    · rfl
    · exact hlayout
  | some views =>
    rw [hviews] at hlayouts
    dsimp only
    rw [h.viewName_eq hviews]
    dsimp only [Except.map]
    rw [h.build_eq hnamed hcallable, ← hlayouts]
    · rfl
    · exact hlayout

/-! ### What a view comes to -/

/-- A template is called with the variables, and with what it is told in the place of a variable
named `view`. -/
theorem called_eq {name : Value} {at_ : String} (hname : name.asPath = .ok at_) (v : Value)
    (context : List (Value × Value)) (o : RenderOptions) (partials : List (String × Value)) :
    e.called ⟨none, v⟩ name (.dict context) o partials =
      Template.callTemplate e.runtime v (Value.insertEntry (.str "view")
        (RenderMeta.value ⟨Path.absolute e.cwd at_, o.view, o.layout, o.cache,
          o.helpers.getD e.config.helpers, partials⟩) context) := by
  have hcontext : (if (Value.dict context).isTrue then Value.dict context else .dict []) =
      .dict context := by
    cases context <;> rfl
  have hkey : e.keyOf name = .ok (Path.absolute e.cwd at_) := by
    unfold keyOf
    rw [hname]
    rfl
  unfold called
  simp only [hcontext, hkey]
  rfl

theorem layoutOf_ne_empty (e : Engine) (entries : List (Value × Value)) :
    e.layoutOf entries ≠ some "" := by
  have hnamed : ∀ named : Option String, (if named = some "" then none else named) ≠ some "" := by
    intro named
    split
    · nofun
    · assumption
  exact hnamed _

theorem layoutPath_layoutOf (e : Engine) (entries : List (Value × Value)) :
    layoutPath e.cwd (e.layoutsDirOf entries) e.config.extname (e.layoutOf entries) =
      (e.layoutOf entries).map (layoutFile e.cwd (e.layoutsDirOf entries) e.config.extname) := by
  have hne := layoutOf_ne_empty e entries
  unfold layoutPath
  split
  · rename_i h
    rw [h]
    rfl
  · rename_i h
    exact absurd h hne
  · rename_i h
    rw [h]
    rfl

theorem Gives.compileForecast {v : Value} (h : e.Gives L path v) :
    e.compileForecast L path = .ok (.template ⟨none, v⟩) := by
  obtain ⟨text, htext, hc⟩ := h
  exact compileForecast_of_ok htext hc

theorem keyOf_eq (hfile : file.asPath = .ok path) :
    e.keyOf file = .ok (Path.absolute e.cwd path) := by
  unfold keyOf
  rw [hfile]
  rfl

theorem sourcesOf_ne_null (e : Engine) (entries : List (Value × Value)) :
    e.sourcesOf entries ≠ .null := by
  have hconfigured : e.config.partialsDir.value ≠ .null := by
    cases e.config.partialsDir <;> nofun
  unfold sourcesOf
  split
  · split
    · exact hconfigured
    · nofun
  · exact hconfigured

theorem loadForecast_given {o : RenderOptions} {ps : List (String × Value)} {h : Handle}
    (ho : o.partials = some ps) (hfile : file.asPath = .ok path)
    (ht : e.compileForecast L (Path.absolute e.cwd path) = .ok (.template h)) :
    e.loadForecast L file o = .ok (h, ps) := by
  unfold loadForecast
  rw [ho, keyOf_eq hfile]
  change (e.compileForecast L (Path.absolute e.cwd path) >>= fun found =>
    pure (found.asTemplate, ps)) = _
  rw [ht]
  rfl

theorem loadForecast_found {o : RenderOptions} {h : Handle} {hs : List (String × Handle)}
    (ho : o.partials = none) (hd : o.partialsDir ≠ .null) (hfile : file.asPath = .ok path)
    (ht : e.compileForecast L (Path.absolute e.cwd path) = .ok (.template h))
    (hp : e.partialsForecast L o.partialsDir = .ok (.templates hs)) :
    e.loadForecast L file o = .ok (h, partialValues hs) := by
  have htemplate : e.templateForecast L file = .ok (.template h) := by
    unfold templateForecast
    rw [keyOf_eq hfile]
    exact ht
  unfold loadForecast
  rw [ho]
  dsimp only
  split
  · rename_i hnull
    exact absurd hnull hd
  · rw [htemplate, hp]
    rfl

/-- The template and the partials of a view are those that are looked up. -/
theorem LookupsSucceed.loadForecast_eq (h : e.LookupsSucceed path entries parts L)
    (hfile : file.asPath = .ok path) :
    e.loadForecast L file (e.settledPlan path entries).options =
      .ok (⟨none, parts.template⟩, parts.partials) := by
  have htemplate := h.template.compileForecast
  have hpartials := h.partials
  cases hg : givenPartials? entries with
  | some ps =>
    rw [hg] at hpartials
    rw [hpartials]
    exact loadForecast_given hg hfile htemplate
  | none =>
    rw [hg] at hpartials
    obtain ⟨hs, hfound, hvalues⟩ := hpartials
    rw [hvalues]
    exact loadForecast_found hg (sourcesOf_ne_null e entries) hfile htemplate hfound

theorem renderForecast_given {o : RenderOptions} {ps : List (String × Value)} {v : Value}
    {context : List (Value × Value)} (ho : o.partials = some ps) (hfile : file.asPath = .ok path)
    (ht : e.compileForecast L (Path.absolute e.cwd path) = .ok (.template ⟨none, v⟩)) :
    e.renderForecast L file (.dict context) o =
      Forecast.of (Template.callTemplate e.runtime v (Value.insertEntry (.str "view")
        (RenderMeta.value ⟨Path.absolute e.cwd path, o.view, o.layout, o.cache,
          o.helpers.getD e.config.helpers, ps⟩) context)) := by
  unfold renderForecast
  rw [loadForecast_given ho hfile ht, ← called_eq hfile v context o ps]
  rfl

/-- The layout is rendered with the partials of the view. -/
theorem LookupsSucceed.wrapped_eq (h : e.LookupsSucceed path entries parts L) (body : Value) :
    (match layoutPath e.cwd (e.layoutsDirOf entries) e.config.extname (e.layoutOf entries) with
      | none => return .str body.text
      | some file => do
        let whole ← e.renderForecast L (.str file)
          (.dict (Value.insertEntry (.str "body") body (contextOf entries)))
          { (e.settledPlan path entries).options with
            layout := none, partials := some parts.partials }
        return .str whole.text) =
      Forecast.of (e.wrapped path entries parts body) := by
  have hlayout := h.layout
  rw [layoutPath_layoutOf]
  unfold wrapped
  cases hn : e.layoutOf entries with
  | none =>
    rw [hn] at hlayout
    rw [hlayout]
    rfl
  | some name =>
    rw [hn] at hlayout
    obtain ⟨v, hgives, hparts⟩ := hlayout
    rw [hparts, Option.map_some]
    dsimp only
    rw [renderForecast_given rfl rfl hgives.compileForecast, Forecast.of_bind]
    rfl

/-- **A view is forecast to be composed of what is looked up for it.** -/
theorem viewForecast_composed (hr : e.HostRequest path entries file options)
    (hl : e.LookupsSucceed path entries parts L) :
    e.viewForecast L file options = Forecast.of (e.composed path entries parts) := by
  have hbody : e.called ⟨none, parts.template⟩ file
      (.dict (e.settledPlan path entries).context) (e.settledPlan path entries).options
      parts.partials = e.bodyOf path entries parts :=
    called_eq hr.path_eq _ _ _ _
  unfold viewForecast composed
  rw [hr.planView_eq, Forecast.of_bind, ← hbody]
  change e.planForecast L file (e.settledPlan path entries) = _
  unfold planForecast
  rw [hl.loadForecast_eq hr.path_eq]
  exact congrArg (Forecast.of (e.called _ _ _ _ _) >>= ·) (funext hl.wrapped_eq)

end CachedViews.Engine
