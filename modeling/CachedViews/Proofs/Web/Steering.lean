import CachedViews.Proofs.Engine.Uncached
import CachedViews.Proofs.Web.Containment

/-
# What the variables of a page can steer

The variables of a page and the options of its view are laid into one mapping, and the engine takes
them apart again by their names. It looks up five of them (`Engine.steeringKeys`): the settings with
the views directory, the flag for caches, the layout, the helpers and the partials. Two renders that
agree on what these five names stand for are steered alike, whatever their variables are, and differ
in the variables only that they do not agree on (`Web.variables_steer`).

The five names are no reserved ones. A variable with one of them takes the place of what the site
says, unless the options of the request have the name, too; so each of the five, and no other name,
is one that a variable can steer with.

Key definitions: `Engine.ViewPlan.steering`, `Engine.steeringKeys`, `Web.Site.plan`,
`Web.Site.given`, `Web.Steers`.
Key theorems: `Engine.planView_steering_congr`, `Web.Site.lookup_layers`, `Web.steers_iff`,
`Web.variables_steer`.
-/

namespace CachedViews

namespace Engine

/-- What steers the engine in a view: all that its options settle but the variables. -/
def ViewPlan.steering (plan : ViewPlan) : ViewPlan := { plan with context := [] }

/-- The names of the options that the engine looks up. -/
def steeringKeys : List String := "settings" :: optionKeys

theorem mem_steeringKeys {name : String} :
    name ∈ steeringKeys ↔ name = "settings" ∨ name = "cache" ∨ name = "layout" ∨
      name = "helpers" ∨ name = "partials" := by
  simp [steeringKeys, optionKeys]

variable {e : Engine} {file : Value} {es es' : List (Value × Value)}

/-- **Options that agree on the names that the engine looks up** steer it alike, or are at fault
alike. -/
theorem planView_steering_congr
    (h : ∀ key ∈ steeringKeys, Value.entry? key es = Value.entry? key es') :
    (e.planView file (.dict es)).map ViewPlan.steering =
      (e.planView file (.dict es')).map ViewPlan.steering := by
  have hviews : viewsPath? es = viewsPath? es' := by
    unfold viewsPath?
    rw [h "settings" (by decide)]
  have hhelpers : e.helperEntries es = e.helperEntries es' := by
    unfold helperEntries
    rw [h "helpers" (by decide)]
  unfold planView
  rw [entriesOf_dict, entriesOf_dict]
  simp only [bind, Except.bind, hviews, hhelpers, h "cache" (by decide), h "layout" (by decide),
    h "partials" (by decide)]
  -- now the two differ in their variables only, which come last
  cases viewsPath? es' with
  | none =>
    cases e.helperEntries es' with
    | error f => rfl
    | ok helpers =>
      dsimp only
      cases RenderOptions.build (("cache", _) :: _) <;> rfl
  | some dir =>
    dsimp only
    cases e.viewName file dir with
    | error f => rfl
    | ok view =>
      cases e.helperEntries es' with
      | error f => rfl
      | ok helpers =>
        dsimp only [Except.map]
        cases RenderOptions.build (("cache", _) :: _) <;> rfl

/-- The variables of a view are the entries that are no options for the engine. -/
theorem context_of_planView {plan : ViewPlan} (hp : e.planView file (.dict es) = .ok plan) :
    plan.context = es.filter fun f => !isOptionKey f.1 := by
  unfold planView at hp
  rw [entriesOf_dict] at hp
  simp only [bind, Except.bind] at hp
  split at hp
  · split at hp
    · cases hp
    · split at hp
      · cases hp
      · split at hp
        · cases hp
        · obtain rfl := Except.ok.inj hp
          rfl
  · split at hp
    · cases hp
    · split at hp
      · cases hp
      · obtain rfl := Except.ok.inj hp
        rfl

end Engine

namespace Web

open CachedViews.Text
open Engine (steeringKeys optionKeys)

variable {s : Site} {v : ViewRequest} {c c' k k' : List (Value × Value)}

namespace Site

/-- The options of a view when the site has the variables `c` and the request has the variables
`k`. -/
def layers (s : Site) (v : ViewRequest) (c k : List (Value × Value)) : List (Value × Value) :=
  Value.onTop (Value.onTop (Value.onTop (s.baseOptions v.request) c) k)
    ((v.options.filter (·.1 ≠ statusKey)).map fun (name, x) => (.str name, x))

theorem viewOptions_eq (s : Site) (v : ViewRequest) (c k : List (Value × Value)) :
    { s with context := c }.viewOptions { v with context := .dict k } =
      .ok (.dict (s.layers v c k)) := by
  have hcontext : contextEntries (.dict k) = .ok k := by cases k <;> rfl
  unfold viewOptions
  rw [hcontext]
  rfl

/-- What the options settle. -/
def plan (s : Site) (v : ViewRequest) (c k : List (Value × Value)) :
    Except Fault Engine.ViewPlan := do
  let options ← { s with context := c }.viewOptions { v with context := .dict k }
  s.engine.planView (.str (s.viewFile v.view)) options

theorem plan_eq (s : Site) (v : ViewRequest) (c k : List (Value × Value)) :
    s.plan v c k = s.engine.planView (.str (s.viewFile v.view)) (.dict (s.layers v c k)) := by
  unfold plan
  rw [viewOptions_eq]
  rfl

/-- What a name stands for: what the options of the request have under it, or else its variables, or
else those of the site, or else what the site itself says. -/
def given (s : Site) (v : ViewRequest) (c k : List (Value × Value)) (name : String) :
    Option Value :=
  ((v.options.filter (·.1 ≠ statusKey)).reverse.lookup name).or
    (((Value.stringFields k).reverse.lookup name).or
      (((Value.stringFields c).reverse.lookup name).or
        (Value.entry? name (s.baseOptions v.request))))

/-- **The layers of the options of a view**: a name stands for what the uppermost of them has. -/
theorem lookup_layers (s : Site) (v : ViewRequest) (c k : List (Value × Value)) (name : String) :
    Value.entry? name (s.layers v c k) = s.given v c k name := by
  have honTop : ∀ es fs, Value.entry? name (Value.onTop es fs) =
      ((Value.stringFields fs).reverse.lookup name).or (Value.entry? name es) := by
    intro es fs
    rw [← lookup_stringFields, stringFields_onTop, lookup_overlay_last, lookup_stringFields]
  unfold layers
  rw [honTop, honTop, honTop, stringFields_map]
  rfl

/-- **Renders that agree on the names that the engine looks up** are steered alike. -/
theorem steering_eq_of_agree
    (hagree : ∀ key ∈ steeringKeys, s.given v c k key = s.given v c' k' key) :
    (s.plan v c k).map Engine.ViewPlan.steering =
      (s.plan v c' k').map Engine.ViewPlan.steering := by
  rw [plan_eq, plan_eq]
  refine Engine.planView_steering_congr fun key hkey => ?_
  rw [lookup_layers, lookup_layers, hagree key hkey]

/-- A name that is no option is a variable, with the value that it stands for. -/
theorem lookup_context {plan : Engine.ViewPlan} (hplan : s.plan v c k = .ok plan) {name : String}
    (hname : name ∉ optionKeys) : Value.entry? name plan.context = s.given v c k name := by
  rw [plan_eq] at hplan
  rw [Engine.context_of_planView hplan, ← lookup_layers]
  exact entry?_filter (fun k => !Engine.isOptionKey k)
    (fun k hk => by simpa [Engine.isOptionKey, hk] using hname) _

end Site

/-! ### Names to steer with -/

/-- A variable of the name can steer: with it, be it one of the request or one of the site, some
view is steered in another way than without any variables. -/
def Steers (name : String) : Prop :=
  ∃ (s : Site) (v : ViewRequest) (x : Value),
    (s.plan v [] [(.str name, x)]).map Engine.ViewPlan.steering ≠
        (s.plan v [] []).map Engine.ViewPlan.steering ∧
      (s.plan v [(.str name, x)] []).map Engine.ViewPlan.steering ≠
        (s.plan v [] []).map Engine.ViewPlan.steering

theorem not_steers {name : String} (hname : name ∉ steeringKeys) : ¬Steers name := by
  rintro ⟨s, v, x, hrequest, -⟩
  refine hrequest (Site.steering_eq_of_agree fun key hkey => ?_)
  have hne : key ≠ name := fun he => hname (he ▸ hkey)
  have hnone : (Value.stringFields [(.str name, x)]).reverse.lookup key = none :=
    (lookup_field name x [] key).trans (if_neg hne)
  unfold Site.given
  rw [hnone]
  rfl

/-- A site whose engine has nothing but defaults. -/
def plainSite : Site := Site.create { config := {}, cwd := "/", runtime := .closed 10 } "v"

/-- A variable steers if it makes a difference to something that the options of a view of the plain
site settle. -/
theorem steers_of_differs {name : String} (x : Value) {α : Type} (f : Engine.ViewPlan → α)
    (hrequest : ((plainSite.plan { view := "a" } [] [(.str name, x)]).map
      Engine.ViewPlan.steering).map f ≠
        ((plainSite.plan { view := "a" } [] []).map Engine.ViewPlan.steering).map f)
    (hsite : ((plainSite.plan { view := "a" } [(.str name, x)] []).map
      Engine.ViewPlan.steering).map f ≠
        ((plainSite.plan { view := "a" } [] []).map Engine.ViewPlan.steering).map f) :
    Steers name :=
  ⟨plainSite, { view := "a" }, x, fun he => hrequest (congrArg (Except.map f) he),
    fun he => hsite (congrArg (Except.map f) he)⟩

theorem steers_of_mem {name : String} (hname : name ∈ steeringKeys) : Steers name := by
  obtain rfl | rfl | rfl | rfl | rfl := Engine.mem_steeringKeys.1 hname
  · exact steers_of_differs .null (·.layoutsDir) (by decide +kernel) (by decide +kernel)
  · exact steers_of_differs (.bool false) (·.options.cache) (by decide +kernel) (by decide +kernel)
  · exact steers_of_differs (.str "b") (·.options.layout) (by decide +kernel) (by decide +kernel)
  · exact steers_of_differs (.dict [(.str "h", .function "shout" .null)])
      (·.options.helpers.map (·.length)) (by decide +kernel) (by decide +kernel)
  · exact steers_of_differs (.dict []) (·.options.partials.isSome) (by decide +kernel)
      (by decide +kernel)

/-- **Five names steer**, and no other does. -/
theorem steers_iff (name : String) : Steers name ↔ name ∈ steeringKeys :=
  ⟨fun h => by_contra fun hname => not_steers hname h, steers_of_mem⟩

/-- **What variables can steer.** Two renders of a view that agree on what the five names stand for
that the engine looks up, options of the request included, are steered alike, or are at fault alike,
whatever variables site and request have; and any name of a template variable stands for the same in
both templates if it does so in the options. Each of the five names is one to steer with, and no
other one is. -/
theorem variables_steer (s : Site) (v : ViewRequest) (c c' k k' : List (Value × Value))
    (hagree : ∀ key ∈ steeringKeys, s.given v c k key = s.given v c' k' key) :
    (s.plan v c k).map Engine.ViewPlan.steering = (s.plan v c' k').map Engine.ViewPlan.steering ∧
      (∀ plan plan' name, s.plan v c k = .ok plan → s.plan v c' k' = .ok plan' →
        name ∉ optionKeys → s.given v c k name = s.given v c' k' name →
        Value.entry? name plan.context = Value.entry? name plan'.context) ∧
      ∀ name, Steers name ↔ name ∈ steeringKeys := by
  refine ⟨Site.steering_eq_of_agree hagree, fun plan plan' name hplan hplan' hname hsame => ?_,
    steers_iff⟩
  rw [Site.lookup_context hplan hname, Site.lookup_context hplan' hname, hsame]

/-- A variable called `layout` does not steer where the request names a layout itself, and a title
is nothing but a variable. -/
theorem variables_steer_titles :
    let v : ViewRequest := { view := "a", options := [("layout", .str "main")] }
    let k : List (Value × Value) := [(.str "title", .int 1)]
    let k' : List (Value × Value) := [(.str "title", .int 2), (.str "layout", .str "b")]
    (∀ key ∈ steeringKeys, plainSite.given v [] k key = plainSite.given v [] k' key) ∧
      (plainSite.plan v [] k).map Engine.ViewPlan.steering =
        (plainSite.plan v [] k').map Engine.ViewPlan.steering ∧
      ((plainSite.plan v [] k').map fun plan => plan.options.layout) = .ok (some "main") := by
  intro v k k'
  have hagree : ∀ key ∈ steeringKeys, plainSite.given v [] k key = plainSite.given v [] k' key := by
    intro key hkey
    obtain rfl | rfl | rfl | rfl | rfl := Engine.mem_steeringKeys.1 hkey
    all_goals rfl
  obtain ⟨hsteering, -, -⟩ := variables_steer plainSite v [] [] k k' hagree
  exact ⟨hagree, hsteering, by decide +kernel⟩

/-- A view and a layout that no one asks for. -/
def layoutTree : FileTree where
  root := .directory [("views", .directory
    [("home.html", .file (encodeUtf8 "x".toList)), ("partials", .directory []),
      ("layouts", .directory
        [("alt.html", .file (encodeUtf8 "[\x7b\x7b body \x7d\x7d]".toList))])])]

/-- A variable of the request puts a view into a layout. -/
theorem variable_picks_layout :
    let s : Site := Site.create { config := {}, cwd := "/", runtime := .closed 10 } "views"
    let v : ViewRequest := { view := "home" }
    let k : List (Value × Value) := [(.str "layout", .str "alt")]
    let text (context : Value) := (renderPage (some s) layoutTree { v with context } {}).1
      |>.toOption.map (·.text)
    ((s.plan v [] []).map fun plan => plan.options.layout) = .ok none ∧
      ((s.plan v [] k).map fun plan => plan.options.layout) = .ok (some "alt") ∧
      text (.dict []) = some "x" ∧ text (.dict k) = some "[x]" := by
  decide +kernel

end Web

end CachedViews
