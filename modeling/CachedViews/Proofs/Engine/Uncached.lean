import CachedViews.Engine.Render
import CachedViews.Proofs.Fields

/-
# Views with and without caches

The options of a view say whether it uses caches, and of the entries that they consist of
only `cache` does. So the same options with that entry off settle the same view, which goes
past the caches (`Engine.planView_uncached`).

Key definitions: `Engine.Caches`, `Engine.uncached`, `Engine.ViewPlan.uncached`.
Key theorems: `Engine.planView_uncached`, `Engine.planView_cache`, `Engine.caches_iff`.
-/

namespace CachedViews.Engine

/-- The options of a view that uses caches. -/
def Caches (options : Value) : Prop :=
  ∃ entries, Template.entriesOf options = .ok entries ∧
    ((Value.entry? "cache" entries).getD .null).isTrue = true

/-- The same options, but without caches. -/
def uncached (options : Value) : Value :=
  match Template.entriesOf options with
  | .ok entries => .dict (Value.insertEntry (.str "cache") (.bool false) entries)
  | .error _ => options

/-- The same view, but without caches. -/
def ViewPlan.uncached (plan : ViewPlan) : ViewPlan :=
  { plan with options := { plan.options with cache := false } }

/-! ### Entries -/

theorem entriesOf_dict (entries : List (Value × Value)) :
    Template.entriesOf (.dict entries) = .ok entries := by
  cases entries <;> rfl

/-- Equal keys are both options for the engine, or none of them is. -/
theorem isOptionKey_of_same {k k' : Value} (h : k.same k' = true) :
    isOptionKey k = isOptionKey k' := by
  rw [isOptionKey, string?_of_same h, isOptionKey]

/-! ### What options settle -/

/-- Whether a render uses caches has no influence on its other options. -/
theorem build_cache (b b' : Bool) (rest : List (String × Value)) :
    RenderOptions.build (("cache", .bool b) :: rest) =
      (RenderOptions.build (("cache", .bool b') :: rest)).map fun o => { o with cache := b } := by
  have hother : ∀ (b : Bool) (key : String), key ≠ "cache" →
      (("cache", Value.bool b) :: rest).lookup key = rest.lookup key := by
    intro b key hk
    rw [lookup_field, if_neg hk]
  have hfields : RenderOptions.ofFields (("cache", .bool b) :: rest) =
      (RenderOptions.ofFields (("cache", .bool b') :: rest)).map fun o => { o with cache := b } := by
    unfold RenderOptions.ofFields
    rw [lookup_field, lookup_field, if_pos rfl, if_pos rfl]
    simp only [hother _ "view" (by decide), hother _ "layout" (by decide),
      hother _ "helpers" (by decide), hother _ "partials" (by decide),
      hother _ "partials_dir" (by decide)]
    simp only [checkFlag]
    generalize checkOptionalText ["view"] _ = view
    generalize checkOptionalText ["layout"] _ = layout
    generalize RenderOptions.checkOptional (checkCallables ["helpers"]) _ = helpers
    generalize RenderOptions.checkOptional (checkMapping ["partials"]) _ = partials
    cases view <;> cases layout <;> cases helpers <;> cases partials <;> rfl
  unfold RenderOptions.build
  rw [hfields]
  cases RenderOptions.ofFields (("cache", .bool b') :: rest) <;> rfl

section

variable (e : Engine) (entries : List (Value × Value)) (v : Value)

theorem entry?_cache_of_ne (key : String) (h : key ≠ "cache") :
    Value.entry? key (Value.insertEntry (.str "cache") v entries) = Value.entry? key entries := by
  rw [entry?_insertEntry rfl, if_neg h]

theorem viewsPath?_cache :
    viewsPath? (Value.insertEntry (.str "cache") v entries) = viewsPath? entries := by
  unfold viewsPath?
  rw [entry?_cache_of_ne entries v _ (by decide)]

theorem helperEntries_cache :
    e.helperEntries (Value.insertEntry (.str "cache") v entries) = e.helperEntries entries := by
  unfold helperEntries
  rw [entry?_cache_of_ne entries v _ (by decide)]

/-- The variables of a template are the same. -/
theorem filter_cache : ((Value.insertEntry (.str "cache") v entries).filter
    fun f => !isOptionKey f.1) = entries.filter fun f => !isOptionKey f.1 :=
  filter_insertEntry (fun k => !isOptionKey k) (fun _ _ h => by rw [isOptionKey_of_same h])
    (by decide) v entries

end

/-- **Without caches a view is the same one**, but for the caches. -/
theorem planView_uncached (e : Engine) (file options : Value) :
    e.planView file (uncached options) = (e.planView file options).map ViewPlan.uncached := by
  unfold uncached
  cases hentries : Template.entriesOf options with
  | error f =>
    unfold planView
    rw [hentries]
    rfl
  | ok entries =>
    have hother := entry?_cache_of_ne entries (.bool false)
    unfold planView
    simp only
    rw [entriesOf_dict, hentries]
    simp only [bind, Except.bind, viewsPath?_cache, helperEntries_cache, filter_cache,
      hother "layout" (by decide), hother "partials" (by decide)]
    rw [entry?_insertEntry rfl, if_pos rfl]
    rw [Option.getD_some, show (Value.bool false).isTrue = false from rfl]
    generalize ((Value.entry? "cache" entries).getD .null).isTrue = b
    have hbuild : ∀ rest, RenderOptions.build (("cache", .bool false) :: rest) =
        (RenderOptions.build (("cache", .bool b) :: rest)).map fun o => { o with cache := false } :=
      build_cache false b
    cases viewsPath? entries with
    | none =>
      cases e.helperEntries entries with
      | error f => rfl
      | ok helpers =>
        simp only [hbuild]
        cases RenderOptions.build (("cache", .bool b) :: _) <;> rfl
    | some dir =>
      dsimp only
      cases e.viewName file dir with
      | error f => rfl
      | ok view =>
        cases e.helperEntries entries with
        | error f => rfl
        | ok helpers =>
          simp only [Except.map, hbuild]
          cases RenderOptions.build (("cache", .bool b) :: _) <;> rfl

theorem cache_of_build {b : Bool} {rest : List (String × Value)} {o : RenderOptions}
    (h : RenderOptions.build (("cache", .bool b) :: rest) = .ok o) : o.cache = b := by
  have hb := build_cache b b rest
  rw [h] at hb
  rw [Except.ok.inj hb]

/-- Whether a view uses caches is what the entry `cache` of its options says. -/
theorem planView_cache {e : Engine} {file options : Value} {entries : List (Value × Value)}
    {plan : ViewPlan} (hentries : Template.entriesOf options = .ok entries)
    (hp : e.planView file options = .ok plan) :
    plan.options.cache = ((Value.entry? "cache" entries).getD .null).isTrue := by
  unfold Engine.planView at hp
  rw [hentries] at hp
  simp only [bind, Except.bind] at hp
  -- the choices are settled one by one: the name of the view, the helpers, the rest
  split at hp
  · split at hp
    · cases hp
    · split at hp
      · cases hp
      · split at hp
        · cases hp
        · rename_i hbuild
          obtain rfl := Except.ok.inj hp
          exact cache_of_build hbuild
  · split at hp
    · cases hp
    · split at hp
      · cases hp
      · rename_i hbuild
        obtain rfl := Except.ok.inj hp
        exact cache_of_build hbuild

/-- Options that settle a view have entries. -/
theorem entriesOf_of_planView {e : Engine} {file options : Value} {plan : ViewPlan}
    (hp : e.planView file options = .ok plan) :
    ∃ entries, Template.entriesOf options = .ok entries := by
  cases hentries : Template.entriesOf options with
  | ok entries => exact ⟨entries, rfl⟩
  | error f =>
    unfold Engine.planView at hp
    rw [hentries] at hp
    cases hp

/-- A view whose options ask for caches uses them. -/
theorem Caches.planView {e : Engine} {file options : Value} {plan : ViewPlan}
    (hc : Caches options) (hp : e.planView file options = .ok plan) :
    plan.options.cache = true := by
  obtain ⟨entries, hentries, hcache⟩ := hc
  rw [planView_cache hentries hp, hcache]

/-- A view uses caches if and only if its options ask for them. -/
theorem caches_iff {e : Engine} {file options : Value} {plan : ViewPlan}
    (hp : e.planView file options = .ok plan) :
    Caches options ↔ plan.options.cache = true := by
  refine ⟨fun hc => hc.planView hp, fun hcache => ?_⟩
  obtain ⟨entries, hentries⟩ := entriesOf_of_planView hp
  exact ⟨entries, hentries, (planView_cache hentries hp).symm.trans hcache⟩

end CachedViews.Engine
