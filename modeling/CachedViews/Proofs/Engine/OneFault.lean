import CachedViews.Proofs.Engine.Forecast

/-
# Where lookups fail

A view may look many things up at once, and if several of them fail it may end with any of
their faults. If the view would be fine without these failures, nothing else can be its
fault: whatever else is looked up goes well. In particular, if one lookup fails there is no
choice.

This is one argument for all parts of a forecast (`Engine.Forecast.Near`): where the mended
lookups give a result, the others give the same one or fail with their own faults only.

Key definitions: `Engine.Forecast.FailsOnly`, `Engine.Mended`, `Engine.OneLookupFails`,
`Engine.Forecast.Near`, `Engine.NearOn`, `Engine.NearLookups`.
Key theorems: `Engine.near_view`, `Engine.OneLookupFails.failsOnly`.
-/

namespace CachedViews.Engine

/-- All that fails is one fault. -/
def Forecast.FailsOnly {α : Type} (v : Forecast α) (f : Fault) : Prop :=
  ∃ fs, v = .error fs ∧ ∀ g ∈ fs, g = f

/-- The lookups `L'` go as `L` goes, except that what fails with the fault `f` may go in
another way. -/
structure Mended (f : Fault) (L L' : Lookups) : Prop where
  names : ∀ dir, L'.names dir = L.names dir ∨ namesForecast L dir = .error [f]
  text : ∀ file, L'.text file = L.text file ∨ textForecast L file = .error [f]

/-- One lookup of a view fails, and nothing else does: the view fails, and there would be a
text if what fails with the fault `f` went well. -/
def OneLookupFails (e : Engine) (L : Lookups) (file options : Value) (f : Fault) : Prop :=
  (∀ x, e.viewForecast L file options ≠ .ok x) ∧
    ∃ L' x, Mended f L L' ∧ e.viewForecast L' file options = .ok x

/-- It fails, with faults of one kind. -/
def Forecast.FailsBy {α : Type} (v : Forecast α) (Q : Fault → Prop) : Prop :=
  ∃ fs, v = .error fs ∧ fs ≠ [] ∧ ∀ g ∈ fs, Q g

/-- Where `v'` is a result, `v` is the same or fails with faults of one kind. -/
def Forecast.Near {α : Type} (Q : Fault → Prop) (v v' : Forecast α) : Prop :=
  ∀ a, v' = .ok a → v = .ok a ∨ v.FailsBy Q

/-- Where the lookups `L'` go well for one of the keys `V`, the lookups `L` go as well or fail
with faults of one kind. -/
structure NearOn (e : Engine) (Q : Fault → Prop) (V : CacheName → String → Prop)
    (L L' : Lookups) : Prop where
  names : ∀ dir, V .directory dir → (namesForecast L dir).Near Q (namesForecast L' dir)
  compile : ∀ file, V .template file →
    (e.compileForecast L file).Near Q (e.compileForecast L' file)

/-- The lookups `L` are near to `L'` for all keys. -/
abbrev NearLookups (e : Engine) (Q : Fault → Prop) (L L' : Lookups) : Prop :=
  e.NearOn Q (fun _ _ => True) L L'

variable {α β : Type} {Q : Fault → Prop} {V : CacheName → String → Prop} {f : Fault} {e : Engine}
  {L L' : Lookups}

/-! ### Parts of forecasts -/

theorem failsBy_single (h : Q f) : Forecast.FailsBy (.error [f] : Forecast α) Q :=
  ⟨[f], rfl, List.cons_ne_nil f [], fun _ hg => List.mem_singleton.1 hg ▸ h⟩

theorem near_refl (v : Forecast α) : v.Near Q v := fun _ h => .inl h

theorem near_bind {v v' : Forecast α} {k k' : α → Forecast β} (h : v.Near Q v')
    (hk : ∀ a, v' = .ok a → (k a).Near Q (k' a)) : (v >>= k).Near Q (v' >>= k') := by
  intro b hb
  cases v' with
  | error fs => cases hb
  | ok a =>
    rcases h a rfl with rfl | ⟨fs, rfl, hfs⟩
    · exact hk a rfl b hb
    · exact .inr ⟨fs, rfl, hfs⟩

theorem near_all {vs vs' : List (Forecast α)} (h : List.Forall₂ (Forecast.Near Q) vs vs') :
    (Forecast.all vs).Near Q (Forecast.all vs') := by
  induction h with
  | nil => exact near_refl _
  | @cons v v' vs vs' hv _ ih =>
    intro as has
    cases v' with
    | error fs => cases has
    | ok a =>
      cases hall' : Forecast.all vs' with
      | error fs =>
        rw [Forecast.all, hall'] at has
        cases has
      | ok more =>
        rw [Forecast.all, hall'] at has
        rcases hv a rfl with rfl | ⟨fs, rfl, hne, hfs⟩ <;> rw [Forecast.all] <;>
          rcases ih more hall' with hall | ⟨gs, hall, hne', hgs⟩ <;> rw [hall]
        · exact .inl has
        · exact .inr ⟨gs, rfl, hne', hgs⟩
        · exact .inr ⟨fs ++ [], rfl, by simpa using hne, by simpa using hfs⟩
        · refine .inr ⟨fs ++ gs, rfl, by simp [hne], fun g hg => ?_⟩
          exact (List.mem_append.1 hg).elim (hfs g) (hgs g)

theorem near_all_map {v v' : β → Forecast α} {bs : List β} (h : ∀ b ∈ bs, (v b).Near Q (v' b)) :
    (Forecast.all (bs.map v)).Near Q (Forecast.all (bs.map v')) := by
  refine near_all ?_
  rw [List.forall₂_map_left_iff, List.forall₂_map_right_iff]
  exact List.forall₂_same.2 h

/-! ### Forecasts -/

theorem near_template (hl : e.NearOn Q V L L') {file : Value}
    (hV : ∀ c k, (c, k) ∈ e.templateKeys file → V c k) :
    (e.templateForecast L file).Near Q (e.templateForecast L' file) := by
  refine near_bind (near_refl _) fun key hkey => hl.compile key (hV _ _ ?_)
  rw [templateKeys, Forecast.of_eq_ok.1 hkey]
  exact List.mem_singleton_self _

theorem near_templates (hl : e.NearOn Q V L L') {dir : Value}
    (hV : ∀ c k, (c, k) ∈ e.templatesKeys L' dir → V c k) :
    (e.templatesForecast L dir).Near Q (e.templatesForecast L' dir) := by
  refine near_bind (near_refl _) fun key hkey => ?_
  unfold templatesKeys at hV
  rw [Forecast.of_eq_ok.1 hkey] at hV
  refine near_bind (hl.names key (hV _ _ List.mem_cons_self)) fun names hnames => ?_
  simp only [hnames] at hV
  refine near_bind (near_all_map fun name hname => near_template hl fun c k hk => ?_)
    fun found _ => near_refl _
  exact hV c k (List.mem_cons_of_mem _ (List.mem_flatMap.2 ⟨name, hname, hk⟩))

theorem near_source (hl : e.NearOn Q V L L') {s : Source}
    (hV : ∀ c k, (c, k) ∈ e.sourceKeys L' s → V c k) :
    (e.sourceForecast L s).Near Q (e.sourceForecast L' s) := by
  cases s with
  | directory path n => exact near_templates hl hV
  | templates v n => cases v <;> exact near_refl _

theorem near_partials (hl : e.NearOn Q V L L') {sources : Value}
    (hV : ∀ c k, (c, k) ∈ e.partialsKeys L' sources → V c k) :
    (e.partialsForecast L sources).Near Q (e.partialsForecast L' sources) := by
  refine near_bind (near_refl _) fun resolved hresolved => ?_
  unfold partialsKeys at hV
  rw [Forecast.of_eq_ok.1 hresolved] at hV
  refine near_bind (near_all_map fun s hs => near_source hl fun c k hk => ?_) fun products _ => ?_
  · exact hV c k (List.mem_flatMap.2 ⟨s, hs, hk⟩)
  · exact near_bind (near_refl _) fun merged _ => near_refl _

theorem near_load (hl : e.NearOn Q V L L') {file : Value} {o : RenderOptions}
    (hV : ∀ c k, (c, k) ∈ e.loadKeys L' file o → V c k) :
    (e.loadForecast L file o).Near Q (e.loadForecast L' file o) := by
  unfold loadKeys at hV
  unfold loadForecast
  cases ho : o.partials with
  | some ps =>
    rw [ho] at hV
    refine near_bind (near_refl _) fun key hkey => ?_
    refine near_bind (hl.compile key (hV _ _ ?_)) fun found _ => near_refl _
    rw [templateKeys, Forecast.of_eq_ok.1 hkey]
    exact List.mem_singleton_self _
  | none =>
    rw [ho] at hV
    -- the template and the partials are looked up at once
    refine near_bind (near_all (.cons ?_ (.cons ?_ .nil))) fun found _ => near_refl _
    · exact near_template hl fun c k hk => hV c k (List.mem_append_left _ hk)
    · exact near_partials hl fun c k hk => hV c k (List.mem_append_right _ hk)

theorem near_render (hl : e.NearLookups Q L L') (file context : Value) (o : RenderOptions) :
    (e.renderForecast L file context o).Near Q (e.renderForecast L' file context o) :=
  near_bind (near_load hl fun _ _ _ => trivial) fun _ _ => near_refl _

theorem near_plan (hl : e.NearLookups Q L L') (file : Value) (plan : ViewPlan) :
    (e.planForecast L file plan).Near Q (e.planForecast L' file plan) := by
  refine near_bind (near_load hl fun _ _ _ => trivial) fun loaded _ => ?_
  refine near_bind (near_refl _) fun body _ => ?_
  split
  · exact near_refl _
  · exact near_bind (near_render hl _ _ _) fun whole _ => near_refl _

/-- Where the mended lookups give a view, the others give the same one, or all that fails is
what was mended. -/
theorem near_view (hl : e.NearLookups Q L L') (file options : Value) :
    (e.viewForecast L file options).Near Q (e.viewForecast L' file options) :=
  near_bind (near_refl _) fun plan _ => near_plan hl file plan

/-! ### One fault -/

theorem Mended.near_text (hm : Mended f L L') (file : String) :
    (textForecast L file).Near (· = f) (textForecast L' file) := by
  rcases hm.text file with h | h
  · unfold textForecast
    rw [h]
    exact near_refl _
  · rw [h]
    exact fun _ _ => .inr (failsBy_single rfl)

theorem Mended.near (e : Engine) (hm : Mended f L L') : e.NearLookups (· = f) L L' where
  names dir _ := by
    rcases hm.names dir with h | h
    · unfold namesForecast
      rw [h]
      exact near_refl _
    · rw [h]
      exact fun _ _ => .inr (failsBy_single rfl)
  compile file _ := near_bind (hm.near_text file) fun _ _ => near_refl _

/-- **Where one lookup fails, all that fails is one fault.** -/
theorem OneLookupFails.failsOnly {file options : Value}
    (h : e.OneLookupFails L file options f) :
    (e.viewForecast L file options).FailsOnly f := by
  obtain ⟨hfails, L', x, hm, hx⟩ := h
  obtain ⟨fs, hfs, -, hall⟩ := (near_view (hm.near e) file options x hx).resolve_left (hfails x)
  exact ⟨fs, hfs, hall⟩

end CachedViews.Engine
