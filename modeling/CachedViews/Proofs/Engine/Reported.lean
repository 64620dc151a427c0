import CachedViews.Proofs.Engine.Forecast
import CachedViews.Proofs.Source.Entries
import CachedViews.Proofs.Template.Faults

/-
# Faults of files are those of their readings

Many things may go wrong when a view is rendered: its options may not be settled, directories
cannot be listed, texts cannot be compiled, templates fail when they are called. If the fault is
that a file could not be read, then that very file was looked up, and could not be read for the
very cause the fault gives (`Engine.Reported`); nothing else is ever reported so
(`Engine.reported_view`). The other way round, a view whose own file cannot be read has that for a
fault, whatever else goes wrong at the same time (`Engine.reading_mem_faults`).

Key definitions: `Engine.Reported`.
Key theorems: `Engine.reported_partials`, `Engine.reported_view`, `Engine.reading_mem_faults`.
-/

namespace CachedViews.Engine

/-- If the fault is that a file could not be read, then because its text could not be looked up. -/
def Reported (L : Lookups) (f : Fault) : Prop :=
  ∀ file cause, f = .view (.reading file cause) → L.text file = .error (.unreadable cause)

variable {e : Engine} {L : Lookups} {file options : Value} {plan : ViewPlan} {o : RenderOptions}

/-! ### Steps that look nothing up -/

theorem tellsNoView_keyOf (path : Value) : TellsNoView (e.keyOf path) :=
  (Template.tellsNoView_asPath path).map _

theorem tellsNoView_givenTemplates (entries : List (Value × Value)) :
    TellsNoView (givenTemplates entries) := by
  induction entries with
  | nil => exact tellsNoView_ok _
  | cons entry entries ih =>
    rw [givenTemplates]
    cases entry.1.string? with
    | some name => exact ih.bind fun rest => tellsNoView_ok _
    | none => exact fun v hv => by cases hv

theorem tellsNoView_namedTemplates (p : Product) : TellsNoView (namedTemplates p) := by
  unfold namedTemplates
  split
  · exact tellsNoView_ok _
  · exact tellsNoView_givenTemplates _
  · exact nofun
  · exact tellsNoView_ok _

theorem tellsNoView_merge (extname : String) (products : List (Source × Product))
    (merged : List (String × Handle)) : TellsNoView (merge extname products merged) := by
  induction products generalizing merged with
  | nil => exact tellsNoView_ok _
  | cons sp products ih => exact (tellsNoView_namedTemplates sp.2).bind fun found => ih _

theorem tellsNoView_contextEntries (context : Value) : TellsNoView (contextEntries context) := by
  unfold contextEntries
  split <;> exact fun _ h => nomatch h

theorem tellsNoView_called (h : Handle) (file context : Value) (o : RenderOptions)
    (partials : List (String × Value)) : TellsNoView (e.called h file context o partials) := by
  unfold called
  exact (Template.tellsNoView_isIn _ _).bind fun _ => (tellsNoView_keyOf _).bind fun _ =>
    (tellsNoView_contextEntries _).bind fun _ => Template.tellsNoView_callTemplate _ _ _

theorem tellsNoView_entriesOf (options : Value) : TellsNoView (Template.entriesOf options) := by
  have hpairs : ∀ i pairs es, TellsNoView (Template.entriesOfPairs i pairs es) := by
    intro i pairs es
    fun_induction Template.entriesOfPairs i pairs es
    all_goals first
      | assumption
      | exact Template.tellsNoView_refusal _ _ _
      | exact fun _ h => nomatch h
  unfold Template.entriesOf
  split
  · exact tellsNoView_ok _
  · exact tellsNoView_ok _
  · exact (Template.tellsNoView_itemsOf _).bind fun _ => hpairs _ _ _

theorem tellsNoView_viewName (file : Value) (views : String) :
    TellsNoView (e.viewName file views) := by
  unfold viewName
  split
  · exact (Template.tellsNoView_asPath file).bind fun _ => tellsNoView_ok _
  · exact fun _ h => nomatch h

theorem tellsNoView_helperEntries (options : List (Value × Value)) :
    TellsNoView (e.helperEntries options) := by
  unfold helperEntries
  repeat' split
  all_goals exact fun _ h => nomatch h

theorem tellsNoView_build (fields : List (String × Value)) :
    TellsNoView (RenderOptions.build fields) := by
  unfold RenderOptions.build
  split <;> exact fun _ h => nomatch h

/-- Options that cannot be settled are no fault of a view. -/
theorem tellsNoView_planView (file options : Value) : TellsNoView (e.planView file options) := by
  unfold planView
  refine (tellsNoView_entriesOf options).bind fun entries => ?_
  dsimp only
  split
  · exact ((tellsNoView_viewName _ _).map _).bind fun _ => (tellsNoView_helperEntries _).bind
      fun _ => (tellsNoView_build _).bind fun _ => tellsNoView_ok _
  · exact (tellsNoView_helperEntries _).bind fun _ =>
      (tellsNoView_build _).bind fun _ => tellsNoView_ok _

/-! ### Forecasts -/

theorem reported_of {α : Type} {r : Except Fault α} (h : TellsNoView r) :
    (Forecast.of r).Blames (Reported L) :=
  Forecast.blames_of fun _ hf _ _ he => absurd (he ▸ hf) (h _)

theorem reported_text (file : String) : (textForecast L file).Blames (Reported L) := by
  unfold textForecast
  split
  · exact Forecast.blames_ok _
  · rename_i cause h
    refine Forecast.blames_error fun file' cause' he => ?_
    cases he
    exact h
  · exact Forecast.blames_error fun _ _ he => nomatch he

theorem reported_compile (file : String) : (e.compileForecast L file).Blames (Reported L) := by
  refine (reported_text file).bind fun text => ?_
  split
  · exact Forecast.blames_ok _
  · exact Forecast.blames_error fun _ _ he => nomatch he
  · rename_i hf
    exact Forecast.blames_error fun _ _ he =>
      absurd (he ▸ hf) (tellsNoView_compile _ _ _ _ _)

theorem reported_template (file : Value) : (e.templateForecast L file).Blames (Reported L) :=
  (reported_of (tellsNoView_keyOf file)).bind fun _ => reported_compile _

theorem reported_templates (dir : Value) : (e.templatesForecast L dir).Blames (Reported L) := by
  have hnames : ∀ key, (namesForecast L key).Blames (Reported L) := by
    intro key
    unfold namesForecast
    split
    · exact Forecast.blames_ok _
    · exact Forecast.blames_error fun _ _ he => nomatch he
  refine (reported_of (tellsNoView_keyOf dir)).bind fun key => (hnames key).bind fun names =>
    Forecast.Blames.bind (Forecast.blames_all fun v hv => ?_) fun _ => Forecast.blames_ok _
  obtain ⟨name, -, rfl⟩ := List.mem_map.1 hv
  exact reported_template _

theorem reported_source (s : Source) : (e.sourceForecast L s).Blames (Reported L) := by
  cases s with
  | directory path namesp => exact reported_templates _
  | templates given namesp => cases given <;> exact Forecast.blames_ok _

/-- An entry that is no source has another fault. -/
theorem reported_ofEntry (entry : Value) {f : Fault} (hf : Source.ofEntry entry = .error f) :
    Reported L f := by
  by_cases hn : entry.NamesNothing
  · obtain rfl := Except.error.inj ((Source.ofEntry_refused hn).symm.trans hf)
    exact fun _ _ he => nomatch he
  · by_cases ht : entry.Mistyped
    · obtain ⟨g, hg, hother⟩ := Source.ofEntry_mistyped ht
      obtain rfl := Except.error.inj (hg.symm.trans hf)
      exact fun _ _ he => absurd he (hother _)
    · obtain ⟨s, hs⟩ := Source.ofEntry_passes_iff.2 ⟨hn, ht⟩
      cases hs.symm.trans hf

theorem reported_partials (sources : Value) :
    (e.partialsForecast L sources).Blames (Reported L) := by
  refine Forecast.Blames.bind (Forecast.blames_of fun f hf => ?_) fun resolved =>
    Forecast.Blames.bind (Forecast.blames_all fun v hv => ?_) fun products =>
      (reported_of (tellsNoView_merge _ _ _)).bind fun merged => Forecast.blames_ok _
  · obtain ⟨before, entry, after, -, -, hentry⟩ := Source.mapM_eq_error_iff.1 hf
    exact reported_ofEntry entry hentry
  · obtain ⟨s, -, rfl⟩ := List.mem_map.1 hv
    exact reported_source s

theorem reported_load (file : Value) (o : RenderOptions) :
    (e.loadForecast L file o).Blames (Reported L) := by
  unfold loadForecast
  split
  · exact (reported_of (tellsNoView_keyOf file)).bind fun _ =>
      (reported_compile _).bind fun _ => Forecast.blames_ok _
  · refine Forecast.Blames.bind (Forecast.blames_all fun v hv => ?_) fun found => ?_
    · rcases List.mem_cons.1 hv with rfl | hv
      · exact reported_template file
      · rw [List.mem_singleton.1 hv]
        exact reported_partials _
    · split <;> exact Forecast.blames_ok _

theorem reported_render (file context : Value) (o : RenderOptions) :
    (e.renderForecast L file context o).Blames (Reported L) :=
  (reported_load file o).bind fun _ => reported_of (tellsNoView_called _ _ _ _ _)

/-- **That a file could not be read** is a fault of a view for no other reason. -/
theorem reported_view (file options : Value) :
    (e.viewForecast L file options).Blames (Reported L) := by
  refine (reported_of (tellsNoView_planView file options)).bind fun plan =>
    (reported_load file plan.options).bind fun loaded =>
      (reported_of (tellsNoView_called _ _ _ _ _)).bind fun body => ?_
  split
  · exact Forecast.blames_ok _
  · exact (reported_render _ _ _).bind fun _ => Forecast.blames_ok _

/-! ### The file of the view -/

section

variable {key : String} {cause : ReadFault}

theorem compileForecast_of_unreadable (ht : L.text key = .error (.unreadable cause)) :
    e.compileForecast L key = .error [.view (.reading key cause)] := by
  unfold compileForecast textForecast
  rw [ht]
  rfl

/-- A template whose file cannot be read is not found, whatever becomes of the partials. -/
theorem reading_mem_load (hkey : e.keyOf file = .ok key)
    (ht : L.text key = .error (.unreadable cause)) :
    ∃ fs, e.loadForecast L file o = .error fs ∧ .view (.reading key cause) ∈ fs := by
  have hcompile := compileForecast_of_unreadable (e := e) ht
  have htemplate : e.templateForecast L file = .error [.view (.reading key cause)] := by
    unfold templateForecast
    rw [hkey]
    exact hcompile
  unfold loadForecast
  split
  · refine ⟨[.view (.reading key cause)], ?_, List.mem_singleton_self _⟩
    rw [hkey]
    change (e.compileForecast L key >>= _) = _
    rw [hcompile]
    rfl
  · rw [htemplate]
    exact ⟨_, rfl, List.mem_append_left _ (List.mem_singleton_self _)⟩

/-- **A view whose own file cannot be read** may fail with that. -/
theorem reading_mem_faults (hp : e.planView file options = .ok plan)
    (hkey : e.keyOf file = .ok key) (ht : L.text key = .error (.unreadable cause)) :
    ∃ fs, e.viewForecast L file options = .error fs ∧ .view (.reading key cause) ∈ fs := by
  obtain ⟨fs, hfs, hf⟩ := reading_mem_load (o := plan.options) hkey ht
  refine ⟨fs, ?_, hf⟩
  unfold viewForecast planForecast
  rw [hp]
  simp only [Forecast.of, Except.mapError, bind, Except.bind, hfs]

end

end CachedViews.Engine
