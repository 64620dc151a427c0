import CachedViews.Proofs.Engine.Composed
import CachedViews.Proofs.Engine.FailedView
import CachedViews.Proofs.Engine.HistoryFree
import CachedViews.Proofs.Engine.Reported
import CachedViews.Proofs.Source.Entries

/-
# Malformed sources

All entries of a list of sources are made sources before any of them is looked up, and the first
one that cannot be made one decides. If it names neither templates nor a directory, the list is
refused in the first turn of the task: nothing is walked, opened or compiled, no other task is
started and nothing is noted (`Engine.RefusesAtOnce`). If it is a mapping with something wrong in
it, the task ends just as early, with a fault of another kind; and where all entries pass, no fault
is one of the configuration, though an entry may be no source (`Engine.refuses_at_once_iff`).

Key definitions: `Engine.EndsAtOnce`, `Engine.RefusesAtOnce`, `Engine.DecidedBy`.
Key theorems: `Engine.endsAtOnce_of_mapM`, `Engine.mapM_error_iff_decidedBy`,
`Engine.blamesLookups_partials`, `Engine.refuses_at_once_iff`, `Engine.numbered_dir_not_refused`.
-/

namespace CachedViews.Engine

open Value

/-- The fault is reported as one of the configuration. -/
def OfConfiguration (f : Fault) : Prop := ∃ v, f = .view v ∧ v.report.kind = .configuration

/-- In its first turn a job ends with the fault, whatever the desk and its surroundings are, and
nothing else happens to the desk. -/
def EndsAtOnce (e : Engine) (job : Job) (f : Fault) : Prop :=
  ∀ (w : World signature) (d : Desk),
    Board.resume (σ := signature) e.program w d.tasks.length (start job d).2 =
      Board.setPhase (σ := signature) d.tasks.length (.ended (.error f)) (start job d).2

/-- A list of sources is refused before anything is looked up. -/
def RefusesAtOnce (e : Engine) (sources : Value) (cached : Bool) : Prop :=
  ∃ f, OfConfiguration f ∧ e.EndsAtOnce (.partials sources cached) f

/-- The first entry that names nothing or is mistyped is of the kind. -/
def DecidedBy (kind : Value → Prop) (sources : Value) : Prop :=
  ∃ before x after, entriesOf sources = before ++ x :: after ∧
    (∀ y ∈ before, ¬y.NamesNothing ∧ ¬y.Mistyped) ∧ kind x

variable {e : Engine} {L : Lookups} {sources : Value} {cached : Bool} {f g : Fault} {job : Job}

/-! ### The first turn -/

/-- A job whose program fails ends at once. -/
theorem endsAtOnce_of_program (h : e.program job = .done (.error f)) : e.EndsAtOnce job f := by
  intro w d
  have ht : (start job d).2.tasks[d.tasks.length]? = some { job := job } :=
    List.getElem?_concat_length
  have hplace : Board.place? (σ := signature) (start job d).2 d.tasks.length = none :=
    Board.place?_eq ht
  have hresume : Board.resume (σ := signature) e.program w d.tasks.length (start job d).2 =
      Board.run (σ := signature) w d.tasks.length (e.program job) (start job d).2 := by
    unfold Board.resume
    rw [ht]
  rw [hresume, h]
  change Board.finish (σ := signature) d.tasks.length (.error f) (start job d).2 = _
  rw [Board.finish, Board.evict_of_no_place hplace]

/-- If an entry cannot be made a source, the job ends at once with the fault of the first one. -/
theorem endsAtOnce_of_mapM (h : (entriesOf sources).mapM Source.ofEntry = .error f) :
    e.EndsAtOnce (.partials sources cached) f := by
  refine endsAtOnce_of_program ?_
  change e.aggregate sources cached = _
  rw [aggregate, h]
  rfl

/-- What ends a job at once is one of its ends on a new engine. -/
theorem EndsAtOnce.jobEnds (h : e.EndsAtOnce job f) (tree : FileTree) :
    e.JobEnds tree job (.error f) := by
  refine ⟨_, .single (.resume ⟨0, rfl⟩ 0), ?_⟩
  exact (congrArg (fun b => Board.outcome? (σ := signature) b 0) (h (e.world tree 0) {})).trans rfl

/-- A job ends at once with one fault only. -/
theorem EndsAtOnce.unique (hf : e.EndsAtOnce job f) (hg : e.EndsAtOnce job g) : f = g := by
  have h := (hf (e.world {} 0) {}).symm.trans (hg (e.world {} 0) {})
  have hends : some (Except.error f : Except Fault Product) = some (.error g) :=
    congrArg (fun b => Board.outcome? (σ := signature) b 0) h
  exact Except.error.inj (Option.some.inj hends)

/-! ### The entry that decides -/

/-- Making sources of the entries fails exactly with what becomes of the entry that decides. -/
theorem mapM_error_iff_decidedBy : (entriesOf sources).mapM Source.ofEntry = .error f ↔
    DecidedBy (fun x => Source.ofEntry x = .error f) sources := by
  refine Source.mapM_eq_error_iff.trans
    (exists_congr fun before => exists_congr fun x => exists_congr fun after =>
      and_congr_right fun _ => and_congr_left fun _ =>
        forall_congr' fun y => imp_congr_right fun _ => ?_)
  exact Source.ofEntry_passes_iff

theorem DecidedBy.mono {kind kind' : Value → Prop} (h : DecidedBy kind sources)
    (hk : ∀ x, kind x → kind' x) : DecidedBy kind' sources := by
  obtain ⟨before, x, after, he, hbefore, hx⟩ := h
  exact ⟨before, x, after, he, hbefore, hk x hx⟩

/-- An entry that names nothing decides exactly if what becomes of the entries is a fault of the
configuration. -/
theorem decidedBy_namesNothing_iff : DecidedBy NamesNothing sources ↔
    ∃ f, OfConfiguration f ∧ (entriesOf sources).mapM Source.ofEntry = .error f := by
  constructor
  · rintro ⟨before, x, after, he, hbefore, hx⟩
    exact ⟨_, ⟨_, rfl, rfl⟩,
      mapM_error_iff_decidedBy.2 ⟨before, x, after, he, hbefore, Source.ofEntry_refused hx⟩⟩
  · rintro ⟨_, ⟨v, rfl, -⟩, h⟩
    refine (mapM_error_iff_decidedBy.1 h).mono fun x hx => of_not_not fun hn => ?_
    by_cases ht : x.Mistyped
    · obtain ⟨f, hf, hother⟩ := Source.ofEntry_mistyped ht
      exact hother v (Except.error.inj (hf.symm.trans hx))
    · obtain ⟨s, hs⟩ := Source.ofEntry_passes_iff.2 ⟨hn, ht⟩
      cases hs.symm.trans hx

/-! ### What lookups and merging fail with -/

/-- Whatever is to be expected, it is no fault of the configuration. -/
def BlamesLookups {α : Type} (v : Forecast α) : Prop := ∀ f ∈ v.faults, ¬OfConfiguration f

theorem blamesLookups_of {α : Type} {r : Except Fault α} (h : TellsNoView r) :
    BlamesLookups (Forecast.of r) := by
  refine Forecast.blames_of ?_
  rintro _ hf ⟨v, rfl, -⟩
  exact h v hf

theorem blamesLookups_compile (file : String) : BlamesLookups (e.compileForecast L file) := by
  have htext : BlamesLookups (textForecast L file) := by
    unfold textForecast
    split
    · exact Forecast.blames_ok _
    · exact Forecast.blames_error fun ⟨_, hv, hkind⟩ => by cases hv; cases hkind
    · exact Forecast.blames_error fun ⟨_, hv, _⟩ => nomatch hv
  refine Forecast.Blames.bind htext fun text => ?_
  have hcompile := tellsNoView_compile e.compiler e.config.compilerOptions file text.asText
  split
  · exact Forecast.blames_ok _
  · exact Forecast.blames_error fun ⟨_, hv, hkind⟩ => by cases hv; cases hkind
  · rename_i hf
    exact Forecast.blames_error fun ⟨v, hv, _⟩ => hcompile v (hv ▸ hf)

/-- Looking up a source fails with no fault of the configuration. -/
theorem blamesLookups_source (s : Source) : BlamesLookups (e.sourceForecast L s) := by
  cases s with
  | directory path namesp =>
    have hnames : ∀ key, BlamesLookups (namesForecast L key) := by
      intro key
      unfold namesForecast
      split
      · exact Forecast.blames_ok _
      · exact Forecast.blames_error fun ⟨_, hv, hkind⟩ => by cases hv; cases hkind
    refine Forecast.Blames.bind (blamesLookups_of (tellsNoView_keyOf _)) fun key =>
      Forecast.Blames.bind (hnames key) fun names =>
        Forecast.Blames.bind (Forecast.blames_all fun v hv => ?_) fun found =>
          Forecast.blames_ok _
    obtain ⟨file, -, rfl⟩ := List.mem_map.1 hv
    exact Forecast.Blames.bind (blamesLookups_of (tellsNoView_keyOf _)) fun key =>
      blamesLookups_compile key
  | templates given namesp => cases given <;> exact Forecast.blames_ok _

/-- Unless an entry that names nothing decides, no fault is one of the configuration. -/
theorem blamesLookups_partials (h : ¬DecidedBy NamesNothing sources) :
    BlamesLookups (e.partialsForecast L sources) := by
  refine Forecast.Blames.bind (Forecast.blames_of fun f hf hconf =>
      h (decidedBy_namesNothing_iff.2 ⟨f, hconf, hf⟩)) fun resolved =>
    Forecast.Blames.bind (Forecast.blames_all fun v hv => ?_) fun products =>
      Forecast.Blames.bind (blamesLookups_of (tellsNoView_merge _ _ _)) fun merged =>
        Forecast.blames_ok _
  obtain ⟨s, -, rfl⟩ := List.mem_map.1 hv
  exact blamesLookups_source s

/-- Unless an entry that names nothing decides, aggregating never ends with a fault of the
configuration. -/
theorem not_ofConfiguration_of_jobEnds (h : ¬DecidedBy NamesNothing sources) {tree : FileTree}
    (hf : e.JobEnds tree (.partials sources cached) (.error f)) : ¬OfConfiguration f := by
  obtain ⟨fs, hfs, hmem⟩ := (new_foreseen e tree _).2 _ hf
  have hblames := blamesLookups_partials (e := e) (L := lookupsOf (e.world tree 0)) h
  change e.partialsForecast _ sources = _ at hfs
  rw [hfs] at hblames
  exact hblames _ hmem

/-! ### Refusals -/

/-- **When malformed sources are refused.** A list of sources is refused before anything is looked
up exactly if the first entry that cannot be made a source names neither templates nor a
directory. If that entry is a mapping with something wrong in it, the list fails just as early, but
with another fault, and in all other cases no fault is one of the configuration. An entry of either
kind is no source. -/
theorem refuses_at_once_iff (e : Engine) (sources : Value) (cached : Bool) :
    (e.RefusesAtOnce sources cached ↔ DecidedBy NamesNothing sources) ∧
    (DecidedBy Mistyped sources →
      ∃ f, ¬OfConfiguration f ∧ e.EndsAtOnce (.partials sources cached) f) ∧
    (¬DecidedBy NamesNothing sources → ∀ tree f,
      e.JobEnds tree (.partials sources cached) (.error f) → ¬OfConfiguration f) ∧
    ∀ x ∈ entriesOf sources, x.NamesNothing ∨ x.Mistyped → ¬x.NamesSource := by
  refine ⟨⟨?_, fun h => ?_⟩, ?_, fun h tree f hf => not_ofConfiguration_of_jobEnds h hf,
    fun x _ hx => hx.elim NamesNothing.not_source Mistyped.not_source⟩
  · rintro ⟨f, hconf, hf⟩
    exact of_not_not fun h => not_ofConfiguration_of_jobEnds h (hf.jobEnds {}) hconf
  · obtain ⟨f, hconf, hf⟩ := decidedBy_namesNothing_iff.1 h
    exact ⟨f, hconf, endsAtOnce_of_mapM hf⟩
  · rintro ⟨before, x, after, he, hbefore, hx⟩
    obtain ⟨f, hf, hother⟩ := Source.ofEntry_mistyped hx
    exact ⟨f, fun ⟨v, hv, _⟩ => hother v hv,
      endsAtOnce_of_mapM (mapM_error_iff_decidedBy.2 ⟨before, x, after, he, hbefore, hf⟩)⟩

/-- A directory that is given by a number is no source, but the list is not refused: it ends at once
with the fault that a number is no path. -/
theorem numbered_dir_not_refused : ∃ sources : Value,
    (∃ x ∈ entriesOf sources, ¬x.NamesSource) ∧
      ¬framedEngine.RefusesAtOnce sources false ∧
      framedEngine.EndsAtOnce (.partials sources false) (.type (.notPath "int")) := by
  have hends : framedEngine.EndsAtOnce (.partials (.list [.dict [(.str "dir", .int 5)]]) false)
      (.type (.notPath "int")) := endsAtOnce_of_mapM rfl
  have htyped : (Value.dict [(.str "dir", .int 5)]).Mistyped :=
    .inr ⟨fun ⟨_, hv, _⟩ => (nomatch hv), .int 5, rfl, rfl, .inl rfl⟩
  refine ⟨_, ⟨_, List.mem_singleton_self _, htyped.not_source⟩, ?_, hends⟩
  rintro ⟨f, ⟨v, rfl, -⟩, hf⟩
  cases hends.unique hf

end CachedViews.Engine
