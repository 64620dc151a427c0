import CachedViews.Proofs.Engine.Aggregated
import CachedViews.Proofs.Task.Apart

/-
# The partials that a view looks for

A view whose options bring no partials looks for them in the sources that follow from its options
and the configuration, and in no others (`Engine.sources_of_view`). If it does not use caches, this
ends exactly as the same request for partials may end on a new engine by itself
(`Engine.partials_discovered`): the other work on the view makes no difference.

Requests for the partials of the same sources end well or badly alike, and with the same partials if
they end well (`Engine.partials_alike`).

Key definitions: `Engine.LeadsTo`, `Engine.PartialsEnd`, `Engine.PartialsDiscovered`.
Key theorems: `Engine.sources_of_view`, `Engine.partials_discovered`, `Engine.partials_alike`.
-/

namespace CachedViews.Engine

/-- Work on a job may lead a new engine to the desk. -/
def LeadsTo (e : Engine) (tree : FileTree) (job : Job) (b : Desk) : Prop :=
  Relation.ReflTransGen (Board.Works e.program (e.CurrentTree tree)) (start job {}).2 b

/-- On the desk there is nothing left to do. -/
def AllDone (e : Engine) (tree : FileTree) (b : Desk) : Prop :=
  ∀ b', Board.Works e.program (e.CurrentTree tree) b b' → b' = b

/-- While a view is rendered on a new engine, a search for partials may end so. -/
def PartialsEnd (e : Engine) (tree : FileTree) (file options : Value)
    (o : Except Fault Product) : Prop :=
  ∃ b t sources cached, e.LeadsTo tree (.view file options) b ∧
    Board.job? (σ := signature) b t = some (.partials sources cached) ∧
    Board.outcome? (σ := signature) b t = some o

/-- A view that is rendered on a new engine looks for the partials of the sources. -/
structure PartialsDiscovered (e : Engine) (tree : FileTree) (file options sources : Value) :
    Prop where
  /-- When all work is done, the partials were looked for. -/
  concludes : ∀ b, e.LeadsTo tree (.view file options) b → e.AllDone tree b →
    ∃ t o, Board.job? (σ := signature) b t = some (.partials sources false) ∧
      Board.outcome? (σ := signature) b t = some o
  /-- This ends as it may end by itself. -/
  ends_iff : ∀ o, e.PartialsEnd tree file options o ↔ e.JobEnds tree (.partials sources false) o

variable {e : Engine} {path : String} {entries : List (Value × Value)} {file options : Value}
  {trees : FileTree → Prop} {tree : FileTree} {d b : Desk}

/-! ### The sources -/

/-- What a view makes use of that looks for the partials of the sources. -/
def partialsFrom (file options sources : Value) (cached : Bool) : Usage signature where
  notes _ := True
  ops _ := True
  keys _ _ := True
  jobs job := rank job < 5 ∨ job = .partials sources cached ∨ job = .view file options

theorem uses_of_calls {α : Type} {n : Nat} {sources : Value} {cached : Bool} {p : Work α}
    (hp : CallsBelow n p) (hn : n ≤ 5) : UsesIn (partialsFrom file options sources cached) p :=
  Program.Calls.uses hp (fun _ => trivial) (fun _ => trivial) (fun _ _ => trivial)
    fun _ hj => .inl (Nat.lt_of_lt_of_le hj hn)

/-- Where the partials are given, only the template is looked up. -/
theorem calls_load_given {name : Value} {o : RenderOptions} {ps : List (String × Value)}
    (ho : o.partials = some ps) : CallsBelow 2 (e.load name o) := by
  unfold load
  rw [ho]
  refine calls_bind (calls_ofExcept _) fun key => ?_
  exact calls_bind (calls_template key o.cache (by decide)) fun found => calls_pure _

/-- The template and the partials of a view are looked for at the same time, and nothing else is. -/
theorem load_settled (e : Engine) (path : String) (file : Value)
    (hg : givenPartials? entries = none) :
    ∃ finish : List Product → Work (Handle × List (String × Value)),
      (∀ rs, ∃ found, finish rs = pure found) ∧
      e.load file (e.settledPlan path entries).options =
        allJobs [.template file (e.settledPlan path entries).options.cache,
          .partials (e.sourcesOf entries) (e.settledPlan path entries).options.cache] >>= finish := by
  have hgiven : (e.settledPlan path entries).options.partials = none := hg
  unfold load
  rw [hgiven]
  dsimp only
  split
  · next hnull => exact absurd hnull (sourcesOf_ne_null e entries)
  · refine ⟨_, fun rs => ?_, rfl⟩
    rcases rs with _ | ⟨found, _ | ⟨partials, _ | ⟨more, rs⟩⟩⟩ <;> exact ⟨_, rfl⟩

theorem uses_view_found (hr : e.HostRequest path entries file options)
    (hg : givenPartials? entries = none) :
    UsesIn (partialsFrom file options (e.sourcesOf entries)
      (e.settledPlan path entries).options.cache) (e.view file options) := by
  refine uses_ofExcept_bind fun plan hplan => ?_
  obtain rfl := Except.ok.inj (hr.planView_eq.symm.trans hplan)
  obtain ⟨finish, hfinish, hload⟩ := load_settled e path file hg
  have hpure : ∀ rs, UsesIn (partialsFrom file options (e.sourcesOf entries)
      (e.settledPlan path entries).options.cache) (finish rs) := by
    intro rs
    obtain ⟨found, hfound⟩ := hfinish rs
    rw [hfound]
    exact uses_pure found
  rw [hload]
  refine uses_bind (uses_bind (uses_allJobs fun job hj => ?_) hpure) fun found => ?_
  · rcases List.mem_cons.1 hj with rfl | hj
    · exact .inl (Nat.lt_of_sub_eq_succ rfl)
    · exact .inr (.inl (List.mem_singleton.1 hj))
  · refine uses_bind (uses_apply e _ _ _ _ _ fun _ => trivial) fun body => ?_
    split
    · exact uses_pure _
    · -- the layout is rendered with the partials of the view
      refine uses_bind (uses_note trivial) fun _ => ?_
      refine uses_bind (uses_bind (uses_of_calls (calls_load_given rfl) (by decide)) fun found => ?_)
        fun whole => uses_pure _
      exact uses_apply e _ _ _ _ _ fun _ => trivial

theorem closed_partialsFrom (hr : e.HostRequest path entries file options)
    (hg : givenPartials? entries = none) (trees : FileTree → Prop) :
    (e.records trees).Closed (partialsFrom file options (e.sourcesOf entries)
      (e.settledPlan path entries).options.cache) where
  program job hj := by
    have hbelow := calls_program e job
    rcases hj with hrank | rfl | rfl
    · exact uses_of_calls hbelow (Nat.le_of_lt hrank)
    · exact uses_of_calls hbelow (Nat.le_refl 5)
    · exact uses_bind (uses_view_found hr hg) fun v => uses_pure _
  jobAt c k _ := by
    cases c with
    | directory => exact .inl (by decide : 0 < 5)
    | file => exact .inl (by decide : 0 < 5)
    | template => exact .inl (by decide : 1 < 5)

/-- **A view looks for partials in no other sources.** -/
theorem sources_of_view (hr : e.HostRequest path entries file options)
    (hg : givenPartials? entries = none) (hd : e.Reached trees d) (hrest : AtRest d)
    (h : Relation.ReflTransGen (e.Working tree) (start (.view file options) d).2 b) {t : TaskId}
    (ht : d.tasks.length ≤ t) {sources : Value} {cached : Bool}
    (hj : Board.job? (σ := signature) b t = some (.partials sources cached)) :
    sources = e.sourcesOf entries ∧ cached = (e.settledPlan path entries).options.cache := by
  have hsane := hd.sane
  have hsettled := hsane.recorded.settled hrest
  have hanswers : ∀ w, (∃ n, w = e.world tree n) →
      ∀ op, (e.records fun _ => True).answer op (w op) := by
    rintro w ⟨n, rfl⟩ op
    exact ⟨tree, n, trivial, rfl⟩
  have hclosed := closed_partialsFrom hr hg fun _ => True
  have hstart : Board.Upheld (e.records fun _ => True) d (start (.view file options) d).2 :=
    hsettled.upheld.spawn trivial
  have hview : (partialsFrom file options (e.sourcesOf entries)
      (e.settledPlan path entries).options.cache).jobs (.view file options) := .inr (.inr rfl)
  have hwithin := (Board.within_spawn hsane.unbegun hview).worksTo hclosed hstart hsettled
    hanswers h
  have hup := hstart.worksTo hsettled hanswers h
  obtain ⟨task, htask, hjob⟩ := Option.map_eq_some_iff.1 hj
  have hjobs := hwithin.job hclosed hup ht htask
  rw [hjob] at hjobs
  rcases hjobs with hrank | he | he
  · exact absurd hrank (Nat.lt_irrefl 5)
  · obtain ⟨rfl, rfl⟩ := Job.partials.inj he
    exact ⟨rfl, rfl⟩
  · cases he

/-! ### The search -/

/-- A view whose first turn is over: it waits for its template and for its partials. -/
def awaitingParts (file options sources : Value) (cached : Bool)
    (next : List Product → Work Product) : Desk where
  tasks := [
    { job := .view file options, phase := .gathering [1, 2] next },
    { job := .template file cached }, { job := .partials sources cached }]

/-- A view begins with the search for its template and that for its partials. -/
theorem program_view (hr : e.HostRequest path entries file options)
    (hg : givenPartials? entries = none) : ∃ next, e.program (.view file options) =
      Program.gather (σ := signature) [.template file (e.settledPlan path entries).options.cache,
        .partials (e.sourcesOf entries) (e.settledPlan path entries).options.cache] next := by
  have hgather : ∀ {α β : Type} (jobs : List Job) (p : List Product → Work α)
      (q : α → Work β) (r : β → Work Product), ∃ next,
      (((allJobs jobs >>= p) >>= q) >>= r : Work Product) =
        Program.gather (σ := signature) jobs next :=
    fun jobs p q r => ⟨_, rfl⟩
  obtain ⟨finish, -, hload⟩ := load_settled e path file hg
  change ∃ next, ((Program.ofExcept (e.planView file options) >>= _) >>= _ : Work Product) = _
  rw [hr.planView_eq]
  change ∃ next, ((e.load file (e.settledPlan path entries).options >>= _) >>= _ : Work Product) = _
  rw [hload]
  exact hgather _ _ _ _

/-- The first turn of a view starts both. -/
theorem resume_view (hr : e.HostRequest path entries file options)
    (hg : givenPartials? entries = none) (w : World signature) :
    ∃ next, Board.resume e.program w 0 (start (.view file options) {}).2 =
      awaitingParts file options (e.sourcesOf entries) (e.settledPlan path entries).options.cache
        next := by
  obtain ⟨next, hnext⟩ := program_view hr hg
  refine ⟨next, ?_⟩
  change Board.run w 0 (e.program (.view file options)) _ = _
  rw [hnext]
  rfl

theorem not_cached_of_settled (hr : e.HostRequest path entries file options)
    (hc : ¬Caches options) : (e.settledPlan path entries).options.cache = false :=
  Bool.eq_false_iff.2 fun he => hc ((caches_iff hr.planView_eq).2 he)

/-- One step leads to the search for the partials. -/
theorem works_awaitingParts (hr : e.HostRequest path entries file options)
    (hg : givenPartials? entries = none) (hc : ¬Caches options) (tree : FileTree) :
    ∃ next, Board.Works e.program (e.CurrentTree tree) (start (.view file options) {}).2
      (awaitingParts file options (e.sourcesOf entries) false next) := by
  obtain ⟨next, hnext⟩ := resume_view hr hg (e.world tree 0)
  rw [not_cached_of_settled hr hc] at hnext
  exact ⟨next, hnext ▸ .resume ⟨0, rfl⟩ 0⟩

/-- A view that has had a turn looks for its partials. -/
theorem job_of_view (hr : e.HostRequest path entries file options)
    (hg : givenPartials? entries = none) (hc : ¬Caches options)
    (h : e.LeadsTo tree (.view file options) b) :
    b = (start (.view file options) {}).2 ∨
      Board.job? (σ := signature) b 2 = some (.partials (e.sourcesOf entries) false) := by
  induction h with
  | refl => exact .inl rfl
  | tail _ hs ih =>
    rcases ih with rfl | hjob
    · obtain ⟨w, t, -, hturn⟩ := hs.turn
      by_cases ht : 1 ≤ t
      · exact .inl (hturn.eq_of_length_le ht)
      · obtain rfl : t = 0 := Nat.lt_one_iff.1 (Nat.lt_of_not_le ht)
        cases hturn with
        | resume =>
          obtain ⟨next, hnext⟩ := resume_view hr hg w
          rw [hnext, not_cached_of_settled hr hc]
          exact .inr rfl
        | complete => exact .inl rfl
    · exact .inr ((Board.grows_worksTo (.single hs)).job? hjob)

/-- When all work on a view is done, its partials were looked for. -/
theorem partials_sought (hr : e.HostRequest path entries file options)
    (hg : givenPartials? entries = none) (hc : ¬Caches options)
    (hb : e.LeadsTo tree (.view file options) b) (hdone : e.AllDone tree b) :
    ∃ t o, Board.job? (σ := signature) b t = some (.partials (e.sourcesOf entries) false) ∧
      Board.outcome? (σ := signature) b t = some o := by
  have hjob : Board.job? (σ := signature) b 2 = some (.partials (e.sourcesOf entries) false) := by
    refine (job_of_view hr hg hc hb).resolve_left fun he => ?_
    -- the view itself could still have its first turn
    subst he
    obtain ⟨next, hfirst⟩ := works_awaitingParts hr hg hc tree
    cases congrArg (fun b : Desk => b.tasks.length) (hdone _ hfirst)
  have hserved : Relation.ReflTransGen (e.Undisturbed tree) {} b :=
    .trans (.single (.start _)) (hb.lift id fun _ _ hs => .work hs)
  obtain ⟨o, ho⟩ := Option.ne_none_iff_exists'.1
    ((undisturbed_foreseen hserved hjob).1.2 b .refl hdone)
  exact ⟨2, o, hjob, ho⟩

/-- All that a view without caches does, its jobs would do on desks of their own. -/
theorem allCopied_view (hc : ¬Caches options) (hb : e.LeadsTo tree (.view file options) b) :
    Board.AllCopied e.program (e.CurrentTree tree) (usageOf false) b :=
  have hview : (usageOf false).jobs (.view file options) := iff_of_false hc (by decide)
  Board.allCopied_worksTo no_keys_uncached (fun _ hj => uses_program e hj) hview hb

/-- **A view that does not use caches looks for its partials, and this ends as it may end by
itself.** -/
theorem partials_discovered (hr : e.HostRequest path entries file options)
    (hg : givenPartials? entries = none) (hc : ¬Caches options) (tree : FileTree) :
    e.PartialsDiscovered tree file options (e.sourcesOf entries) := by
  refine ⟨fun b hb hdone => partials_sought hr hg hc hb hdone, fun o => ⟨?_, fun ho => ?_⟩⟩
  · rintro ⟨b, t, sources, cached, hb, hjob, ho⟩
    have hnew : e.Reached (fun _ => True) {} := .refl
    have hrest : AtRest {} := fun t task ht => nomatch (ht : none = some task)
    obtain ⟨rfl, rfl⟩ := sources_of_view hr hg hnew hrest hb (Nat.zero_le t) hjob
    rw [not_cached_of_settled hr hc] at hjob
    exact (allCopied_view hc hb).mayEnd hjob ho
  · obtain ⟨next, hfirst⟩ := works_awaitingParts hr hg hc tree
    have hlead : e.LeadsTo tree (.view file options)
        (awaitingParts file options (e.sourcesOf entries) false next) := .single hfirst
    obtain ⟨b, hb, hend⟩ := (allCopied_view hc hlead).exists_outcome no_keys_uncached
      (fun _ hj => uses_program e hj) (t := 2) rfl rfl rfl ho
    exact ⟨b, 2, _, _, hlead.trans hb, (Board.grows_worksTo hb).job? rfl, hend⟩

/-! ### Partials of the same sources -/

/-- Merging puts in each name once. -/
theorem nodup_merge (extname : String) {products : List (Source × Product)}
    {merged result : List (String × Handle)} (hn : (merged.map Prod.fst).Nodup)
    (h : merge extname products merged = .ok result) : (result.map Prod.fst).Nodup := by
  have hfold : ∀ (name : String → String) (found merged : List (String × Handle)),
      (merged.map Prod.fst).Nodup → ((found.foldl (fun hs f =>
        Value.insertField (name f.1) f.2 hs) merged).map Prod.fst).Nodup := by
    intro name found
    induction found with
    | nil => exact fun _ h => h
    | cons f found ih => exact fun merged h => ih _ (nodup_names_insertField h (name f.1) f.2)
  induction products generalizing merged with
  | nil =>
    obtain rfl := Except.ok.inj h
    exact hn
  | cons sp products ih =>
    obtain ⟨s, p⟩ := sp
    rw [merge] at h
    cases hfound : namedTemplates p with
    | error f =>
      rw [hfound] at h
      cases h
    | ok found =>
      rw [hfound] at h
      exact ih (hfold (fun path => partialName path s.namesp extname) found merged hn) h

/-- The partials that are forecast have distinct names. -/
theorem nodup_of_partialsForecast {L : Lookups} {sources : Value} {q : Product}
    (h : e.partialsForecast L sources = .ok q) :
    ∃ hs, q = .templates hs ∧ (hs.map Prod.fst).Nodup := by
  have hbind : ∀ {α β : Type} {v : Forecast α} {f : α → Forecast β} {y : β},
      (v >>= f) = .ok y → ∃ x, v = .ok x ∧ f x = .ok y := by
    intro α β v f y hv
    cases v with
    | ok x => exact ⟨x, rfl, hv⟩
    | error fs => cases hv
  obtain ⟨resolved, -, h⟩ := hbind h
  obtain ⟨products, -, h⟩ := hbind h
  obtain ⟨merged, hmerged, h⟩ := hbind h
  obtain rfl : Product.templates merged = q := Except.ok.inj h
  have hempty : (([] : List (String × Handle)).map Prod.fst).Nodup := List.nodup_nil
  exact ⟨merged, rfl, nodup_merge _ hempty (Forecast.of_eq_ok.1 hmerged)⟩

/-- A search for partials that ends well ends with those that are forecast, under distinct names. -/
theorem partials_foreseen {sources : Value} {cached : Bool} {p : Product}
    (h : e.JobEnds tree (.partials sources cached) (.ok p)) :
    e.partialsForecast (lookupsOf (e.world tree 0)) sources =
        .ok (.templates (bareTemplates p.asTemplates)) ∧
      (p.asTemplates.map Prod.fst).Nodup := by
  have hforecast : e.partialsForecast (lookupsOf (e.world tree 0)) sources = .ok p.bare :=
    (new_foreseen e tree (.partials sources cached)).2 _ h
  obtain ⟨hs, hbare, hnodup⟩ := nodup_of_partialsForecast hforecast
  have hnames : (bareTemplates p.asTemplates).map Prod.fst = p.asTemplates.map Prod.fst := by
    simp [bareTemplates]
  have htemplates : bareTemplates p.asTemplates = hs := by
    rw [← Product.bare_asTemplates, hbare]
    rfl
  rw [hforecast, ← hnames, htemplates, hbare]
  exact ⟨rfl, hnodup⟩

/-- **Searches for the partials of the same sources come to the same**: if one ends well, so does
another one, and with the same templates under the same names. -/
theorem partials_alike {sources : Value} {cached : Bool} {p : Product} {o : Except Fault Product}
    (hp : e.JobEnds tree (.partials sources cached) (.ok p))
    (ho : e.JobEnds tree (.partials sources cached) o) :
    ∃ q, o = .ok q ∧ partialValues q.asTemplates = partialValues p.asTemplates := by
  obtain ⟨hforecast, -⟩ := partials_foreseen hp
  cases o with
  | ok q =>
    have hq := (partials_foreseen ho).1
    rw [hforecast] at hq
    have hbare : bareTemplates p.asTemplates = bareTemplates q.asTemplates :=
      Product.templates.inj (Except.ok.inj hq)
    exact ⟨q, rfl, by rw [← partialValues_bare, ← hbare, partialValues_bare]⟩
  | error f =>
    obtain ⟨fs, hfs, -⟩ := (new_foreseen e tree (.partials sources cached)).2 _ ho
    cases hforecast.symm.trans hfs

/-- If one of them ends well, so does the other. -/
theorem partials_end_well_alike {sources : Value} {cached : Bool} {o o' : Except Fault Product}
    (ho : e.JobEnds tree (.partials sources cached) o)
    (ho' : e.JobEnds tree (.partials sources cached) o') :
    (∃ p, o = .ok p) ↔ ∃ p, o' = .ok p := by
  constructor
  · rintro ⟨p, rfl⟩
    obtain ⟨q, hq, -⟩ := partials_alike ho ho'
    exact ⟨q, hq⟩
  · rintro ⟨q, rfl⟩
    obtain ⟨p, hp, -⟩ := partials_alike ho' ho
    exact ⟨p, hp⟩

end CachedViews.Engine
