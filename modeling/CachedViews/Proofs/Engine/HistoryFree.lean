import CachedViews.Proofs.Engine.Refinement
import CachedViews.Proofs.Engine.Usage
import CachedViews.Proofs.Task.Mirror

/-
# Requests without caches are free of history

A request that does not use caches looks nothing up, and neither does anything that it
starts. So it does the same on every desk, whatever the caches hold, be it stale or still in
flight, and whatever else goes on meanwhile: it is worked on as by a new engine in the
current tree of files, with the same walks, readings and compilations, and it may come to
the same outcomes. It leaves the caches as they are.

Key definitions: `Engine.CurrentTree`, `Engine.JobEnds`, `Engine.JobEndsAmid`,
`Engine.OneJobLookupFails`, `Engine.HistoryFree`.
Key theorems: `Engine.new_foreseen`, `Engine.Mended.near_job`,
`Engine.uncached_history_free`.
-/

namespace CachedViews.Engine

/-! ### What is free of history -/

/-- The files are as in the tree. Templates are numbered in any way. -/
def CurrentTree (e : Engine) (tree : FileTree) (w : World signature) : Prop :=
  ∃ n, w = e.world tree n

/-- A job may end with the outcome on a new engine in the tree. -/
def JobEnds (e : Engine) (tree : FileTree) (job : Job) (o : Except Fault Product) : Prop :=
  Board.MayEnd e.program (e.CurrentTree tree) 0 o (start job {}).2

/-- A job that is started on a desk: its task is the first of those that are worked on. -/
def started (job : Job) (d : Desk) : List TaskId × Desk := ([d.tasks.length], (start job d).2)

/-- A job that is started on a desk may end with the outcome, whatever else happens there. -/
def JobEndsAmid (e : Engine) (tree : FileTree) (d : Desk) (job : Job)
    (o : Except Fault Product) : Prop :=
  Board.MayEndAmid e.program (e.CurrentTree tree) d.tasks.length o (started job d)

/-- One lookup of a job fails, and nothing else does: the job fails, and there would be a
result if what fails with the fault `f` went well. -/
def OneJobLookupFails (e : Engine) (L : Lookups) (job : Job) (f : Fault) : Prop :=
  (∀ p, e.forecast L job ≠ .ok p) ∧ ∃ L' p, Mended f L L' ∧ e.forecast L' job = .ok p

/-- A job that is started on a desk `d` goes as on a new engine in the tree, whatever the caches
of the desk hold and whatever else happens while it is worked on, and it leaves no trace in
the caches. -/
structure HistoryFree (e : Engine) (tree : FileTree) (d : Desk) (job : Job) : Prop where
  concludes : Board.ConcludesAmid e.program (e.CurrentTree tree) d.tasks.length (started job d)
  /-- It may come to the outcomes that it may come to on a new engine. -/
  outcomes : ∀ o, e.JobEndsAmid tree d job o ↔ e.JobEnds tree job o
  /-- It ends well if it does so on a new engine, and with the same result. -/
  result : ∀ o o', e.JobEndsAmid tree d job o → e.JobEnds tree job o' →
    ∀ p, o.map Product.bare = .ok p ↔ o'.map Product.bare = .ok p
  /-- If one lookup fails, it ends with its fault, as on a new engine. -/
  one_fault : ∀ f, e.OneJobLookupFails (lookupsOf (e.world tree 0)) job f →
    ∀ o, e.JobEndsAmid tree d job o ∨ e.JobEnds tree job o → o = .error f
  /-- Its tasks do what the tasks of a new engine do, on which nothing is ever cached: all that
  is walked, opened and compiled there is walked, opened and compiled by its own tasks. -/
  afresh : ∀ ts b, Relation.ReflTransGen (Board.Amid e.program (e.CurrentTree tree))
      (started job d) (ts, b) →
    ∃ m : Desk, Relation.ReflTransGen (Board.Works e.program (e.CurrentTree tree))
        (start job {}).2 m ∧ m.entries = [] ∧ m.tasks.length = ts.length ∧
      ∀ i t : Nat, ts[i]? = some t →
        Board.outcome? (σ := signature) b t = Board.outcome? (σ := signature) m i ∧
          Board.account (σ := signature) b t = Board.account (σ := signature) m i
  /-- No turn of its tasks changes what is stored or looks anything up. -/
  traceless : ∀ ts b, Relation.ReflTransGen (Board.Amid e.program (e.CurrentTree tree))
      (started job d) (ts, b) →
    ∀ t ∈ ts, ∀ w b', e.CurrentTree tree w → Board.Turn e.program w t b b' →
      Board.Traceless (σ := signature) t b b'
  /-- Where nothing else is in flight, the caches are in the end what they were. -/
  entries : AtRest d → ∀ b, Relation.ReflTransGen
      (Board.Works e.program (e.CurrentTree tree)) (start job d).2 b → b.entries = d.entries

variable {e : Engine} {tree : FileTree} {d : Desk} {job : Job} {L L' : Lookups} {f : Fault}
  {trees : FileTree → Prop}

/-! ### A new engine -/

/-- **A job on a new engine comes to its end as forecast.** -/
theorem new_foreseen (e : Engine) (tree : FileTree) (job : Job) :
    Board.Concludes e.program (e.CurrentTree tree) 0 (start job {}).2 ∧
      ∀ o, e.JobEnds tree job o →
        (e.forecast (lookupsOf (e.world tree 0)) job).Admits Product.bare o := by
  have hworld : ∀ w, e.CurrentTree tree w → ∀ op,
      (newRegime (lookupsOf (e.world tree 0))).answer e op (w op) := by
    rintro w ⟨n, rfl⟩ op
    exact answer_world e tree n op
  exact (settled_new e _).concludes hworld ⟨_, 0, rfl⟩ (allowed_new e _ job)

theorem Forecast.Admits.map_eq_ok {α β : Type} {v : Forecast α} {g : β → α}
    {o : Except Fault β} (h : v.Admits g o) (a : α) : o.map g = .ok a ↔ v = .ok a := by
  cases o with
  | ok b =>
    have hv : v = .ok (g b) := h
    rw [hv]
    exact ⟨fun h => congrArg Except.ok (Except.ok.inj h), fun h => congrArg Except.ok (Except.ok.inj h)⟩
  | error f =>
    obtain ⟨fs, rfl, -⟩ := h
    exact iff_of_false (fun h => nomatch h) (fun h => nomatch h)

theorem Forecast.Admits.eq_error {α β : Type} {v : Forecast α} {g : β → α}
    {o : Except Fault β} (h : v.Admits g o) (hv : v.FailsOnly f) : o = .error f := by
  obtain ⟨fs, rfl, hall⟩ := hv
  cases o with
  | ok b => exact nomatch (h : (.error fs : Forecast α) = .ok (g b))
  | error f' =>
    obtain ⟨gs, hgs, hmem⟩ := h
    rw [hall f' (Except.error.inj hgs ▸ hmem)]

/-! ### One fault of a job -/

/-- Where the mended lookups give a result of a job, the others give the same one, or all that
fails is what was mended. -/
theorem Mended.near_job (hm : Mended f L L') (e : Engine) (job : Job) :
    (e.forecast L job).Near (· = f) (e.forecast L' job) := by
  have hl : e.NearLookups (· = f) L L' := hm.near e
  cases job with
  | list dir cached => exact near_bind (near_refl _) fun key _ => hl.names key trivial
  | walk dir => exact hl.names dir trivial
  | read file cached => exact near_bind (near_refl _) fun key _ => hm.near_text key
  | «open» file => exact hm.near_text file
  | template file cached => exact near_template hl fun _ _ _ => trivial
  | compile file cached => exact hl.compile file trivial
  | templates dir cached => exact near_templates hl fun _ _ _ => trivial
  | source s cached => exact near_source hl fun _ _ _ => trivial
  | partials sources cached => exact near_partials hl fun _ _ _ => trivial
  | render file context o => exact near_bind (near_render hl file context o) fun _ _ => near_refl _
  | view file options => exact near_bind (near_view hl file options) fun _ _ => near_refl _

theorem OneJobLookupFails.failsOnly (h : e.OneJobLookupFails L job f) :
    (e.forecast L job).FailsOnly f := by
  obtain ⟨hfails, L', p, hm, hp⟩ := h
  obtain ⟨fs, hfs, -, hall⟩ := (hm.near_job e job p hp).resolve_left (hfails p)
  exact ⟨fs, hfs, hall⟩

/-! ### Requests without caches -/

/-- What an engine comes to, the steps of a board lead to. -/
theorem Reached.reaches (h : e.Reached trees d) :
    Board.Reaches (σ := signature) e.program {} d := by
  induction h with
  | refl => exact .refl {}
  | tail _ hs ih =>
    cases hs with
    | start job => exact ih.tail (Board.Step.spawn (σ := signature) job _)
    | resume ht t => exact ih.tail (Board.Step.resume (σ := signature) _ t _)
    | complete ht t => exact ih.tail (Board.Step.complete (σ := signature) _ t _)
    | cancel t hp => exact ih.tail (Board.Step.cancel (σ := signature) t _)
    | reset =>
      have hclear : ∀ (c : CacheName) (b : Desk),
          Board.Step (σ := signature) e.program b (Board.clear (σ := signature) c b) :=
        fun c b => Board.Step.clear (σ := signature) c b
      exact ((ih.tail (hclear .directory _)).tail (hclear .file _)).tail (hclear .template _)

/-- Where no work is in flight, a job that is started is alone at work. -/
theorem AtRest.othersEnded (hr : AtRest d) :
    Board.OthersEnded [d.tasks.length] (start job d).2 := by
  intro u x hu hx
  have ht : (start job d).2.tasks = d.tasks ++ [{ job := job }] := rfl
  rcases Board.getElem?_of_append ht hx with hx | ⟨hle, -⟩
  · exact hr u x hx
  · have hlt := Board.lt_of_getElem? hx
    rw [ht, List.length_append, List.length_singleton] at hlt
    exact absurd (List.mem_singleton.2 (by omega)) hu

theorem no_keys_uncached (c : CacheName) (k : String) : ¬(usageOf false).keys c k :=
  fun h => nomatch (h : false = true)

/-- A request that does not use caches goes as on a new engine, and leaves the caches alone. -/
theorem historyFree_of_reaches (hd : Board.Reaches (σ := signature) e.program {} d)
    (hj : Chooses false job) : e.HistoryFree tree d job := by
  have hk := no_keys_uncached
  have hprog : ∀ job, (usageOf false).jobs job →
      Program.Uses (σ := signature) (usageOf false) (e.program job) :=
    fun job hj => uses_program e hj
  have hmirror : Board.Mirrors (usageOf false) [d.tasks.length] (start job d).2
      (start job {}).2 := Board.mirrors_spawn hd.orderly hd.unbegun hj
  have hfirst : (started job d).1[0]? = some d.tasks.length := rfl
  obtain ⟨hconcludes, hends⟩ := new_foreseen e tree job
  have hiff : ∀ o, e.JobEndsAmid tree d job o ↔ e.JobEnds tree job o :=
    fun o => hmirror.mayEndAmid_iff hk hprog hfirst o
  exact {
    concludes := hmirror.concludesAmid hk hprog hfirst hconcludes
    outcomes := hiff
    result := fun o o' ho ho' p => by
      rw [(hends o ((hiff o).1 ho)).map_eq_ok, (hends o' ho').map_eq_ok]
    one_fault := fun f hf o ho =>
      (hends o (ho.elim (hiff o).1 id)).eq_error hf.failsOnly
    afresh := fun ts b hs => by
      obtain ⟨m, hm, h⟩ := hmirror.amid hk hprog hs
      exact ⟨m, hm, h.entries, h.length, fun i t hi => ⟨h.outcome?_eq hi, h.accounts i t hi⟩⟩
    traceless := fun ts b hs t ht w b' _ hturn => by
      obtain ⟨m, -, h⟩ := hmirror.amid hk hprog hs
      obtain ⟨i, hi⟩ := List.mem_iff_getElem?.1 ht
      obtain ⟨-, -, -, -, htrace⟩ := h.turn hk hprog hi hturn
      exact htrace
    entries := fun hr b hs => by
      have hentries : b.entries = (start job d).2.entries :=
        hmirror.entries_works hk hprog hr.othersEnded hs
      exact hentries }

/-- **Requests without caches are free of history.** On any desk that the steps of a board lead
to, a request that does not use caches goes as on a new engine in the current tree, and
leaves the caches as they are. -/
theorem uncached_history_free (hd : Board.Reaches (σ := signature) e.program {} d)
    (hj : Chooses false job) : e.HistoryFree tree d job :=
  historyFree_of_reaches hd hj

/-! ### A view that is rendered anew -/

/-- The desk of the engine when a view was rendered through the caches, and a template is being
looked up. -/
def busyDesk : Desk :=
  sampleEngine.resume (sampleTree "a") sampleDesk.tasks.length
    (start (.template (.str "/w.html") true) sampleDesk).2

/-- After its file was edited, a view is rendered anew without caches, though its old text is
still stored and another lookup is in flight. -/
theorem uncached_history_free_edited :
    Board.Reaches (σ := signature) sampleEngine.program {} busyDesk ∧
      (cached? busyDesk .file "/v.html").map Product.asText = some "a" ∧ ¬AtRest busyDesk ∧
      Chooses false (.view (.str "/v.html") .null) ∧
      sampleEngine.HistoryFree (sampleTree "b") busyDesk (.view (.str "/v.html") .null) ∧
      ∃ p, sampleEngine.JobEndsAmid (sampleTree "b") busyDesk (.view (.str "/v.html") .null)
        (.ok p) ∧ p.asValue.text = "b" := by
  let trees : FileTree → Prop := fun tree => tree = sampleTree "a"
  have htree : trees (sampleTree "a") := rfl
  have hd : sampleEngine.Reached trees busyDesk := by
    have hview : sampleEngine.Reached trees sampleDesk :=
      Reached.settle (.single (.start (.view (.str "/v.html") sampleOptions))) rfl
    exact (hview.tail (.start _)).tail (.resume htree _)
  have hj : Chooses false (.view (.str "/v.html") .null) := by
    refine iff_of_false ?_ (by decide)
    rintro ⟨fields, hfields, hcache⟩
    obtain rfl : [] = fields := Except.ok.inj hfields
    cases hcache
  have hfree : sampleEngine.HistoryFree (sampleTree "b") busyDesk (.view (.str "/v.html") .null) :=
    uncached_history_free hd.reaches hj
  refine ⟨hd.reaches, by decide +kernel, fun hr => ?_, hj, hfree, ?_⟩
  · have hall : (busyDesk.tasks.all fun task => task.phase.outcome?.isSome) = false := by
      decide +kernel
    obtain ⟨task, hmem, ho⟩ := List.all_eq_false.1 hall
    obtain ⟨t, ht⟩ := List.mem_iff_getElem?.1 hmem
    exact ho (Option.isSome_iff_ne_none.2 (hr t task ht))
  · let d := (sampleEngine.work (sampleTree "b") (.view (.str "/v.html") .null) {}).2
    have htext : ((Board.outcome? (σ := signature) d 0).bind
        fun o => o.toOption.map fun p => p.asValue.text) = some "b" := by decide +kernel
    obtain ⟨o, ho, hp⟩ := Option.bind_eq_some_iff.1 htext
    cases o with
    | error f => cases hp
    | ok p =>
      have hend : sampleEngine.JobEnds (sampleTree "b") (.view (.str "/v.html") .null) (.ok p) :=
        viewEnds_work ho
      exact ⟨p, (hfree.outcomes _).2 hend, Option.some.inj hp⟩

end CachedViews.Engine
