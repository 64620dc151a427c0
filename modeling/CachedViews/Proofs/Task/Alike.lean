import CachedViews.Proofs.Task.Orderly
import Mathlib.Data.List.Forall2

/-
# Boards that differ in the names of jobs

What a task does is told by the program of its job. Where two jobs have one program, it makes
no difference which of them a task was started for: every operation leads from boards that are
alike (`Board.Alike`) to boards that are alike. Their entries and their journals are the same,
and so are the outcomes of their tasks.

Key definitions: `Task.Alike`, `Board.Alike`.
Key theorems: `Board.Alike.run`, `Board.Alike.resume`, `Board.Alike.complete`,
`Board.Alike.outcome?`.
-/

namespace CachedViews

variable {σ : Signature} {program : σ.Job → Program σ σ.Result}

/-- Two tasks have come equally far, and their jobs have one program. -/
structure Task.Alike (program : σ.Job → Program σ σ.Result) (x y : Task σ) : Prop where
  place : y.place = x.place
  phase : y.phase = x.phase
  asked : y.cancelRequested = x.cancelRequested
  program : program y.job = program x.job

theorem Task.Alike.refl (program : σ.Job → Program σ σ.Result) (x : Task σ) :
    x.Alike program x := ⟨rfl, rfl, rfl, rfl⟩

theorem Task.Alike.both_asked {x y : Task σ} (h : x.Alike program y) :
    x.asked.Alike program y.asked where
  place := by rw [asked_place, asked_place, h.place]
  phase := by rw [asked_phase, asked_phase, h.phase]
  asked := by
    unfold Task.asked
    rw [h.phase]
    cases x.phase with
    | ended o => exact h.asked
    | _ => rfl
  program := by rw [asked_job, asked_job, h.program]

namespace Board

/-- Two boards with the same entries and the same journal, whose tasks are alike. -/
structure Alike (program : σ.Job → Program σ σ.Result) (b b' : Board σ) : Prop where
  tasks : List.Forall₂ (Task.Alike program) b.tasks b'.tasks
  entries : b'.entries = b.entries
  journal : b'.journal = b.journal

variable {b b' : Board σ} {w : World σ} {t : TaskId}

theorem Alike.refl (program : σ.Job → Program σ σ.Result) (b : Board σ) : Alike program b b :=
  ⟨List.forall₂_same.2 fun x _ => .refl program x, rfl, rfl⟩

/-! ### What is read from boards -/

theorem Alike.length (h : Alike program b b') : b'.tasks.length = b.tasks.length :=
  h.tasks.length_eq.symm

/-- A task has one that is like it on the other board. -/
theorem Alike.task (h : Alike program b b') (t : TaskId) :
    (b.tasks[t]? = none ∧ b'.tasks[t]? = none) ∨
      ∃ x y, b.tasks[t]? = some x ∧ b'.tasks[t]? = some y ∧ x.Alike program y := by
  by_cases ht : t < b.tasks.length
  · have ht' : t < b'.tasks.length := h.length ▸ ht
    exact .inr ⟨_, _, List.getElem?_eq_getElem ht, List.getElem?_eq_getElem ht',
      h.tasks.get ht ht'⟩
  · have hle : b.tasks.length ≤ t := Nat.le_of_not_lt ht
    exact .inl ⟨List.getElem?_eq_none hle, List.getElem?_eq_none (h.length ▸ hle)⟩

theorem Alike.outcome? (h : Alike program b b') (t : TaskId) : b'.outcome? t = b.outcome? t := by
  rcases h.task t with ⟨hx, hy⟩ | ⟨x, y, hx, hy, hxy⟩
  · rw [Board.outcome?, Board.outcome?, hx, hy]
  · rw [outcome?_eq hx, outcome?_eq hy, hxy.phase]

theorem Alike.place? (h : Alike program b b') (t : TaskId) : b'.place? t = b.place? t := by
  rcases h.task t with ⟨hx, hy⟩ | ⟨x, y, hx, hy, hxy⟩
  · rw [Board.place?, Board.place?, hx, hy]
  · rw [place?_eq hx, place?_eq hy, hxy.place]

theorem Alike.firstFault? (h : Alike program b b') (ts : List TaskId) :
    b'.firstFault? ts = b.firstFault? ts := by
  induction ts with
  | nil => rfl
  | cons t ts ih => rw [Board.firstFault?, Board.firstFault?, h.outcome?, ih]

theorem Alike.results? (h : Alike program b b') (ts : List TaskId) :
    b'.results? ts = b.results? ts := by
  induction ts with
  | nil => rfl
  | cons t ts ih => rw [Board.results?, Board.results?, h.outcome?, ih]

/-! ### Changing tasks -/

theorem Alike.update (h : Alike program b b') {f : Task σ → Task σ}
    (hf : ∀ x y, x.Alike program y → (f x).Alike program (f y)) (t : TaskId) :
    Alike program (b.update t f) (b'.update t f) where
  tasks := by
    obtain ⟨tasks, entries, journal⟩ := b
    obtain ⟨tasks', entries', journal'⟩ := b'
    have hall := h.tasks
    clear h
    simp only [Board.update] at hall ⊢
    induction hall generalizing t with
    | nil => simp
    | cons hxy hrest ih =>
      cases t with
      | zero => exact .cons (hf _ _ hxy) hrest
      | succ t => exact .cons hxy (ih t)
  entries := h.entries
  journal := h.journal

theorem Alike.setPhase (h : Alike program b b') (t : TaskId) (ph : Phase σ) :
    Alike program (b.setPhase t ph) (b'.setPhase t ph) :=
  h.update (f := fun task => { task with phase := ph })
    (fun _ _ hxy => ⟨hxy.place, rfl, hxy.asked, hxy.program⟩) t

theorem Alike.requestCancel (h : Alike program b b') (t : TaskId) :
    Alike program (b.requestCancel t) (b'.requestCancel t) :=
  h.update (f := Task.asked) (fun _ _ hxy => hxy.both_asked) t

theorem Alike.cancelAll (h : Alike program b b') (ts : List TaskId) :
    Alike program (ts.foldl Board.requestCancel b) (ts.foldl Board.requestCancel b') := by
  induction ts generalizing b b' with
  | nil => exact h
  | cons t ts ih => exact ih (h.requestCancel t)

/-- New tasks for the same jobs, or for jobs that have the same programs. -/
theorem Alike.append (h : Alike program b b') {new new' : List (Task σ)}
    (hnew : List.Forall₂ (Task.Alike program) new new') {es : List (Entry σ)}
    {js : List (Event σ)} :
    Alike program ⟨b.tasks ++ new, es, js⟩ ⟨b'.tasks ++ new', es, js⟩ :=
  ⟨List.rel_append h.tasks hnew, rfl, rfl⟩

variable [DecidableEq σ.Cache]

theorem Alike.stored? (h : Alike program b b') (c : σ.Cache) (k : String) :
    b'.stored? c k = b.stored? c k :=
  stored?_congr h.entries c k

/-! ### Running tasks -/

theorem Alike.halt (h : Alike program b b') (w : World σ) (p : Program σ σ.Result) :
    Board.halt w b' p = Board.halt w b p := by
  fun_induction Board.halt w b p <;> simp_all [Board.halt, h.stored?, h.outcome?]

theorem Alike.trace (h : Alike program b b') (w : World σ) (t : TaskId)
    (p : Program σ σ.Result) : Board.trace w t b' p = Board.trace w t b p := by
  fun_induction Board.trace w t b p <;> simp_all [Board.trace, h.stored?, h.outcome?]

theorem Alike.evict (h : Alike program b b') (t : TaskId) (f : Fault) :
    (b'.evict t f).entries = (b.evict t f).entries := by
  rcases hp : b.place? t with _ | ⟨c, k⟩
  · rw [evict_of_no_place hp, evict_of_no_place ((h.place? t).trans hp), h.entries]
  · rw [evict_of_place hp, evict_of_place ((h.place? t).trans hp), h.stored?]
    split
    · exact congrArg (erase c k) h.entries
    · exact h.entries

theorem Alike.entries_halt (h : Alike program b b') (t : TaskId) (stop : Halt σ) :
    stop.entries t b' = stop.entries t b := by
  cases stop with
  | ended o =>
    cases o with
    | ok r => exact h.entries
    | error f => exact h.evict t f
  | storing c k job next => simp only [Halt.entries, h.entries, h.length]
  | _ => exact h.entries

theorem Alike.events_halt (h : Alike program b b') (t : TaskId) (stop : Halt σ) :
    stop.events t b' = stop.events t b := by
  cases stop with
  | ended o =>
    cases o with
    | ok r => rfl
    | error f => simp only [Halt.events, h.place?, h.stored?]
  | storing c k job next => simp only [Halt.events, h.length]
  | _ => rfl

theorem Alike.halted (h : Alike program b b') (t : TaskId) (stop : Halt σ)
    (passed : List (Event σ)) :
    Alike program (Board.halted t stop passed b) (Board.halted t stop passed b') := by
  unfold Board.halted
  rw [h.entries_halt, h.events_halt, h.journal, h.length]
  exact (h.setPhase t (stop.phase b.tasks.length)).append
    (List.forall₂_same.2 fun x _ => .refl program x)

theorem Alike.finish (h : Alike program b b') (t : TaskId) (o : Except Fault σ.Result) :
    Alike program (b.finish t o) (b'.finish t o) := by
  rw [finish_eq, finish_eq]
  exact h.halted t _ _

/-- **A program does the same on boards that are alike.** -/
theorem Alike.run (h : Alike program b b') (w : World σ) (ht : t < b.tasks.length)
    (p : Program σ σ.Result) : Alike program (Board.run w t p b) (Board.run w t p b') := by
  rw [run_eq w t p b ht, run_eq w t p b' (h.length ▸ ht), h.halt, h.trace]
  exact h.halted t _ _

theorem Alike.stop (h : Alike program b b') (t : TaskId) (ph : Phase σ) :
    Alike program (b.stop t ph) (b'.stop t ph) := by
  cases ph with
  | fresh => exact h.setPhase t _
  | gathering ts next => exact (h.cancelAll ts).finish t (.error .cancelled)
  | _ => exact h.finish t (.error .cancelled)

theorem Alike.resume (h : Alike program b b') (w : World σ) (t : TaskId) :
    Alike program (b.resume program w t) (b'.resume program w t) := by
  unfold Board.resume
  rcases h.task t with ⟨hx, hy⟩ | ⟨x, y, hx, hy, hxy⟩
  · rw [hx, hy]
    exact h
  · have ht := lt_of_getElem? hx
    rw [hx, hy]
    simp only
    rw [hxy.phase, hxy.asked, hxy.program]
    cases x.phase with
    | ended o => exact h
    | fresh =>
      cases x.cancelRequested with
      | true => exact h.stop t _
      | false => exact h.run w ht _
    | performing op next =>
      cases x.cancelRequested with
      | true => exact h.stop t _
      | false => exact h
    | joining s next =>
      cases x.cancelRequested with
      | true => exact h.stop t _
      | false =>
        simp only [h.outcome?]
        rcases b.outcome? s with _ | (f | r)
        · exact h
        · exact h.finish t _
        · exact h.run w ht _
    | gathering ts next =>
      cases x.cancelRequested with
      | true => exact h.stop t _
      | false =>
        simp only [h.firstFault?, h.results?]
        cases b.firstFault? ts with
        | some f => exact h.finish t _
        | none =>
          cases b.results? ts with
          | some rs => exact h.run w ht _
          | none => exact h

theorem Alike.complete (h : Alike program b b') (w : World σ) (t : TaskId) :
    Alike program (b.complete w t) (b'.complete w t) := by
  unfold Board.complete
  rcases h.task t with ⟨hx, hy⟩ | ⟨⟨job, place, phase, asked⟩, y, hx, hy, hxy⟩
  · rw [hx, hy]
    exact h
  · obtain ⟨job', place', phase', asked'⟩ := y
    obtain ⟨hplace, hphase, hasked, -⟩ := hxy
    obtain rfl : place' = place := hplace
    obtain rfl : phase' = phase := hphase
    obtain rfl : asked' = asked := hasked
    rw [hx, hy]
    cases phase' with
    | performing op next =>
      cases asked' with
      | true => exact h
      | false => exact h.run w (lt_of_getElem? hx) _
    | _ => exact h

/-! ### Operations from outside -/

omit [DecidableEq σ.Cache] in
/-- Tasks for jobs with one program are started alike. -/
theorem Alike.spawn (h : Alike program b b') {job job' : σ.Job} (hj : program job' = program job) :
    Alike program (b.spawn job).2 (b'.spawn job').2 := by
  have hnew : Task.Alike program { job } { job := job' } := ⟨rfl, rfl, rfl, hj⟩
  unfold Board.spawn
  rw [h.entries, h.journal]
  exact h.append (.cons hnew .nil)

theorem Alike.populate (h : Alike program b b') (c : σ.Cache) (k : String) (job : σ.Job) :
    Alike program (b.populate c k job).2 (b'.populate c k job).2 := by
  unfold Board.populate
  rw [h.entries, h.journal, h.length]
  exact h.append (.cons (.refl program _) .nil)

omit [DecidableEq σ.Cache] in
theorem Alike.cancel (h : Alike program b b') (t : TaskId) :
    Alike program (b.cancel t).2 (b'.cancel t).2 := by
  unfold Board.cancel
  rw [h.outcome?]
  rcases h.task t with ⟨hx, hy⟩ | ⟨x, y, hx, hy, -⟩
  · rw [hx, hy]
    cases b.outcome? t <;> exact h
  · rw [hx, hy]
    cases b.outcome? t with
    | some o => exact h
    | none => exact h.requestCancel t

theorem Alike.invalidate (h : Alike program b b') (c : σ.Cache) (k : String) :
    Alike program (b.invalidate c k).2 (b'.invalidate c k).2 :=
  ⟨h.tasks, congrArg (erase c k) h.entries, h.journal⟩

theorem Alike.clear (h : Alike program b b') (c : σ.Cache) :
    Alike program (b.clear c) (b'.clear c) :=
  ⟨h.tasks, congrArg (List.filter _) h.entries, congrArg (Event.cleared c :: ·) h.journal⟩

end Board

end CachedViews
