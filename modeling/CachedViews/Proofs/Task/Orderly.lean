import CachedViews.Proofs.Task.Moves

/-
# Boards whose caches are in order

On every board that a run reaches, the task that is stored under a key was started
for that key and is the last one that was, and the tasks that another one gathers
are no shared tasks (`Board.Orderly`). Every operation on boards keeps this order,
whatever the programs are.

Key definitions: `Board.Orderly`.
Key theorems: `Board.stored_run`, `Board.Orderly.step`, `Board.Reaches.orderly`,
`Board.Step.not_stored`.
-/

namespace CachedViews.Board

variable {σ : Signature} [DecidableEq σ.Cache]

/-- Stored tasks are in their places and the last of their places, and the tasks that
a task gathers are its own. -/
structure Orderly (b : Board σ) : Prop where
  stored : ∀ (c : σ.Cache) (k : String) (s : Nat), b.stored? c k = some s →
    b.place? s = some (c, k)
  newest : ∀ (c : σ.Cache) (k : String) (s u : Nat), b.stored? c k = some s →
    b.place? u = some (c, k) → u ≤ s
  gathered : ∀ (t : Nat) (task : Task σ) (ts : List Nat)
    (next : List σ.Result → Program σ σ.Result), b.tasks[t]? = some task →
    task.phase = .gathering ts next → ∀ u ∈ ts, u < b.tasks.length ∧ b.place? u = none

variable {program : σ.Job → Program σ σ.Result} {w : World σ} {t u s : Nat}
  {p : Program σ σ.Result} {b b' : Board σ} {task : Task σ} {c : σ.Cache} {k : String}

omit [DecidableEq σ.Cache] in
theorem lt_of_place? {pl : σ.Cache × String} (h : b.place? t = some pl) : t < b.tasks.length := by
  unfold place? at h
  obtain ⟨task, ht, -⟩ := Option.bind_eq_some_iff.1 h
  exact lt_of_getElem? ht

omit [DecidableEq σ.Cache] in
theorem Grows.place? (h : Grows b b') (ht : t < b.tasks.length) : b'.place? t = b.place? t := by
  obtain ⟨task', ht', l⟩ := h t _ (List.getElem?_eq_getElem ht)
  rw [place?_eq ht', place?_eq (List.getElem?_eq_getElem ht), l.place]

omit [DecidableEq σ.Cache] in
theorem Grows.keeps_place {pl : σ.Cache × String} (h : Grows b b')
    (hp : b.place? t = some pl) : b'.place? t = some pl :=
  (h.place? (lt_of_place? hp)).trans hp

theorem orderly_empty : Orderly ({} : Board σ) :=
  ⟨fun _ _ _ h => by simp [stored?] at h, fun _ _ _ _ h => by simp [stored?] at h,
    fun _ _ _ _ h => by simp at h⟩

theorem Orderly.lt (hb : Orderly b) (h : b.stored? c k = some s) : s < b.tasks.length :=
  lt_of_place? (hb.stored c k s h)

/-! ### A run -/

/-- The places of the tasks behind a run. Only a task that was stored has a new one. -/
theorem place?_run (ht : t < b.tasks.length) (u : Nat) : (run w t p b).place? u =
    if u < b.tasks.length then b.place? u
    else match halt w b p with
      | .storing c k _ _ => if u = b.tasks.length then some (c, k) else none
      | _ => none := by
  by_cases hu : u < b.tasks.length
  · rw [if_pos hu]
    by_cases hut : u = t
    · subst hut
      rw [place?_eq (getElem?_run_self (List.getElem?_eq_getElem ht)),
        place?_eq (List.getElem?_eq_getElem ht)]
    · rw [place?, getElem?_run_of_ne ht hu hut, place?]
  · rw [if_neg hu, place?, getElem?_run_new ht (Nat.le_of_not_lt hu)]
    cases halt w b p with
    | storing c k job next =>
      by_cases hul : u = b.tasks.length
      · simp [Halt.started, hul]
      · have : u - b.tasks.length ≠ 0 := by omega
        simp [Halt.started, hul, this]
    | gathering jobs next =>
      simp only [Halt.started, List.getElem?_map]
      cases jobs[u - b.tasks.length]? <;> rfl
    | ended o => rfl
    | performing op next => rfl
    | joining s next => rfl

/-- What is stored behind a run was stored before and is not the task that ran and
failed, or it is the new task that was stored. -/
theorem stored_run (hb : Orderly b) (ht : t < b.tasks.length)
    (h : (run w t p b).stored? c k = some s) :
    (b.stored? c k = some s ∧ s < b.tasks.length ∧
      (s = t → ∀ f, halt w b p ≠ .ended (.error f))) ∨
    (s = b.tasks.length ∧ ∃ job next, halt w b p = .storing c k job next) := by
  have hs := stored?_run (w := w) (p := p) ht c k
  rw [h] at hs
  cases hh : halt w b p with
  | ended o =>
    rw [hh] at hs
    cases o with
    | ok r => exact .inl ⟨hs.symm, hb.lt hs.symm, fun _ _ => by simp⟩
    | error f =>
      simp only at hs
      split at hs
      · simp at hs
      · rename_i hn
        refine .inl ⟨hs.symm, hb.lt hs.symm, fun hst => ?_⟩
        subst hst
        exact absurd ⟨hb.stored c k s hs.symm, hs.symm⟩ hn
  | performing op next =>
    rw [hh] at hs
    exact .inl ⟨hs.symm, hb.lt hs.symm, fun _ _ => by simp⟩
  | joining s' next =>
    rw [hh] at hs
    exact .inl ⟨hs.symm, hb.lt hs.symm, fun _ _ => by simp⟩
  | gathering jobs next =>
    rw [hh] at hs
    exact .inl ⟨hs.symm, hb.lt hs.symm, fun _ _ => by simp⟩
  | storing c' k' job next =>
    rw [hh] at hs
    simp only at hs
    split at hs
    · rename_i he
      obtain ⟨rfl, rfl⟩ := he
      exact .inr ⟨by simpa using hs, job, next, rfl⟩
    · exact .inl ⟨hs.symm, hb.lt hs.symm, fun _ _ => by simp⟩

theorem Orderly.run (hb : Orderly b) (ht : b.tasks[t]? = some task) :
    Orderly (run w t p b) where
  stored c k s h := by
    have hlt := lt_of_getElem? ht
    rcases stored_run hb hlt h with ⟨h, hs, -⟩ | ⟨rfl, job, next, hh⟩
    · rw [place?_run hlt, if_pos hs]
      exact hb.stored c k s h
    · simp [place?_run hlt, hh]
  newest c k s u h hu := by
    have hlt := lt_of_getElem? ht
    rw [place?_run hlt] at hu
    by_cases hul : u < b.tasks.length
    · rw [if_pos hul] at hu
      rcases stored_run hb hlt h with ⟨h, -⟩ | ⟨rfl, -⟩
      · exact hb.newest c k s u h hu
      · omega
    · -- a task that is new under the key is the one that is stored
      rw [if_neg hul] at hu
      cases hh : halt w b p with
      | storing c' k' job next =>
        rw [hh] at hu
        simp only [Option.ite_none_right_eq_some, Option.some.injEq, Prod.mk.injEq] at hu
        obtain ⟨rfl, rfl, rfl⟩ := hu
        rw [stored?_run hlt, hh] at h
        simp only [and_self, if_true, Option.some.injEq] at h
        exact Nat.le_of_eq h
      | ended o => simp [hh] at hu
      | performing op next => simp [hh] at hu
      | joining s' next => simp [hh] at hu
      | gathering jobs next => simp [hh] at hu
  gathered u x ts next hu hx v hv := by
    have hlt := lt_of_getElem? ht
    rw [length_run hlt, place?_run hlt]
    rcases getElem?_run_cases ht hu with ⟨rfl, rfl⟩ | ⟨-, hu⟩ | ⟨-, hnew⟩
    · cases hh : halt w b p with
      | gathering jobs next' =>
        simp only [hh, Halt.phase, Phase.gathering.injEq] at hx
        rw [← hx.1, List.mem_range'_1] at hv
        refine ⟨by simpa [Halt.started] using hv.2, ?_⟩
        rw [if_neg (by omega)]
      | ended o => simp [hh, Halt.phase] at hx
      | performing op next => simp [hh, Halt.phase] at hx
      | joining s next => simp [hh, Halt.phase] at hx
      | storing c k job next => simp [hh, Halt.phase] at hx
    · obtain ⟨hv, hp⟩ := hb.gathered u x ts next hu hx v hv
      exact ⟨by omega, by rw [if_pos hv]; exact hp⟩
    · simp [fresh_of_started hnew] at hx

/-! ### Steps -/

/-- A board with the same tasks up to phases, and no more entries, is as orderly. -/
theorem Orderly.of_keeps (hb : Orderly b) (hg : Grows b b')
    (hl : b'.tasks.length = b.tasks.length)
    (hs : ∀ c k s, b'.stored? c k = some s → b.stored? c k = some s)
    (hp : ∀ (t : Nat) (task : Task σ) (ts : List Nat) (next : List σ.Result → Program σ σ.Result),
      b'.tasks[t]? = some task → task.phase = .gathering ts next →
      ∃ task, b.tasks[t]? = some task ∧ task.phase = .gathering ts next) : Orderly b' where
  stored c k s h := hg.keeps_place (hb.stored c k s (hs c k s h))
  newest c k s u h hu := by
    have hlt : u < b.tasks.length := hl ▸ lt_of_place? hu
    exact hb.newest c k s u (hs c k s h) (hg.place? hlt ▸ hu)
  gathered t task ts next ht hx u hu := by
    obtain ⟨task', ht', hx'⟩ := hp t task ts next ht hx
    obtain ⟨hlt, hpu⟩ := hb.gathered t task' ts next ht' hx' u hu
    exact ⟨hl ▸ hlt, by rw [hg.place? hlt]; exact hpu⟩

/-- New fresh tasks do not disturb the order, if the entries stay. -/
theorem Orderly.of_append (hb : Orderly b) {new : List (Task σ)}
    (ht : b'.tasks = b.tasks ++ new) (he : b'.entries = b.entries)
    (hn : ∀ x ∈ new, x.place = none ∧ x.phase = .fresh) : Orderly b' where
  stored c k s h := by
    have hs : b.stored? c k = some s := (stored?_congr he c k).symm.trans h
    exact (grows_of_append ht).keeps_place (hb.stored c k s hs)
  newest c k s u h hu := by
    have hs : b.stored? c k = some s := (stored?_congr he c k).symm.trans h
    obtain ⟨x, hx, hp⟩ := Option.bind_eq_some_iff.1 hu
    rcases getElem?_of_append ht hx with hx | ⟨-, hx⟩
    · exact hb.newest c k s u hs ((place?_eq hx).trans hp)
    · simp [(hn x hx).1] at hp
  gathered t x ts next hx hp u hu := by
    have hg : Grows b b' := grows_of_append ht
    rcases getElem?_of_append ht hx with hx | ⟨-, hx⟩
    · obtain ⟨hu', hpu⟩ := hb.gathered t x ts next hx hp u hu
      rw [hg.place? hu']
      exact ⟨by have := hg.length_le; omega, hpu⟩
    · simp [(hn x hx).2] at hp

theorem stored?_cancelAll (ts : List TaskId) (b : Board σ) (c : σ.Cache) (k : String) :
    (ts.foldl requestCancel b).stored? c k = b.stored? c k :=
  stored?_congr (entries_cancelAll ts b) c k

theorem Orderly.cancelAll (hb : Orderly b) (ts : List TaskId) :
    Orderly (ts.foldl requestCancel b) := by
  refine hb.of_keeps (grows_cancelAll ts b) (length_cancelAll ts b)
    (fun c k s h => stored?_cancelAll ts b c k ▸ h) fun t x us next hx hp => ?_
  obtain ⟨x', hx', -, -, hph⟩ := task_of_cancelAll hx
  exact ⟨x', hx', hph.symm.trans hp⟩

theorem Orderly.setPhase (hb : Orderly b) (ht : b.tasks[t]? = some task)
    (ho : task.phase.outcome? = none) (o : Except Fault σ.Result) :
    Orderly (b.setPhase t (.ended o)) := by
  refine hb.of_keeps (grows_setPhase ht ho (by simp)) (length_update t _ b)
    (fun c k s h => h) fun u x us next hx hp => ?_
  rcases task_of_setPhase hx with ⟨-, x', -, rfl⟩ | hx
  · simp at hp
  · exact ⟨x, hx, hp⟩

omit [DecidableEq σ.Cache] in
/-- A task that stops was there, with the same phase, before others were asked to stop. -/
theorem getElem?_stopped (ht : b.tasks[t]? = some task) (ts : List TaskId) :
    ∃ task', (ts.foldl requestCancel b).tasks[t]? = some task' ∧ task'.phase = task.phase ∧
      task'.place = task.place ∧ (t ∉ ts → task' = task) := by
  rw [getElem?_cancelAll, ht]
  split
  · exact ⟨_, rfl, task.asked_phase, task.asked_place, fun hn => absurd ‹_› hn⟩
  · exact ⟨task, rfl, rfl, rfl, fun _ => rfl⟩

theorem Orderly.move (hb : Orderly b) (h : Move program w t b b') : Orderly b' := by
  cases h with
  | nothing => exact hb
  | goesOn h hc hp => exact hb.run h
  | dropped h hc hp => exact hb.setPhase h (by simp [hp, Phase.outcome?]) _
  | @stopped task ts h hc hn ho hts =>
    obtain ⟨task', h', -⟩ := getElem?_stopped h ts
    exact (hb.cancelAll ts).run h'

theorem Orderly.populate (hb : Orderly b) (c : σ.Cache) (k : String) (job : σ.Job) :
    Orderly (b.populate c k job).2 where
  stored c' k' s h := by
    rw [stored?_populate] at h
    split at h
    · rename_i he
      obtain ⟨rfl, rfl⟩ := he
      obtain rfl : b.tasks.length = s := Option.some.inj h
      simp [place?, Board.populate]
    · have hg : Grows b (b.populate c k job).2 := grows_of_append rfl
      exact hg.keeps_place (hb.stored c' k' s h)
  newest c' k' s u h hu := by
    have hg : Grows b (b.populate c k job).2 := grows_of_append rfl
    have hlen : (b.populate c k job).2.tasks.length = b.tasks.length + 1 := by
      simp [Board.populate]
    have hu' := lt_of_place? hu
    rw [stored?_populate] at h
    split at h
    · have hs : b.tasks.length = s := Option.some.inj h
      omega
    · rename_i hne
      by_cases hlt : u < b.tasks.length
      · exact hb.newest c' k' s u h (hg.place? hlt ▸ hu)
      · -- the new task has its place under another key
        have hul : u = b.tasks.length := by omega
        subst hul
        have hck : some (c, k) = some (c', k') := by simpa [place?, Board.populate] using hu
        exact absurd (by simpa using hck) hne
  gathered t x ts next hx hp u hu := by
    have ht : (b.populate c k job).2.tasks = b.tasks ++ [{ job, place := some (c, k) }] := rfl
    have hg : Grows b (b.populate c k job).2 := grows_of_append ht
    rcases getElem?_of_append ht hx with hx | ⟨-, hx⟩
    · obtain ⟨hu', hpu⟩ := hb.gathered t x ts next hx hp u hu
      rw [hg.place? hu']
      exact ⟨by have := hg.length_le; omega, hpu⟩
    · obtain rfl := List.mem_singleton.1 hx
      simp at hp

theorem Orderly.spawn (hb : Orderly b) (job : σ.Job) : Orderly (b.spawn job).2 :=
  hb.of_append rfl rfl fun x hx => by
    obtain rfl : x = { job := job } := by simpa using hx
    exact ⟨rfl, rfl⟩

theorem Orderly.cancel (hb : Orderly b) (t : TaskId) : Orderly (b.cancel t).2 := by
  unfold Board.cancel
  split
  · exact hb.cancelAll [t]
  · exact hb

theorem Orderly.invalidate (hb : Orderly b) (c : σ.Cache) (k : String) :
    Orderly (b.invalidate c k).2 := by
  refine hb.of_keeps (grows_of_tasks rfl) rfl (fun c' k' s h => ?_) fun t x ts next hx hp =>
    ⟨x, hx, hp⟩
  rw [stored?_invalidate] at h
  split at h
  · simp at h
  · exact h

theorem Orderly.clear (hb : Orderly b) (c : σ.Cache) : Orderly (b.clear c) := by
  refine hb.of_keeps (grows_of_tasks rfl) rfl (fun c' k' s h => ?_) fun t x ts next hx hp =>
    ⟨x, hx, hp⟩
  rw [stored?_clear] at h
  split at h
  · simp at h
  · exact h

theorem Orderly.step (hb : Orderly b) (h : Step program b b') : Orderly b' := by
  cases h with
  | resume w t => exact hb.move (move_resume program w t b)
  | complete w t => exact hb.move (move_complete program w t b)
  | spawn job => exact hb.spawn job
  | populate c k job => exact hb.populate c k job
  | cancel t => exact hb.cancel t
  | invalidate c k => exact hb.invalidate c k
  | clear c => exact hb.clear c

theorem Reaches.orderly (h : Reaches program {} b) : Orderly b := by
  induction h with
  | refl => exact orderly_empty
  | tail _ hs ih => exact ih.step hs

/-! ### A task that is not stored any more -/

theorem Move.stored_old (h : Move program w t b b') (hb : Orderly b) (hs : s < b.tasks.length)
    (h' : b'.stored? c k = some s) : b.stored? c k = some s := by
  cases h with
  | nothing => exact h'
  | goesOn ht hc hp =>
    rcases stored_run hb (lt_of_getElem? ht) h' with ⟨h, -⟩ | ⟨rfl, -⟩
    · exact h
    · exact absurd hs (Nat.lt_irrefl _)
  | dropped ht hc hp => exact h'
  | @stopped task ts ht hc hn ho hts =>
    have hlt : t < (ts.foldl requestCancel b).tasks.length := by
      rw [length_cancelAll]
      exact lt_of_getElem? ht
    rcases stored_run (hb.cancelAll ts) hlt h' with ⟨h, -⟩ | ⟨rfl, -⟩
    · exact (stored?_cancelAll ts b c k).symm.trans h
    · simp [length_cancelAll] at hs

/-- A task that is stored behind a step was stored before it, or is new. -/
theorem Step.stored_old (h : Step program b b') (hb : Orderly b) (hs : s < b.tasks.length)
    (h' : b'.stored? c k = some s) : b.stored? c k = some s := by
  cases h with
  | resume w t => exact (move_resume program w t b).stored_old hb hs h'
  | complete w t => exact (move_complete program w t b).stored_old hb hs h'
  | spawn job => exact h'
  | populate c' k' job =>
    rw [stored?_populate] at h'
    split at h'
    · obtain rfl := Option.some.inj h'
      exact absurd hs (Nat.lt_irrefl _)
    · exact h'
  | cancel t =>
    unfold Board.cancel at h'
    split at h'
    · exact (stored?_cancelAll [t] b c k).symm.trans h'
    · exact h'
  | invalidate c' k' =>
    rw [stored?_invalidate] at h'
    split at h'
    · simp at h'
    · exact h'
  | clear c' =>
    rw [stored?_clear] at h'
    split at h'
    · simp at h'
    · exact h'

/-- A task that was started and is stored under no key is stored under none later. -/
theorem Step.not_stored (h : Step program b b') (hb : Orderly b) (hs : s < b.tasks.length)
    (hn : ∀ c k, b.stored? c k ≠ some s) : ∀ c k, b'.stored? c k ≠ some s :=
  fun c k h' => hn c k (h.stored_old hb hs h')

end CachedViews.Board
