import CachedViews.Proofs.PathCache.Failing

/-
# Shared tasks that are asked to stop

A shared task that is asked to stop ends as cancelled when it goes on next. If it has
begun by then, its own program sees the end and removes it from the cache. If it has not
run yet, nothing of its program runs any more: it ends where it is and stays stored, so
all later requests for its key fail as it did. These are the only failures that a
cache ever holds (`PathCache.cancelled_evicted_iff`).

Key definitions: `PathCache.Stopping`, `PathCache.FailedUnbegun`.
Key theorems: `PathCache.Stopping.step`, `PathCache.FailedUnbegun.step`,
`PathCache.cancelled_evicted_iff`, `PathCache.cancelled_fresh_stays`.
-/

namespace CachedViews.PathCache

variable {ρ : Type} {cwd : String} {b b' : Cache ρ} {t s : Nat} {w : World (signature ρ)}
  {task : Task (signature ρ)}

/-- A task that was asked to stop, and ends as cancelled if at all. One that has begun is
stored under no key when it has ended. -/
def Stopping (begun : Prop) (s : Nat) (b : Cache ρ) : Prop :=
  ∃ task, b.tasks[s]? = some task ∧ task.cancelRequested = true ∧
    (begun → task.phase ≠ .fresh) ∧
    ∀ o, task.phase = .ended o →
      o = .error .cancelled ∧ (begun → ∀ k, b.stored? paths k ≠ some s)

/-- The failures that are stored are those of tasks that never began. -/
def FailedUnbegun (b : Cache ρ) : Prop :=
  ∀ (k : String) (s : Nat) (f : Fault), b.stored? paths k = some s →
    b.outcome? s = some (.error f) → f = .cancelled ∧ invocations s b = 0

/-! ### A task that stops -/

/-- A shared task that fails while it runs is not stored behind the run. -/
theorem not_stored_failed (hb : Board.Orderly b) (ht : t < b.tasks.length)
    {p : Program (signature ρ) (signature ρ).Result} {f : Fault}
    (hh : Board.halt w b p = .ended (.error f)) (k : String) :
    (Board.run w t p b).stored? paths k ≠ some t := by
  intro hs
  rcases Board.stored_run hb ht hs with ⟨-, -, hne⟩ | ⟨he, -⟩
  · exact hne rfl f hh
  · omega

theorem Stopping.step {begun : Prop} (hd : Stopping begun s b) (hb : Board.Orderly b)
    (h : Board.Step (program cwd) b b') : Stopping begun s b' := by
  obtain ⟨task, ht, hc, hf, hend⟩ := hd
  have hlt := Board.lt_of_getElem? ht
  have hkeep : ∀ o, task.phase = .ended o →
      o = .error .cancelled ∧ (begun → ∀ k, b'.stored? paths k ≠ some s) := by
    intro o ho
    obtain ⟨hoe, hns⟩ := hend o ho
    exact ⟨hoe, fun hbeg k => h.not_stored hb hlt (fun _ k => hns hbeg k) paths k⟩
  rcases h.at_task ht with he | he | ⟨w, hm⟩
  · exact ⟨task, he, hc, hf, hkeep⟩
  · exact ⟨task.asked, he, task.asked_cancelRequested hc, by simpa using hf,
      fun o ho => hkeep o (by simpa using ho)⟩
  · cases hm with
    | nothing => exact ⟨task, ht, hc, hf, hend⟩
    | goesOn hx hcx hp =>
      obtain rfl := Option.some.inj (ht.symm.trans hx)
      simp [hc] at hcx
    | dropped hx hcx hp =>
      obtain rfl := Option.some.inj (ht.symm.trans hx)
      refine ⟨{ task with phase := .ended (.error .cancelled) }, ?_, hc, fun _ => by simp,
        fun o ho => ⟨?_, fun hbeg => absurd hp (hf hbeg)⟩⟩
      · rw [Board.getElem?_setPhase, if_pos rfl, ht]
        rfl
      · exact (Phase.ended.inj ho).symm
    | @stopped x ts hx hcx hn ho hts =>
      obtain ⟨y, hy, -⟩ := Board.getElem?_stopped hx ts
      obtain ⟨task', ht', l⟩ := h.grows s task ht
      have hself := Board.getElem?_run_self (w := w) (p := .done (.error .cancelled)) hy
      obtain rfl := Option.some.inj (ht'.symm.trans hself)
      refine ⟨_, ht', l.asked hc, fun _ => by simp [Board.halt, Halt.phase],
        fun o ho => ⟨(Phase.ended.inj ho).symm, fun _ k => ?_⟩⟩
      exact not_stored_failed (hb.cancelAll ts) (Board.lt_of_getElem? hy) rfl k

theorem Stopping.after {begun : Prop} (hd : Stopping begun s b) (hb : Board.Orderly b)
    (cwd : String) (as : List (Action ρ)) : Stopping begun s (after cwd b as) :=
  (keeps_after (P := fun b => Board.Orderly b ∧ Stopping begun s b)
    (fun _ _ hs ⟨hb, hd⟩ => ⟨hb.step hs, hd.step hb hs⟩) ⟨hb, hd⟩ as).2

/-- It has ended as cancelled if at all, and it is gone then if it had begun. -/
theorem Stopping.ended {begun : Prop} (hd : Stopping begun s b)
    {o : Except Fault (signature ρ).Result} (ho : b.outcome? s = some o) :
    o = .error .cancelled ∧ (begun → ∀ k, b.stored? paths k ≠ some s) := by
  obtain ⟨x, hx, -, -, hend⟩ := hd
  obtain ⟨y, hy, hyo⟩ := Board.outcome?_eq_some.1 ho
  obtain rfl := Option.some.inj (hx.symm.trans hy)
  exact hend o hyo

/-! ### What fails and stays -/

/-- The limit of a job is no more than what its program may note. -/
theorem limit_le_of_notesAtMost {job : Job ρ} {n : Nat} (h : (program cwd job).NotesAtMost n) :
    limit job ≤ n := by
  match job with
  | .shared compute =>
    obtain ⟨m, rfl, -⟩ := h
    exact Nat.succ_le_succ (Nat.zero_le m)
  | .request key compute false =>
    obtain ⟨m, rfl, -⟩ := h
    exact Nat.succ_le_succ (Nat.zero_le m)
  | .request key compute true => exact Nat.zero_le n

/-- A task that has not run yet has invoked nothing. -/
theorem invocations_fresh (hb : Board.Budgeted (program cwd) limit b)
    (ht : b.tasks[t]? = some task) (hf : task.phase = .fresh) : invocations t b = 0 := by
  obtain ⟨n, hn, hle⟩ := hb.within t task ht
  rw [hf] at hn
  have hl : limit task.job ≤ n := limit_le_of_notesAtMost hn
  show Board.noteCount t b.journal = 0
  omega

theorem FailedUnbegun.step (hu : FailedUnbegun b) (hb : Board.Orderly b)
    (hn : Board.Budgeted (program cwd) limit b) (h : Board.Step (program cwd) b b') :
    FailedUnbegun b' := by
  intro k s f hs ho
  obtain ⟨x, hx, hxo⟩ := Board.outcome?_eq_some.1 ho
  by_cases hlt : s < b.tasks.length
  · have hy := List.getElem?_eq_getElem hlt
    have hsb := h.stored_old hb hlt hs
    rcases hyo : b.outcome? s with _ | o
    · -- the task ends in this step
      rw [Board.outcome?_eq hy] at hyo
      rcases h.at_task hy with he | he | ⟨w, hm⟩
      · obtain rfl := Option.some.inj (hx.symm.trans he)
        simp [hxo, Phase.outcome?] at hyo
      · obtain rfl := Option.some.inj (hx.symm.trans he)
        rw [Task.asked_phase] at hxo
        simp [hxo, Phase.outcome?] at hyo
      · cases hm with
        | nothing =>
          obtain rfl := Option.some.inj (hx.symm.trans hy)
          simp [hxo, Phase.outcome?] at hyo
        | goesOn hz hc hp =>
          rw [Board.outcome?_run_self hz] at ho
          exact absurd hs (not_stored_failed hb hlt (Board.eq_ended_of_outcome? ho) k)
        | dropped hz hc hp =>
          rw [Board.getElem?_setPhase, if_pos rfl, hz] at hx
          obtain rfl := Option.some.inj hx
          have hinv : invocations s b = 0 := invocations_fresh hn hz hp
          exact ⟨(Except.error.inj (Phase.ended.inj hxo)).symm, hinv⟩
        | @stopped y ts hz hc hne hoy hts =>
          refine absurd hs (not_stored_failed (hb.cancelAll ts) ?_ rfl k)
          rw [Board.length_cancelAll]
          exact hlt
    · obtain rfl : o = .error f := Option.some.inj ((h.grows.outcome? hyo).symm.trans ho)
      obtain ⟨hf, hi⟩ := hu k s f hsb hyo
      refine ⟨hf, (h.noteCount_of_ended hy ?_).trans hi⟩
      rw [← Board.outcome?_eq hy, hyo]
      simp
  · rw [(h.born (Nat.le_of_not_lt hlt) hx).1] at hxo
    simp at hxo

theorem failedUnbegun_after (past : List (Action ρ)) :
    FailedUnbegun (after cwd ({} : Cache ρ) past) :=
  (keeps_after (P := fun b => Board.Orderly b ∧ Board.Budgeted (program cwd) limit b ∧
      FailedUnbegun b)
    (fun _ _ hs ⟨hb, hn, hu⟩ => ⟨hb.step hs, hn.step (notesAtMost_program cwd) hs, hu.step hb hn hs⟩)
    ⟨Board.orderly_empty, budgeted_empty, fun k s f h => by simp [Board.stored?] at h⟩ past).2.2

theorem stopping_cancel (ht : b.tasks[s]? = some task)
    (ho : task.phase.outcome? = none) :
    Board.cancel s b = (true, Board.requestCancel b s) ∧
      Stopping (task.phase ≠ .fresh) s (Board.cancel s b).2 := by
  have hc : Board.cancel s b = (true, Board.requestCancel b s) := by
    unfold Board.cancel
    rw [Board.outcome?_eq ht, ho, ht]
  refine ⟨hc, { task with cancelRequested := true }, ?_, rfl, id, fun o hoe => ?_⟩
  · rw [hc, Board.getElem?_requestCancel, if_pos rfl, ht, ← Task.asked_of_not_ended ho]
    rfl
  · simp [show task.phase = .ended o from hoe, Phase.outcome?] at ho

/-- A stored task that is asked to stop before it has run is stored still when it goes on. -/
theorem stored?_resume_unbegun (cwd : String) {k : String} (hs : b.stored? paths k = some s)
    (ht : b.tasks[s]? = some task) (hf : task.phase = .fresh) (hc : task.cancelRequested = true) :
    (resume cwd s b).stored? paths k = some s := by
  have hr : resume cwd s b = Board.setPhase s (.ended (.error .cancelled)) b := by
    unfold resume Board.resume
    rw [ht]
    simp only [hf, hc]
    rfl
  rw [hr]
  exact hs

/-! ### When a cancelled task leaves -/

/-- **A cancelled task leaves its cache exactly if it had begun.** In every state of a run,
a failure that is stored is the cancellation of a task that has invoked nothing. An
unfinished task that is stored can be asked to stop, and it can then end as cancelled only.
That it is stored nowhere whenever it has ended holds if and only if it had begun when it
was asked; and if it had, later requests for the key are answered by newer tasks. -/
theorem cancelled_evicted_iff (cwd : String) (past : List (Action ρ)) :
    let b := after cwd ({} : Cache ρ) past
    (∀ k s f, b.stored? paths k = some s → b.outcome? s = some (.error f) →
      f = .cancelled ∧ invocations s b = 0) ∧
    ∀ (k : String) (s : Nat) (task : Task (signature ρ)), b.stored? paths k = some s →
      b.tasks[s]? = some task → task.phase.outcome? = none →
      (Board.cancel s b).1 = true ∧
      let b₁ := (Board.cancel s b).2
      Board.outcome? (resume cwd s b₁) s = some (.error .cancelled) ∧
      (∀ future o, (after cwd b₁ future).outcome? s = some o → o = .error .cancelled) ∧
      ((∀ future, (after cwd b₁ future).outcome? s ≠ none →
        ∀ k', (after cwd b₁ future).stored? paths k' ≠ some s) ↔ task.phase ≠ .fresh) ∧
      (task.phase ≠ .fresh → ∀ future future' u compute, (after cwd b₁ future).outcome? s ≠ none →
        let b₂ := after cwd (after cwd b₁ future) future'
        Requests cwd u k compute b₂ →
        ∃ s', s < s' ∧ Board.stored? (resume cwd u b₂) paths k = some s' ∧
          AnsweredBy cwd u s' (resume cwd u b₂)) := by
  intro b
  have hb : Board.Orderly b := orderly_after cwd Board.orderly_empty past
  refine ⟨failedUnbegun_after past, fun k s task hs ht ho => ?_⟩
  obtain ⟨hc, hd⟩ := stopping_cancel ht ho
  refine ⟨congrArg Prod.fst hc, ?_⟩
  intro b₁
  have hb₁ : Board.Orderly b₁ := hb.cancel s
  have hgone : task.phase ≠ .fresh → ∀ future, (after cwd b₁ future).outcome? s ≠ none →
      ∀ k', (after cwd b₁ future).stored? paths k' ≠ some s := by
    intro hbeg future hend
    obtain ⟨o, ho⟩ := Option.ne_none_iff_exists'.1 hend
    exact ((hd.after hb₁ cwd future).ended ho).2 hbeg
  have ht₁ : b₁.tasks[s]? = some { task with cancelRequested := true } := by
    show (Board.cancel s b).2.tasks[s]? = _
    rw [hc, Board.getElem?_requestCancel, if_pos rfl, ht, ← Task.asked_of_not_ended ho]
    rfl
  have hend₁ : Board.outcome? (resume cwd s b₁) s = some (.error .cancelled) :=
    Board.outcome?_resume_asked _ _ ht₁ rfl ho
  refine ⟨hend₁, fun future o hend => ((hd.after hb₁ cwd future).ended hend).1,
    ⟨fun hall hf => ?_, hgone⟩, ?_⟩
  · -- a task that had not run ends in its next step and stays where it is
    have hs₁ : b₁.stored? paths k = some s := by
      refine (Board.stored?_congr ?_ paths k).trans hs
      show (Board.cancel s b).2.entries = b.entries
      rw [hc]
      rfl
    have hstay := stored?_resume_unbegun cwd hs₁ ht₁ hf rfl
    have hn : Board.outcome? (resume cwd s b₁) s ≠ none := by simp [hend₁]
    exact hall [.resume s] hn k hstay
  · intro hbeg future future' u compute hend b₂ hr
    have hpast : after cwd {} (past ++ (.cancel s :: future)) = after cwd b₁ future :=
      after_append cwd {} past (.cancel s :: future)
    have hg : Board.Grows b (after cwd b₁ future) := grows_after cwd b (.cancel s :: future)
    have hpl : Board.place? (after cwd b₁ future) s = some (paths, k) :=
      hg.keeps_place (hb.stored paths k s hs)
    have hn := hgone hbeg future hend
    rw [← hpast] at hpl hn
    have h := @answered_by_newer ρ cwd s (past ++ (.cancel s :: future)) future' k hpl hn u compute
    rw [hpast] at h
    exact h hr

/-- A task is stored and asked to stop before its first step. When nothing is left to do it
is still stored, and a request for its key fails as cancelled. -/
theorem cancelled_fresh_stays :
    let compute : Compute Nat := .gated "g"
    let b := after "/" ({} : Cache Nat) [.populate (.str "k") compute, .cancel 0, .resume 0]
    Board.outcome? b 0 = some (.error .cancelled) ∧ Board.isIdle (fun _ => true) b = true ∧
      Board.stored? b paths "/k" = some 0 ∧
      Board.outcome? (after "/" b [.get (.str "k") compute true, .resume 1]) 1 =
        some (.error .cancelled) := by
  intro compute b
  have hr : Requests "/" 1 "/k" compute (get (.str "k") compute true b).2 :=
    requests_get rfl compute b
  have hs : Board.stored? (get (.str "k") compute true b).2 paths "/k" = some 0 := by decide
  exact ⟨rfl, by decide, by decide, outcome?_resume_hit hr hs rfl⟩

/-- A task that waits for its gate leaves the cache when it is cancelled, and a request that
comes then is answered by a newer one. -/
theorem cancelled_evicted_iff_gated :
    let compute : Compute Nat := .gated "g"
    let b := after "/" ({} : Cache Nat) [.populate (.str "k") compute, .resume 0]
    let b₁ := (Board.cancel 0 b).2
    (∀ future, (after "/" b₁ future).outcome? 0 ≠ none →
      ∀ k', (after "/" b₁ future).stored? paths k' ≠ some 0) ∧
    let b₂ := after "/" b₁ [.resume 0, .get (.str "k") compute true]
    ∃ s', 0 < s' ∧ Board.stored? (resume "/" 1 b₂) paths "/k" = some s' ∧
      AnsweredBy "/" 1 s' (resume "/" 1 b₂) := by
  intro compute b b₁
  have ht : b.tasks[0]? = some
      { job := .shared compute
        place := some (paths, "/k")
        phase := .performing (.gate "g") fun o => (Course.ended o).program } := rfl
  obtain ⟨-, -, -, hiff, hnew⟩ := (cancelled_evicted_iff "/"
    [.populate (.str "k") compute, .resume 0]).2 "/k" 0 _ (by decide) ht rfl
  refine ⟨hiff.2 (by simp), hnew (by simp) [.resume 0] [.get (.str "k") compute true] 1 compute
    (by decide) ?_⟩
  have hlen : (after "/" b₁ [.resume 0]).tasks.length = 1 := rfl
  exact hlen ▸ requests_get rfl compute (after "/" b₁ [.resume 0])

end CachedViews.PathCache
