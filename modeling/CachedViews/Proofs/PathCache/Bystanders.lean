import CachedViews.Proofs.PathCache.Cancelling
import CachedViews.Proofs.Task.Withdrawn

/-
# Nobody notices that a caller gave up

A request with caching that waits for a shared task leaves nothing behind when it is asked
to stop: no task depends on it (`PathCache.Bystanding`), and it does nothing any more but
end. So the cache looks to everyone else as if the request had given up long ago, whether it
was asked to stop or not, and whatever happens afterwards (`PathCache.after_withdraw`).

Key definitions: `PathCache.Unplaced`, `PathCache.Bystanding`.
Key theorems: `PathCache.Bystanding.act`, `PathCache.act_withdraw`,
`PathCache.after_withdraw`, `PathCache.caller_cancellation_confined`.
-/

namespace CachedViews.PathCache

variable {ρ : Type} {cwd : String} {b b' : Cache ρ} {t u s : Nat} {w : World (signature ρ)}
  {task : Task (signature ρ)}

/-! ### Requests are stored nowhere -/

/-- Requests are started for no key. -/
def Unplaced (b : Cache ρ) : Prop :=
  ∀ (t : Nat) (task : Task (signature ρ)) (key : Value) (compute : Compute ρ) (cached : Bool),
    b.tasks[t]? = some task → task.job = .request key compute cached → task.place = none

theorem halt_course_ne_storing (w : World (signature ρ)) (b : Cache ρ) (course : Course ρ)
    (c : (signature ρ).Cache) (k : String) (job : Job ρ) (next : ρ → Program (signature ρ) ρ) :
    Board.halt w b course.program ≠ .storing c k job next := by
  cases course with
  | ended o => exact fun h => by cases h
  | waiting op next => exact fun h => by cases h

/-- What a task stores under a key is a shared computation. -/
theorem shared_of_storing {p : Program (signature ρ) ρ} (hst : Standing task.job task.phase)
    (hp : Board.GoesOn (program cwd) w b task p) {c : (signature ρ).Cache} {k : String}
    {job : Job ρ} {next : ρ → Program (signature ρ) ρ}
    (hh : Board.halt w b p = .storing c k job next) : ∃ compute, job = .shared compute := by
  obtain ⟨j, place, phase, asked⟩ := task
  simp only at hst
  cases hp with
  | first h =>
    match j with
    | .shared compute => exact absurd hh (halt_course_ne_storing w b compute.course c k job next)
    | .request key compute false =>
      exact absurd hh (halt_course_ne_storing w b compute.course c k job next)
    | .request key compute true =>
      cases hk : keyOf cwd key with
      | error f =>
        rw [program_request_error hk] at hh
        cases hh
      | ok k' =>
        rw [halt_request hk] at hh
        cases hs : b.stored? paths k' with
        | none =>
          simp only [hs] at hh
          cases hh
          exact ⟨compute, rfl⟩
        | some s =>
          simp only [hs] at hh
          cases ho : b.outcome? s <;> simp [ho] at hh
  | answered h =>
    obtain rfl : phase = _ := h
    cases hst with
    | waiting _ op next' hj => exact absurd hh (halt_course_ne_storing w b (next' _) c k job next)
  | joined h ho =>
    obtain rfl : phase = _ := h
    cases hst with
    | joined key compute s => cases hh
  | joinFailed h ho => cases hh
  | gathered h hr =>
    obtain rfl : phase = _ := h
    cases hst
  | gatherFailed h hf => cases hh

/-- The tasks that a task starts are shared computations. -/
theorem shared_of_move (hst : Standings b) (h : Board.Move (program cwd) w t b b')
    (hu : b.tasks.length ≤ u) {x : Task (signature ρ)} (hx : b'.tasks[u]? = some x) :
    ∃ compute, x.job = .shared compute := by
  have hnone : b.tasks[u]? = none := List.getElem?_eq_none hu
  cases h with
  | nothing => simp [hnone] at hx
  | @goesOn task p hz hc hgo =>
    rw [Board.getElem?_run_new (Board.lt_of_getElem? hz) hu] at hx
    have hstand := standing_goesOn (hst t task hz) hgo b.tasks.length
    rcases Board.mem_started (List.mem_of_getElem? hx) with
      ⟨c, k, job, next, hh, rfl⟩ | ⟨jobs, next, hh, -⟩
    · exact shared_of_storing (hst t task hz) hgo hh
    · rw [hh] at hstand
      exact absurd rfl (hstand.ne_gathering _ next)
  | dropped hz hc hp =>
    have hlt := Board.lt_of_getElem? hx
    rw [Board.setPhase, Board.length_update] at hlt
    omega
  | stopped hz hc hn ho hts =>
    rw [Board.getElem?_run_new (by rw [Board.length_cancelAll]; exact Board.lt_of_getElem? hz)
      (by rw [Board.length_cancelAll]; exact hu)] at hx
    simp [Board.halt, Halt.started] at hx

theorem Unplaced.act (hb : Unplaced b) (hst : Standings b) (a : Action ρ) :
    Unplaced (a.act cwd b) := by
  intro u x key compute cached hx hj
  by_cases hlt : u < b.tasks.length
  · obtain ⟨y, hy, l⟩ := grows_after cwd b [a] u _ (List.getElem?_eq_getElem hlt)
    obtain rfl := Option.some.inj (hx.symm.trans hy)
    rw [l.place]
    exact hb u _ key compute cached (List.getElem?_eq_getElem hlt) (l.job.symm.trans hj)
  · have hle : b.tasks.length ≤ u := Nat.le_of_not_lt hlt
    have hnew : ∀ {w : World (signature ρ)} {t : Nat},
        Board.Move (program cwd) w t b (a.act cwd b) → x.place = none := by
      intro w t hm
      obtain ⟨compute', hs⟩ := shared_of_move hst hm hle hx
      cases hj.symm.trans hs
    have hsame : (a.act cwd b).tasks.length = b.tasks.length → x.place = none := by
      intro he
      have := Board.lt_of_getElem? hx
      omega
    cases a with
    | get key compute cached =>
      have ht : (Action.act cwd b (.get key compute cached)).tasks =
        b.tasks ++ [{ job := Job.request key compute cached }] := rfl
      rcases Board.getElem?_of_append ht hx with h | ⟨-, h⟩
      · exact absurd (Board.lt_of_getElem? h) hlt
      · rw [List.mem_singleton.1 h]
    | populate key' compute' =>
      simp only [Action.act, PathCache.populate] at hx hsame
      cases hk : keyOf cwd key' with
      | error f =>
        simp only [hk] at hsame
        exact hsame rfl
      | ok k =>
        simp only [hk] at hx
        have ht : (Board.populate paths k (Job.shared compute') b).2.tasks =
          b.tasks ++ [{ job := Job.shared compute', place := some (paths, k) }] := rfl
        rcases Board.getElem?_of_append ht hx with h | ⟨-, h⟩
        · exact absurd (Board.lt_of_getElem? h) hlt
        · rw [List.mem_singleton.1 h] at hj
          cases hj
    | invalidate key =>
      refine hsame ?_
      simp only [Action.act, PathCache.invalidate]
      cases keyOf cwd key <;> rfl
    | clear => exact hsame rfl
    | cancel v => exact hsame (Board.length_cancel v b)
    | resume v => exact hnew (Board.move_resume _ _ v b)
    | openGate outcome v => exact hnew (Board.move_complete _ _ v b)

theorem unplaced_empty : Unplaced ({} : Cache ρ) := fun t task key compute cached h => by simp at h

theorem Unplaced.after (hb : Unplaced b) (hst : Standings b) (as : List (Action ρ)) :
    Unplaced (after cwd b as) := by
  induction as generalizing b with
  | nil => exact hb
  | cons a as ih =>
    rw [after_cons]
    exact ih (hb.act hst a) (standings_after cwd hst [a])

/-! ### A request that waits -/

/-- A request that waits for the task `s`, or has ended, on a cache that a run comes to. -/
structure Bystanding (cwd : String) (t s : Nat) (b : Cache ρ) : Prop where
  orderly : Board.Orderly b
  standings : Standings b
  awaits : Awaits cwd b
  unplaced : Unplaced b
  follows : Follows t s b

theorem Bystanding.act (h : Bystanding cwd t s b) (a : Action ρ) :
    Bystanding cwd t s (a.act cwd b) where
  orderly := orderly_after cwd h.orderly [a]
  standings := standings_after cwd h.standings [a]
  awaits := by
    rcases step_act cwd b a with he | hs
    · rw [he]
      exact h.awaits
    · exact h.awaits.step h.orderly h.standings hs
  unplaced := h.unplaced.act h.standings a
  follows := h.follows.after cwd [a]

theorem Bystanding.place? (h : Bystanding cwd t s b) : Board.place? b t = none := by
  obtain ⟨task, key, compute, ht, hj, -⟩ := h.follows
  exact (Board.place?_eq ht).trans (h.unplaced t task key compute true ht hj)

/-- Nothing depends on the request: what is stored was started for a key, and so was what
requests wait for. -/
theorem Bystanding.apart (h : Bystanding cwd t s b) : Board.Apart t b where
  lt := by
    obtain ⟨task, key, compute, ht, -⟩ := h.follows
    exact Board.lt_of_getElem? ht
  unstored c k hs := by
    have hpl := h.orderly.stored c k t hs
    rw [h.place?] at hpl
    cases hpl
  unjoined u x next hx hp := by
    have hstand := h.standings u x hx
    rw [hp] at hstand
    obtain ⟨key, compute, hj⟩ : ∃ key compute, x.job = .request key compute true := by
      generalize x.job = job at hstand
      cases hstand with
      | joined key compute s => exact ⟨key, compute, rfl⟩
    obtain ⟨k, -, hpl⟩ := h.awaits u t x key compute next hx hj hp
    rw [h.place?] at hpl
    cases hpl
  ungathered u x ts next hx hp := absurd hp ((h.standings u x hx).ne_gathering ts next)

/-- When the request itself goes on it ends, if it does anything. -/
theorem Bystanding.move (h : Bystanding cwd t s b) (hm : Board.Move (program cwd) w t b b') :
    b'.withdraw t = b.withdraw t := by
  obtain ⟨task, key, compute, ht, hj, hp⟩ := h.follows
  have hpl : task.place = none := h.unplaced t task key compute true ht hj
  cases hm with
  | nothing => rfl
  | @goesOn x p hx hc hgo =>
    obtain rfl := Option.some.inj (ht.symm.trans hx)
    have hdone : ∃ o, p = .done o := by
      rcases hp with hp | ⟨o, hp, -⟩
      · cases hgo with
        | joined h ho =>
          rw [hp, Phase.joining.injEq] at h
          exact ⟨_, by rw [← h.2]⟩
        | joinFailed h ho => exact ⟨_, rfl⟩
        | first h => simp [hp] at h
        | answered h => simp [hp] at h
        | gathered h hr => simp [hp] at h
        | gatherFailed h hr => exact ⟨_, rfl⟩
      · exact absurd hgo.not_ended (by simp [hp, Phase.outcome?])
    obtain ⟨o, rfl⟩ := hdone
    rw [Board.run_done]
    exact Board.withdraw_finish ht hpl o
  | dropped hx hc hf =>
    obtain rfl := Option.some.inj (ht.symm.trans hx)
    rcases hp with hp | ⟨o, hp, -⟩ <;> simp [hp] at hf
  | @stopped x ts hx hc hn ho hts =>
    obtain rfl := Option.some.inj (ht.symm.trans hx)
    obtain rfl : ts = [] := by
      rcases hts with hts | ⟨next, hg⟩
      · exact hts
      · exact absurd hg ((h.standings t task ht).ne_gathering ts next)
    rw [Board.run_done]
    exact Board.withdraw_finish ht hpl _

/-! ### What everyone else sees -/

/-- **One action.** What happens to a cache, happens to it in the same way without the
request. -/
theorem act_withdraw (h : Bystanding cwd t s b) (a : Action ρ) :
    a.act cwd (Board.withdraw t b) = Board.withdraw t (a.act cwd b) := by
  have ha := h.apart
  obtain ⟨task, -, -, ht, -⟩ := h.follows
  cases a with
  | get key compute cached =>
    exact congrArg Prod.snd (Board.spawn_withdraw ha.lt (Job.request key compute cached))
  | populate key compute =>
    simp only [Action.act, PathCache.populate]
    cases keyOf cwd key with
    | error f => rfl
    | ok k => exact congrArg Prod.snd (Board.populate_withdraw ha.lt paths k (Job.shared compute))
  | invalidate key =>
    simp only [Action.act, PathCache.invalidate]
    cases keyOf cwd key with
    | error f => rfl
    | ok k => rfl
  | clear => rfl
  | cancel u =>
    by_cases hut : u = t
    · subst hut
      exact (Board.cancel_withdraw_self ht).trans (Board.withdraw_cancel ht).symm
    · exact congrArg Prod.snd (Board.cancel_withdraw_of_ne hut b)
  | resume u =>
    by_cases hut : u = t
    · subst hut
      exact (Board.resume_withdraw_self ht _ _).trans (h.move (Board.move_resume _ _ u b)).symm
    · exact ha.resume_of_ne hut _ _
  | openGate outcome u =>
    by_cases hut : u = t
    · subst hut
      exact (Board.complete_withdraw_self ht _).trans (h.move (Board.move_complete _ _ u b)).symm
    · exact ha.complete_of_ne hut _

/-- **A run.** By induction on the actions: the request stays one that nothing depends on. -/
theorem after_withdraw (h : Bystanding cwd t s b) (as : List (Action ρ)) :
    after cwd (Board.withdraw t b) as = Board.withdraw t (after cwd b as) := by
  induction as generalizing b with
  | nil => rfl
  | cons a as ih =>
    rw [after_cons, after_cons, act_withdraw h a]
    exact ih (h.act a)

theorem bystanding_after (cwd : String) (past : List (Action ρ))
    (h : Follows t s (after cwd {} past)) : Bystanding cwd t s (after cwd {} past) where
  orderly := orderly_after cwd Board.orderly_empty past
  standings := standings_after cwd standings_empty past
  awaits := awaits_after past
  unplaced := unplaced_empty.after standings_empty past
  follows := h

/-- **A caller that is cancelled disturbs nobody.** Let a request with caching wait for a
shared task, somewhere in a run, and let the run go on with the same actions once after the
request was cancelled and once without that. Both times the same keys and tasks are stored
in the same order, the same is recorded, so every computation is invoked as often, and all
tasks but the request are the same at any time. The request itself can only end as cancelled
and does so when it goes on next. -/
theorem caller_cancellation_confined (cwd : String) (past future : List (Action ρ)) {t s : Nat}
    {task : Task (signature ρ)} {key : Value} {compute : Compute ρ}
    {next : ρ → Program (signature ρ) ρ} (ht : (after cwd {} past).tasks[t]? = some task)
    (hj : task.job = .request key compute true) (hp : task.phase = .joining s next) :
    let b := after cwd ({} : Cache ρ) past
    let kept := after cwd b future
    let cancelled := after cwd (Board.cancel t b).2 future
    (Board.cancel t b).1 = true ∧
    keys cancelled = keys kept ∧ cancelled.entries = kept.entries ∧
    invoked cancelled = invoked kept ∧ (∀ u, invocations u cancelled = invocations u kept) ∧
    (∀ u : Nat, u ≠ t → cancelled.tasks[u]? = kept.tasks[u]?) ∧
    (∀ o, cancelled.outcome? t = some o → o = .error .cancelled) ∧
    Board.outcome? (resume cwd t cancelled) t = some (.error .cancelled) := by
  intro b kept cancelled
  have hf : Follows t s b := by
    have hstand := standings_after cwd standings_empty past t task ht
    rw [hj, hp] at hstand
    cases hstand with
    | joined => exact ⟨task, key, compute, ht, hj, .inl hp⟩
  have hb : Bystanding cwd t s b := bystanding_after cwd past hf
  have hb' : Bystanding cwd t s (Board.cancel t b).2 := hb.act (.cancel t)
  -- without the request, the two runs are one
  have hsame : Board.withdraw t cancelled = Board.withdraw t kept := by
    rw [← after_withdraw hb', ← after_withdraw hb, Board.withdraw_cancel ht]
  have hent : cancelled.entries = kept.entries := by
    rw [← Board.entries_withdraw t, hsame, Board.entries_withdraw]
  have hjournal : cancelled.journal = kept.journal := by
    rw [← Board.journal_withdraw t, hsame, Board.journal_withdraw]
  obtain ⟨hc, hstop⟩ := stopping_cancel ht (by simp [hp, Phase.outcome?])
  have hstop' := hstop.after hb'.orderly cwd future
  refine ⟨congrArg Prod.fst hc, ?_, hent, ?_, fun u => ?_, fun u hu => ?_,
    fun o ho => (hstop'.ended ho).1, ?_⟩
  · unfold keys Board.keys
    rw [hent]
  · unfold invoked
    rw [hjournal]
  · unfold invocations
    rw [hjournal]
  · rw [← Board.getElem?_withdraw_of_ne hu, hsame, Board.getElem?_withdraw_of_ne hu]
  · obtain ⟨x, hx, hxc, -, hend⟩ := hstop'
    rcases ho : x.phase.outcome? with _ | o
    · exact Board.outcome?_resume_asked _ _ hx hxc ho
    · have hxo : Board.outcome? cancelled t = some o := (Board.outcome?_eq hx).trans ho
      obtain ⟨y, hy, hyo⟩ := Board.outcome?_eq_some.1 hxo
      obtain rfl := Option.some.inj (hx.symm.trans hy)
      rw [(hend o hyo).1] at hxo
      exact (Board.move_resume _ _ t cancelled).grows.outcome? hxo

/-- The request that started a computation is cancelled before anyone else waits for it: one
that comes later gets the value as it would have. -/
theorem caller_cancellation_confined_creator :
    let compute : Compute Nat := .gated "g"
    let past : List (Action Nat) := [.get (.str "k") compute true, .resume 0]
    let future : List (Action Nat) := [.resume 0, .resume 1, .get (.str "k") compute true,
      .resume 2, .openGate (.ok (7 : Nat)) 1, .resume 0, .resume 2]
    let b := after "/" {} past
    let kept := after "/" b future
    let cancelled := after "/" (Board.cancel 0 b).2 future
    let value (b : Cache Nat) (t : Nat) : Option Nat := (b.outcome? t).bind Except.toOption
    keys cancelled = keys kept ∧ cancelled.outcome? 2 = kept.outcome? 2 ∧ keys kept = ["/k"] ∧
      value kept 2 = some 7 ∧ value kept 0 = some 7 ∧ value cancelled 0 = none := by
  intro compute past future b kept cancelled value
  have ht : b.tasks[0]? = some
      { job := .request (.str "k") compute true
        phase := .joining 1 fun r => .done (.ok r) } := rfl
  obtain ⟨-, hkeys, -, -, -, htasks, -⟩ :=
    caller_cancellation_confined "/" past future ht rfl rfl
  have h2 : cancelled.outcome? 2 = kept.outcome? 2 := by
    unfold Board.outcome?
    rw [htasks 2 (by decide)]
  exact ⟨hkeys, h2, by decide +kernel, by decide +kernel, by decide +kernel, by decide +kernel⟩

end CachedViews.PathCache
