import CachedViews.Proofs.PathCache.Coalescing

/-
# Failures are forgotten

As long as no shared task is asked to stop (`PathCache.Spares`), what is stored is
unfinished or has succeeded. A request that waits for a task waits under its own key
(`PathCache.Awaits`); when it goes on with a failure, the task that failed is stored
nowhere and never will be again, so a later request for the key is answered by a newer
task.

Key definitions: `PathCache.Spares`, `PathCache.Awaits`.
Key theorems: `PathCache.unfailed_after`, `PathCache.Awaits.step`,
`PathCache.answered_by_newer`, `PathCache.failures_forgotten`.
-/

namespace CachedViews.PathCache

variable {ρ : Type} {cwd : String} {b b' : Cache ρ} {t s : Nat} {w : World (signature ρ)}
  {task : Task (signature ρ)}

/-- No action asks a shared task to stop. -/
def Spares (cwd : String) : Cache ρ → List (Action ρ) → Prop
  | _, [] => True
  | b, a :: as =>
    (∀ t : Nat, a = .cancel t → b.place? t = none) ∧ Spares cwd (a.act cwd b) as

/-! ### What is stored -/

theorem spared_act (hb : Board.Orderly b) (hs : Board.Spared b) {a : Action ρ}
    (ha : ∀ t : Nat, a = .cancel t → b.place? t = none) : Board.Spared (a.act cwd b) := by
  cases a with
  | get key compute cached =>
    have ht : (Board.spawn (σ := signature ρ) (Job.request key compute cached) b).2.tasks =
      b.tasks ++ [{ job := Job.request key compute cached }] := rfl
    exact hs.of_append ht (by simp)
  | populate key compute =>
    simp only [Action.act, PathCache.populate]
    cases keyOf cwd key with
    | error f => exact hs
    | ok k =>
      have ht : (Board.populate paths k (Job.shared compute) b).2.tasks =
        b.tasks ++ [{ job := Job.shared compute, place := some (paths, k) }] := rfl
      exact hs.of_append ht (by simp)
  | invalidate key =>
    simp only [Action.act, PathCache.invalidate]
    cases keyOf cwd key with
    | error f => exact hs
    | ok k => exact hs.of_tasks rfl
  | clear => exact hs.of_tasks rfl
  | cancel t => exact hs.cancel (ha t rfl)
  | resume t => exact hs.move hb (Board.move_resume _ _ t b)
  | openGate outcome t => exact hs.move hb (Board.move_complete (program cwd) _ t b)

theorem unfailed_after (hb : Board.Orderly b) (hs : Board.Spared b) (hu : Board.Unfailed b)
    (as : List (Action ρ)) (h : Spares cwd b as) : Board.Unfailed (after cwd b as) := by
  induction as generalizing b with
  | nil => exact hu
  | cons a as ih =>
    obtain ⟨ha, has⟩ := h
    have hb' : Board.Orderly (a.act cwd b) := orderly_after cwd hb [a]
    have hu' : Board.Unfailed (a.act cwd b) := by
      rcases step_act cwd b a with he | hstep
      · rw [he]
        exact hu
      · exact hu.step hb hs hstep
    exact ih hb' (spared_act hb hs ha) hu' has

/-! ### Who waits for what -/

/-- A request that waits for a task waits for one that was started for its key. -/
def Awaits (cwd : String) (b : Cache ρ) : Prop :=
  ∀ (t s : Nat) (task : Task (signature ρ)) (key : Value) (compute : Compute ρ)
    (next : ρ → Program (signature ρ) ρ), b.tasks[t]? = some task →
    task.job = .request key compute true → task.phase = .joining s next →
    ∃ k, keyOf cwd key = .ok k ∧ b.place? s = some (paths, k)

theorem awaits_empty : Awaits cwd ({} : Cache ρ) := fun t s task key compute next h => by
  simp at h

/-- A request comes to wait in its first step only: for the task that is stored under its
key, or for the one that it stores. -/
theorem halt_of_waiting {p : Program (signature ρ) (signature ρ).Result}
    (hst : Standing task.job task.phase) (hp : Board.GoesOn (program cwd) w b task p) {key : Value}
    {compute : Compute ρ} (hj : task.job = .request key compute true)
    {next : ρ → Program (signature ρ) ρ} {n : Nat}
    (hw : (Board.halt w b p).phase n = .joining s next) :
    ∃ k, keyOf cwd key = .ok k ∧ (b.stored? paths k = some s ∧ Board.halt w b p = .joining s next ∨
      s = n ∧ Board.halt w b p = .storing paths k (.shared compute) next) := by
  obtain ⟨job, place, phase, asked⟩ := task
  obtain rfl : job = _ := hj
  cases hp with
  | first h =>
    cases hk : keyOf cwd key with
    | error f =>
      rw [program_request_error hk] at hw
      simp [Board.halt, Halt.phase] at hw
    | ok k =>
      refine ⟨k, rfl, ?_⟩
      rw [halt_request hk] at hw ⊢
      cases hs : b.stored? paths k with
      | none =>
        simp only [hs, Halt.phase] at hw ⊢
        cases hw
        exact .inr ⟨rfl, rfl⟩
      | some s' =>
        simp only [hs] at hw ⊢
        cases ho : b.outcome? s' with
        | none =>
          simp only [ho, Halt.phase] at hw ⊢
          cases hw
          exact .inl ⟨rfl, rfl⟩
        | some o => simp [ho, Halt.phase] at hw
  | answered h =>
    obtain rfl : phase = _ := h
    cases hst with
    | waiting _ op next hj => exact absurd rfl (hj key compute)
  | joined h ho =>
    obtain rfl : phase = _ := h
    cases hst with
    | joined key compute s => simp [Board.halt, Halt.phase] at hw
  | joinFailed h ho => simp [Board.halt, Halt.phase] at hw
  | gathered h hr =>
    obtain rfl : phase = _ := h
    cases hst
  | gatherFailed h hf => simp [Board.halt, Halt.phase] at hw

theorem Awaits.step (hw : Awaits cwd b) (hb : Board.Orderly b) (hst : Standings b)
    (h : Board.Step (program cwd) b b') : Awaits cwd b' := by
  intro t s x key compute next hx hj hp
  have hkeep : ∀ y : Task (signature ρ), b.tasks[t]? = some y → y.job = x.job →
      y.phase = x.phase → ∃ k, keyOf cwd key = .ok k ∧ b'.place? s = some (paths, k) := by
    intro y hy hyj hyp
    obtain ⟨k, hk, hpl⟩ := hw t s y key compute next hy (hyj.trans hj) (hyp.trans hp)
    exact ⟨k, hk, h.grows.keeps_place hpl⟩
  by_cases hlt : t < b.tasks.length
  · have hy := List.getElem?_eq_getElem hlt
    rcases h.at_task hy with he | he | ⟨w, hm⟩
    · obtain rfl := Option.some.inj (hx.symm.trans he)
      exact hkeep _ hy rfl rfl
    · obtain rfl := Option.some.inj (hx.symm.trans he)
      exact hkeep _ hy (Task.asked_job _).symm (Task.asked_phase _).symm
    · cases hm with
      | nothing => exact hkeep x hx rfl rfl
      | @goesOn y p hz hc hgo =>
        rw [Board.getElem?_run_self hz] at hx
        obtain rfl := Option.some.inj hx
        obtain ⟨k, hk, hh⟩ := halt_of_waiting (hst t y hz) hgo hj hp
        refine ⟨k, hk, ?_⟩
        rw [Board.place?_run hlt]
        rcases hh with ⟨hs, hh⟩ | ⟨hs, hh⟩
        · rw [if_pos (hb.lt hs)]
          exact hb.stored paths k s hs
        · rw [if_neg (by omega), hh]
          simp [hs]
      | dropped hz hc hf =>
        rw [Board.getElem?_setPhase, if_pos rfl, hz] at hx
        obtain rfl := Option.some.inj hx
        simp at hp
      | stopped hz hc hn ho hts =>
        obtain ⟨task', h', -⟩ := Board.getElem?_stopped hz _
        rw [Board.getElem?_run_self h'] at hx
        obtain rfl := Option.some.inj hx
        simp [Board.halt, Halt.phase] at hp
  · rw [(h.born (Nat.le_of_not_lt hlt) hx).1] at hp
    simp at hp

theorem awaits_after (as : List (Action ρ)) : Awaits cwd (after cwd {} as) :=
  (keeps_after (P := fun b => Board.Orderly b ∧ Standings b ∧ Awaits cwd b)
    (fun _ _ hs ⟨hb, hst, hw⟩ => ⟨hb.step hs, hst.step hs, hw.step hb hst hs⟩)
    ⟨Board.orderly_empty, standings_empty, awaits_empty⟩ as).2.2

/-! ### Requests after a failure -/

theorem not_stored_after (cwd : String) (hb : Board.Orderly b) (hs : s < b.tasks.length)
    (hn : ∀ k, b.stored? paths k ≠ some s) (as : List (Action ρ)) :
    ∀ k, (after cwd b as).stored? paths k ≠ some s := by
  induction as generalizing b with
  | nil => exact hn
  | cons a as ih =>
    have hb' : Board.Orderly (a.act cwd b) := orderly_after cwd hb [a]
    have hg : Board.Grows b (a.act cwd b) := grows_after cwd b [a]
    refine ih hb' (Nat.lt_of_lt_of_le hs hg.length_le) ?_
    rcases step_act cwd b a with he | hstep
    · rw [he]
      exact hn
    · exact fun k => hstep.not_stored hb hs (fun _ k => hn k) paths k

/-- When a task of a key is stored no more, requests for the key are answered by newer
tasks, whatever happens before they run. -/
theorem answered_by_newer (past future : List (Action ρ)) {k : String}
    (hp : Board.place? (after cwd ({} : Cache ρ) past) s = some (paths, k))
    (hn : ∀ k, Board.stored? (after cwd ({} : Cache ρ) past) paths k ≠ some s)
    {u : Nat} {compute : Compute ρ}
    (h : Requests cwd u k compute (after cwd (after cwd {} past) future)) :
    let b := after cwd (after cwd {} past) future
    ∃ s', s < s' ∧ Board.stored? (resume cwd u b) paths k = some s' ∧
      AnsweredBy cwd u s' (resume cwd u b) := by
  intro b
  have hb : Board.Orderly (after cwd ({} : Cache ρ) past) :=
    orderly_after cwd Board.orderly_empty past
  have hb₂ : after cwd (after cwd ({} : Cache ρ) past) (future ++ [.resume u]) = resume cwd u b :=
    after_append cwd _ future [.resume u]
  have hb' : Board.Orderly (resume cwd u b) := hb₂ ▸ orderly_after cwd hb (future ++ [.resume u])
  have hn' : ∀ k, Board.stored? (resume cwd u b) paths k ≠ some s :=
    hb₂ ▸ not_stored_after cwd hb (Board.lt_of_place? hp) hn (future ++ [.resume u])
  have hg : Board.Grows (after cwd {} past) (resume cwd u b) :=
    hb₂ ▸ grows_after cwd _ (future ++ [.resume u])
  have hp' : Board.place? (resume cwd u b) s = some (paths, k) := hg.keeps_place hp
  have hall : after cwd {} (past ++ future) = b := after_append cwd {} past future
  have h' : Requests cwd u k compute (after cwd {} (past ++ future)) := hall.symm ▸ h
  obtain ⟨s', hs', -, ha⟩ := answered_request (past ++ future) h'
  rw [hall] at hs' ha
  have hle : s ≤ s' := hb'.newest paths k s' s hs' hp'
  have hne : s ≠ s' := fun he => hn' k (he ▸ hs')
  exact ⟨s', Nat.lt_of_le_of_ne hle hne, hs', ha⟩

/-- **Failures are forgotten.** In a run that spares the shared tasks, what is stored is
unfinished or has succeeded. When a request that waits for a task goes on with its failure,
that task is stored under no key; and whatever happens from then on, a request with
caching for the same key is answered by a newer task. -/
theorem failures_forgotten (cwd : String) (past : List (Action ρ)) (h : Spares cwd {} past) :
    let b := after cwd ({} : Cache ρ) past
    (∀ k s, b.stored? paths k = some s →
      b.outcome? s = none ∨ ∃ r, b.outcome? s = some (.ok r)) ∧
    ∀ (t s : Nat) (task : Task (signature ρ)) (key : Value) (compute : Compute ρ)
      (next : ρ → Program (signature ρ) ρ) (f : Fault),
      b.tasks[t]? = some task → task.job = .request key compute true →
      task.phase = .joining s next → task.cancelRequested = false →
      b.outcome? s = some (.error f) →
      let b₁ := resume cwd t b
      b₁.outcome? t = some (.error f) ∧ (∀ k, b₁.stored? paths k ≠ some s) ∧
      ∃ k, keyOf cwd key = .ok k ∧
        ∀ (future : List (Action ρ)) (u : Nat) (compute : Compute ρ),
          let b₂ := after cwd b₁ future
          Requests cwd u k compute b₂ →
          ∃ s', s < s' ∧ Board.stored? (resume cwd u b₂) paths k = some s' ∧
            AnsweredBy cwd u s' (resume cwd u b₂) := by
  intro b
  have hb : Board.Orderly b := orderly_after cwd Board.orderly_empty past
  have hst : Standings b := standings_after cwd standings_empty past
  have hu : Board.Unfailed b :=
    unfailed_after Board.orderly_empty Board.spared_empty Board.unfailed_empty past h
  refine ⟨fun k s hs => ?_, fun t s task key compute next f ht hj hp hc ho => ?_⟩
  · rcases ho : b.outcome? s with _ | (f | r)
    · exact .inl rfl
    · exact absurd ho (hu paths k s f hs)
    · exact .inr ⟨r, rfl⟩
  · have hstand := hst t task ht
    rw [hj, hp] at hstand
    have hf : Follows t s b := by
      cases hstand with
      | joined => exact ⟨task, key, compute, ht, hj, .inl hp⟩
    have hna : ¬wasAsked t b := by
      rintro ⟨x, hx, hxc⟩
      obtain rfl := Option.some.inj (ht.symm.trans hx)
      simp [hc] at hxc
    -- the task that failed was removed when it failed
    have hn : ∀ k, b.stored? paths k ≠ some s := fun k hs => hu paths k s f hs ho
    obtain ⟨k, hk, hpl⟩ := awaits_after past t s task key compute next ht hj hp
    have hb₁ : resume cwd t b = after cwd {} (past ++ [.resume t]) :=
      (after_append cwd {} past [.resume t]).symm
    have hn₁ : ∀ k, Board.stored? (resume cwd t b) paths k ≠ some s :=
      not_stored_after cwd hb (Board.lt_of_place? hpl) hn [.resume t]
    have hg : Board.Grows b (resume cwd t b) := grows_after cwd b [.resume t]
    have hpl₁ : Board.place? (resume cwd t b) s = some (paths, k) := hg.keeps_place hpl
    refine ⟨hf.resume hna ho, hn₁, k, hk, fun future u compute hr => ?_⟩
    rw [hb₁] at hn₁ hpl₁ hr ⊢
    exact answered_by_newer (past ++ [.resume t]) future hpl₁ hn₁ hr

/-- A request waits for a computation that fails. When it has gone on, a request after it
is answered by a newer task. -/
theorem failures_forgotten_gated :
    let compute : Compute Nat := .gated "g"
    let past : List (Action Nat) := [.get (.str "a") compute true, .resume 0, .resume 1,
      .openGate (.error .divisionByZero) 1]
    let b₁ := resume "/" 0 (after "/" {} past)
    let b₂ := after "/" b₁ [.get (.str "a") compute true]
    Spares "/" {} past ∧ Board.outcome? b₁ 0 = some (.error .divisionByZero) ∧
      Board.stored? b₁ paths "/a" ≠ some 1 ∧ Requests "/" 2 "/a" compute b₂ ∧
      ∃ s', 1 < s' ∧ Board.stored? (resume "/" 2 b₂) paths "/a" = some s' ∧
        AnsweredBy "/" 2 s' (resume "/" 2 b₂) := by
  intro compute past b₁ b₂
  have hs : Spares "/" {} past := by simp [past, Spares]
  obtain ⟨ho, hn, k, hk, hall⟩ := (failures_forgotten "/" past hs).2 0 1
    { job := .request (.str "a") compute true, phase := .joining 1 fun r => .done (.ok r) }
    (.str "a") compute (fun r => .done (.ok r)) .divisionByZero rfl rfl rfl rfl rfl
  have hk' : keyOf "/" (.str "a") = .ok "/a" := rfl
  obtain rfl : "/a" = k := Except.ok.inj (hk'.symm.trans hk)
  have hlen : b₁.tasks.length = 2 := rfl
  have hr : Requests "/" 2 "/a" compute b₂ := hlen ▸ requests_get hk' compute b₁
  exact ⟨hs, ho, hn "/a", hr, hall [.get (.str "a") compute true] 2 compute hr⟩

end CachedViews.PathCache
