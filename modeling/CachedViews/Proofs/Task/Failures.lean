import CachedViews.Proofs.Task.Orderly

/-
# Failures are not stored

A shared task that fails is removed in the step in which it fails. So as long as no
shared task is asked to stop (`Board.Spared`), no task that is stored has failed
(`Board.Unfailed`), whatever the programs do and in whatever order tasks go on. A
task that is asked to stop before it has run is the exception: it ends where it is.

Key definitions: `Board.Spared`, `Board.Unfailed`.
Key theorems: `Board.Spared.move`, `Board.Unfailed.step`.
-/

namespace CachedViews.Board

variable {σ : Signature}

/-- No shared task was asked to stop. -/
def Spared (b : Board σ) : Prop :=
  ∀ (t : Nat) (task : Task σ), b.tasks[t]? = some task → task.place ≠ none →
    task.cancelRequested = false

variable {program : σ.Job → Program σ σ.Result} {w : World σ} {t s : Nat}
  {p : Program σ σ.Result} {b b' : Board σ} {task : Task σ}

theorem spared_empty : Spared ({} : Board σ) := fun t task h => by simp at h

theorem Spared.cancelAll (hs : Spared b) {ts : List Nat} (hts : ∀ u ∈ ts, b.place? u = none) :
    Spared (ts.foldl requestCancel b) := by
  intro u x hu hx
  rw [getElem?_cancelAll] at hu
  split at hu
  · rename_i hmem
    obtain ⟨x', hx', rfl⟩ := Option.map_eq_some_iff.1 hu
    exact absurd ((place?_eq hx').symm.trans (hts u hmem)) (by simpa using hx)
  · exact hs u x hu hx

theorem Spared.of_tasks (hs : Spared b) (h : b'.tasks = b.tasks) : Spared b' :=
  fun t task ht => hs t task (h ▸ ht)

theorem Spared.of_append (hs : Spared b) {new : List (Task σ)} (h : b'.tasks = b.tasks ++ new)
    (hn : ∀ x ∈ new, x.cancelRequested = false) : Spared b' := by
  intro u x hu hx
  rcases getElem?_of_append h hu with hu | ⟨-, hx'⟩
  · exact hs u x hu hx
  · exact hn x hx'

theorem Spared.setPhase (hs : Spared b) (ph : Phase σ) : Spared (b.setPhase t ph) := by
  intro u x hu hx
  rcases task_of_setPhase hu with ⟨-, x', hx', rfl⟩ | hu
  · exact hs u x' hx' hx
  · exact hs u x hu hx

variable [DecidableEq σ.Cache]

/-- No stored task has failed. -/
def Unfailed (b : Board σ) : Prop :=
  ∀ (c : σ.Cache) (k : String) (s : Nat) (f : Fault), b.stored? c k = some s →
    b.outcome? s ≠ some (.error f)

theorem unfailed_empty : Unfailed ({} : Board σ) := fun c k s f h => by simp [stored?] at h

theorem Spared.run (hs : Spared b) (ht : t < b.tasks.length) : Spared (run w t p b) := by
  have hphase := hs.setPhase (t := t) ((halt w b p).phase b.tasks.length)
  exact hphase.of_append (by rw [run_eq w t p b ht]; rfl) fun x hx => not_asked_of_started hx

/-- The tasks that a task asks to stop are its own. -/
theorem Orderly.place?_of_stopped (hb : Orderly b) (ht : b.tasks[t]? = some task) {ts : List Nat}
    (hts : ts = [] ∨ ∃ next, task.phase = .gathering ts next) : ∀ u ∈ ts, b.place? u = none := by
  intro u hu
  rcases hts with rfl | ⟨next, hp⟩
  · simp at hu
  · exact (hb.gathered t task ts next ht hp u hu).2

theorem Spared.move (hs : Spared b) (hb : Orderly b) (h : Move program w t b b') : Spared b' := by
  cases h with
  | nothing => exact hs
  | goesOn h hc hp => exact hs.run (lt_of_getElem? h)
  | dropped h hc hp => exact hs.setPhase _
  | @stopped task ts h hc hn ho hts =>
    exact (hs.cancelAll (hb.place?_of_stopped h hts)).run
      (by rw [length_cancelAll]; exact lt_of_getElem? h)

omit [DecidableEq σ.Cache] in
theorem Spared.cancel (hs : Spared b) (ht : b.place? t = none) : Spared (b.cancel t).2 := by
  have hts : ∀ u ∈ [t], b.place? u = none := by simpa using ht
  unfold Board.cancel
  split
  · exact hs.cancelAll hts
  · exact hs

/-! ### Failures -/

theorem outcome?_run_self (ht : b.tasks[t]? = some task) :
    (run w t p b).outcome? t = ((halt w b p).phase b.tasks.length).outcome? := by
  rw [outcome?_eq (getElem?_run_self ht)]

/-- A task that was asked to stop ends as cancelled when it is resumed. -/
theorem outcome?_resume_asked (program : σ.Job → Program σ σ.Result) (w : World σ)
    (ht : b.tasks[t]? = some task) (hc : task.cancelRequested = true)
    (ho : task.phase.outcome? = none) :
    (b.resume program w t).outcome? t = some (.error .cancelled) := by
  have hrun : ∀ {b : Board σ} {task : Task σ}, b.tasks[t]? = some task →
      (b.finish t (.error .cancelled)).outcome? t = some (.error .cancelled) := by
    intro b task ht
    rw [← run_done w, outcome?_run_self ht]
    rfl
  have hstop : b.resume program w t = b.stop t task.phase := by
    unfold resume
    rw [ht]
    simp only [hc]
    cases hp : task.phase <;> simp_all [Phase.outcome?]
  rw [hstop]
  cases hp : task.phase with
  | fresh => simp [stop, outcome?, getElem?_setPhase, ht, Phase.outcome?]
  | performing op next => exact hrun ht
  | joining s next => exact hrun ht
  | gathering ts next =>
    obtain ⟨task', ht', -⟩ := getElem?_stopped ht ts
    exact hrun ht'
  | ended o => simp [hp, Phase.outcome?] at ho

theorem outcome?_run_of_ne (ht : t < b.tasks.length) (hs : s < b.tasks.length) (hne : s ≠ t) :
    (run w t p b).outcome? s = b.outcome? s := by
  rw [outcome?, getElem?_run_of_ne ht hs hne, outcome?]

omit [DecidableEq σ.Cache] in
theorem eq_ended_of_outcome? {h : Halt σ} {n : Nat} {o : Except Fault σ.Result}
    (ho : (h.phase n).outcome? = some o) : h = .ended o := by
  cases h <;> simp_all [Halt.phase, Phase.outcome?]

/-- Tasks that were started have not ended. -/
theorem outcome?_run_new (ht : t < b.tasks.length) (hs : b.tasks.length ≤ s) :
    (run w t p b).outcome? s = none := by
  rw [outcome?, getElem?_run_new ht hs]
  cases hx : (halt w b p).started[s - b.tasks.length]? with
  | none => rfl
  | some x => simp [fresh_of_started (List.mem_of_getElem? hx), Phase.outcome?]

theorem Unfailed.run (hu : Unfailed b) (hb : Orderly b) (ht : b.tasks[t]? = some task) :
    Unfailed (run w t p b) := by
  intro c k s f hs ho
  have hlt := lt_of_getElem? ht
  rcases stored_run hb hlt hs with ⟨hs', hsl, hst⟩ | ⟨rfl, -⟩
  · by_cases hne : s = t
    · subst hne
      rw [outcome?_run_self ht] at ho
      exact hst rfl f (eq_ended_of_outcome? ho)
    · rw [outcome?_run_of_ne hlt hsl hne] at ho
      exact hu c k s f hs' ho
  · simp [outcome?_run_new hlt (Nat.le_refl _)] at ho

/-- Fewer entries over the same outcomes hold no failure either. -/
theorem Unfailed.of_keeps (hu : Unfailed b)
    (hs : ∀ (c : σ.Cache) (k : String) (s : Nat), b'.stored? c k = some s → b.stored? c k = some s)
    (ho : ∀ (c : σ.Cache) (k : String) (s : Nat), b'.stored? c k = some s →
      b'.outcome? s = b.outcome? s) : Unfailed b' := by
  intro c k s f h
  rw [ho c k s h]
  exact hu c k s f (hs c k s h)

omit [DecidableEq σ.Cache] in
theorem outcome?_cancelAll (ts : List Nat) (b : Board σ) (s : Nat) :
    (ts.foldl requestCancel b).outcome? s = b.outcome? s := by
  rw [outcome?, getElem?_cancelAll, outcome?]
  split
  · cases b.tasks[s]? <;> simp
  · rfl

theorem Unfailed.cancelAll (hu : Unfailed b) (ts : List Nat) : Unfailed (ts.foldl requestCancel b) :=
  hu.of_keeps (fun c k _ h => stored?_cancelAll ts b c k ▸ h) fun _ _ s _ =>
    outcome?_cancelAll ts b s

/-- A shared task that was spared does not end before it has run. -/
theorem Unfailed.move (hu : Unfailed b) (hb : Orderly b) (hsp : Spared b)
    (h : Move program w t b b') : Unfailed b' := by
  cases h with
  | nothing => exact hu
  | goesOn h hc hp => exact hu.run hb h
  | @dropped task h hc hp =>
    intro c k s f hs ho
    by_cases hst : t = s
    · subst hst
      have hpl : task.place = some (c, k) := (place?_eq h).symm.trans (hb.stored c k t hs)
      simp [hsp t task h (by simp [hpl])] at hc
    · rw [outcome?, getElem?_setPhase, if_neg hst] at ho
      exact hu c k s f hs ho
  | @stopped task ts h hc hn ho hts =>
    obtain ⟨task', h', -⟩ := getElem?_stopped h ts
    exact (hu.cancelAll ts).run (hb.cancelAll ts) h'

omit [DecidableEq σ.Cache] in
theorem outcome?_of_append {new : List (Task σ)} (h : b'.tasks = b.tasks ++ new)
    (hs : s < b.tasks.length) : b'.outcome? s = b.outcome? s := by
  rw [outcome?, h, List.getElem?_append_left hs, outcome?]

theorem Unfailed.spawn (hu : Unfailed b) (hb : Orderly b) (job : σ.Job) :
    Unfailed (b.spawn job).2 := by
  refine hu.of_keeps (fun _ _ _ h => h) fun c k s h => ?_
  have hs : b.stored? c k = some s := h
  have ht : (b.spawn job).2.tasks = b.tasks ++ [{ job := job }] := rfl
  exact outcome?_of_append ht (hb.lt hs)

theorem Unfailed.populate (hu : Unfailed b) (hb : Orderly b) (c : σ.Cache) (k : String)
    (job : σ.Job) : Unfailed (b.populate c k job).2 := by
  intro c' k' s f hs ho
  rw [stored?_populate] at hs
  split at hs
  · obtain rfl : b.tasks.length = s := Option.some.inj hs
    simp [outcome?, Board.populate, Phase.outcome?] at ho
  · have ht : (b.populate c k job).2.tasks = b.tasks ++ [{ job, place := some (c, k) }] := rfl
    exact hu c' k' s f hs (outcome?_of_append ht (hb.lt hs) ▸ ho)

theorem Unfailed.cancel (hu : Unfailed b) (t : Nat) : Unfailed (b.cancel t).2 := by
  unfold Board.cancel
  split
  · exact hu.cancelAll [t]
  · exact hu

theorem Unfailed.invalidate (hu : Unfailed b) (c : σ.Cache) (k : String) :
    Unfailed (b.invalidate c k).2 := by
  refine hu.of_keeps (fun c' k' s h => ?_) fun _ _ _ _ => rfl
  rw [stored?_invalidate] at h
  split at h
  · simp at h
  · exact h

theorem Unfailed.clear (hu : Unfailed b) (c : σ.Cache) : Unfailed (b.clear c) := by
  refine hu.of_keeps (fun c' k' s h => ?_) fun _ _ _ _ => rfl
  rw [stored?_clear] at h
  split at h
  · simp at h
  · exact h

/-! ### Entries that go -/

theorem stored_or_failed_run (ht : b.tasks[t]? = some task) {c : σ.Cache} {k : String}
    (hs : b.stored? c k = some s) : (run w t p b).stored? c k = some s ∨
      ∃ f, (run w t p b).outcome? s = some (.error f) := by
  rw [stored?_run (lt_of_getElem? ht)]
  cases hh : halt w b p with
  | ended o =>
    cases o with
    | ok r => exact .inl hs
    | error f =>
      simp only
      split
      · rename_i hst
        obtain rfl : s = t := Option.some.inj (hs.symm.trans hst.2)
        refine .inr ⟨f, ?_⟩
        rw [outcome?_run_self ht, hh]
        rfl
      · exact .inl hs
  | storing c' k' job next =>
    simp only
    split
    · rename_i hck
      obtain ⟨rfl, rfl⟩ := hck
      simp [stored?_of_storing hh] at hs
    · exact .inl hs
  | performing op next => exact .inl hs
  | joining s' next => exact .inl hs
  | gathering jobs next => exact .inl hs

/-- When tasks go on, an entry goes only in the step in which its task fails. -/
theorem Move.stored_or_failed (h : Move program w t b b') {c : σ.Cache} {k : String}
    (hs : b.stored? c k = some s) :
    b'.stored? c k = some s ∨ ∃ f, b'.outcome? s = some (.error f) := by
  cases h with
  | nothing => exact .inl hs
  | goesOn h hc hp => exact stored_or_failed_run h hs
  | dropped h hc hp => exact .inl hs
  | @stopped task ts h hc hn ho hts =>
    obtain ⟨task', h', -⟩ := getElem?_stopped h ts
    exact stored_or_failed_run h' ((stored?_cancelAll ts b c k).trans hs)

/-- Where no shared task was asked to stop, no step stores a failure. -/
theorem Unfailed.step (hu : Unfailed b) (hb : Orderly b) (hs : Spared b)
    (h : Step program b b') : Unfailed b' := by
  cases h with
  | resume w t => exact hu.move hb hs (move_resume program w t b)
  | complete w t => exact hu.move hb hs (move_complete program w t b)
  | spawn job => exact hu.spawn hb job
  | populate c k job => exact hu.populate hb c k job
  | cancel t => exact hu.cancel t
  | invalidate c k => exact hu.invalidate c k
  | clear c => exact hu.clear c

end CachedViews.Board
