import CachedViews.Proofs.Task.Orderly

/-
# Steps of a board on which work goes on

Work goes on when a task is resumed or its operation ends, with an answer of surroundings
that may change from step to step. Between these steps new tasks are started, some are asked
to stop, and caches are cleared (`Board.Quiet`). What either kind of step may do to one task
is said once (`Board.Onward.became`).

Key definitions: `Board.Quiet`, `Board.Onward`, `Board.Dated`.
Key theorems: `Board.Onward.became`, `Board.Onward.stored_cases`, `Board.Dated.onward`.
-/

namespace CachedViews

variable {σ : Signature}

namespace Board

/-! ### Steps -/

variable [DecidableEq σ.Cache]

/-- A step in which no task goes on and nothing is stored. -/
structure Quiet (b b' : Board σ) : Prop where
  grows : Grows b b'
  orderly : Orderly b → Orderly b'
  stored : ∀ (c : σ.Cache) (k : String) (s : Nat), b'.stored? c k = some s → b.stored? c k = some s
  phases : ∀ (u : Nat) (x : Task σ), b'.tasks[u]? = some x →
    (b.tasks.length ≤ u ∧ x.phase = .fresh) ∨ ∃ y, b.tasks[u]? = some y ∧ x.phase = y.phase
  journal : ∃ es, b'.journal = es ++ b.journal ∧ ∀ ev ∈ es, ∃ c, ev = .cleared c

/-- A step in which one task may go on, with an `answer` of the surroundings. -/
inductive Onward (program : σ.Job → Program σ σ.Result)
    (answer : (op : σ.Op) → σ.Answer op → Prop) (b b' : Board σ) : Prop
  | move {w : World σ} {t : TaskId} (hw : ∀ op, answer op (w op)) (h : Move program w t b b')
  | quiet (h : Quiet b b')

variable {program : σ.Job → Program σ σ.Result} {answer : (op : σ.Op) → σ.Answer op → Prop}
  {w : World σ} {t u s : Nat} {p : Program σ σ.Result} {b b' b'' d : Board σ} {task : Task σ}
  {c : σ.Cache} {k : String}

theorem Quiet.trans (h : Quiet b b') (h' : Quiet b' b'') : Quiet b b'' where
  grows := h.grows.trans h'.grows
  orderly ho := h'.orderly (h.orderly ho)
  stored c k s hs := h.stored c k s (h'.stored c k s hs)
  phases u x hx := by
    rcases h'.phases u x hx with ⟨hu, hp⟩ | ⟨y, hy, hp⟩
    · exact .inl ⟨Nat.le_trans h.grows.length_le hu, hp⟩
    · rcases h.phases u y hy with ⟨hu, hp'⟩ | ⟨z, hz, hp'⟩
      · exact .inl ⟨hu, hp.trans hp'⟩
      · exact .inr ⟨z, hz, hp.trans hp'⟩
  journal := by
    obtain ⟨es, he, hc⟩ := h.journal
    obtain ⟨es', he', hc'⟩ := h'.journal
    refine ⟨es' ++ es, by rw [he', he, List.append_assoc], fun ev hev => ?_⟩
    rcases List.mem_append.1 hev with hev | hev
    · exact hc' ev hev
    · exact hc ev hev

theorem quiet_spawn (job : σ.Job) (b : Board σ) : Quiet b (b.spawn job).2 where
  grows := grows_of_append rfl
  orderly ho := ho.spawn job
  stored _ _ _ h := h
  phases u x hx := by
    have ht : (b.spawn job).2.tasks = b.tasks ++ [{ job := job }] := rfl
    rcases getElem?_of_append ht hx with hx | ⟨hu, hx⟩
    · exact .inr ⟨x, hx, rfl⟩
    · obtain rfl := List.mem_singleton.1 hx
      exact .inl ⟨hu, rfl⟩
  journal := ⟨[], rfl, by simp⟩

theorem quiet_cancel (t : TaskId) (b : Board σ) : Quiet b (b.cancel t).2 where
  grows := grows_cancel t b
  orderly ho := ho.cancel t
  stored c k s h := by
    unfold cancel at h
    split at h
    · exact (stored?_cancelAll [t] b c k).symm.trans h
    · exact h
  phases u x hx := by
    unfold cancel at hx
    split at hx
    · have hasked : ([t].foldl requestCancel b).tasks[u]? = some x := hx
      obtain ⟨y, hy, -, -, hph⟩ := task_of_cancelAll hasked
      exact .inr ⟨y, hy, hph⟩
    · exact .inr ⟨x, hx, rfl⟩
  journal := by
    refine ⟨[], ?_, by simp⟩
    unfold cancel
    split <;> rfl

theorem quiet_clear (c : σ.Cache) (b : Board σ) : Quiet b (b.clear c) where
  grows := grows_of_tasks rfl
  orderly ho := ho.clear c
  stored c' k s h := by
    rw [stored?_clear] at h
    split at h
    · cases h
    · exact h
  phases u x hx := .inr ⟨x, hx, rfl⟩
  journal := ⟨[.cleared c], rfl, fun ev hev => ⟨c, List.mem_singleton.1 hev⟩⟩

theorem Onward.grows (h : Onward program answer b b') : Grows b b' := by
  cases h with
  | move hw h => exact h.grows
  | quiet h => exact h.grows

theorem Onward.orderly (h : Onward program answer b b') (hb : Orderly b) : Orderly b' := by
  cases h with
  | move hw h => exact hb.move h
  | quiet h => exact h.orderly hb

/-- What may have become of a task in a step: it is new, or its phase is what it was, or it
has stopped because it was asked to, or it went on. -/
theorem Onward.became {x : Task σ} (h : Onward program answer b b')
    (hx : b'.tasks[u]? = some x) :
    (b.tasks.length ≤ u ∧ x.phase = .fresh) ∨ ∃ y, b.tasks[u]? = some y ∧ y.Later x ∧
      (x.phase = y.phase ∨
        (x.cancelRequested = true ∧ x.phase = .ended (.error .cancelled)) ∨
        ∃ w p, (∀ op, answer op (w op)) ∧ GoesOn program w b y p ∧ b' = run w u p b ∧
          x.phase = (halt w b p).phase b.tasks.length) := by
  by_cases hu : b.tasks.length ≤ u
  · refine .inl ⟨hu, ?_⟩
    cases h with
    | move hw h => exact (h.born hu hx).1
    | quiet h =>
      rcases h.phases u x hx with ⟨-, hp⟩ | ⟨y, hy, -⟩
      · exact hp
      · exact absurd (lt_of_getElem? hy) (Nat.not_lt.2 hu)
  · have hy := List.getElem?_eq_getElem (Nat.lt_of_not_le hu)
    obtain ⟨x', hx', hl⟩ := h.grows u _ hy
    obtain rfl := Option.some.inj (hx.symm.trans hx')
    refine .inr ⟨_, hy, hl, ?_⟩
    cases h with
    | quiet h =>
      rcases h.phases u x hx with ⟨hle, -⟩ | ⟨y, hy', hp⟩
      · exact absurd hle hu
      · obtain rfl := Option.some.inj (hy.symm.trans hy')
        exact .inl hp
    | @move w t hw h =>
      by_cases hut : u = t
      · subst hut
        cases h with
        | nothing =>
          obtain rfl := Option.some.inj (hy.symm.trans hx)
          exact .inl rfl
        | goesOn hz hc hp =>
          obtain rfl := Option.some.inj (hy.symm.trans hz)
          rw [getElem?_run_self hz] at hx
          obtain rfl := Option.some.inj hx
          exact .inr (.inr ⟨w, _, hw, hp, rfl, rfl⟩)
        | dropped hz hc hp =>
          obtain rfl := Option.some.inj (hy.symm.trans hz)
          rw [getElem?_setPhase, if_pos rfl, hz] at hx
          obtain rfl := Option.some.inj hx
          exact .inr (.inl ⟨hc, rfl⟩)
        | @stopped task ts hz hc hn ho hts =>
          obtain rfl := Option.some.inj (hy.symm.trans hz)
          obtain ⟨task', hz', -⟩ := getElem?_stopped hz ts
          have hasked := hl.asked hc
          rw [getElem?_run_self hz'] at hx
          obtain rfl := Option.some.inj hx
          exact .inr (.inl ⟨hasked, rfl⟩)
      · rcases h.elsewhere hy hut with hx' | hx'
        · obtain rfl := Option.some.inj (hx.symm.trans hx')
          exact .inl rfl
        · obtain rfl := Option.some.inj (hx.symm.trans hx')
          exact .inl (Task.asked_phase _)

/-! ### What was begun -/

/-- Operations were begun by tasks that there are. -/
def Dated (b : Board σ) : Prop :=
  ∀ (t : Nat) (op : σ.Op), .began t op ∈ b.journal → t < b.tasks.length

omit [DecidableEq σ.Cache] in
theorem dated_empty : Dated ({} : Board σ) := fun t op h => by simp at h

theorem began_not_mem_trace {op : σ.Op} : .began u op ∉ trace w t b p := by
  fun_induction trace w t b p <;> simp_all

theorem eq_of_began_events {op : σ.Op} {h : Halt σ} (he : .began u op ∈ h.events t b) : u = t := by
  cases h with
  | ended o =>
    cases o with
    | ok r => simp [Halt.events] at he
    | error f =>
      rcases hpl : b.place? t with _ | ⟨c', k'⟩
      · simp [Halt.events, hpl] at he
      · by_cases hs : b.stored? c' k' = some t <;> simp [Halt.events, hpl, hs] at he
  | performing op' next =>
    simp only [Halt.events, List.mem_singleton, Event.began.injEq] at he
    exact he.1
  | joining s' next => simp [Halt.events] at he
  | storing c' k' job next => simp [Halt.events] at he
  | gathering jobs next => simp [Halt.events] at he

/-- Only the task that goes on begins an operation. -/
theorem Dated.run (hb : Dated b) (ht : t < b.tasks.length) (w : World σ)
    (p : Program σ σ.Result) : Dated (run w t p b) := by
  intro u op h
  have hle := length_le_run (w := w) (p := p) ht
  rw [journal_run ht] at h
  rcases List.mem_append.1 h with h | h
  · rw [eq_of_began_events h]
    omega
  · rcases List.mem_append.1 h with h | h
    · exact absurd h began_not_mem_trace
    · have hlt := hb u op h
      omega

theorem Dated.onward (hb : Dated b) (h : Onward program answer b b') : Dated b' := by
  cases h with
  | quiet h =>
    intro t op hev
    obtain ⟨es, he, hc⟩ := h.journal
    rw [he] at hev
    rcases List.mem_append.1 hev with hev | hev
    · obtain ⟨c, h'⟩ := hc _ hev
      cases h'
    · exact Nat.lt_of_lt_of_le (hb t op hev) h.grows.length_le
  | @move w t hw h =>
    cases h with
    | nothing => exact hb
    | goesOn hz hc hp => exact hb.run (lt_of_getElem? hz) w _
    | dropped hz hc hp =>
      intro u op hev
      rw [setPhase, length_update]
      exact hb u op hev
    | @stopped task ts hz hc hn ho hts =>
      have hcancelled : Dated (ts.foldl requestCancel b) := by
        intro u op hev
        rw [length_cancelAll]
        exact hb u op (journal_cancelAll ts b ▸ hev)
      refine hcancelled.run ?_ w _
      rw [length_cancelAll]
      exact lt_of_getElem? hz

/-- What is stored behind a step was stored before, or is new. -/
theorem Onward.stored_cases (h : Onward program answer b b') (hb : Orderly b)
    (hs : b'.stored? c k = some s) : b.stored? c k = some s ∨ b.tasks.length ≤ s := by
  cases h with
  | quiet h => exact .inl (h.stored c k s hs)
  | move hw h =>
    by_cases hlt : s < b.tasks.length
    · exact .inl (h.stored_old hb hlt hs)
    · exact .inr (Nat.le_of_not_lt hlt)

end Board

end CachedViews
