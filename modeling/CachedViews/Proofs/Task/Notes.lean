import CachedViews.Proofs.Task.Orderly

/-
# How many notes a task leaves

A program that leaves at most `n` notes whatever it is answered
(`Program.NotesAtMost`) is a bound for the task that runs it: the notes that the
task has left in the journal and those that the rest of its program may still leave
are `n` together (`Board.Budgeted`). No step of a board breaks this, since only a
task itself leaves notes in its name.

Key definitions: `Program.NotesAtMost`, `Board.noteCount`, `Board.Budgeted`.
Key theorems: `Board.noteCount_trace`, `Board.Budgeted.run`, `Board.Budgeted.step`,
`Board.Budgeted.noteCount_le`, `Board.Step.noteCount_of_ended`.
-/

namespace CachedViews

variable {σ : Signature}

/-- The program leaves `n` notes at most, whatever it is answered. -/
def Program.NotesAtMost {α : Type} : Program σ α → Nat → Prop
  | .done _, _ => True
  | .note _ next, n => ∃ m, n = m + 1 ∧ next.NotesAtMost m
  | .ask _ next, n => ∀ a, (next a).NotesAtMost n
  | .perform _ next, n => ∀ a, (next a).NotesAtMost n
  | .lookup _ _ _ next, n => ∀ r, (next r).NotesAtMost n
  | .gather _ next, n => ∀ rs, (next rs).NotesAtMost n

/-- What a task has still to do leaves `n` notes at most. -/
def Phase.NotesAtMost (start : Program σ σ.Result) (n : Nat) : Phase σ → Prop
  | .fresh => start.NotesAtMost n
  | .performing _ next => ∀ a, (next a).NotesAtMost n
  | .joining _ next => ∀ r, (next r).NotesAtMost n
  | .gathering _ next => ∀ rs, (next rs).NotesAtMost n
  | .ended _ => True

/-- Is the event a note of the task? -/
def Event.isNoteOf (t : TaskId) : Event σ → Bool
  | .noted u _ => u = t
  | _ => false

namespace Board

/-- How many notes of a task there are among events. -/
def noteCount (t : TaskId) (es : List (Event σ)) : Nat := es.countP (Event.isNoteOf t)

/-- What each task has noted and may still note is within its limit, and nothing is
noted for tasks that are still to come. -/
structure Budgeted (program : σ.Job → Program σ σ.Result) (limit : σ.Job → Nat) (b : Board σ) :
    Prop where
  within : ∀ (t : Nat) (task : Task σ), b.tasks[t]? = some task →
    ∃ n, task.phase.NotesAtMost (program task.job) n ∧
      noteCount t b.journal + n ≤ limit task.job
  unborn : ∀ t : Nat, b.tasks.length ≤ t → noteCount t b.journal = 0

variable {program : σ.Job → Program σ σ.Result} {limit : σ.Job → Nat} {w : World σ} {t u n : Nat}
  {p : Program σ σ.Result} {b b' : Board σ} {task : Task σ}

theorem noteCount_append (t : TaskId) (es es' : List (Event σ)) :
    noteCount t (es ++ es') = noteCount t es + noteCount t es' :=
  List.countP_append

theorem Budgeted.noteCount_le (h : Budgeted program limit b) (ht : b.tasks[t]? = some task) :
    noteCount t b.journal ≤ limit task.job := by
  obtain ⟨n, -, hn⟩ := h.within t task ht
  omega

variable [DecidableEq σ.Cache]

/-- The stop of a task leaves no note. -/
theorem noteCount_events (h : Halt σ) (t u : TaskId) (b : Board σ) :
    noteCount u (h.events t b) = 0 := by
  cases h with
  | ended o =>
    cases o with
    | ok r => rfl
    | error f =>
      simp only [Halt.events]
      rcases b.place? t with _ | ⟨c, k⟩
      · rfl
      · simp only
        split <;> rfl
  | performing op next => rfl
  | joining s next => rfl
  | storing c k job next => rfl
  | gathering jobs next => rfl

/-- No other task leaves notes on the way to the stop. -/
theorem noteCount_trace_of_ne (hne : u ≠ t) (p : Program σ σ.Result) :
    noteCount u (trace w t b p) = 0 := by
  have hne' : t ≠ u := Ne.symm hne
  fun_induction trace w t b p <;> simp_all [Event.isNoteOf, noteCount]

/-- **The way to a stop.** What is noted on it is no longer to be noted behind it. -/
theorem noteCount_trace (w : World σ) (t : TaskId) (b : Board σ) (start : Program σ σ.Result)
    (len : Nat) (p : Program σ σ.Result) (n : Nat) (hp : p.NotesAtMost n) :
    ∃ m, ((halt w b p).phase len).NotesAtMost start m ∧ noteCount t (trace w t b p) + m ≤ n := by
  induction p generalizing n with
  | done r => exact ⟨n, trivial, by simp [trace, noteCount]⟩
  | note e next ih =>
    obtain ⟨k, rfl, hk⟩ := hp
    obtain ⟨m, hm, hle⟩ := ih k hk
    refine ⟨m, hm, ?_⟩
    rw [trace, noteCount_append]
    have h1 : noteCount t [Event.noted t e] = 1 := by simp [noteCount, Event.isNoteOf]
    omega
  | ask op next ih =>
    obtain ⟨m, hm, hle⟩ := ih (w op) n (hp (w op))
    refine ⟨m, hm, ?_⟩
    rw [trace, noteCount_append]
    have h0 : noteCount t [Event.asked (σ := σ) t op] = 0 := rfl
    omega
  | perform op next ih => exact ⟨n, hp, by simp [trace, noteCount]⟩
  | lookup c k job next ih =>
    rw [halt, trace]
    cases hs : b.stored? c k with
    | none => exact ⟨n, hp, by simp [noteCount]⟩
    | some s =>
      have h0 : noteCount t [Event.hit (σ := σ) c k s] = 0 := rfl
      simp only
      cases ho : b.outcome? s with
      | none => exact ⟨n, hp, by simp only; omega⟩
      | some o =>
        cases o with
        | error f => exact ⟨n, trivial, by simp only; omega⟩
        | ok r =>
          obtain ⟨m, hm, hle⟩ := ih r n (hp r)
          exact ⟨m, hm, by simp only [noteCount_append]; omega⟩
  | gather jobs next ih =>
    rw [halt, trace]
    split
    · exact ih [] n (hp [])
    · exact ⟨n, hp, by simp [noteCount]⟩

/-! ### A run and a move -/

theorem noteCount_run (ht : t < b.tasks.length) (u : Nat) :
    noteCount u (run w t p b).journal = noteCount u (trace w t b p) + noteCount u b.journal := by
  rw [journal_run ht, noteCount_append, noteCount_append, noteCount_events]
  omega

theorem Budgeted.run (hb : Budgeted program limit b)
    (hl : ∀ job, (program job).NotesAtMost (limit job)) (ht : b.tasks[t]? = some task)
    (hp : p.NotesAtMost n) (hn : noteCount t b.journal + n ≤ limit task.job) :
    Budgeted program limit (run w t p b) where
  within u x hu := by
    have hlt := lt_of_getElem? ht
    rw [noteCount_run hlt]
    by_cases hul : u < b.tasks.length
    · by_cases hut : u = t
      · subst hut
        rw [getElem?_run_self ht, Option.some.injEq] at hu
        subst hu
        obtain ⟨m, hm, hle⟩ := noteCount_trace w u b (program task.job) b.tasks.length p n hp
        exact ⟨m, hm, by simp only; omega⟩
      · rw [getElem?_run_of_ne hlt hul hut] at hu
        rw [noteCount_trace_of_ne hut, Nat.zero_add]
        exact hb.within u x hu
    · -- a task that was started has its whole limit left
      have hle : b.tasks.length ≤ u := Nat.le_of_not_lt hul
      rw [getElem?_run_new hlt hle] at hu
      have hfresh := fresh_of_started (List.mem_of_getElem? hu)
      rw [noteCount_trace_of_ne (by omega), hb.unborn u hle]
      exact ⟨limit x.job, by rw [hfresh]; exact hl x.job, by omega⟩
  unborn u hu := by
    have hlt := lt_of_getElem? ht
    have hle := length_le_run (w := w) (p := p) hlt
    rw [noteCount_run hlt, noteCount_trace_of_ne (by omega), hb.unborn u (by omega)]

omit [DecidableEq σ.Cache] in
/-- Boards with the same notes and no task further back are within the limits too. -/
theorem Budgeted.of_phases (hb : Budgeted program limit b)
    (hj : ∀ u : Nat, noteCount u b'.journal = noteCount u b.journal)
    (hl : b.tasks.length ≤ b'.tasks.length)
    (ht : ∀ (u : Nat) (x : Task σ), b'.tasks[u]? = some x →
      (∃ y, b.tasks[u]? = some y ∧ x.job = y.job ∧
        (x.phase = y.phase ∨ ∃ o, x.phase = .ended o)) ∨
      (b.tasks.length ≤ u ∧ x.phase.NotesAtMost (program x.job) (limit x.job))) :
    Budgeted program limit b' where
  within u x hu := by
    rw [hj]
    rcases ht u x hu with ⟨y, hy, hjob, hph⟩ | ⟨hle, hx⟩
    · obtain ⟨n, hn, hle⟩ := hb.within u y hy
      rcases hph with hph | ⟨o, hph⟩
      · exact ⟨n, by rw [hph, hjob]; exact hn, by rw [hjob]; exact hle⟩
      · exact ⟨0, by rw [hph]; trivial, by rw [hjob]; omega⟩
    · exact ⟨limit x.job, hx, by rw [hb.unborn u hle]; omega⟩
  unborn u hu := by
    rw [hj]
    exact hb.unborn u (by omega)

omit [DecidableEq σ.Cache] in
theorem Budgeted.cancelAll (hb : Budgeted program limit b) (ts : List Nat) :
    Budgeted program limit (ts.foldl requestCancel b) := by
  refine hb.of_phases (fun u => by rw [journal_cancelAll]) (Nat.le_of_eq (length_cancelAll ts b).symm)
    fun u x hu => .inl ?_
  obtain ⟨y, hy, hj, -, hph⟩ := task_of_cancelAll hu
  exact ⟨y, hy, hj, .inl hph⟩

theorem Budgeted.move (hb : Budgeted program limit b)
    (hl : ∀ job, (program job).NotesAtMost (limit job)) (h : Move program w t b b') :
    Budgeted program limit b' := by
  cases h with
  | nothing => exact hb
  | @goesOn task p h hc hp =>
    obtain ⟨n, hn, hle⟩ := hb.within t task h
    have hpn : p.NotesAtMost n := by
      cases hp with
      | first hph => rw [hph] at hn; exact hn
      | answered hph => rw [hph] at hn; exact hn _
      | joined hph _ => rw [hph] at hn; exact hn _
      | joinFailed hph _ => trivial
      | gathered hph _ => rw [hph] at hn; exact hn _
      | gatherFailed hph _ => trivial
    exact hb.run hl h hpn hle
  | dropped h hc hp =>
    refine hb.of_phases (fun _ => rfl) (Nat.le_of_eq (length_update t _ b).symm) fun u x hu => .inl ?_
    rcases task_of_setPhase hu with ⟨-, y, hy, rfl⟩ | hu
    · exact ⟨y, hy, rfl, .inr ⟨_, rfl⟩⟩
    · exact ⟨x, hu, rfl, .inl rfl⟩
  | @stopped task ts h hc hn ho hts =>
    have hb' := hb.cancelAll ts
    obtain ⟨task', h', -⟩ := getElem?_stopped h ts
    obtain ⟨n, -, hle⟩ := hb'.within t task' h'
    exact hb'.run hl h' trivial hle

omit [DecidableEq σ.Cache] in
theorem Budgeted.of_append (hb : Budgeted program limit b)
    (hl : ∀ job, (program job).NotesAtMost (limit job)) {new : List (Task σ)}
    (ht : b'.tasks = b.tasks ++ new) (hj : ∀ u : Nat, noteCount u b'.journal = noteCount u b.journal)
    (hn : ∀ x ∈ new, x.phase = .fresh) : Budgeted program limit b' := by
  refine hb.of_phases hj (by rw [ht, List.length_append]; omega) fun u x hu => ?_
  rcases getElem?_of_append ht hu with hu | ⟨hle, hx⟩
  · exact .inl ⟨x, hu, rfl, .inl rfl⟩
  · exact .inr ⟨hle, by rw [hn x hx]; exact hl x.job⟩

theorem Budgeted.step (hb : Budgeted program limit b)
    (hl : ∀ job, (program job).NotesAtMost (limit job)) (h : Step program b b') :
    Budgeted program limit b' := by
  cases h with
  | resume w t => exact hb.move hl (move_resume program w t b)
  | complete w t => exact hb.move hl (move_complete program w t b)
  | spawn job =>
    have ht : (b.spawn job).2.tasks = b.tasks ++ [{ job := job }] := rfl
    exact hb.of_append hl ht (fun _ => rfl) (by simp)
  | populate c k job =>
    have ht : (b.populate c k job).2.tasks = b.tasks ++ [{ job, place := some (c, k) }] := rfl
    exact hb.of_append hl ht (fun _ => rfl) (by simp)
  | cancel t =>
    unfold Board.cancel
    split
    · exact hb.cancelAll [t]
    · exact hb
  | invalidate c k =>
    exact hb.of_phases (fun _ => rfl) (Nat.le_refl _) fun u x hu => .inl ⟨x, hu, rfl, .inl rfl⟩
  | clear c =>
    exact hb.of_phases (fun _ => rfl) (Nat.le_refl _) fun u x hu => .inl ⟨x, hu, rfl, .inl rfl⟩

/-! ### Tasks that leave no note in a step -/

/-- A task that does not go on with a program leaves no note. -/
theorem Move.noteCount_eq (h : Move program w t b b')
    (hu : u ≠ t ∨ ∃ task, b.tasks[u]? = some task ∧ task.phase.outcome? ≠ none) :
    noteCount u b'.journal = noteCount u b.journal := by
  cases h with
  | nothing => rfl
  | goesOn h hc hp =>
    have hne : u ≠ t := by
      rcases hu with hne | ⟨x, hx, hxo⟩
      · exact hne
      · rintro rfl
        obtain rfl := Option.some.inj (h.symm.trans hx)
        exact hxo hp.not_ended
    rw [noteCount_run (lt_of_getElem? h), noteCount_trace_of_ne hne, Nat.zero_add]
  | dropped h hc hp => rfl
  | @stopped task ts h hc hn ho hts =>
    have hlt : t < (ts.foldl requestCancel b).tasks.length := by
      rw [length_cancelAll]
      exact lt_of_getElem? h
    rw [noteCount_run hlt, journal_cancelAll]
    simp [trace, noteCount]

/-- A task that has ended leaves no notes any more. -/
theorem Step.noteCount_of_ended (h : Step program b b') (ht : b.tasks[t]? = some task)
    (ho : task.phase.outcome? ≠ none) : noteCount t b'.journal = noteCount t b.journal := by
  cases h with
  | resume w u => exact (move_resume program w u b).noteCount_eq (.inr ⟨task, ht, ho⟩)
  | complete w u => exact (move_complete program w u b).noteCount_eq (.inr ⟨task, ht, ho⟩)
  | spawn job => rfl
  | populate c k job => rfl
  | cancel u =>
    unfold Board.cancel
    split <;> rfl
  | invalidate c k => rfl
  | clear c => rfl

end Board

end CachedViews
