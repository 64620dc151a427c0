import CachedViews.Proofs.Task.Stored

/-
# How a task that goes on comes to a stop

`Board.run` records notes and answers on its way and changes nothing else until
the task comes to a stop: it ends, it starts an operation, it waits for a task
that is stored, it stores a new one and waits for that, or it starts tasks of its
own. Which of these it is (`Board.halt`) can be told from the board it starts
on, and so can everything that `run` does to the board (`Board.run_eq`): one task
has a new phase, the tasks it started come after all others, and the entries
change in one place at most.

Key definitions: `Halt`, `Board.halt`, `Board.trace`.
Key theorems: `Board.run_eq`, `Board.getElem?_run_of_ne`,
`Board.getElem?_run_self`, `Board.getElem?_run_new`, `Board.stored?_run`.
-/

namespace CachedViews

/-- The ways in which a task that goes on comes to a stop. -/
inductive Halt (σ : Signature) : Type where
  | ended (outcome : Except Fault σ.Result)
  | performing (op : σ.Op) (next : σ.Answer op → Program σ σ.Result)
  /-- It waits for a task that is stored. -/
  | joining (task : TaskId) (next : σ.Result → Program σ σ.Result)
  /-- It stores a new task and waits for it. -/
  | storing (cache : σ.Cache) (key : String) (job : σ.Job)
      (next : σ.Result → Program σ σ.Result)
  | gathering (jobs : List σ.Job) (next : List σ.Result → Program σ σ.Result)

namespace Halt

variable {σ : Signature}

/-- The phase of the task at the stop, if there are `n` tasks before it. -/
def phase (n : Nat) : Halt σ → Phase σ
  | ended o => .ended o
  | performing op next => .performing op next
  | joining s next => .joining s next
  | storing _ _ _ next => .joining n next
  | gathering jobs next => .gathering (List.range' n jobs.length) next

/-- The tasks that are started at the stop. -/
def started : Halt σ → List (Task σ)
  | storing c k job _ => [{ job, place := some (c, k) }]
  | gathering jobs _ => jobs.map fun job => { job := job }
  | _ => []

variable [DecidableEq σ.Cache]

/-- The entries behind the stop of a task. -/
def entries (t : TaskId) (b : Board σ) : Halt σ → List (Entry σ)
  | ended (.error f) => (b.evict t f).entries
  | storing c k _ _ => Board.store c k b.tasks.length b.entries
  | _ => b.entries

/-- The events that the stop of a task adds. -/
def events (t : TaskId) (b : Board σ) : Halt σ → List (Event σ)
  | ended (.error f) =>
    match b.place? t with
    | some (c, k) => if b.stored? c k = some t then [.evicted c k t f] else []
    | none => []
  | performing op _ => [.began t op]
  | storing c k _ _ => [.missed c k b.tasks.length]
  | _ => []

end Halt

namespace Board

variable {σ : Signature}

/-! ### Changing one task -/

theorem modify_append {α : Type} {f : α → α} {l : List α} {t : Nat} (ht : t < l.length)
    (l' : List α) : (l ++ l').modify t f = l.modify t f ++ l' := by
  induction l generalizing t with
  | nil => simp at ht
  | cons a l ih =>
    cases t with
    | zero => rfl
    | succ t => simpa using ih (by simpa using ht)

theorem lt_of_getElem? {b : Board σ} {t : Nat} {task : Task σ} (h : b.tasks[t]? = some task) :
    t < b.tasks.length :=
  (List.getElem?_eq_some_iff.1 h).1

theorem getElem?_update (t u : TaskId) (f : Task σ → Task σ) (b : Board σ) :
    (b.update t f).tasks[u]? = if t = u then (b.tasks[u]?).map f else b.tasks[u]? := by
  simp only [update, List.getElem?_modify]
  split
  · rfl
  · simp

@[simp] theorem length_update (t : TaskId) (f : Task σ → Task σ) (b : Board σ) :
    (b.update t f).tasks.length = b.tasks.length := by
  simp [update]

theorem getElem?_setPhase (t u : TaskId) (p : Phase σ) (b : Board σ) :
    (b.setPhase t p).tasks[u]? =
      if t = u then (b.tasks[u]?).map fun task => { task with phase := p } else b.tasks[u]? :=
  getElem?_update t u _ b

/-- Where the phase of one task was set, a task has the new phase or is as it was. -/
theorem task_of_setPhase {b : Board σ} {t u : TaskId} {ph : Phase σ} {x : Task σ}
    (hx : (b.setPhase t ph).tasks[u]? = some x) :
    (u = t ∧ ∃ y, b.tasks[u]? = some y ∧ x = { y with phase := ph }) ∨
      b.tasks[u]? = some x := by
  rw [getElem?_setPhase] at hx
  split at hx
  · obtain ⟨y, hy, rfl⟩ := Option.map_eq_some_iff.1 hx
    exact .inl ⟨Eq.symm ‹_›, y, hy, rfl⟩
  · exact .inr hx

/-- A task of a longer list was there before or is new. -/
theorem getElem?_of_append {b b' : Board σ} {new : List (Task σ)} (h : b'.tasks = b.tasks ++ new)
    {u : Nat} {x : Task σ} (hu : b'.tasks[u]? = some x) :
    b.tasks[u]? = some x ∨ (b.tasks.length ≤ u ∧ x ∈ new) := by
  rw [h] at hu
  by_cases hlt : u < b.tasks.length
  · exact .inl (List.getElem?_append_left hlt ▸ hu)
  · have hle : b.tasks.length ≤ u := Nat.le_of_not_lt hlt
    rw [List.getElem?_append_right hle] at hu
    exact .inr ⟨hle, List.mem_of_getElem? hu⟩

/-! ### Tasks that are started -/

/-- The task that was started at a stop is the one that is stored, or one of those that are
waited for. -/
theorem mem_started {h : Halt σ} {x : Task σ} (hx : x ∈ h.started) :
    (∃ c k job next, h = .storing c k job next ∧ x = { job, place := some (c, k) }) ∨
      ∃ jobs next, h = .gathering jobs next ∧ ∃ job ∈ jobs, x = { job := job } := by
  cases h with
  | storing c k job next => exact .inl ⟨c, k, job, next, rfl, List.mem_singleton.1 hx⟩
  | gathering jobs next =>
    obtain ⟨job, hj, rfl⟩ := List.mem_map.1 hx
    exact .inr ⟨jobs, next, rfl, job, hj, rfl⟩
  | ended o => simp [Halt.started] at hx
  | performing op next => simp [Halt.started] at hx
  | joining s next => simp [Halt.started] at hx

theorem fresh_of_started {h : Halt σ} {x : Task σ} (hx : x ∈ h.started) : x.phase = .fresh := by
  rcases mem_started hx with ⟨c, k, job, next, -, rfl⟩ | ⟨jobs, next, -, job, -, rfl⟩
  · rfl
  · rfl

theorem not_asked_of_started {h : Halt σ} {x : Task σ} (hx : x ∈ h.started) :
    x.cancelRequested = false := by
  rcases mem_started hx with ⟨c, k, job, next, -, rfl⟩ | ⟨jobs, next, -, job, -, rfl⟩
  · rfl
  · rfl

theorem spawnAll_eq (jobs : List σ.Job) (b : Board σ) : b.spawnAll jobs =
    (List.range' b.tasks.length jobs.length,
      { b with tasks := b.tasks ++ jobs.map fun job => { job := job } }) := by
  induction jobs generalizing b with
  | nil => simp [spawnAll]
  | cons job jobs ih => simp [spawnAll, spawn, ih, List.range'_succ]

@[simp] theorem outcome?_record (e : Event σ) (b : Board σ) (t : TaskId) :
    (b.record e).outcome? t = b.outcome? t := rfl

@[simp] theorem place?_record (e : Event σ) (b : Board σ) (t : TaskId) :
    (b.record e).place? t = b.place? t := rfl

/-! ### The stop of a task -/

variable [DecidableEq σ.Cache]

/-- How a program comes to a stop on a board. -/
def halt (w : World σ) (b : Board σ) : Program σ σ.Result → Halt σ
  | .done r => .ended r
  | .note _ next => halt w b next
  | .ask op next => halt w b (next (w op))
  | .perform op next => .performing op next
  | .lookup c k job next =>
    match b.stored? c k with
    | none => .storing c k job next
    | some s =>
      match b.outcome? s with
      | some (.ok r) => halt w b (next r)
      | some (.error f) => .ended (.error f)
      | none => .joining s next
  | .gather jobs next => if jobs.isEmpty then halt w b (next []) else .gathering jobs next

theorem halt_lookup (w : World σ) (b : Board σ) (c : σ.Cache) (k : String) (job : σ.Job)
    (next : σ.Result → Program σ σ.Result) : halt w b (.lookup c k job next) =
      match b.stored? c k with
      | none => .storing c k job next
      | some s =>
        match b.outcome? s with
        | some (.ok r) => halt w b (next r)
        | some (.error f) => .ended (.error f)
        | none => .joining s next := by
  rw [halt]

/-- A task that looks up a key stores a new task, or waits for the one that is stored, or goes
on with its result, or fails as it did. -/
theorem halt_lookup_cases (w : World σ) (b : Board σ) (c : σ.Cache) (k : String) (job : σ.Job)
    (next : σ.Result → Program σ σ.Result) :
    (b.stored? c k = none ∧ halt w b (.lookup c k job next) = .storing c k job next) ∨
      ∃ s, b.stored? c k = some s ∧
        ((b.outcome? s = none ∧ halt w b (.lookup c k job next) = .joining s next) ∨
          (∃ r, b.outcome? s = some (.ok r) ∧
            halt w b (.lookup c k job next) = halt w b (next r)) ∨
          ∃ f, b.outcome? s = some (.error f) ∧
            halt w b (.lookup c k job next) = .ended (.error f)) := by
  rw [halt_lookup]
  cases hs : b.stored? c k with
  | none => exact .inl ⟨rfl, rfl⟩
  | some s =>
    refine .inr ⟨s, rfl, ?_⟩
    simp only
    rcases ho : b.outcome? s with _ | (f | r)
    · exact .inl ⟨rfl, rfl⟩
    · exact .inr (.inr ⟨f, rfl, rfl⟩)
    · exact .inr (.inl ⟨r, rfl, rfl⟩)

/-- A task stores a new one only where nothing is stored. -/
theorem stored?_of_storing {w : World σ} {b : Board σ} {p : Program σ σ.Result} {c : σ.Cache}
    {k : String} {job : σ.Job} {next : σ.Result → Program σ σ.Result}
    (h : halt w b p = .storing c k job next) : b.stored? c k = none := by
  fun_induction halt w b p <;> simp_all

/-- What is recorded on the way to the stop, the last event first. -/
def trace (w : World σ) (t : TaskId) (b : Board σ) : Program σ σ.Result → List (Event σ)
  | .note n next => trace w t b next ++ [.noted t n]
  | .ask op next => trace w t b (next (w op)) ++ [.asked t op]
  | .lookup c k _ next =>
    match b.stored? c k with
    | none => []
    | some s =>
      match b.outcome? s with
      | some (.ok r) => trace w t b (next r) ++ [.hit c k s]
      | _ => [.hit c k s]
  | .gather jobs next => if jobs.isEmpty then trace w t b (next []) else []
  | _ => []

@[simp] theorem stored?_record (e : Event σ) (b : Board σ) (c : σ.Cache) (k : String) :
    (b.record e).stored? c k = b.stored? c k := rfl

/-- Where a task stops does not depend on the journal. -/
@[simp] theorem halt_record (w : World σ) (e : Event σ) (b : Board σ) (p : Program σ σ.Result) :
    halt w (b.record e) p = halt w b p := by
  fun_induction halt w b p <;> simp_all [halt]

@[simp] theorem trace_record (w : World σ) (t : TaskId) (e : Event σ) (b : Board σ)
    (p : Program σ σ.Result) : trace w t (b.record e) p = trace w t b p := by
  fun_induction trace w t b p <;> simp_all [trace]

theorem entries_evict_record (t : TaskId) (f : Fault) (e : Event σ) (b : Board σ) :
    ((b.record e).evict t f).entries = (b.evict t f).entries := by
  rcases hp : b.place? t with _ | ⟨c, k⟩
  · rw [evict_of_no_place hp, evict_of_no_place (by rw [place?_record, hp])]
    rfl
  · rw [evict_of_place hp, evict_of_place (by rw [place?_record, hp]), stored?_record]
    split <;> rfl

@[simp] theorem entries_record (h : Halt σ) (t : TaskId) (e : Event σ) (b : Board σ) :
    h.entries t (b.record e) = h.entries t b := by
  cases h with
  | ended o =>
    cases o with
    | ok r => rfl
    | error f => exact entries_evict_record t f e b
  | performing op next => rfl
  | joining s next => rfl
  | storing c k job next => rfl
  | gathering jobs next => rfl

@[simp] theorem events_record (h : Halt σ) (t : TaskId) (e : Event σ) (b : Board σ) :
    h.events t (b.record e) = h.events t b := rfl

/-- The board when a task has come to a stop. -/
def halted (t : TaskId) (h : Halt σ) (passed : List (Event σ)) (b : Board σ) : Board σ where
  tasks := b.tasks.modify t (fun task => { task with phase := h.phase b.tasks.length }) ++ h.started
  entries := h.entries t b
  journal := h.events t b ++ (passed ++ b.journal)

theorem halted_record (t : TaskId) (h : Halt σ) (passed : List (Event σ)) (e : Event σ)
    (b : Board σ) : halted t h passed (b.record e) = halted t h (passed ++ [e]) b := by
  simp only [halted, entries_record, events_record, List.append_assoc, List.singleton_append]
  rfl

theorem finish_eq (t : TaskId) (o : Except Fault σ.Result) (b : Board σ) :
    b.finish t o = halted t (.ended o) [] b := by
  cases o with
  | ok r =>
    simp [finish, halted, setPhase, update, Halt.phase, Halt.started, Halt.entries, Halt.events]
  | error f =>
    simp only [finish, halted, setPhase, update, Halt.phase, Halt.started, Halt.entries,
      Halt.events, List.nil_append, List.append_nil]
    rcases hp : b.place? t with _ | ⟨c, k⟩
    · rw [evict_of_no_place hp]
      rfl
    · rw [evict_of_place hp]
      simp only
      split <;> rfl

theorem run_done (w : World σ) (t : TaskId) (r : Except Fault σ.Result) (b : Board σ) :
    run w t (.done r) b = b.finish t r := by
  rw [run]

/-- **What `run` does.** It brings the task to its stop. -/
theorem run_eq (w : World σ) (t : TaskId) (p : Program σ σ.Result) (b : Board σ)
    (ht : t < b.tasks.length) : run w t p b = halted t (halt w b p) (trace w t b p) b := by
  induction p generalizing b with
  | done r => exact finish_eq t r b
  | note n next ih =>
    rw [run, ih (b.record (.noted t n)) ht, halt_record, trace_record, halted_record]
    rfl
  | ask op next ih =>
    rw [run, ih (w op) (b.record (.asked t op)) ht, halt_record, trace_record, halted_record]
    rfl
  | perform op next ih =>
    simp [run, halted, halt, trace, record, setPhase, update, Halt.phase, Halt.started,
      Halt.entries, Halt.events]
  | lookup c k job next ih =>
    rw [run, halt, trace]
    cases hs : b.stored? c k with
    | none =>
      simp only [populate, setPhase, update, halted, Halt.phase, Halt.started, Halt.entries,
        Halt.events, List.nil_append, List.singleton_append]
      rw [modify_append ht]
    | some s =>
      simp only [outcome?_record]
      cases ho : b.outcome? s with
      | none =>
        simp [halted, record, setPhase, update, Halt.phase, Halt.started, Halt.entries, Halt.events]
      | some o =>
        cases o with
        | ok r =>
          simp only
          rw [ih r (b.record (.hit c k s)) ht, halt_record, trace_record, halted_record]
        | error f => simp only [finish_eq, halted_record, List.nil_append]
  | gather jobs next ih =>
    rw [run, halt, trace]
    split
    · exact ih [] b ht
    · simp only [spawnAll_eq, setPhase, update, halted, Halt.phase, Halt.started, Halt.entries,
        Halt.events, List.nil_append]
      rw [modify_append ht]

/-! ### The board behind a run -/

variable {w : World σ} {t u : Nat} {p : Program σ σ.Result} {b : Board σ} {task : Task σ}

/-- The task itself is at its stop. -/
theorem getElem?_run_self (h : b.tasks[t]? = some task) : (run w t p b).tasks[t]? =
    some { task with phase := (halt w b p).phase b.tasks.length } := by
  have ht := lt_of_getElem? h
  rw [run_eq w t p b ht, halted, List.getElem?_append_left (by simpa using ht),
    List.getElem?_modify, h]
  simp

/-- No other task changes. -/
theorem getElem?_run_of_ne (ht : t < b.tasks.length) (hu : u < b.tasks.length) (hne : u ≠ t) :
    (run w t p b).tasks[u]? = b.tasks[u]? := by
  rw [run_eq w t p b ht, halted, List.getElem?_append_left (by simpa using hu),
    List.getElem?_modify]
  simp [Ne.symm hne]

/-- Behind the tasks there were stand those that were started. -/
theorem getElem?_run_new (ht : t < b.tasks.length) (hu : b.tasks.length ≤ u) :
    (run w t p b).tasks[u]? = (halt w b p).started[u - b.tasks.length]? := by
  rw [run_eq w t p b ht, halted, List.getElem?_append_right (by simpa using hu)]
  simp

/-- A task behind a run is the one that ran, or was there before, or was started. -/
theorem getElem?_run_cases {x : Task σ} (h : b.tasks[t]? = some task)
    (hx : (run w t p b).tasks[u]? = some x) :
    (u = t ∧ x = { task with phase := (halt w b p).phase b.tasks.length }) ∨
      (u ≠ t ∧ b.tasks[u]? = some x) ∨ (b.tasks.length ≤ u ∧ x ∈ (halt w b p).started) := by
  have ht := lt_of_getElem? h
  by_cases hu : u < b.tasks.length
  · by_cases hut : u = t
    · subst hut
      rw [getElem?_run_self h] at hx
      exact .inl ⟨rfl, (Option.some.inj hx).symm⟩
    · rw [getElem?_run_of_ne ht hu hut] at hx
      exact .inr (.inl ⟨hut, hx⟩)
  · have hle : b.tasks.length ≤ u := Nat.le_of_not_lt hu
    rw [getElem?_run_new ht hle] at hx
    exact .inr (.inr ⟨hle, List.mem_of_getElem? hx⟩)

theorem length_run (ht : t < b.tasks.length) :
    (run w t p b).tasks.length = b.tasks.length + (halt w b p).started.length := by
  simp [run_eq w t p b ht, halted]

theorem length_le_run (ht : t < b.tasks.length) :
    b.tasks.length ≤ (run w t p b).tasks.length := by
  rw [length_run ht]
  omega

theorem journal_run (ht : t < b.tasks.length) : (run w t p b).journal =
    (halt w b p).events t b ++ (trace w t b p ++ b.journal) := by
  rw [run_eq w t p b ht, halted]

theorem entries_run (ht : t < b.tasks.length) :
    (run w t p b).entries = (halt w b p).entries t b := by
  rw [run_eq w t p b ht, halted]

/-- What is stored when a task has come to a stop. -/
theorem stored?_run (ht : t < b.tasks.length) (c : σ.Cache) (k : String) :
    (run w t p b).stored? c k =
      match halt w b p with
      | .ended (.error _) =>
        if b.place? t = some (c, k) ∧ b.stored? c k = some t then none else b.stored? c k
      | .storing c' k' _ _ => if c' = c ∧ k' = k then some b.tasks.length else b.stored? c k
      | _ => b.stored? c k := by
  have he := entries_run (w := w) (p := p) ht
  cases hh : halt w b p with
  | ended o =>
    rw [hh] at he
    cases o with
    | ok r => exact stored?_congr he c k
    | error f => exact (stored?_congr he c k).trans (stored?_evict t f b c k)
  | performing op next => exact stored?_congr (he.trans (by rw [hh]; rfl)) c k
  | joining s next => exact stored?_congr (he.trans (by rw [hh]; rfl)) c k
  | gathering jobs next => exact stored?_congr (he.trans (by rw [hh]; rfl)) c k
  | storing c' k' job next =>
    refine (stored?_congr (he.trans ?_) c k).trans (stored?_populate c' k' job b c k)
    rw [hh]
    rfl

end Board

end CachedViews
