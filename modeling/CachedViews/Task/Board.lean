import CachedViews.Task.Program

/-
# The board of tasks

All tasks ever started, what the caches store, and a journal of what happened.
Tasks have numbers, in the order in which they were started. A task that was
started for a cache is shared: everyone who looks its key up waits for it. When
a shared task fails it is removed from its cache, if it is still stored there,
in the same step.

Every operation is a total function on boards. `Board.resume` lets one task go
on as far as it can; it may be applied to any task at any time, and does nothing
when the task has nothing to go on with. So every order in which tasks may run
is an order of such steps.

Key definitions: `Phase`, `Task`, `Event`, `Board`, `Board.run`,
`Board.resume`, `Board.complete`, `Board.cancel`, `Board.populate`,
`Board.invalidate`, `Board.clear`.
-/

namespace CachedViews

/-- The number of a task. -/
abbrev TaskId := Nat

/-- How far a task has come. -/
inductive Phase (σ : Signature) : Type where
  /-- It has not run yet. -/
  | fresh
  /-- It waits for the end of an operation. -/
  | performing (op : σ.Op) (next : σ.Answer op → Program σ σ.Result)
  /-- It waits for another task. -/
  | joining (task : TaskId) (next : σ.Result → Program σ σ.Result)
  /-- It waits for several tasks that it started. -/
  | gathering (tasks : List TaskId) (next : List σ.Result → Program σ σ.Result)
  | ended (outcome : Except Fault σ.Result)

/-- The outcome of a task that has ended. -/
def Phase.outcome? {σ : Signature} : Phase σ → Option (Except Fault σ.Result)
  | ended o => some o
  | _ => none

/-- A task: its job, the cache and the key it was started for, how far it has
come, and whether it was asked to stop. -/
structure Task (σ : Signature) where
  job : σ.Job
  place : Option (σ.Cache × String) := none
  phase : Phase σ := .fresh
  cancelRequested : Bool := false

/-- What is recorded in the journal. -/
inductive Event (σ : Signature) : Type where
  | noted (task : TaskId) (n : σ.Note)
  | asked (task : TaskId) (op : σ.Op)
  | began (task : TaskId) (op : σ.Op)
  /-- A key was looked up for a task, and another task was stored under it. -/
  | hit (cache : σ.Cache) (key : String) (found : TaskId)
  /-- A task was stored under a key. -/
  | missed (cache : σ.Cache) (key : String) (made : TaskId)
  /-- A task that failed was removed. -/
  | evicted (cache : σ.Cache) (key : String) (task : TaskId) (fault : Fault)
  | cleared (cache : σ.Cache)

/-- A task stored in a cache under a key. -/
structure Entry (σ : Signature) where
  cache : σ.Cache
  key : String
  task : TaskId

/-- Is the entry that of a key of a cache? -/
def Entry.isAt {σ : Signature} [DecidableEq σ.Cache] (c : σ.Cache) (k : String) (e : Entry σ) :
    Bool :=
  e.cache = c && e.key = k

/-- The tasks by their numbers, the entries of all caches in the order in which
their keys were added, and the journal with the last event first. -/
structure Board (σ : Signature) where
  tasks : List (Task σ) := []
  entries : List (Entry σ) := []
  journal : List (Event σ) := []

/-- The answers of the surroundings to all operations. -/
abbrev World (σ : Signature) := (op : σ.Op) → σ.Answer op

namespace Board

variable {σ : Signature}

/-- Record an event. -/
def record (e : Event σ) (b : Board σ) : Board σ := { b with journal := e :: b.journal }

/-- The outcome of a task, if it has ended. -/
def outcome? (b : Board σ) (t : TaskId) : Option (Except Fault σ.Result) :=
  (b.tasks[t]?).bind fun task => task.phase.outcome?

/-- Change a task. -/
def update (t : TaskId) (f : Task σ → Task σ) (b : Board σ) : Board σ :=
  { b with tasks := b.tasks.modify t f }

/-- Set how far a task has come. -/
def setPhase (t : TaskId) (p : Phase σ) (b : Board σ) : Board σ :=
  b.update t fun task => { task with phase := p }

/-! ### Entries -/

variable [DecidableEq σ.Cache]

/-- The task that is stored under a key. -/
def stored? (b : Board σ) (c : σ.Cache) (k : String) : Option TaskId :=
  (b.entries.find? (Entry.isAt c k)).map (·.task)

/-- The keys of a cache in the order in which they were added. -/
def keys (b : Board σ) (c : σ.Cache) : List String :=
  (b.entries.filter fun e => e.cache = c).map (·.key)

/-- Store a task under a key: in the place of the task that was there, or at the
end. -/
def store (c : σ.Cache) (k : String) (t : TaskId) : List (Entry σ) → List (Entry σ)
  | [] => [⟨c, k, t⟩]
  | e :: es => if e.isAt c k then ⟨c, k, t⟩ :: es else e :: store c k t es

/-- The entries without that of a key. -/
def erase (c : σ.Cache) (k : String) (es : List (Entry σ)) : List (Entry σ) :=
  es.filter fun e => !e.isAt c k

/-! ### Starting tasks -/

/-- Start a task for a job. It has the number of the tasks so far. -/
def spawn (job : σ.Job) (b : Board σ) : TaskId × Board σ :=
  (b.tasks.length, { b with tasks := b.tasks ++ [{ job }] })

/-- Start tasks for several jobs, in order. -/
def spawnAll : List σ.Job → Board σ → List TaskId × Board σ
  | [], b => ([], b)
  | job :: jobs, b =>
    let (t, b) := b.spawn job
    let (ts, b) := spawnAll jobs b
    (t :: ts, b)

/-- Start a task for a job and store it under a key, whatever was there. -/
def populate (c : σ.Cache) (k : String) (job : σ.Job) (b : Board σ) : TaskId × Board σ :=
  let t := b.tasks.length
  (t, { tasks := b.tasks ++ [{ job, place := some (c, k) }]
        entries := store c k t b.entries
        journal := .missed c k t :: b.journal })

/-! ### Running tasks -/

/-- Remove a task that failed from its cache, unless another one is stored there. -/
def evict (t : TaskId) (f : Fault) (b : Board σ) : Board σ :=
  match (b.tasks[t]?).bind (·.place) with
  | some (c, k) =>
    if b.stored? c k = some t then
      { b with entries := erase c k b.entries, journal := .evicted c k t f :: b.journal }
    else b
  | none => b

/-- End a task. A shared task that fails is removed first. -/
def finish (t : TaskId) (o : Except Fault σ.Result) (b : Board σ) : Board σ :=
  match o with
  | .ok r => b.setPhase t (.ended (.ok r))
  | .error f => (b.evict t f).setPhase t (.ended (.error f))

/-- Let a task go on with a program, up to the next thing it has to wait for. -/
def run (w : World σ) (t : TaskId) : Program σ σ.Result → Board σ → Board σ
  | .done r, b => b.finish t r
  | .note n next, b => run w t next (b.record (.noted t n))
  | .ask op next, b => run w t (next (w op)) (b.record (.asked t op))
  | .perform op next, b => (b.record (.began t op)).setPhase t (.performing op next)
  | .lookup c k job next, b =>
    match b.stored? c k with
    | some s =>
      let b := b.record (.hit c k s)
      match b.outcome? s with
      | some (.ok r) => run w t (next r) b
      | some (.error f) => b.finish t (.error f)
      | none => b.setPhase t (.joining s next)
    | none =>
      let (s, b) := b.populate c k job
      b.setPhase t (.joining s next)
  | .gather jobs next, b =>
    if jobs.isEmpty then run w t (next []) b
    else
      let (ts, b) := b.spawnAll jobs
      b.setPhase t (.gathering ts next)

/-- The fault of the first of several tasks that failed. -/
def firstFault? (b : Board σ) : List TaskId → Option Fault
  | [] => none
  | t :: ts =>
    match b.outcome? t with
    | some (.error f) => some f
    | _ => b.firstFault? ts

/-- The results of several tasks, if all have ended well. -/
def results? (b : Board σ) : List TaskId → Option (List σ.Result)
  | [] => some []
  | t :: ts =>
    match b.outcome? t with
    | some (.ok r) => (b.results? ts).map (r :: ·)
    | _ => none

/-- Ask a task to stop. It stops when it is resumed; a task that has ended is left
alone. -/
def requestCancel (b : Board σ) (t : TaskId) : Board σ :=
  b.update t fun task =>
    match task.phase with
    | .ended _ => task
    | _ => { task with cancelRequested := true }

/-- Stop a task that was asked to, and ask the tasks it waits for to stop if it
started them for itself. A task that has not run yet ends without anything else
being done. -/
def stop (t : TaskId) (p : Phase σ) (b : Board σ) : Board σ :=
  match p with
  | .fresh => b.setPhase t (.ended (.error .cancelled))
  | .gathering ts _ => (ts.foldl requestCancel b).finish t (.error .cancelled)
  | _ => b.finish t (.error .cancelled)

/-- Let a task go on, if it has anything to go on with. -/
def resume (program : σ.Job → Program σ σ.Result) (w : World σ) (t : TaskId) (b : Board σ) :
    Board σ :=
  match b.tasks[t]? with
  | none => b
  | some task =>
    match task.phase, task.cancelRequested with
    | .ended _, _ => b
    | p, true => b.stop t p
    | .fresh, false => run w t (program task.job) b
    | .performing _ _, false => b
    | .joining s next, false =>
      match b.outcome? s with
      | some (.ok r) => run w t (next r) b
      | some (.error f) => b.finish t (.error f)
      | none => b
    | .gathering ts next, false =>
      match b.firstFault? ts, b.results? ts with
      | some f, _ => b.finish t (.error f)
      | none, some rs => run w t (next rs) b
      | none, none => b

/-- Can a task of the board go on? -/
def canGoOn (b : Board σ) (task : Task σ) : Bool :=
  match task.phase, task.cancelRequested with
  | .ended _, _ => false
  | _, true => true
  | .fresh, false => true
  | .performing _ _, false => false
  | .joining s _, false => (b.outcome? s).isSome
  | .gathering ts _, false => (b.firstFault? ts).isSome || (b.results? ts).isSome

/-- End the operation that a task waits for, with the answer of the surroundings,
and let the task go on. -/
def complete (w : World σ) (t : TaskId) (b : Board σ) : Board σ :=
  match b.tasks[t]? with
  | some { phase := .performing op next, cancelRequested := false, .. } => run w t (next (w op)) b
  | _ => b

/-! ### Operations from outside -/

/-- Ask a task to stop, and tell whether it could be asked. -/
def cancel (t : TaskId) (b : Board σ) : Bool × Board σ :=
  match b.outcome? t, b.tasks[t]? with
  | none, some _ => (true, b.requestCancel t)
  | _, _ => (false, b)

/-- Remove the entry of a key, and tell whether there was one. -/
def invalidate (c : σ.Cache) (k : String) (b : Board σ) : Bool × Board σ :=
  ((b.stored? c k).isSome, { b with entries := erase c k b.entries })

/-- Remove all entries of a cache. Their tasks go on for those who wait. -/
def clear (c : σ.Cache) (b : Board σ) : Board σ :=
  { b with
    entries := b.entries.filter fun e => e.cache ≠ c
    journal := .cleared c :: b.journal }

end Board

end CachedViews
