import CachedViews.Engine.Render

/-
# Running an engine

The tasks and caches of an engine change when jobs are started and when tasks go
on. Files may change between two steps. A job that is worked on until nothing is
left to do has an outcome (`Engine.work`).

Key definitions: `Engine.settle`, `Engine.work`, `Engine.reset`, `Engine.drop`,
`Engine.deliver`.
-/

namespace CachedViews.Engine

/-- How many operations of a kind were begun or asked for. -/
def countOps (isKind : Op → Bool) (d : Desk) : Nat :=
  d.journal.countP fun
    | .began _ op => isKind op
    | .asked _ op => isKind op
    | _ => false

/-- The number of walks. -/
def walkCount (d : Desk) : Nat :=
  countOps (fun | .walk _ => true | _ => false) d

/-- The number of files opened. -/
def openCount (d : Desk) : Nat :=
  countOps (fun | .open _ => true | _ => false) d

/-- The number of compilations. -/
def compileCount (d : Desk) : Nat :=
  countOps (fun | .compile _ _ => true | _ => false) d

/-- Let tasks go on until nothing is left to do, with a tree of files that stays as
it is. -/
def settle (e : Engine) (tree : FileTree) (d : Desk) : Desk :=
  Board.settle (σ := signature) e.program (fun d => e.world tree (compileCount d)) (fun _ => true)
    Board.stepLimit d

/-- Let one task go on. -/
def resume (e : Engine) (tree : FileTree) (t : TaskId) (d : Desk) : Desk :=
  Board.resume (σ := signature) e.program (e.world tree (compileCount d)) t d

/-- Start a job. -/
def start (job : Job) (d : Desk) : TaskId × Desk := Board.spawn (σ := signature) job d

/-- The outcome of a task. A task that has not ended has none yet. -/
def outcome (d : Desk) (t : TaskId) : Except Fault Product :=
  match Board.outcome? (σ := signature) d t with
  | some o => o
  | none => .error .unfinished

/-- Start a job and work until nothing is left to do. -/
def work (e : Engine) (tree : FileTree) (job : Job) (d : Desk) : Except Fault Product × Desk :=
  let (t, d) := start job d
  let d := e.settle tree d
  (outcome d t, d)

/-- Empty all caches. -/
def reset (d : Desk) : Desk :=
  Board.clear (σ := signature) CacheName.template
    (Board.clear (σ := signature) CacheName.file
      (Board.clear (σ := signature) CacheName.directory d))

/-- Remove the entry of a path from a cache, and tell whether there was one. -/
def drop (e : Engine) (c : CacheName) (path : Value) (d : Desk) : Except Fault (Bool × Desk) := do
  let key ← e.keyOf path
  return Board.invalidate (σ := signature) c key d

/-- The paths that a cache holds, in the order in which they were added. -/
def keys (c : CacheName) (d : Desk) : List String := Board.keys (σ := signature) d c

/-- The log line of an event. -/
def logLine? (ev : Event signature) : Option LogLine :=
  Event.logLine? (σ := signature) CacheName.name (fun n => some (Note.logLine n)) ev

/-- What is told to whoever waits for a view: a fault or a text. -/
inductive Delivery where
  | failed (f : Fault)
  | rendered (text : String)

/-- What is told about the outcome of a view. -/
def deliver : Except Fault Product → Delivery
  | .ok p => .rendered p.asValue.text
  | .error f => .failed f

/-- The log line about a view that failed. One that was cancelled is passed over. -/
def failureLine? (file : Value) : Except Fault Product → Option LogLine
  | .ok _ | .error .cancelled => none
  | .error f =>
    some ⟨.error, loggerOf "engine", s!"Failed to render view {file.text}: {f.message}", none⟩

end CachedViews.Engine
