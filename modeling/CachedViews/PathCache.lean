import CachedViews.Task.Schedule
import CachedViews.Task.LogLine
import CachedViews.Path

/-
# A cache of path lookups

One cache whose keys are paths. A request with caching is answered by the task
that is stored under the resolved form of its key, and stores a new one if there
is none; so requests that come while a task runs share its outcome. A request
without caching computes for itself and leaves the cache alone.

What is computed comes from outside (`Compute`): once invoked it follows a
course (`Course`), that is it waits for one thing after the other and ends. It may
wait for a gate to be opened, give way once, or fail at once.

Key definitions: `PathCache.Course`, `PathCache.Compute`, `PathCache.program`,
`PathCache.get`, `PathCache.populate`, `PathCache.invalidate`, `PathCache.clear`.
-/

namespace CachedViews.PathCache

/-- What a computation waits for. -/
inductive Op (ρ : Type) where
  | gate (name : String)
  | turn (outcome : Except Fault ρ)

/-- What a computation does once it is invoked: it waits for one thing after the
other, sees how each of them ended, and ends itself. -/
inductive Course (ρ : Type) where
  | ended (outcome : Except Fault ρ)
  | waiting (op : Op ρ) (next : Except Fault ρ → Course ρ)

/-- A computation from outside, with its name. -/
structure Compute (ρ : Type) where
  name : String
  course : Course ρ

namespace Compute

variable {ρ : Type}

/-- It ends when the gate of its name is opened. -/
def gated (name : String) : Compute ρ := ⟨name, .waiting (.gate name) .ended⟩

/-- It gives way once and ends. -/
def prompt (name : String) (outcome : Except Fault ρ) : Compute ρ :=
  ⟨name, .waiting (.turn outcome) .ended⟩

/-- It fails before it starts. -/
def refused (name : String) (f : Fault) : Compute ρ := ⟨name, .ended (.error f)⟩

end Compute

/-- The jobs of tasks: a request of a caller, or a computation that is shared. -/
inductive Job (ρ : Type) where
  | request (key : Value) (compute : Compute ρ) (cached : Bool)
  | shared (compute : Compute ρ)

/-- Programs about one cache with results of the type `ρ`. Notes are the names of
the computations that are invoked. -/
def signature (ρ : Type) : Signature where
  Cache := Unit
  Job := Job ρ
  Op := Op ρ
  Answer _ := Except Fault ρ
  Result := ρ
  Note := String

instance (ρ : Type) : DecidableEq (signature ρ).Cache := inferInstanceAs (DecidableEq Unit)

/-- A board for one cache. -/
abbrev Cache (ρ : Type) := Board (signature ρ)

variable {ρ : Type}

/-- A course as a program. -/
def Course.program : Course ρ → Program (signature ρ) ρ
  | .ended outcome => .done outcome
  | .waiting op next => .perform op fun outcome => (next outcome).program

/-- A computation as a program. -/
def Compute.program (compute : Compute ρ) : Program (signature ρ) ρ := do
  Program.tell (σ := signature ρ) compute.name
  compute.course.program

/-- The programs of jobs, seen from the working directory. -/
def program (cwd : String) : Job ρ → Program (signature ρ) ρ
  | .shared compute => compute.program
  | .request _ compute false => compute.program
  | .request key compute true => do
    let key ← Program.ofExcept key.asPath
    Program.cached (σ := signature ρ) () (Path.absolute cwd key) (Job.shared compute)

/-- The answers to operations: a computation that gives way ends as it will, and
gates end with `opened`. -/
def answers (opened : Except Fault ρ) : World (signature ρ)
  | .gate _ => opened
  | .turn outcome => outcome

/-- The gates stay closed; all else may end. -/
def mayEnd : Op ρ → Bool
  | .gate _ => false
  | .turn _ => true

/-- The key of a value. -/
def keyOf (cwd : String) (key : Value) : Except Fault String :=
  key.asPath.map (Path.absolute cwd)

/-- Request the value of a key. -/
def get (key : Value) (compute : Compute ρ) (cached : Bool) (b : Cache ρ) : TaskId × Cache ρ :=
  b.spawn (Job.request key compute cached)

/-- Start a computation and store it under a key, whatever was there. -/
def populate (cwd : String) (key : Value) (compute : Compute ρ) (b : Cache ρ) :
    Except Fault (TaskId × Cache ρ) := do
  let key ← keyOf cwd key
  return Board.populate (σ := signature ρ) () key (Job.shared compute) b

/-- The task that is stored under a key. -/
def peek (cwd : String) (key : Value) (b : Cache ρ) : Except Fault (Option TaskId) := do
  let key ← keyOf cwd key
  return b.stored? () key

/-- Is there an entry under a key? -/
def contains (cwd : String) (key : Value) (b : Cache ρ) : Except Fault Bool := do
  let key ← keyOf cwd key
  return (Board.keys (σ := signature ρ) b ()).contains key

/-- Remove the entry of a key, and tell whether there was one. -/
def invalidate (cwd : String) (key : Value) (b : Cache ρ) : Except Fault (Bool × Cache ρ) := do
  let key ← keyOf cwd key
  return Board.invalidate (σ := signature ρ) () key b

/-- Remove all entries. -/
def clear (b : Cache ρ) : Cache ρ := Board.clear (σ := signature ρ) () b

/-- Ask the task that is stored under a key to stop. -/
def cancelEntry (cwd : String) (key : Value) (b : Cache ρ) : Except Fault (Bool × Cache ρ) := do
  match ← peek cwd key b with
  | some t => return b.cancel t
  | none => .error (.attribute "NoneType" "cancel")

/-- The keys in the order in which they were added. -/
def keys (b : Cache ρ) : List String := Board.keys (σ := signature ρ) b ()

/-- The unfinished invocations of a gated computation. -/
def waiting (name : String) (b : Cache ρ) : List TaskId :=
  (List.range b.tasks.length).filter fun t =>
    match (b.tasks[t]?).bind fun task => task.operation? with
    | some (.gate n) => n = name
    | _ => false

/-- The names of the computations that were invoked, the last one first. -/
def invoked (b : Cache ρ) : List String :=
  b.journal.filterMap fun
    | .noted _ name => some name
    | _ => none

/-- Let one task go on. -/
def resume (cwd : String) (t : TaskId) (b : Cache ρ) : Cache ρ :=
  Board.resume (σ := signature ρ) (program cwd) (answers (.error .cancelled)) t b

/-- Let tasks go on until only gates are waited for. -/
def settle (cwd : String) (b : Cache ρ) : Cache ρ :=
  Board.settle (σ := signature ρ) (program cwd) (fun _ => answers (.error .cancelled)) mayEnd
    Board.stepLimit b

/-- Open a gate for one task. -/
def openGate (outcome : Except Fault ρ) (t : TaskId) (b : Cache ρ) : Cache ρ :=
  Board.complete (σ := signature ρ) (answers outcome) t b

end CachedViews.PathCache
