import CachedViews.Fault

/-
# Programs of tasks

What a task does is a program: a tree of the things it waits for, with a
function from each answer to the rest. A program may ask its surroundings and go
on at once, start an operation and wait for its end, look a job up in a cache, or
start several jobs and wait for all. It goes on with good answers only: a fault
of what a task waits for is the fault of the task.

Key definitions: `Signature`, `Program`, `Program.bind`.
-/

namespace CachedViews

/-- What a family of programs is about: its caches, its jobs, the operations of
its surroundings with their answers, the results of jobs, and the notes that
programs leave in the journal. -/
structure Signature where
  Cache : Type
  Job : Type
  Op : Type
  Answer : Op → Type
  Result : Type
  Note : Type

/-- A program with a result of the type `α`. -/
inductive Program (σ : Signature) (α : Type) : Type where
  /-- The end, with a result or a fault. -/
  | done (r : Except Fault α)
  /-- Leave a note in the journal. -/
  | note (n : σ.Note) (next : Program σ α)
  /-- Ask the surroundings and go on at once. -/
  | ask (op : σ.Op) (next : σ.Answer op → Program σ α)
  /-- Start an operation and wait for its end. -/
  | perform (op : σ.Op) (next : σ.Answer op → Program σ α)
  /-- Wait for the task that is stored under a key, or for a new one with the job. -/
  | lookup (cache : σ.Cache) (key : String) (job : σ.Job) (next : σ.Result → Program σ α)
  /-- Start jobs as tasks of their own and wait for all of them. -/
  | gather (jobs : List σ.Job) (next : List σ.Result → Program σ α)

namespace Program

variable {σ : Signature} {α β : Type}

/-- One program after another, with the result of the first. -/
def bind : Program σ α → (α → Program σ β) → Program σ β
  | .done (.ok a), f => f a
  | .done (.error e), _ => .done (.error e)
  | .note n next, f => .note n (next.bind f)
  | .ask op next, f => .ask op fun a => (next a).bind f
  | .perform op next, f => .perform op fun a => (next a).bind f
  | .lookup c k j next, f => .lookup c k j fun r => (next r).bind f
  | .gather js next, f => .gather js fun rs => (next rs).bind f

instance : Monad (Program σ) where
  pure a := .done (.ok a)
  bind := bind

/-- A program that fails. -/
def fail (e : Fault) : Program σ α := .done (.error e)

/-- A program that is over. -/
def ofExcept (r : Except Fault α) : Program σ α := .done r

/-- A program that leaves a note. -/
def tell (n : σ.Note) : Program σ Unit := .note n (.done (.ok ()))

/-- The answer of the surroundings. -/
def query (op : σ.Op) : Program σ (σ.Answer op) := .ask op fun a => .done (.ok a)

/-- The answer at the end of an operation. -/
def await (op : σ.Op) : Program σ (σ.Answer op) := .perform op fun a => .done (.ok a)

/-- The result of the task that is stored under a key. -/
def cached (cache : σ.Cache) (key : String) (job : σ.Job) : Program σ σ.Result :=
  .lookup cache key job fun r => .done (.ok r)

/-- The results of several jobs. -/
def all (jobs : List σ.Job) : Program σ (List σ.Result) :=
  .gather jobs fun rs => .done (.ok rs)

@[simp] theorem bind_done_ok (a : α) (f : α → Program σ β) :
    (Program.done (.ok a)).bind f = f a := rfl

@[simp] theorem bind_done_error (e : Fault) (f : α → Program σ β) :
    (Program.done (.error e)).bind f = .done (.error e) := rfl

end Program

end CachedViews
