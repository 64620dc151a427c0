import CachedViews.Task.Board

/-
# Schedules

A run of a board is a sequence of steps (`Board.Step`). One schedule
is to resume the first task that can go on, and when there is none, to complete
the first operation that may end. It stops when nothing is left to do
(`Board.isIdle`) or when its bound is reached.

Key definitions: `Board.Step`, `Board.Reaches`, `Board.settle`, `Board.isIdle`.
-/

namespace CachedViews

/-- The operation that a task waits for, unless it was asked to stop. -/
def Task.operation? {σ : Signature} (task : Task σ) : Option σ.Op :=
  match task.phase, task.cancelRequested with
  | .performing op _, false => some op
  | _, _ => none

namespace Board

variable {σ : Signature} [DecidableEq σ.Cache]

/-- One step of a board: a task goes on, an operation ends, or something happens
from outside. -/
inductive Step (program : σ.Job → Program σ σ.Result) : Board σ → Board σ → Prop
  | resume (w : World σ) (t : TaskId) (b : Board σ) : Step program b (b.resume program w t)
  | complete (w : World σ) (t : TaskId) (b : Board σ) : Step program b (b.complete w t)
  | spawn (job : σ.Job) (b : Board σ) : Step program b (b.spawn job).2
  | populate (c : σ.Cache) (k : String) (job : σ.Job) (b : Board σ) :
      Step program b (b.populate c k job).2
  | cancel (t : TaskId) (b : Board σ) : Step program b (b.cancel t).2
  | invalidate (c : σ.Cache) (k : String) (b : Board σ) : Step program b (b.invalidate c k).2
  | clear (c : σ.Cache) (b : Board σ) : Step program b (b.clear c)

/-- A board that comes from another one in any number of steps. -/
inductive Reaches (program : σ.Job → Program σ σ.Result) : Board σ → Board σ → Prop
  | refl (b : Board σ) : Reaches program b b
  | tail {a b c : Board σ} : Reaches program a b → Step program b c → Reaches program a c

/-- The first task that can go on. -/
def nextTask? (b : Board σ) : Option TaskId := b.tasks.findIdx? b.canGoOn

/-- The first task whose operation may end. -/
def nextOperation? (mayEnd : σ.Op → Bool) (b : Board σ) : Option TaskId :=
  b.tasks.findIdx? fun task => task.operation?.any mayEnd

/-- Is there nothing left to do? -/
def isIdle (mayEnd : σ.Op → Bool) (b : Board σ) : Bool :=
  b.nextTask?.isNone && (b.nextOperation? mayEnd).isNone

/-- Let tasks go on until nothing is left to do. The surroundings may depend on
the board, and only operations that `mayEnd` end. -/
def settle (program : σ.Job → Program σ σ.Result) (world : Board σ → World σ)
    (mayEnd : σ.Op → Bool) : Nat → Board σ → Board σ
  | 0, b => b
  | fuel + 1, b =>
    match b.nextTask? with
    | some t => settle program world mayEnd fuel (b.resume program (world b) t)
    | none =>
      match b.nextOperation? mayEnd with
      | some t => settle program world mayEnd fuel (b.complete (world b) t)
      | none => b

/-- How many steps a schedule takes at most. -/
def stepLimit : Nat := 1000000

end Board

end CachedViews
