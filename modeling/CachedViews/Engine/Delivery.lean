import CachedViews.Engine.Running

/-
# Delivering views

A view can be rendered with a callback. The loop that runs the tasks of an engine keeps a
watch on the task of such a view. When the task has ended, its outcome is due to be handled
on a later turn of the loop, and the callback to be called on a turn after that. What is due
may be run in any order, and between any other steps.

Key definitions: `Engine.Call`, `Engine.Loop`, `Engine.Loop.renderView`, `Engine.Loop.put`,
`Engine.Loop.run`, `Engine.Loop.drain`, `Engine.Loop.Step`.
-/

namespace CachedViews.Engine

/-- What a callback is called with: a fault, or a text. -/
structure Call where
  error : Option Fault := none
  text : Option String := none

/-- The call that tells of a delivery. -/
def Delivery.call : Delivery → Call
  | .failed f => { error := some f }
  | .rendered text => { text := some text }

/-- A view with a callback: its task, and the file that the log names. -/
structure Watch where
  task : TaskId
  file : Value

/-- Has the task of a view ended? -/
def Watch.isOver (d : Desk) (w : Watch) : Bool :=
  (Board.outcome? (σ := signature) d w.task).isSome

/-- What is due on a later turn of the loop. -/
inductive Due where
  /-- The outcome of a view is to be handled. -/
  | outcome (w : Watch)
  /-- The callback of a task is to be called. -/
  | call (task : TaskId) (c : Call)

/-- The loop that runs the tasks of an engine: the views that are watched, what is due, the
calls of callbacks, by the tasks of their views, and the lines of the log about views that
failed. -/
structure Loop where
  desk : Desk := {}
  watched : List Watch := []
  due : List Due := []
  calls : List (TaskId × Call) := []
  lines : List LogLine := []

namespace Loop

/-- Put a desk in the place of that of the loop. The outcomes of the views that have ended
become due. -/
def put (d : Desk) (l : Loop) : Loop :=
  { l with
    desk := d
    watched := l.watched.filter fun w => !w.isOver d
    due := l.due ++ (l.watched.filter (Watch.isOver d)).map .outcome }

/-- Start a view with a callback. The callback is known by the task of the view. -/
def renderView (file options : Value) (l : Loop) : TaskId × Loop :=
  let (t, d) := start (.view file options) l.desk
  (t, { l with desk := d, watched := l.watched ++ [⟨t, file⟩] })

/-- Do what is due: log the failure of a view and ask for its callback to be called, or call
a callback. -/
def perform (l : Loop) : Due → Loop
  | .outcome w =>
    let o := outcome l.desk w.task
    { l with
      due := l.due ++ [.call w.task (deliver o).call]
      lines := l.lines ++ (failureLine? w.file o).toList }
  | .call t c => { l with calls := l.calls ++ [(t, c)] }

/-- Run one of the things that are due. -/
def run (i : Nat) (l : Loop) : Loop :=
  match l.due[i]? with
  | none => l
  | some x => { l with due := l.due.eraseIdx i }.perform x

/-- Run the first thing that is due, a number of times. -/
def runFirst : Nat → Loop → Loop
  | 0, l => l
  | n + 1, l => runFirst n (l.run 0)

/-- Run what is due until nothing is left. -/
def drain (l : Loop) : Loop := runFirst (2 * l.due.length) l

/-- The calls of the callback of a task. -/
def callsOf (t : TaskId) (l : Loop) : List Call :=
  (l.calls.filter fun x => x.1 = t).map (·.2)

/-- One step of the loop: something happens to the desk, a view is started with a callback, or
something is run that is due. -/
inductive Step (e : Engine) : Loop → Loop → Prop
  | desk {l : Loop} {d : Desk} (h : Board.Step (σ := signature) e.program l.desk d) :
      Step e l (l.put d)
  | renderView (file options : Value) (l : Loop) : Step e l (l.renderView file options).2
  | run (i : Nat) (l : Loop) : Step e l (l.run i)

/-- A loop that comes from another one in any number of steps. -/
inductive Reaches (e : Engine) : Loop → Loop → Prop
  | refl (l : Loop) : Reaches e l l
  | tail {a b c : Loop} : Reaches e a b → Step e b c → Reaches e a c

end Loop

end CachedViews.Engine
