import CachedViews.Task.Board
import Mathlib.Data.List.Forall2

/-
# What programs ask for and what they end with

Two things can be said of a program without a board. It calls for other jobs in order
(`Program.Calls`): what it looks up is the job that belongs to the key, and all that it
looks up or starts is of a lower rank. And it ensures something about its end
(`Program.Ensures`), if its surroundings answer as expected and the jobs that it waits
for end as they may.

A contract (`Contract`) is a choice of these expectations that the programs of all jobs
live up to, each relying on the others.

Key definitions: `Program.Calls`, `Program.Ensures`, `Contract`.
Key theorems: `Program.Calls.bind`, `Program.Ensures.bind`, `Program.ensures_of_forall`.
-/

namespace CachedViews

variable {σ : Signature} {α β : Type}

namespace Program

/-- All that a program looks up belongs to its key, and all that it looks up or starts is
of a lower rank than `n`. -/
def Calls (jobAt : σ.Cache → String → σ.Job) (rank : σ.Job → Nat) (n : Nat) :
    Program σ α → Prop
  | .done _ => True
  | .note _ next => next.Calls jobAt rank n
  | .ask _ next => ∀ a, (next a).Calls jobAt rank n
  | .perform _ next => ∀ a, (next a).Calls jobAt rank n
  | .lookup c k job next =>
    job = jobAt c k ∧ rank job < n ∧ ∀ r, (next r).Calls jobAt rank n
  | .gather jobs next => (∀ job ∈ jobs, rank job < n) ∧ ∀ rs, (next rs).Calls jobAt rank n

/-- A program starts only jobs that are `allowed` and ends with what is wanted, whenever the
surroundings give an `answer` and other jobs meet their `spec`. -/
def Ensures (answer : (op : σ.Op) → σ.Answer op → Prop) (allowed : σ.Job → Prop)
    (spec : σ.Job → Except Fault σ.Result → Prop) : Program σ α → (Except Fault α → Prop) → Prop
  | .done r, want => want r
  | .note _ next, want => next.Ensures answer allowed spec want
  | .ask op next, want => ∀ a, answer op a → (next a).Ensures answer allowed spec want
  | .perform op next, want => ∀ a, answer op a → (next a).Ensures answer allowed spec want
  | .lookup _ _ job next, want =>
    (∀ r, spec job (.ok r) → (next r).Ensures answer allowed spec want) ∧
      ∀ f, spec job (.error f) → want (.error f)
  | .gather jobs next, want =>
    (∀ job ∈ jobs, allowed job) ∧
      (∀ rs, List.Forall₂ (fun job r => spec job (.ok r)) jobs rs →
        (next rs).Ensures answer allowed spec want) ∧
      ∀ job ∈ jobs, ∀ f, spec job (.error f) → want (.error f)

variable {jobAt : σ.Cache → String → σ.Job} {rank : σ.Job → Nat} {n : Nat}
  {answer : (op : σ.Op) → σ.Answer op → Prop} {allowed : σ.Job → Prop}
  {spec : σ.Job → Except Fault σ.Result → Prop}

theorem Calls.bind {p : Program σ α} {f : α → Program σ β} (hp : p.Calls jobAt rank n)
    (hf : ∀ a, (f a).Calls jobAt rank n) : (p.bind f).Calls jobAt rank n := by
  induction p with
  | done r =>
    cases r with
    | ok a => exact hf a
    | error e => trivial
  | note _ next ih => exact ih hp
  | ask op next ih => exact fun a => ih a (hp a)
  | perform op next ih => exact fun a => ih a (hp a)
  | lookup c k job next ih => exact ⟨hp.1, hp.2.1, fun r => ih r (hp.2.2 r)⟩
  | gather jobs next ih => exact ⟨hp.1, fun rs => ih rs (hp.2 rs)⟩

theorem Ensures.mono {p : Program σ α} {want want' : Except Fault α → Prop}
    (hp : p.Ensures answer allowed spec want) (h : ∀ o, want o → want' o) :
    p.Ensures answer allowed spec want' := by
  induction p with
  | done r => exact h r hp
  | note _ next ih => exact ih hp
  | ask op next ih => exact fun a ha => ih a (hp a ha)
  | perform op next ih => exact fun a ha => ih a (hp a ha)
  | lookup c k job next ih =>
    exact ⟨fun r hr => ih r (hp.1 r hr), fun f hf => h _ (hp.2 f hf)⟩
  | gather jobs next ih =>
    exact ⟨hp.1, fun rs hrs => ih rs (hp.2.1 rs hrs), fun job hj f hf => h _ (hp.2.2 job hj f hf)⟩

/-- One program after another ensures what the second one does for each result of the first
one, and its faults have to be good ends too. -/
theorem Ensures.bind {p : Program σ α} {f : α → Program σ β} {want : Except Fault β → Prop}
    (hp : p.Ensures answer allowed spec fun o =>
      (∀ a, o = .ok a → (f a).Ensures answer allowed spec want) ∧
        ∀ e, o = .error e → want (.error e)) :
    (p.bind f).Ensures answer allowed spec want := by
  induction p with
  | done r =>
    cases r with
    | ok a => exact hp.1 a rfl
    | error e => exact hp.2 e rfl
  | note _ next ih => exact ih hp
  | ask op next ih => exact fun a ha => ih a (hp a ha)
  | perform op next ih => exact fun a ha => ih a (hp a ha)
  | lookup c k job next ih => exact ⟨fun r hr => ih r (hp.1 r hr), fun e he => (hp.2 e he).2 e rfl⟩
  | gather jobs next ih =>
    exact ⟨hp.1, fun rs hrs => ih rs (hp.2.1 rs hrs),
      fun job hj e he => (hp.2.2 job hj e he).2 e rfl⟩

/-- Where all jobs are allowed, every program ensures what is true of every end. -/
theorem ensures_of_forall (ha : ∀ job, allowed job) {want : Except Fault α → Prop}
    (h : ∀ o, want o) (p : Program σ α) : p.Ensures answer allowed spec want := by
  induction p with
  | done r => exact h r
  | note _ next ih => exact ih
  | ask op next ih => exact fun a _ => ih a
  | perform op next ih => exact fun a _ => ih a
  | lookup c k job next ih => exact ⟨fun r _ => ih r, fun f _ => h _⟩
  | gather jobs next ih => exact ⟨fun job _ => ha job, fun rs _ => ih rs, fun job _ f _ => h _⟩

end Program

/-- What is relied on about the jobs of a family of programs: which job belongs to a key,
ranks, the answers of the surroundings, the jobs that may be started, and how jobs may end.
The programs live up to it. -/
structure Contract (σ : Signature) where
  program : σ.Job → Program σ σ.Result
  jobAt : σ.Cache → String → σ.Job
  rank : σ.Job → Nat
  answer : (op : σ.Op) → σ.Answer op → Prop
  allowed : σ.Job → Prop
  spec : σ.Job → Except Fault σ.Result → Prop
  calls : ∀ job, (program job).Calls jobAt rank (rank job)
  ensures : ∀ job, allowed job → (program job).Ensures answer allowed spec (spec job)

end CachedViews
