import CachedViews.Task.Board

/-
# What programs make use of

Which notes a program may leave, which operations it may ask for or begin, which keys it may
look up and which jobs it may start can be read off the program alone, whatever it is
answered (`Program.Uses`).

Key definitions: `Usage`, `Program.Uses`, `Phase.Uses`.
Key theorems: `Program.Uses.bind`.
-/

namespace CachedViews

variable {σ : Signature} {α β : Type}

/-- The notes, operations, keys and jobs that a program may make use of. -/
structure Usage (σ : Signature) where
  notes : σ.Note → Prop
  ops : σ.Op → Prop
  keys : σ.Cache → String → Prop
  jobs : σ.Job → Prop

namespace Program

/-- A program makes use of nothing else. -/
def Uses (U : Usage σ) : Program σ α → Prop
  | .done _ => True
  | .note n next => U.notes n ∧ next.Uses U
  | .ask op next => U.ops op ∧ ∀ a, (next a).Uses U
  | .perform op next => U.ops op ∧ ∀ a, (next a).Uses U
  | .lookup c k _ next => U.keys c k ∧ ∀ r, (next r).Uses U
  | .gather jobs next => (∀ job ∈ jobs, U.jobs job) ∧ ∀ rs, (next rs).Uses U

theorem Uses.bind {U : Usage σ} {p : Program σ α} {f : α → Program σ β} (hp : p.Uses U)
    (hf : ∀ a, (f a).Uses U) : (p.bind f).Uses U := by
  induction p with
  | done r =>
    cases r with
    | ok a => exact hf a
    | error e => trivial
  | note n next ih => exact ⟨hp.1, ih hp.2⟩
  | ask op next ih => exact ⟨hp.1, fun a => ih a (hp.2 a)⟩
  | perform op next ih => exact ⟨hp.1, fun a => ih a (hp.2 a)⟩
  | lookup c k job next ih => exact ⟨hp.1, fun r => ih r (hp.2 r)⟩
  | gather jobs next ih => exact ⟨hp.1, fun rs => ih rs (hp.2 rs)⟩

end Program

/-- What a task makes use of from its phase on. -/
def Phase.Uses (U : Usage σ) : Phase σ → Prop
  | .performing _ next => ∀ a, (next a).Uses U
  | .joining _ next => ∀ r, (next r).Uses U
  | .gathering _ next => ∀ rs, (next rs).Uses U
  | _ => True

end CachedViews
