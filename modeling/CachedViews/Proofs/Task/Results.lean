import CachedViews.Proofs.Task.Moves

/-
# What a task ends well with

A program yields what is wanted if every good end of it is wanted, whatever it is answered
(`Program.Yields`). What a task may still end with can be read off its phase
(`Phase.Yields`), and no step adds to it. So a task that was started for such a program ends
with a fault or with what is wanted, in every run.

Key definitions: `Program.Yields`, `Phase.Yields`.
Key theorems: `Program.Yields.bind`, `Board.Step.yields`.
-/

namespace CachedViews

variable {σ : Signature} {α β : Type}

/-- Every good end of a program is wanted. -/
def Program.Yields (want : α → Prop) : Program σ α → Prop
  | .done r => ∀ a, r = .ok a → want a
  | .note _ next => next.Yields want
  | .ask _ next => ∀ a, (next a).Yields want
  | .perform _ next => ∀ a, (next a).Yields want
  | .lookup _ _ _ next => ∀ r, (next r).Yields want
  | .gather _ next => ∀ rs, (next rs).Yields want

/-- Every good end that a task with a job has from its phase on is wanted. -/
def Phase.Yields (program : σ.Job → Program σ σ.Result) (want : σ.Result → Prop) (job : σ.Job) :
    Phase σ → Prop
  | .fresh => (program job).Yields want
  | .performing _ next => ∀ a, (next a).Yields want
  | .joining _ next => ∀ r, (next r).Yields want
  | .gathering _ next => ∀ rs, (next rs).Yields want
  | .ended o => ∀ r, o = .ok r → want r

theorem Program.yields_fault {want : α → Prop} (f : Fault) :
    (Program.done (.error f) : Program σ α).Yields want := fun _ h => nomatch h

theorem Program.yields_pure {want : α → Prop} {a : α} (h : want a) :
    (pure a : Program σ α).Yields want := fun _ hr => Except.ok.inj hr ▸ h

theorem Program.Yields.bind {mid : α → Prop} {want : β → Prop} {p : Program σ α}
    {f : α → Program σ β} (hp : p.Yields mid) (hf : ∀ a, mid a → (f a).Yields want) :
    (p.bind f).Yields want := by
  induction p with
  | done r =>
    cases r with
    | ok a => exact hf a (hp a rfl)
    | error e => exact yields_fault e
  | note n next ih => exact ih hp
  | ask op next ih => exact fun a => ih a (hp a)
  | perform op next ih => exact fun a => ih a (hp a)
  | lookup c k job next ih => exact fun r => ih r (hp r)
  | gather jobs next ih => exact fun rs => ih rs (hp rs)

/-- What comes last decides what a program yields. -/
theorem Program.yields_bind {want : β → Prop} (p : Program σ α) {f : α → Program σ β}
    (hf : ∀ a, (f a).Yields want) : (p.bind f).Yields want := by
  have hp : p.Yields fun _ => True := by
    induction p with
    | done r => exact fun _ _ => trivial
    | note n next ih => exact ih
    | ask op next ih => exact ih
    | perform op next ih => exact ih
    | lookup c k job next ih => exact ih
    | gather jobs next ih => exact ih
  exact hp.bind fun a _ => hf a

theorem Phase.yields_fault (program : σ.Job → Program σ σ.Result) (want : σ.Result → Prop)
    (job : σ.Job) (f : Fault) : (Phase.ended (.error f)).Yields program want job :=
  fun _ h => nomatch h

namespace Board

variable [DecidableEq σ.Cache] {program : σ.Job → Program σ σ.Result} {want : σ.Result → Prop}
  {w : World σ} {u : TaskId} {b b' : Board σ} {x : Task σ} {p : Program σ σ.Result}

/-- A task that has come to a stop still has only good ends that its program has. -/
theorem yields_halt (job : σ.Job) (hp : p.Yields want) (w : World σ) (b : Board σ) (n : Nat) :
    ((halt w b p).phase n).Yields program want job := by
  induction p with
  | done r => exact hp
  | note m next ih => exact ih hp
  | ask op next ih => exact ih (w op) (hp (w op))
  | perform op next => exact hp
  | lookup c k job' next ih =>
    rcases halt_lookup_cases w b c k job' next with
      ⟨-, hh⟩ | ⟨s, -, ⟨-, hh⟩ | ⟨r, -, hh⟩ | ⟨f, -, hh⟩⟩ <;> rw [hh]
    · exact hp
    · exact hp
    · exact ih r (hp r)
    · exact Phase.yields_fault program want job f
  | gather jobs next ih =>
    rw [halt]
    split
    · exact ih [] (hp [])
    · exact hp

omit [DecidableEq σ.Cache] in
theorem GoesOn.yields (h : GoesOn program w b x p) (hx : x.phase.Yields program want x.job) :
    p.Yields want := by
  cases h with
  | first h => rw [h] at hx; exact hx
  | answered h => rw [h] at hx; exact hx _
  | joined h ho => rw [h] at hx; exact hx _
  | joinFailed h ho => exact Program.yields_fault _
  | gathered h hr => rw [h] at hx; exact hx _
  | gatherFailed h hf => exact Program.yields_fault _

theorem Move.yields (h : Move program w u b b') (hu : b.tasks[u]? = some x)
    (hx : x.phase.Yields program want x.job) :
    ∃ x', b'.tasks[u]? = some x' ∧ x'.phase.Yields program want x'.job := by
  cases h with
  | nothing => exact ⟨x, hu, hx⟩
  | goesOn h hc hp =>
    obtain rfl := Option.some.inj (hu.symm.trans h)
    exact ⟨_, getElem?_run_self hu, yields_halt _ (hp.yields hx) w b _⟩
  | dropped h hc hp =>
    rw [getElem?_setPhase, if_pos rfl, hu]
    exact ⟨_, rfl, Phase.yields_fault _ _ _ _⟩
  | @stopped task ts h hc hn ho hts =>
    obtain ⟨y, hy, -⟩ := grows_cancelAll ts b u x hu
    exact ⟨_, getElem?_run_self hy, Phase.yields_fault _ _ _ _⟩

/-- **No step adds to what a task may end well with.** -/
theorem Step.yields (h : Step program b b') (hu : b.tasks[u]? = some x)
    (hx : x.phase.Yields program want x.job) :
    ∃ x', b'.tasks[u]? = some x' ∧ x'.phase.Yields program want x'.job := by
  rcases h.at_task hu with h | h | ⟨w, h⟩
  · exact ⟨x, h, hx⟩
  · exact ⟨x.asked, h, by simpa using hx⟩
  · exact h.yields hu hx

end Board

end CachedViews
