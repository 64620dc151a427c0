import CachedViews.Proofs.Task.Accounts
import CachedViews.Proofs.Task.Ending
import CachedViews.Proofs.Task.Usage

/-
# Work within bounds

A usage is closed if the programs of its jobs make use of no more, and what they look up
belongs to its jobs again (`Contract.Closed`). Then whatever comes of such a job stays within
the usage: the tasks that are started for it, directly or not, are of its jobs, wait
for nothing else and do nothing else (`Board.Within`), in whatever order they go on.

Key definitions: `Contract.Closed`, `Act.Within`, `Task.Within`, `Board.Within`.
Key theorems: `Board.within_halt`, `Board.Within.run`, `Board.Within.move`,
`Board.Within.worksTo`.
-/

namespace CachedViews

variable {σ : Signature}

/-- The programs of the jobs of a usage make use of no more, and what is looked up belongs to
its jobs. -/
structure Contract.Closed (C : Contract σ) (U : Usage σ) : Prop where
  program : ∀ job, U.jobs job → (C.program job).Uses U
  jobAt : ∀ c k, U.keys c k → U.jobs (C.jobAt c k)

/-- What calls for jobs of lower ranks only makes use of these, and of any keys, notes and
operations. -/
theorem Program.Calls.uses {α : Type} {jobAt : σ.Cache → String → σ.Job} {rank : σ.Job → Nat}
    {n : Nat} {U : Usage σ} {p : Program σ α} (hp : p.Calls jobAt rank n) (hn : ∀ m, U.notes m)
    (ho : ∀ op, U.ops op) (hk : ∀ c k, U.keys c k) (hj : ∀ job, rank job < n → U.jobs job) :
    p.Uses U := by
  induction p with
  | done r => trivial
  | note m next ih => exact ⟨hn m, ih hp⟩
  | ask op next ih => exact ⟨ho op, fun a => ih a (hp a)⟩
  | perform op next ih => exact ⟨ho op, fun a => ih a (hp a)⟩
  | lookup c k job next ih => exact ⟨hk c k, fun r => ih r (hp.2.2 r)⟩
  | gather jobs next ih => exact ⟨fun job hmem => hj job (hp.1 job hmem), fun rs => ih rs (hp.2 rs)⟩

/-- An act that is within a usage. -/
def Act.Within (U : Usage σ) : Act σ → Prop
  | .noted n => U.notes n
  | .asked op => U.ops op
  | .began op => U.ops op

/-- A task that stays within a usage, and did so far. -/
structure Task.Within (U : Usage σ) (acts : List (Act σ)) (x : Task σ) : Prop where
  job : x.place = none → U.jobs x.job
  place : ∀ c k, x.place = some (c, k) → U.keys c k
  phase : x.phase.Uses U
  acts : ∀ a ∈ acts, a.Within U

namespace Board

/-- All tasks from the number `n` on stay within a usage. -/
structure Within (U : Usage σ) (n : Nat) (b : Board σ) : Prop where
  unbegun : Unbegun b
  tasks : ∀ (u : Nat) (x : Task σ), n ≤ u → b.tasks[u]? = some x → x.Within U (b.account u)

variable [DecidableEq σ.Cache] {C : Contract σ} {U : Usage σ} {d b b' : Board σ} {w : World σ}
  {worlds : World σ → Prop} {t n : Nat} {p : Program σ σ.Result} {task : Task σ}

/-- A program stays within its usage up to its stop, and starts tasks within it. -/
theorem within_halt (w : World σ) (b : Board σ) (n : Nat) (hp : p.Uses U) :
    ((halt w b p).phase n).Uses U ∧
      (∀ a ∈ (halt w b p).acts ++ passed w b p, a.Within U) ∧
        ∀ x ∈ (halt w b p).started, x.Within U [] := by
  -- what is passed on the way is added behind what comes later
  have hlast : ∀ {as bs : List (Act σ)} (act : Act σ), act.Within U →
      (∀ a ∈ as ++ bs, a.Within U) → ∀ a ∈ as ++ (bs ++ [act]), a.Within U := by
    intro as bs act hact h a ha
    rw [← List.append_assoc] at ha
    rcases List.mem_append.1 ha with hmem | hmem
    · exact h a hmem
    · obtain rfl := List.mem_singleton.1 hmem
      exact hact
  induction p with
  | done r => exact ⟨trivial, by simp [halt, Halt.acts, passed], by simp [halt, Halt.started]⟩
  | note m next ih =>
    obtain ⟨hphase, hacts, hstarted⟩ := ih hp.2
    rw [halt, passed]
    exact ⟨hphase, hlast (.noted m) hp.1 hacts, hstarted⟩
  | ask op next ih =>
    obtain ⟨hphase, hacts, hstarted⟩ := ih (w op) (hp.2 (w op))
    rw [halt, passed]
    exact ⟨hphase, hlast (.asked op) hp.1 hacts, hstarted⟩
  | perform op next ih =>
    have hbegan : (Act.began op).Within U := hp.1
    exact ⟨hp.2, by simpa [halt, Halt.acts, passed] using hbegan, by simp [halt, Halt.started]⟩
  | lookup c k job next ih =>
    rw [halt, passed]
    cases hs : b.stored? c k with
    | none =>
      refine ⟨hp.2, by simp [Halt.acts], fun x hx => ?_⟩
      obtain rfl := List.mem_singleton.1 hx
      refine ⟨by simp, fun c' k' hpl => ?_, trivial, by simp⟩
      obtain ⟨rfl, rfl⟩ := Prod.mk.inj (Option.some.inj hpl)
      exact hp.1
    | some s =>
      simp only
      rcases ho : b.outcome? s with _ | (f | r)
      · exact ⟨hp.2, by simp [Halt.acts], by simp [Halt.started]⟩
      · exact ⟨trivial, by simp [Halt.acts], by simp [Halt.started]⟩
      · exact ih r (hp.2 r)
  | gather jobs next ih =>
    rw [halt, passed]
    split
    · exact ih [] (hp.2 [])
    · refine ⟨hp.2, by simp [Halt.acts], fun x hx => ?_⟩
      obtain ⟨job, hj, rfl⟩ := List.mem_map.1 hx
      exact ⟨fun _ => hp.1 job hj, by simp, trivial, by simp⟩

omit [DecidableEq σ.Cache] in
/-- A task goes on within the usage, if its program stays there. -/
theorem uses_goesOn {program : σ.Job → Program σ σ.Result} (hph : task.phase.Uses U)
    (hprog : (program task.job).Uses U) (hp : GoesOn program w b task p) : p.Uses U := by
  cases hp with
  | first h => exact hprog
  | answered h =>
    rw [h] at hph
    exact hph _
  | joined h ho =>
    rw [h] at hph
    exact hph _
  | joinFailed h ho => trivial
  | gathered h hr =>
    rw [h] at hph
    exact hph _
  | gatherFailed h hf => trivial

omit [DecidableEq σ.Cache] in
theorem Within.cancelAll (hb : Within U n b) (ts : List TaskId) :
    Within U n (ts.foldl requestCancel b) := by
  refine ⟨hb.unbegun.cancelAll ts, fun u x hu hx => ?_⟩
  rw [account_cancelAll]
  obtain ⟨y, hy, hj, hpl, hph⟩ := task_of_cancelAll hx
  have hw := hb.tasks u y hu hy
  exact ⟨hj ▸ hpl ▸ hw.job, hpl ▸ hw.place, hph ▸ hw.phase, hw.acts⟩

/-- Tasks stay within the usage when one of them has gone on with a program that does. -/
theorem Within.run (hb : Within U n b) (ht : b.tasks[t]? = some task) (hle : n ≤ t)
    (hp : p.Uses U) : Within U n (run w t p b) := by
  have hlt := lt_of_getElem? ht
  obtain ⟨hphase, hacts, hstarted⟩ := within_halt w b b.tasks.length hp
  refine ⟨hb.unbegun.run hlt, fun u x hu hx => ?_⟩
  rw [account_run hlt]
  rcases getElem?_run_cases ht hx with ⟨rfl, rfl⟩ | ⟨hut, hx⟩ | ⟨hul, hx⟩
  · have hw := hb.tasks u task hu ht
    rw [if_pos rfl, ← List.append_assoc]
    refine ⟨hw.job, hw.place, hphase, fun a ha => ?_⟩
    exact (List.mem_append.1 ha).elim (hacts a) (hw.acts a)
  · rw [if_neg (Ne.symm hut)]
    exact hb.tasks u x hu hx
  · rw [if_neg (by omega), hb.unbegun u hul]
    exact hstarted x hx

omit [DecidableEq σ.Cache] in
theorem Within.acts (hb : Within U n b) {u : Nat} (hu : n ≤ u) : ∀ a ∈ b.account u, a.Within U := by
  cases hx : b.tasks[u]? with
  | some x => exact (hb.tasks u x hu hx).acts
  | none =>
    rw [hb.unbegun u (List.getElem?_eq_none_iff.1 hx)]
    nofun

/-- All tasks are of the jobs of the usage, those that are shared too. -/
theorem Within.job (hb : Within U d.tasks.length b) (hC : C.Closed U) (hup : Upheld C d b)
    {u : Nat} {x : Task σ} (hu : d.tasks.length ≤ u) (hx : b.tasks[u]? = some x) :
    U.jobs x.job := by
  have hw := hb.tasks u x hu hx
  cases hpl : x.place with
  | none => exact hw.job hpl
  | some place =>
    rw [hup.placed u x place.1 place.2 hu hx hpl]
    exact hC.jobAt _ _ (hw.place _ _ hpl)

/-- **Within a closed usage all tasks stay**, whichever of them goes on. -/
theorem Within.move (hb : Within U d.tasks.length b) (hC : C.Closed U) (hup : Upheld C d b)
    (hd : Settled C d) (h : Move C.program w t b b') : Within U d.tasks.length b' := by
  cases h with
  | nothing => exact hb
  | @goesOn task p ht hc hp =>
    have hle := hup.new_of_unfinished hd ht hp.not_ended
    have hprog := hC.program _ (hb.job hC hup hle ht)
    exact hb.run ht hle (uses_goesOn (hb.tasks t task hle ht).phase hprog hp)
  | @dropped task ht hc hp =>
    refine ⟨fun u hu => hb.unbegun u (by simpa [setPhase] using hu), fun u x hu hx => ?_⟩
    rw [account_setPhase]
    rcases task_of_setPhase hx with ⟨-, y, hy, rfl⟩ | hx
    · have hw := hb.tasks u y hu hy
      exact ⟨hw.job, hw.place, trivial, hw.acts⟩
    · exact hb.tasks u x hu hx
  | @stopped task ts ht hc hn ho hts =>
    obtain ⟨task', ht', -⟩ := getElem?_stopped ht ts
    exact (hb.cancelAll ts).run ht' (hup.new_of_unfinished hd ht ho) (p := .done _) trivial

omit [DecidableEq σ.Cache] in
/-- A job of the usage may be started where all tasks have ended. -/
theorem within_spawn (hb : Unbegun b) {job : σ.Job} (hj : U.jobs job) :
    Within U b.tasks.length (b.spawn job).2 := by
  have ht : (b.spawn job).2.tasks = b.tasks ++ [{ job := job }] := rfl
  refine ⟨fun u hu => hb u ?_, fun u x hu hx => ?_⟩
  · rw [ht, List.length_append] at hu
    omega
  · rcases getElem?_of_append ht hx with hx | ⟨hle, hx⟩
    · exact absurd (lt_of_getElem? hx) (Nat.not_lt.2 hu)
    · obtain rfl := List.mem_singleton.1 hx
      refine ⟨fun _ => hj, nofun, trivial, fun a ha => ?_⟩
      rw [show (b.spawn job).2.account u = [] from hb u hle] at ha
      cases ha

/-- However the work goes on, it stays within the usage. -/
theorem Within.worksTo (hb : Within U d.tasks.length b) (hC : C.Closed U) (hup : Upheld C d b)
    (hd : Settled C d) (hw : ∀ w, worlds w → ∀ op, C.answer op (w op))
    (h : Relation.ReflTransGen (Works C.program worlds) b b') : Within U d.tasks.length b' := by
  induction h with
  | refl => exact hb
  | tail hto hs ih =>
    obtain ⟨w, t, -, hm⟩ := hs.move
    exact ih.move hC (hup.worksTo hd hw hto) hd hm

end Board

end CachedViews
