import CachedViews.Proofs.Task.Upheld
import Mathlib.Logic.Hydra
import Mathlib.Tactic.Abel

/-
# Work comes to an end

Under a contract a task only waits for tasks of lower ranks, and when it goes on it goes
on with a part of its program. So each step of the work on a board takes a task away, or
puts in its place the same task at a later phase and tasks of lower ranks: there is no
endless work, whatever the order of the steps. And as long as a task has not ended there
is a task that can go on: one of the lowest rank among the unfinished ones.

Key definitions: `Program.StopsAt`, `Phase.After`, `Contract.Less`, `Board.unfinished`,
`Board.Works`, `Board.Concludes`, `Board.MayEnd`.
Key theorems: `Contract.wellFounded_less`, `Board.cutExpand_run`,
`Board.Upheld.acc_works`, `Board.Upheld.ended_of_rests`, `Board.Upheld.concludes`.
-/

namespace CachedViews

variable {σ : Signature}

/-! ### Phases of one program -/

/-- A program may come to a stop at the phase. -/
inductive Program.StopsAt : Program σ σ.Result → Phase σ → Prop
  | performing (op : σ.Op) (next : σ.Answer op → Program σ σ.Result) :
      StopsAt (.perform op next) (.performing op next)
  | joining (c : σ.Cache) (k : String) (job : σ.Job) (s : TaskId)
      (next : σ.Result → Program σ σ.Result) : StopsAt (.lookup c k job next) (.joining s next)
  | gathering (jobs : List σ.Job) (ts : List TaskId)
      (next : List σ.Result → Program σ σ.Result) : StopsAt (.gather jobs next) (.gathering ts next)
  | noted {n : σ.Note} {next : Program σ σ.Result} {ph : Phase σ} (h : StopsAt next ph) :
      StopsAt (.note n next) ph
  | asked {op : σ.Op} {next : σ.Answer op → Program σ σ.Result} {ph : Phase σ} (a : σ.Answer op)
      (h : StopsAt (next a) ph) : StopsAt (.ask op next) ph
  | found {c : σ.Cache} {k : String} {job : σ.Job} {next : σ.Result → Program σ σ.Result}
      {ph : Phase σ} (r : σ.Result) (h : StopsAt (next r) ph) : StopsAt (.lookup c k job next) ph
  | alone {jobs : List σ.Job} {next : List σ.Result → Program σ σ.Result} {ph : Phase σ}
      (h : StopsAt (next []) ph) : StopsAt (.gather jobs next) ph

/-- A task at a phase may go on with the program, if it starts with another one. -/
inductive Phase.GoesOnWith (start : Program σ σ.Result) : Phase σ → Program σ σ.Result → Prop
  | first : GoesOnWith start .fresh start
  | answered {op : σ.Op} {next : σ.Answer op → Program σ σ.Result} (a : σ.Answer op) :
      GoesOnWith start (.performing op next) (next a)
  | joined {s : TaskId} {next : σ.Result → Program σ σ.Result} (r : σ.Result) :
      GoesOnWith start (.joining s next) (next r)
  | gathered {ts : List TaskId} {next : List σ.Result → Program σ σ.Result}
      (rs : List σ.Result) : GoesOnWith start (.gathering ts next) (next rs)

/-- The phase `ph'` may be the one that comes next after `ph`. -/
def Phase.After (start : Program σ σ.Result) (ph' ph : Phase σ) : Prop :=
  ∃ p, ph.GoesOnWith start p ∧ p.StopsAt ph'

/-- There is no endless sequence of phases: each goes on with a part of the program. -/
theorem acc_of_stopsAt {start p : Program σ σ.Result} {ph : Phase σ} (h : p.StopsAt ph) :
    Acc (Phase.After start) ph := by
  induction p generalizing ph with
  | done r => cases h
  | note n next ih =>
    cases h with
    | noted h => exact ih h
  | ask op next ih =>
    cases h with
    | asked a h => exact ih a h
  | perform op next ih =>
    cases h
    refine ⟨_, fun ph' ⟨p, hp, hs⟩ => ?_⟩
    cases hp with
    | answered a => exact ih a hs
  | lookup c k job next ih =>
    cases h with
    | found r h => exact ih r h
    | joining =>
      refine ⟨_, fun ph' ⟨p, hp, hs⟩ => ?_⟩
      cases hp with
      | joined r => exact ih r hs
  | gather jobs next ih =>
    cases h with
    | alone h => exact ih [] h
    | gathering =>
      refine ⟨_, fun ph' ⟨p, hp, hs⟩ => ?_⟩
      cases hp with
      | gathered rs => exact ih rs hs

theorem acc_after (start : Program σ σ.Result) (ph : Phase σ) : Acc (Phase.After start) ph :=
  ⟨_, fun _ ⟨_, _, hs⟩ => acc_of_stopsAt hs⟩

/-- A task that goes on comes to a later phase or ends. -/
theorem stopsAt_halt [DecidableEq σ.Cache] (w : World σ) (b : Board σ) (n : Nat)
    (p : Program σ σ.Result) (h : ((Board.halt w b p).phase n).outcome? = none) :
    p.StopsAt ((Board.halt w b p).phase n) := by
  induction p with
  | done r => simp [Board.halt, Halt.phase, Phase.outcome?] at h
  | note e next ih => exact .noted (ih h)
  | ask op next ih => exact .asked (w op) (ih (w op) h)
  | perform op next ih => exact .performing op next
  | lookup c k job next ih =>
    rw [Board.halt_lookup] at h ⊢
    cases hs : b.stored? c k with
    | none => exact .joining c k job n next
    | some s =>
      simp only [hs] at h ⊢
      rcases ho : b.outcome? s with _ | (f | r)
      · exact .joining c k job s next
      · simp [ho, Halt.phase, Phase.outcome?] at h
      · simp only [ho] at h ⊢
        exact .found r (ih r h)
  | gather jobs next ih =>
    rw [Board.halt] at h ⊢
    split at h
    · rename_i hj
      rw [if_pos hj]
      exact .alone (ih [] h)
    · rename_i hj
      rw [if_neg hj]
      exact .gathering jobs _ next

/-! ### Tasks by rank and phase -/

/-- A task is nearer to the end of all work: it is of a lower rank, or it is the same job at
a later phase. -/
def Contract.Less (C : Contract σ) (x y : σ.Job × Phase σ) : Prop :=
  C.rank x.1 < C.rank y.1 ∨ x.1 = y.1 ∧ x.2.After (C.program y.1) y.2

theorem Contract.wellFounded_less (C : Contract σ) : WellFounded C.Less := by
  refine ⟨fun x => ?_⟩
  obtain ⟨job, ph⟩ := x
  induction hn : C.rank job using Nat.strong_induction_on generalizing job ph with
  | _ n ih =>
    induction acc_after (C.program job) ph with
    | intro ph _ ihph =>
      refine ⟨_, fun ⟨job', ph'⟩ h => ?_⟩
      rcases h with h | ⟨he, h⟩
      · exact ih _ (hn ▸ h) job' ph' rfl
      · obtain rfl : job' = job := he
        exact ihph ph' h

namespace Board

variable {C : Contract σ} {d b b' : Board σ} {w : World σ} {t : Nat}
  {p : Program σ σ.Result} {task : Task σ}

/-- The jobs and phases of the tasks that have not ended. -/
def unfinished (tasks : List (Task σ)) : Multiset (σ.Job × Phase σ) :=
  ((tasks.filter fun x => x.phase.outcome?.isNone).map fun x => (x.job, x.phase) :
    List (σ.Job × Phase σ))

theorem unfinished_append (l l' : List (Task σ)) :
    unfinished (l ++ l') = unfinished l + unfinished l' := by
  simp [unfinished]

theorem unfinished_singleton (h : task.phase.outcome? = none) :
    unfinished [task] = {(task.job, task.phase)} := by
  simp [unfinished, h]

/-- Changing one task that has not ended exchanges its entry. -/
theorem unfinished_modify {l : List (Task σ)} (ht : l[t]? = some task)
    (ho : task.phase.outcome? = none) (f : Task σ → Task σ) :
    unfinished (l.modify t f) + {(task.job, task.phase)} = unfinished l + unfinished [f task] := by
  have hlt := (List.getElem?_eq_some_iff.1 ht).1
  have htask : l[t] = task := (List.getElem?_eq_some_iff.1 ht).2
  have hl : l = l.take t ++ ([task] ++ l.drop (t + 1)) := by
    rw [← htask, List.singleton_append, ← List.drop_eq_getElem_cons hlt, List.take_append_drop]
  have hm : l.modify t f = l.take t ++ ([f task] ++ l.drop (t + 1)) := by
    rw [List.modify_eq_take_cons_drop hlt, htask]
    rfl
  rw [hm]
  conv_rhs => rw [hl]
  simp only [unfinished_append]
  rw [unfinished_singleton ho]
  abel

/-- A change that asks tasks to stop leaves jobs and phases alone. -/
theorem unfinished_congr {l l' : List (Task σ)}
    (h : l'.map (fun x => (x.job, x.phase)) = l.map fun x => (x.job, x.phase)) :
    unfinished l' = unfinished l := by
  have hu : ∀ l : List (Task σ), unfinished l =
      (((l.map fun x => (x.job, x.phase)).filter fun e => e.2.outcome?.isNone :
        List (σ.Job × Phase σ)) : Multiset (σ.Job × Phase σ)) := by
    intro l
    simp [unfinished, List.filter_map, Function.comp_def]
  rw [hu, hu, h]

theorem unfinished_cancelAll (ts : List Nat) (b : Board σ) :
    unfinished (ts.foldl requestCancel b).tasks = unfinished b.tasks := by
  refine unfinished_congr (List.ext_getElem? fun u => ?_)
  rw [List.getElem?_map, List.getElem?_map, getElem?_cancelAll]
  split
  · cases b.tasks[u]? <;> simp
  · rfl

variable [DecidableEq σ.Cache]

omit [DecidableEq σ.Cache] in
/-- A task that ends in a step takes its entry away. -/
theorem unfinished_setPhase (ht : b.tasks[t]? = some task) (ho : task.phase.outcome? = none)
    (o : Except Fault σ.Result) : unfinished (b.setPhase t (.ended o)).tasks +
      {(task.job, task.phase)} = unfinished b.tasks := by
  rw [setPhase, update, unfinished_modify ht ho]
  simp [unfinished, Phase.outcome?]

/-- A task that goes on puts a later phase of itself and tasks of lower ranks in its place. -/
theorem cutExpand_run (ht : b.tasks[t]? = some task) (ho : task.phase.outcome? = none)
    (hh : (halt w b p).Upheld C d b task.job)
    (hp : ((halt w b p).phase b.tasks.length).outcome? = none →
      ((halt w b p).phase b.tasks.length).After (C.program task.job) task.phase) :
    Relation.CutExpand C.Less (unfinished (run w t p b).tasks) (unfinished b.tasks) := by
  have hlt := lt_of_getElem? ht
  refine ⟨unfinished [{ task with phase := (halt w b p).phase b.tasks.length }] +
    unfinished (halt w b p).started, (task.job, task.phase), fun x hx => ?_, ?_⟩
  · rcases Multiset.mem_add.1 hx with hx | hx
    · -- the task itself
      simp only [unfinished, Multiset.mem_coe, List.mem_map, List.mem_filter,
        List.mem_singleton] at hx
      obtain ⟨y, ⟨rfl, hy⟩, rfl⟩ := hx
      exact .inr ⟨rfl, hp (Option.isNone_iff_eq_none.1 hy)⟩
    · -- a task that it starts
      simp only [unfinished, Multiset.mem_coe, List.mem_map, List.mem_filter] at hx
      obtain ⟨y, ⟨hy, -⟩, rfl⟩ := hx
      exact .inl (upheld_started hh hy).2.1
  · rw [run_eq w t p b hlt, halted, unfinished_append, add_assoc,
      add_comm (unfinished (halt w b p).started), ← add_assoc, unfinished_modify ht ho]
    abel

/-- The program of a task that goes on comes next after its phase. -/
theorem after_goesOn {program : σ.Job → Program σ σ.Result} (hp : GoesOn program w b task p)
    (n : Nat) (hn : ((halt w b p).phase n).outcome? = none) :
    ((halt w b p).phase n).After (program task.job) task.phase := by
  cases hp with
  | first h => exact ⟨_, h ▸ .first, stopsAt_halt w b n _ hn⟩
  | answered h => exact ⟨_, h ▸ .answered _, stopsAt_halt w b n _ hn⟩
  | joined h ho => exact ⟨_, h ▸ .joined _, stopsAt_halt w b n _ hn⟩
  | gathered h hr => exact ⟨_, h ▸ .gathered _, stopsAt_halt w b n _ hn⟩
  | joinFailed h ho => simp [halt, Halt.phase, Phase.outcome?] at hn
  | gatherFailed h hf => simp [halt, Halt.phase, Phase.outcome?] at hn

/-- Each move of a task brings the end of all work nearer. -/
theorem Upheld.cutExpand_move (hb : Upheld C d b) (hd : Settled C d)
    (hw : ∀ op, C.answer op (w op)) (h : Move C.program w t b b') :
    b' = b ∨ Relation.CutExpand C.Less (unfinished b'.tasks) (unfinished b.tasks) := by
  cases h with
  | nothing => exact .inl rfl
  | goesOn ht hc hp =>
    have hle := hb.new_of_unfinished hd ht hp.not_ended
    have hh := upheld_halt hb hd hw (hb.suits_goesOn hw ht hle hp)
    exact .inr (cutExpand_run ht hp.not_ended hh (after_goesOn hp _))
  | @dropped task ht hc hp =>
    have ho : task.phase.outcome? = none := by simp [hp, Phase.outcome?]
    exact .inr ⟨0, _, by simp, (unfinished_setPhase ht ho _).trans (add_zero _).symm⟩
  | @stopped task ts ht hc hn ho hts =>
    have hl : C.Lenient := hb.asked t task (hb.new_of_unfinished hd ht ho) ht hc
    obtain ⟨task', ht', hp, -⟩ := getElem?_stopped ht ts
    have hcut := cutExpand_run (d := d) (w := w) (p := .done (.error .cancelled)) ht'
      (by rw [hp]; exact ho) (hl task'.job) fun hn => by simp [halt, Halt.phase, Phase.outcome?] at hn
    rw [unfinished_cancelAll] at hcut
    exact .inr hcut

/-! ### Work -/

/-- One step of the work on a board: a task goes on or an operation ends. The surroundings
are one of the given `worlds`. -/
inductive Works (program : σ.Job → Program σ σ.Result) (worlds : World σ → Prop) (b : Board σ) :
    Board σ → Prop
  | resume {w : World σ} (hw : worlds w) (t : TaskId) : Works program worlds b (b.resume program w t)
  | complete {w : World σ} (hw : worlds w) (t : TaskId) : Works program worlds b (b.complete w t)

/-- However the work on a board goes on, it comes to its end, and then the task has ended. -/
def Concludes (program : σ.Job → Program σ σ.Result) (worlds : World σ → Prop) (t : Nat)
    (b : Board σ) : Prop :=
  Acc (fun b' b => Works program worlds b b' ∧ b' ≠ b) b ∧
    ∀ b', Relation.ReflTransGen (Works program worlds) b b' →
      (∀ b'', Works program worlds b' b'' → b'' = b') → b'.outcome? t ≠ none

/-- The work on a board may come to a point where the task has ended with the outcome. -/
def MayEnd (program : σ.Job → Program σ σ.Result) (worlds : World σ → Prop) (t : Nat)
    (o : Except Fault σ.Result) (b : Board σ) : Prop :=
  ∃ b', Relation.ReflTransGen (Works program worlds) b b' ∧ b'.outcome? t = some o

variable {worlds : World σ → Prop}

theorem Works.move {program : σ.Job → Program σ σ.Result} (h : Works program worlds b b') :
    ∃ w t, worlds w ∧ Move program w t b b' := by
  cases h with
  | resume hw t => exact ⟨_, t, hw, move_resume program _ t b⟩
  | complete hw t => exact ⟨_, t, hw, move_complete program _ t b⟩

theorem grows_worksTo {program : σ.Job → Program σ σ.Result}
    (h : Relation.ReflTransGen (Works program worlds) b b') : Grows b b' := by
  induction h with
  | refl => exact .refl b
  | tail _ hs ih =>
    obtain ⟨w, t, -, hm⟩ := hs.move
    exact ih.trans hm.grows

theorem Upheld.works (hb : Upheld C d b) (hd : Settled C d)
    (hw : ∀ w, worlds w → ∀ op, C.answer op (w op)) (h : Works C.program worlds b b') :
    Upheld C d b' := by
  obtain ⟨w, t, hworld, hm⟩ := h.move
  exact hb.move hd (hw w hworld) hm

theorem Upheld.worksTo (hb : Upheld C d b) (hd : Settled C d)
    (hw : ∀ w, worlds w → ∀ op, C.answer op (w op))
    (h : Relation.ReflTransGen (Works C.program worlds) b b') : Upheld C d b' := by
  induction h with
  | refl => exact hb
  | tail _ hs ih => exact ih.works hd hw hs

/-- **There is no endless work.** -/
theorem Upheld.acc_works (hb : Upheld C d b) (hd : Settled C d)
    (hw : ∀ w, worlds w → ∀ op, C.answer op (w op)) :
    Acc (fun b' b => Works C.program worlds b b' ∧ b' ≠ b) b := by
  induction hm : unfinished b.tasks using C.wellFounded_less.cutExpand.induction generalizing b with
  | _ m ih =>
    refine ⟨_, fun b' ⟨hs, hne⟩ => ?_⟩
    obtain ⟨w, t, hworld, hmv⟩ := hs.move
    rcases hb.cutExpand_move hd (hw w hworld) hmv with he | hcut
    · exact absurd he hne
    · exact ih _ (hm ▸ hcut) (hb.works hd hw hs) rfl

/-- Work that comes to its end may end in some way. -/
theorem Concludes.exists_mayEnd {program : σ.Job → Program σ σ.Result} {t : Nat}
    (h : Concludes program worlds t b) : ∃ o, MayEnd program worlds t o b := by
  have hdone : ∀ {b}, Acc (fun b' b => Works program worlds b b' ∧ b' ≠ b) b →
      ∃ b', Relation.ReflTransGen (Works program worlds) b b' ∧
        ∀ b'', Works program worlds b' b'' → b'' = b' := by
    intro b hacc
    induction hacc with
    | intro b _ ih =>
      by_cases hmax : ∀ b', Works program worlds b b' → b' = b
      · exact ⟨b, .refl, hmax⟩
      · obtain ⟨b', hmore⟩ := not_forall.1 hmax
        obtain ⟨hs, hne⟩ := Classical.not_imp.1 hmore
        obtain ⟨b'', hb, hmax⟩ := ih b' ⟨hs, hne⟩
        exact ⟨b'', .head hs hb, hmax⟩
  obtain ⟨b', hb, hmax⟩ := hdone h.1
  obtain ⟨o, ho⟩ := Option.ne_none_iff_exists'.1 (h.2 b' hb hmax)
  exact ⟨o, b', hb, ho⟩

/-! ### Progress -/

/-- A task that goes on changes the board. -/
theorem Upheld.run_ne (hb : Upheld C d b) (hd : Settled C d) (hw : ∀ op, C.answer op (w op))
    (ht : b.tasks[t]? = some task) (hp : GoesOn C.program w b task p) : Board.run w t p b ≠ b := by
  have hle := hb.new_of_unfinished hd ht hp.not_ended
  have hh := upheld_halt hb hd hw (hb.suits_goesOn hw ht hle hp)
  have hcut := cutExpand_run ht hp.not_ended hh (after_goesOn hp _)
  intro he
  rw [he] at hcut
  exact C.wellFounded_less.cutExpand.irrefl.irrefl _ hcut

omit [DecidableEq σ.Cache] in
/-- Tasks that have all ended have results, or there is a first fault among theirs. -/
theorem results_of_no_fault {ts : List Nat} (ho : ∀ u ∈ ts, b.outcome? u ≠ none)
    (hf : b.firstFault? ts = none) : ∃ rs, b.results? ts = some rs := by
  induction ts with
  | nil => exact ⟨[], rfl⟩
  | cons u ts ih =>
    rw [firstFault?] at hf
    rcases hu : b.outcome? u with _ | (f | r)
    · exact absurd hu (ho u (by simp))
    · simp [hu] at hf
    · simp only [hu] at hf
      obtain ⟨rs, hrs⟩ := ih (fun v hv => ho v (by simp [hv])) hf
      exact ⟨r :: rs, by simp [results?, hu, hrs]⟩

/-- A task that waits can go on when the tasks that it waits for have ended. -/
theorem resume_of_awaited (program : σ.Job → Program σ σ.Result) (w : World σ)
    (ht : b.tasks[t]? = some task) (hc : task.cancelRequested = false) (ho : task.phase.outcome? = none)
    (hp : ∀ op next, task.phase ≠ .performing op next)
    (hj : ∀ s next, task.phase = .joining s next → b.outcome? s ≠ none)
    (hg : ∀ ts next, task.phase = .gathering ts next → ∀ u ∈ ts, b.outcome? u ≠ none) :
    ∃ p, GoesOn program w b task p ∧ b.resume program w t = Board.run w t p b := by
  unfold resume
  rw [ht]
  simp only [hc]
  cases hph : task.phase with
  | fresh => exact ⟨_, .first hph, rfl⟩
  | performing op next => exact absurd hph (hp op next)
  | joining s next =>
    simp only
    rcases hs : b.outcome? s with _ | (f | r)
    · exact absurd hs (hj s next hph)
    · exact ⟨_, .joinFailed hph hs, (run_done w t _ b).symm⟩
    · exact ⟨_, .joined hph hs, rfl⟩
  | gathering ts next =>
    simp only
    rcases hf : b.firstFault? ts with _ | f
    · obtain ⟨rs, hrs⟩ := results_of_no_fault (hg ts next hph) hf
      rw [hrs]
      exact ⟨_, .gathered hph hrs, rfl⟩
    · exact ⟨_, .gatherFailed hph hf, (run_done w t _ b).symm⟩
  | ended o => simp [hph, Phase.outcome?] at ho

omit [DecidableEq σ.Cache] in
theorem complete_of_performing (w : World σ) (ht : b.tasks[t]? = some task)
    (hc : task.cancelRequested = false) {op : σ.Op} {next : σ.Answer op → Program σ σ.Result}
    (hp : task.phase = .performing op next) [DecidableEq σ.Cache] :
    b.complete w t = Board.run w t (next (w op)) b := by
  obtain ⟨job, place, phase, asked⟩ := task
  obtain rfl : asked = false := hc
  obtain rfl : phase = _ := hp
  unfold complete
  rw [ht]

/-- **Work does not stand still.** Where no step changes the board, all tasks have ended. -/
theorem Upheld.ended_of_rests (hb : Upheld C d b) (hd : Settled C d)
    (hw : ∀ w, worlds w → ∀ op, C.answer op (w op)) (hne : ∃ w, worlds w)
    (hr : ∀ b', Works C.program worlds b b' → b' = b) (ht : b.tasks[t]? = some task) :
    task.phase.outcome? ≠ none := by
  intro ho
  obtain ⟨w, hworld⟩ := hne
  have hres := hr _ (.resume hworld t)
  induction hn : C.rank task.job using Nat.strong_induction_on generalizing t task with
  | _ n ih =>
    have hle := hb.new_of_unfinished hd ht ho
    have hph := hb.phases t task hle ht
    -- what a task waits for is of a lower rank, and so has ended
    have hlow : ∀ s j, Awaited C d b (C.rank task.job) s j → b.outcome? s ≠ none := by
      rintro s j ⟨-, hj, hrank⟩ hnone
      obtain ⟨x, hx, rfl⟩ := Option.map_eq_some_iff.1 hj
      rw [outcome?_eq hx] at hnone
      exact ih _ (hn ▸ hrank) hx hnone (hr _ (.resume hworld s)) rfl
    cases hc : task.cancelRequested with
    | true =>
      have hend := outcome?_resume_asked C.program w ht hc ho
      rw [hres, outcome?_eq ht, ho] at hend
      simp at hend
    | false =>
      by_cases hp : ∃ op next, task.phase = .performing op next
      · obtain ⟨op, next, hp⟩ := hp
        have hcom := hr _ (.complete hworld t)
        rw [complete_of_performing w ht hc hp] at hcom
        exact hb.run_ne hd (hw w hworld) ht (.answered hp) hcom
      · obtain ⟨p, hgo, he⟩ := resume_of_awaited C.program w ht hc ho
          (fun op next h => hp ⟨op, next, h⟩)
          (fun s next h => by
            rw [h] at hph
            obtain ⟨j, hj, -⟩ := hph
            exact hlow s j hj)
          (fun ts next h u hu => by
            rw [h] at hph
            obtain ⟨js, hjs, -⟩ := hph
            obtain ⟨i, hi, rfl⟩ := List.getElem_of_mem hu
            obtain ⟨hlen, hget⟩ := List.forall₂_iff_get.1 hjs
            exact hlow _ _ (hget i hi (hlen ▸ hi)))
        exact hb.run_ne hd (hw w hworld) ht hgo (he.symm.trans hres)

/-! ### A job that is started -/

/-- **A job concludes, and as its specification says.** A job that is started where all work
has ended comes to its end in every order of steps, and no order brings it to an outcome
that its specification does not allow. -/
theorem Settled.concludes (hd : Settled C d) (hw : ∀ w, worlds w → ∀ op, C.answer op (w op))
    (hne : ∃ w, worlds w) {job : σ.Job} (ha : C.allowed job) :
    Concludes C.program worlds d.tasks.length (d.spawn job).2 ∧
      ∀ o, MayEnd C.program worlds d.tasks.length o (d.spawn job).2 → C.spec job o := by
  have hb : Upheld C d (d.spawn job).2 := hd.upheld.spawn ha
  have hjob : (d.spawn job).2.job? d.tasks.length = some job := by
    simp [job?, Board.spawn]
  refine ⟨⟨hb.acc_works hd hw, fun b' hs hr => ?_⟩, fun o hend => ?_⟩
  · have hb' := hb.worksTo hd hw hs
    obtain ⟨x, hx, -⟩ := Option.map_eq_some_iff.1 ((grows_worksTo hs).job? hjob)
    rw [outcome?_eq hx]
    exact hb'.ended_of_rests hd hw hne hr hx
  · obtain ⟨b', hs, ho⟩ := hend
    have hb' := hb.worksTo hd hw hs
    obtain ⟨x, hx, hxo⟩ := outcome?_eq_some.1 ho
    have hph := hb'.phases _ x (Nat.le_refl _) hx
    have hj := (grows_worksTo hs).job? hjob
    rw [job?_eq hx, Option.some.injEq] at hj
    rw [hj, hxo] at hph
    exact hph

end Board

end CachedViews
