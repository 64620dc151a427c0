import CachedViews.Proofs.Task.Halt
import CachedViews.Task.Schedule

/-
# What a step does to a board

A task that is resumed, or whose operation ends, goes on with a program
(`Board.GoesOn`), stops because it was asked to, or has nothing to go on with:
`Board.Move` lists these cases, and `Board.move_resume` and `Board.move_complete`
say that there are no others. All that later proofs need to know about a step
they take from here.

Whatever happens to a board, its tasks keep their jobs and places, and a task that
has ended does not change any more (`Board.Grows`). In one step a task changes by
its own move, or is asked to stop (`Board.Step.at_task`).

Key definitions: `Board.GoesOn`, `Board.Move`, `Board.Grows`.
Key theorems: `Board.move_resume`, `Board.move_complete`, `Board.Step.grows`,
`Board.Reaches.grows`, `Board.Step.at_task`, `Board.Step.born`.
-/

namespace CachedViews

variable {σ : Signature}

/-- A task that was asked to stop. One that has ended is left alone. -/
def Task.asked (task : Task σ) : Task σ :=
  match task.phase with
  | .ended _ => task
  | _ => { task with cancelRequested := true }

namespace Task

@[simp] theorem asked_job (task : Task σ) : task.asked.job = task.job := by
  unfold asked; split <;> rfl

@[simp] theorem asked_place (task : Task σ) : task.asked.place = task.place := by
  unfold asked; split <;> rfl

@[simp] theorem asked_phase (task : Task σ) : task.asked.phase = task.phase := by
  unfold asked; split <;> rfl

theorem asked_of_ended {task : Task σ} {o : Except Fault σ.Result} (h : task.phase = .ended o) :
    task.asked = task := by
  simp [asked, h]

theorem asked_of_not_ended {task : Task σ} (h : task.phase.outcome? = none) :
    task.asked = { task with cancelRequested := true } := by
  unfold asked
  split
  · rename_i o ho
    simp [ho, Phase.outcome?] at h
  · rfl

theorem asked_cancelRequested (task : Task σ) (h : task.cancelRequested = true) :
    task.asked.cancelRequested = true := by
  unfold asked; split <;> simp [h]

@[simp] theorem asked_asked (task : Task σ) : task.asked.asked = task.asked := by
  by_cases h : task.phase.outcome? = none
  · rw [asked_of_not_ended (by simpa using h), asked_of_not_ended h]
  · obtain ⟨o, ho⟩ := Option.ne_none_iff_exists'.1 h
    have he : task.phase = .ended o := by
      cases hp : task.phase <;> simp_all [Phase.outcome?]
    rw [asked_of_ended (by simpa using he)]

end Task

namespace Board

/-! ### Asking tasks to stop -/

theorem getElem?_requestCancel (b : Board σ) (t u : TaskId) :
    (b.requestCancel t).tasks[u]? =
      if t = u then (b.tasks[u]?).map Task.asked else b.tasks[u]? :=
  getElem?_update t u _ b

theorem getElem?_cancelAll (ts : List TaskId) (b : Board σ) (u : TaskId) :
    (ts.foldl requestCancel b).tasks[u]? =
      if u ∈ ts then (b.tasks[u]?).map Task.asked else b.tasks[u]? := by
  induction ts generalizing b with
  | nil => simp
  | cons t ts ih =>
    have hm : u ∈ t :: ts ↔ t = u ∨ u ∈ ts := by rw [List.mem_cons, eq_comm]
    rw [List.foldl_cons, ih, getElem?_requestCancel]
    by_cases hu : u ∈ ts <;> by_cases ht : t = u <;>
      simp [hm, hu, ht, Option.map_map, Function.comp_def]

/-- A task that was asked to stop is the same one, and as far as it was. -/
theorem task_of_cancelAll {ts : List TaskId} {b : Board σ} {u : Nat} {x : Task σ}
    (hx : (ts.foldl requestCancel b).tasks[u]? = some x) :
    ∃ y, b.tasks[u]? = some y ∧ x.job = y.job ∧ x.place = y.place ∧ x.phase = y.phase := by
  rw [getElem?_cancelAll] at hx
  split at hx
  · obtain ⟨y, hy, rfl⟩ := Option.map_eq_some_iff.1 hx
    exact ⟨y, hy, y.asked_job, y.asked_place, y.asked_phase⟩
  · exact ⟨x, hx, rfl, rfl, rfl⟩

@[simp] theorem entries_cancelAll (ts : List TaskId) (b : Board σ) :
    (ts.foldl requestCancel b).entries = b.entries := by
  induction ts generalizing b with
  | nil => rfl
  | cons t ts ih => exact ih (b.requestCancel t)

@[simp] theorem journal_cancelAll (ts : List TaskId) (b : Board σ) :
    (ts.foldl requestCancel b).journal = b.journal := by
  induction ts generalizing b with
  | nil => rfl
  | cons t ts ih => exact ih (b.requestCancel t)

@[simp] theorem length_cancelAll (ts : List TaskId) (b : Board σ) :
    (ts.foldl requestCancel b).tasks.length = b.tasks.length := by
  induction ts generalizing b with
  | nil => rfl
  | cons t ts ih => exact (ih (b.requestCancel t)).trans (length_update t _ b)

@[simp] theorem length_cancel (t : TaskId) (b : Board σ) :
    (b.cancel t).2.tasks.length = b.tasks.length := by
  unfold cancel
  split
  · exact length_update t _ b
  · rfl

/-! ### Moves -/

/-- A task of a board goes on with a program. -/
inductive GoesOn (program : σ.Job → Program σ σ.Result) (w : World σ) (b : Board σ)
    (task : Task σ) : Program σ σ.Result → Prop
  | first (h : task.phase = .fresh) : GoesOn program w b task (program task.job)
  | answered {op : σ.Op} {next : σ.Answer op → Program σ σ.Result}
      (h : task.phase = .performing op next) : GoesOn program w b task (next (w op))
  | joined {s : TaskId} {next : σ.Result → Program σ σ.Result} {r : σ.Result}
      (h : task.phase = .joining s next) (ho : b.outcome? s = some (.ok r)) :
      GoesOn program w b task (next r)
  | joinFailed {s : TaskId} {next : σ.Result → Program σ σ.Result} {f : Fault}
      (h : task.phase = .joining s next) (ho : b.outcome? s = some (.error f)) :
      GoesOn program w b task (.done (.error f))
  | gathered {ts : List TaskId} {next : List σ.Result → Program σ σ.Result} {rs : List σ.Result}
      (h : task.phase = .gathering ts next) (hr : b.results? ts = some rs) :
      GoesOn program w b task (next rs)
  | gatherFailed {ts : List TaskId} {next : List σ.Result → Program σ σ.Result} {f : Fault}
      (h : task.phase = .gathering ts next) (hf : b.firstFault? ts = some f) :
      GoesOn program w b task (.done (.error f))

theorem GoesOn.not_ended {program : σ.Job → Program σ σ.Result} {w : World σ} {b : Board σ}
    {task : Task σ} {p : Program σ σ.Result} (h : GoesOn program w b task p) :
    task.phase.outcome? = none := by
  cases h <;> simp [*, Phase.outcome?]

variable [DecidableEq σ.Cache]

/-- What becomes of a board when a task is resumed or its operation ends. -/
inductive Move (program : σ.Job → Program σ σ.Result) (w : World σ) (t : TaskId) (b : Board σ) :
    Board σ → Prop
  | nothing : Move program w t b b
  | goesOn {task : Task σ} {p : Program σ σ.Result} (h : b.tasks[t]? = some task)
      (hc : task.cancelRequested = false) (hp : GoesOn program w b task p) :
      Move program w t b (run w t p b)
  /-- It was asked to stop before it had run. -/
  | dropped {task : Task σ} (h : b.tasks[t]? = some task) (hc : task.cancelRequested = true)
      (hp : task.phase = .fresh) :
      Move program w t b (b.setPhase t (.ended (.error .cancelled)))
  /-- It was asked to stop while it waited, for the tasks `ts` if it had started some. -/
  | stopped {task : Task σ} {ts : List TaskId} (h : b.tasks[t]? = some task)
      (hc : task.cancelRequested = true) (hn : task.phase ≠ .fresh)
      (ho : task.phase.outcome? = none)
      (hts : ts = [] ∨ ∃ next, task.phase = .gathering ts next) :
      Move program w t b (run w t (.done (.error .cancelled)) (ts.foldl requestCancel b))

variable {program : σ.Job → Program σ σ.Result} {w : World σ} {t : TaskId} {b b' : Board σ}

theorem stop_alone {task : Task σ} (h : b.tasks[t]? = some task)
    (hc : task.cancelRequested = true) (hn : task.phase ≠ .fresh)
    (ho : task.phase.outcome? = none) :
    Move program w t b (b.finish t (.error .cancelled)) :=
  have hts : ([] : List TaskId) = [] ∨ ∃ next, task.phase = .gathering [] next := .inl rfl
  .stopped h hc hn ho hts

theorem move_stop {task : Task σ} {p : Phase σ} (h : b.tasks[t]? = some task)
    (hp : task.phase = p) (hc : task.cancelRequested = true) (ho : p.outcome? = none) :
    Move program w t b (b.stop t p) := by
  subst hp
  cases hp : task.phase with
  | fresh => exact .dropped h hc hp
  | performing op next => exact stop_alone h hc (by simp [hp]) ho
  | joining s next => exact stop_alone h hc (by simp [hp]) ho
  | gathering ts next => exact .stopped h hc (by simp [hp]) ho (.inr ⟨next, hp⟩)
  | ended o => simp [hp, Phase.outcome?] at ho

theorem move_resume (program : σ.Job → Program σ σ.Result) (w : World σ) (t : TaskId)
    (b : Board σ) : Move program w t b (b.resume program w t) := by
  unfold resume
  cases h : b.tasks[t]? with
  | none => exact .nothing
  | some task =>
    simp only
    cases hp : task.phase with
    | ended o => exact .nothing
    | fresh =>
      cases hc : task.cancelRequested with
      | true => exact move_stop h hp hc rfl
      | false => exact .goesOn h hc (.first hp)
    | performing op next =>
      cases hc : task.cancelRequested with
      | true => exact move_stop h hp hc rfl
      | false => exact .nothing
    | joining s next =>
      cases hc : task.cancelRequested with
      | true => exact move_stop h hp hc rfl
      | false =>
        simp only
        split
        · exact .goesOn h hc (.joined hp ‹_›)
        · exact .goesOn h hc (.joinFailed hp ‹_›)
        · exact .nothing
    | gathering ts next =>
      cases hc : task.cancelRequested with
      | true => exact move_stop h hp hc rfl
      | false =>
        simp only
        split
        · exact .goesOn h hc (.gatherFailed hp ‹_›)
        · exact .goesOn h hc (.gathered hp ‹_›)
        · exact .nothing

theorem move_complete (program : σ.Job → Program σ σ.Result) (w : World σ) (t : TaskId)
    (b : Board σ) : Move program w t b (b.complete w t) := by
  unfold complete
  split
  · exact .goesOn ‹_› rfl (.answered rfl)
  · exact .nothing

/-- What holds of a board and stays when tasks go on holds when all work is done. -/
theorem settle_keeps {keeps : Board σ → Prop} {world : Board σ → World σ} {mayEnd : σ.Op → Bool}
    (hr : ∀ b t, keeps b → keeps (b.resume program (world b) t))
    (hc : ∀ b t, keeps b → keeps (b.complete (world b) t)) (fuel : Nat) {b : Board σ}
    (hb : keeps b) : keeps (settle program world mayEnd fuel b) := by
  induction fuel generalizing b with
  | zero => exact hb
  | succ fuel ih =>
    unfold settle
    split
    · exact ih (hr b _ hb)
    · split
      · exact ih (hc b _ hb)
      · exact hb

end Board

/-! ### What never changes -/

/-- A task at a later time: its job and its place are the same, it does not become
fresh again, and once it has ended nothing about it changes. -/
structure Task.Later (task task' : Task σ) : Prop where
  job : task'.job = task.job
  place : task'.place = task.place
  asked : task.cancelRequested = true → task'.cancelRequested = true
  fresh : task'.phase = .fresh → task.phase = .fresh
  ended : task.phase.outcome? ≠ none → task' = task

theorem Task.Later.refl (task : Task σ) : task.Later task := ⟨rfl, rfl, id, id, fun _ => rfl⟩

theorem Task.Later.trans {a b c : Task σ} (h : a.Later b) (h' : b.Later c) : a.Later c where
  job := h'.job.trans h.job
  place := h'.place.trans h.place
  asked := fun ha => h'.asked (h.asked ha)
  fresh := fun hf => h.fresh (h'.fresh hf)
  ended := fun he => by
    have hb := h.ended he
    rw [h'.ended (hb ▸ he), hb]

theorem Task.later_asked (task : Task σ) : task.Later task.asked where
  job := task.asked_job
  place := task.asked_place
  asked := task.asked_cancelRequested
  fresh := by simp
  ended := fun he => by
    unfold Task.asked
    split
    · rfl
    · rename_i hn
      cases hp : task.phase <;> simp_all [Phase.outcome?]

theorem Task.later_phase {task : Task σ} (h : task.phase.outcome? = none) {p : Phase σ}
    (hp : p ≠ .fresh) : task.Later { task with phase := p } :=
  ⟨rfl, rfl, id, fun hf => absurd hf hp, fun he => absurd h he⟩

namespace Board

/-- A board at a later time: it has the tasks that it had, each at a later time. -/
def Grows (b b' : Board σ) : Prop :=
  ∀ (t : TaskId) (task : Task σ), b.tasks[t]? = some task →
    ∃ task', b'.tasks[t]? = some task' ∧ task.Later task'

theorem Grows.refl (b : Board σ) : Grows b b := fun _ task h => ⟨task, h, .refl task⟩

theorem Grows.trans {a b c : Board σ} (h : Grows a b) (h' : Grows b c) : Grows a c := by
  intro t task ht
  obtain ⟨task₁, h₁, l₁⟩ := h t task ht
  obtain ⟨task₂, h₂, l₂⟩ := h' t task₁ h₁
  exact ⟨task₂, h₂, l₁.trans l₂⟩

theorem grows_of_tasks {b b' : Board σ} (h : b'.tasks = b.tasks) : Grows b b' :=
  fun _ task ht => ⟨task, by rw [h]; exact ht, .refl task⟩

theorem grows_of_append {b b' : Board σ} {new : List (Task σ)} (h : b'.tasks = b.tasks ++ new) :
    Grows b b' := fun t task ht =>
  ⟨task, by rw [h, List.getElem?_append_left (lt_of_getElem? ht)]; exact ht, .refl task⟩

theorem outcome?_eq_some {b : Board σ} {t : TaskId} {o : Except Fault σ.Result} :
    b.outcome? t = some o ↔ ∃ task, b.tasks[t]? = some task ∧ task.phase = .ended o := by
  unfold outcome?
  cases b.tasks[t]? with
  | none => simp
  | some task => cases hp : task.phase <;> simp [hp, Phase.outcome?]

theorem outcome?_eq {b : Board σ} {t : TaskId} {task : Task σ} (h : b.tasks[t]? = some task) :
    b.outcome? t = task.phase.outcome? := by
  simp [outcome?, h]

theorem place?_eq {b : Board σ} {t : TaskId} {task : Task σ} (h : b.tasks[t]? = some task) :
    b.place? t = task.place := by
  simp [place?, h]

/-- The outcome of a task stays. -/
theorem Grows.outcome? {b b' : Board σ} (h : Grows b b') {t : TaskId}
    {o : Except Fault σ.Result} (ho : b.outcome? t = some o) : b'.outcome? t = some o := by
  obtain ⟨task, ht, hp⟩ := outcome?_eq_some.1 ho
  obtain ⟨task', ht', l⟩ := h t task ht
  rw [l.ended (by simp [hp, Phase.outcome?])] at ht'
  exact outcome?_eq_some.2 ⟨task, ht', hp⟩

theorem Grows.length_le {b b' : Board σ} (h : Grows b b') : b.tasks.length ≤ b'.tasks.length := by
  refine Nat.le_of_not_lt fun hlt => ?_
  obtain ⟨task', ht', -⟩ := h b'.tasks.length _ (List.getElem?_eq_getElem hlt)
  exact absurd (lt_of_getElem? ht') (Nat.lt_irrefl _)

theorem grows_cancelAll (ts : List TaskId) (b : Board σ) : Grows b (ts.foldl requestCancel b) := by
  intro t task ht
  rw [getElem?_cancelAll, ht]
  split
  · exact ⟨task.asked, rfl, task.later_asked⟩
  · exact ⟨task, rfl, .refl task⟩

theorem grows_setPhase {b : Board σ} {t : TaskId} {task : Task σ} (h : b.tasks[t]? = some task)
    (ho : task.phase.outcome? = none) {p : Phase σ} (hp : p ≠ .fresh) : Grows b (b.setPhase t p) := by
  intro u x hu
  rw [getElem?_setPhase]
  by_cases hut : t = u
  · subst hut
    obtain rfl : task = x := by simpa [h] using hu
    rw [if_pos rfl, h]
    exact ⟨_, rfl, Task.later_phase ho hp⟩
  · rw [if_neg hut]
    exact ⟨x, hu, .refl x⟩

theorem grows_cancel (t : TaskId) (b : Board σ) : Grows b (b.cancel t).2 := by
  unfold cancel
  split
  · exact grows_cancelAll [t] b
  · exact .refl b

theorem phase_halt_ne_fresh (h : Halt σ) (n : Nat) : h.phase n ≠ .fresh := by
  cases h <;> simp [Halt.phase]

variable [DecidableEq σ.Cache]

theorem grows_run {w : World σ} {t : TaskId} {p : Program σ σ.Result} {b : Board σ} {task : Task σ}
    (h : b.tasks[t]? = some task) (ho : task.phase.outcome? = none) : Grows b (run w t p b) := by
  intro u x hu
  by_cases hut : u = t
  · subst hut
    obtain rfl : task = x := by simpa [h] using hu
    exact ⟨_, getElem?_run_self h, Task.later_phase ho (phase_halt_ne_fresh _ _)⟩
  · exact ⟨x, by rw [getElem?_run_of_ne (lt_of_getElem? h) (lt_of_getElem? hu) hut]; exact hu, .refl x⟩

variable {program : σ.Job → Program σ σ.Result} {w : World σ} {t u : Nat} {b b' : Board σ}

theorem Move.grows (h : Move program w t b b') : Grows b b' := by
  cases h with
  | nothing => exact .refl b
  | goesOn h hc hp => exact grows_run h hp.not_ended
  | dropped h hc hp => exact grows_setPhase h (by simp [hp, Phase.outcome?]) (by simp)
  | @stopped task ts h hc hn ho hts =>
    obtain ⟨task', h', l⟩ := grows_cancelAll ts b t task h
    have hp : task'.phase = task.phase := by
      rw [getElem?_cancelAll, h] at h'
      split at h' <;> (cases h'; simp)
    exact (grows_cancelAll ts b).trans (grows_run h' (by rw [hp]; exact ho))

theorem Step.grows (h : Step program b b') : Grows b b' := by
  cases h with
  | resume w t => exact (move_resume program w t b).grows
  | complete w t => exact (move_complete program w t b).grows
  | spawn job => exact grows_of_append rfl
  | populate c k job => exact grows_of_append rfl
  | cancel t => exact grows_cancel t b
  | invalidate c k => exact grows_of_tasks rfl
  | clear c => exact grows_of_tasks rfl

theorem Reaches.grows (h : Reaches program b b') : Grows b b' := by
  induction h with
  | refl => exact .refl _
  | tail _ hs ih => exact ih.trans hs.grows

/-! ### One task in a step -/

/-- Other tasks than the one that moves stay as they are, or are asked to stop. -/
theorem Move.elsewhere {task : Task σ} (h : Move program w t b b') (hu : b.tasks[u]? = some task)
    (hne : u ≠ t) : b'.tasks[u]? = some task ∨ b'.tasks[u]? = some task.asked := by
  have hlt := lt_of_getElem? hu
  cases h with
  | nothing => exact .inl hu
  | goesOn h hc hp => exact .inl (by rw [getElem?_run_of_ne (lt_of_getElem? h) hlt hne, hu])
  | dropped h hc hp => exact .inl (by rw [getElem?_setPhase, if_neg (Ne.symm hne), hu])
  | @stopped task' ts h hc hn ho hts =>
    have hlt' : t < (ts.foldl requestCancel b).tasks.length := by
      rw [length_cancelAll]
      exact lt_of_getElem? h
    rw [getElem?_run_of_ne hlt' (by rw [length_cancelAll]; exact hlt) hne, getElem?_cancelAll, hu]
    split
    · exact .inr rfl
    · exact .inl rfl

/-- A task that gathers no others asks none to stop. -/
theorem Move.cancelRequested_eq {task : Task σ} (h : Move program w t b b')
    (hg : ∀ task ts next, b.tasks[t]? = some task → task.phase ≠ .gathering ts next)
    (hu : b.tasks[u]? = some task) :
    ∃ task', b'.tasks[u]? = some task' ∧ task'.cancelRequested = task.cancelRequested := by
  have hrun : ∀ (p : Program σ σ.Result), t < b.tasks.length →
      ∃ task', (run w t p b).tasks[u]? = some task' ∧
        task'.cancelRequested = task.cancelRequested := by
    intro p ht
    by_cases hut : u = t
    · subst hut
      exact ⟨_, getElem?_run_self hu, rfl⟩
    · exact ⟨task, by rw [getElem?_run_of_ne ht (lt_of_getElem? hu) hut, hu], rfl⟩
  cases h with
  | nothing => exact ⟨task, hu, rfl⟩
  | goesOn h hc hp => exact hrun _ (lt_of_getElem? h)
  | dropped h hc hp =>
    rw [getElem?_setPhase, hu]
    split
    · exact ⟨_, rfl, rfl⟩
    · exact ⟨task, rfl, rfl⟩
  | stopped h hc hn ho hts =>
    rcases hts with rfl | ⟨next, hp⟩
    · exact hrun _ (lt_of_getElem? h)
    · exact absurd hp (hg _ _ _ h)

/-- In a step a task stays as it is, is asked to stop, or moves itself. -/
theorem Step.at_task {task : Task σ} (h : Step program b b') (hu : b.tasks[u]? = some task) :
    b'.tasks[u]? = some task ∨ b'.tasks[u]? = some task.asked ∨ ∃ w, Move program w u b b' := by
  have hmove : ∀ (w : World σ) (t : Nat), Move program w t b b' →
      b'.tasks[u]? = some task ∨ b'.tasks[u]? = some task.asked ∨ ∃ w, Move program w u b b' := by
    intro w t hm
    by_cases hut : u = t
    · subst hut
      exact .inr (.inr ⟨w, hm⟩)
    · rcases hm.elsewhere hu hut with hu' | hu'
      · exact .inl hu'
      · exact .inr (.inl hu')
  cases h with
  | resume w t => exact hmove w t (move_resume program w t b)
  | complete w t => exact hmove w t (move_complete program w t b)
  | spawn job => exact .inl (List.getElem?_append_left (lt_of_getElem? hu) ▸ hu)
  | populate c k job => exact .inl (List.getElem?_append_left (lt_of_getElem? hu) ▸ hu)
  | cancel t =>
    unfold Board.cancel
    split
    · rw [getElem?_requestCancel, hu]
      split
      · exact .inr (.inl rfl)
      · exact .inl rfl
    · exact .inl hu
  | invalidate c k => exact .inl hu
  | clear c => exact .inl hu

theorem Move.born {x : Task σ} (h : Move program w t b b') (hu : b.tasks.length ≤ u)
    (hx : b'.tasks[u]? = some x) : x.phase = .fresh ∧ x.cancelRequested = false := by
  have hnone : b.tasks[u]? = none := List.getElem?_eq_none hu
  cases h with
  | nothing => simp [hnone] at hx
  | goesOn h hc hp =>
    rw [getElem?_run_new (lt_of_getElem? h) hu] at hx
    have hmem := List.mem_of_getElem? hx
    exact ⟨fresh_of_started hmem, not_asked_of_started hmem⟩
  | dropped h hc hp =>
    have hlt := lt_of_getElem? hx
    rw [setPhase, length_update] at hlt
    omega
  | @stopped task ts h hc hn ho hts =>
    rw [getElem?_run_new (by rw [length_cancelAll]; exact lt_of_getElem? h)
      (by rw [length_cancelAll]; exact hu)] at hx
    simp [halt, Halt.started] at hx

/-- Tasks that come in a step have not run. -/
theorem Step.born {x : Task σ} (h : Step program b b') (hu : b.tasks.length ≤ u)
    (hx : b'.tasks[u]? = some x) : x.phase = .fresh ∧ x.cancelRequested = false := by
  have hnone : b.tasks[u]? = none := List.getElem?_eq_none hu
  cases h with
  | resume w t => exact (move_resume program w t b).born hu hx
  | complete w t => exact (move_complete program w t b).born hu hx
  | spawn job =>
    have ht : (b.spawn job).2.tasks = b.tasks ++ [{ job := job }] := rfl
    rcases getElem?_of_append ht hx with h | ⟨-, h⟩
    · simp [hnone] at h
    · obtain rfl := List.mem_singleton.1 h
      exact ⟨rfl, rfl⟩
  | populate c k job =>
    have ht : (b.populate c k job).2.tasks = b.tasks ++ [{ job, place := some (c, k) }] := rfl
    rcases getElem?_of_append ht hx with h | ⟨-, h⟩
    · simp [hnone] at h
    · obtain rfl := List.mem_singleton.1 h
      exact ⟨rfl, rfl⟩
  | cancel t =>
    have hlt := lt_of_getElem? hx
    rw [length_cancel] at hlt
    omega
  | invalidate c k => simp [Board.invalidate, hnone] at hx
  | clear c => simp [Board.clear, hnone] at hx

end Board

end CachedViews
