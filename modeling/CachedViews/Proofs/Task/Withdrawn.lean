import CachedViews.Proofs.Task.Orderly

/-
# Boards without one of their tasks

A task that is stored under no key, and that no other task waits for, can be taken out of
the picture: on the board on which it gave up long ago (`Board.withdraw`) all other tasks
do what they do on the board itself. What a board looks like to them is therefore what it
looks like without the task (`Board.Apart.resume_of_ne`,
`Board.Apart.complete_of_ne`).

Key definitions: `Board.withdraw`, `Board.Apart`.
Key theorems: `Board.halt_withdraw`, `Board.run_withdraw`, `Board.Apart.resume_of_ne`,
`Board.withdraw_cancel`.
-/

namespace CachedViews.Board

variable {σ : Signature}

/-- The board on which a task gave up long ago. -/
def withdraw (t : TaskId) (b : Board σ) : Board σ :=
  b.update t fun task => { task with phase := .ended (.error .cancelled), cancelRequested := false }

/-- Boards with the same tasks, entries and events are the same. -/
theorem eq_of_getElem? {b b' : Board σ} (ht : ∀ u : Nat, b.tasks[u]? = b'.tasks[u]?)
    (he : b.entries = b'.entries) (hj : b.journal = b'.journal) : b = b' := by
  obtain ⟨tasks, entries, journal⟩ := b
  obtain rfl : tasks = b'.tasks := List.ext_getElem? ht
  obtain rfl : entries = b'.entries := he
  obtain rfl : journal = b'.journal := hj
  rfl

variable {program : σ.Job → Program σ σ.Result} {w : World σ} {t u s : Nat}
  {p : Program σ σ.Result} {b b' : Board σ} {task : Task σ}

/-! ### What there is on the board -/

@[simp] theorem entries_withdraw (t : TaskId) (b : Board σ) : (b.withdraw t).entries = b.entries :=
  rfl

@[simp] theorem journal_withdraw (t : TaskId) (b : Board σ) : (b.withdraw t).journal = b.journal :=
  rfl

@[simp] theorem length_withdraw (t : TaskId) (b : Board σ) :
    (b.withdraw t).tasks.length = b.tasks.length :=
  length_update t _ b

theorem getElem?_withdraw_of_ne (h : u ≠ t) : (b.withdraw t).tasks[u]? = b.tasks[u]? := by
  rw [withdraw, getElem?_update, if_neg (Ne.symm h)]

theorem getElem?_withdraw_self (h : b.tasks[t]? = some task) : (b.withdraw t).tasks[t]? =
    some { task with phase := .ended (.error .cancelled), cancelRequested := false } := by
  rw [withdraw, getElem?_update, if_pos rfl, h]
  rfl

theorem outcome?_withdraw_of_ne (h : s ≠ t) : (b.withdraw t).outcome? s = b.outcome? s := by
  rw [outcome?, getElem?_withdraw_of_ne h, outcome?]

@[simp] theorem place?_withdraw (t u : TaskId) (b : Board σ) :
    (b.withdraw t).place? u = b.place? u := by
  rw [place?, withdraw, getElem?_update, place?]
  split
  · cases b.tasks[u]? <;> rfl
  · rfl

/-- Boards that agree but for a task agree without it. -/
theorem withdraw_congr (he : b'.entries = b.entries) (hj : b'.journal = b.journal)
    (hu : ∀ u : Nat, u ≠ t → b'.tasks[u]? = b.tasks[u]?)
    (ht : ∃ x y, b.tasks[t]? = some x ∧ b'.tasks[t]? = some y ∧ y.job = x.job ∧ y.place = x.place) :
    b'.withdraw t = b.withdraw t := by
  refine eq_of_getElem? (fun u => ?_) he hj
  by_cases hut : u = t
  · subst hut
    obtain ⟨x, y, hx, hy, hjob, hpl⟩ := ht
    rw [getElem?_withdraw_self hx, getElem?_withdraw_self hy, hjob, hpl]
  · rw [getElem?_withdraw_of_ne hut, getElem?_withdraw_of_ne hut, hu u hut]

theorem withdraw_cancel (ht : b.tasks[t]? = some task) :
    (b.cancel t).2.withdraw t = b.withdraw t := by
  unfold cancel
  split
  · refine withdraw_congr rfl rfl (fun u hu => ?_)
      ⟨task, task.asked, ht, ?_, task.asked_job, task.asked_place⟩
    · rw [getElem?_requestCancel, if_neg (Ne.symm hu)]
    · rw [getElem?_requestCancel, if_pos rfl, ht]
      rfl
  · rfl

/-- A task that gave up is not asked again to stop. -/
theorem cancel_withdraw_self (ht : b.tasks[t]? = some task) :
    ((b.withdraw t).cancel t).2 = b.withdraw t := by
  unfold cancel
  rw [outcome?_eq (getElem?_withdraw_self ht)]
  rfl

theorem requestCancel_withdraw (h : u ≠ t) (b : Board σ) :
    (b.withdraw t).requestCancel u = (b.requestCancel u).withdraw t := by
  refine eq_of_getElem? (fun v => ?_) rfl rfl
  by_cases hvt : v = t
  · subst hvt
    rw [getElem?_requestCancel, if_neg h]
    simp only [withdraw, getElem?_update, getElem?_requestCancel, if_neg h, if_true]
  · rw [getElem?_withdraw_of_ne hvt, getElem?_requestCancel, getElem?_requestCancel,
      getElem?_withdraw_of_ne hvt]

theorem cancelAll_withdraw {ts : List TaskId} (h : t ∉ ts) (b : Board σ) :
    ts.foldl requestCancel (b.withdraw t) = (ts.foldl requestCancel b).withdraw t := by
  induction ts generalizing b with
  | nil => rfl
  | cons u ts ih =>
    have hne := Ne.symm (List.ne_of_not_mem_cons h)
    rw [List.foldl_cons, List.foldl_cons, requestCancel_withdraw hne,
      ih (List.not_mem_of_not_mem_cons h)]

theorem cancel_withdraw_of_ne (h : u ≠ t) (b : Board σ) :
    (b.withdraw t).cancel u = ((b.cancel u).1, (b.cancel u).2.withdraw t) := by
  unfold cancel
  rw [outcome?_withdraw_of_ne h, getElem?_withdraw_of_ne h, requestCancel_withdraw h]
  cases b.outcome? u with
  | some o => rfl
  | none => cases b.tasks[u]? <;> rfl

theorem firstFault?_withdraw {ts : List TaskId} (h : t ∉ ts) (b : Board σ) :
    (b.withdraw t).firstFault? ts = b.firstFault? ts := by
  induction ts with
  | nil => rfl
  | cons u ts ih =>
    have hne := Ne.symm (List.ne_of_not_mem_cons h)
    rw [firstFault?, firstFault?, outcome?_withdraw_of_ne hne, ih (List.not_mem_of_not_mem_cons h)]

theorem results?_withdraw {ts : List TaskId} (h : t ∉ ts) (b : Board σ) :
    (b.withdraw t).results? ts = b.results? ts := by
  induction ts with
  | nil => rfl
  | cons u ts ih =>
    have hne := Ne.symm (List.ne_of_not_mem_cons h)
    rw [results?, results?, outcome?_withdraw_of_ne hne, ih (List.not_mem_of_not_mem_cons h)]

theorem spawn_withdraw (ht : t < b.tasks.length) (job : σ.Job) :
    (b.withdraw t).spawn job = ((b.spawn job).1, (b.spawn job).2.withdraw t) := by
  simp only [spawn, withdraw, update, modify_append ht, List.length_modify]

variable [DecidableEq σ.Cache]

theorem populate_withdraw (ht : t < b.tasks.length) (c : σ.Cache) (k : String) (job : σ.Job) :
    (b.withdraw t).populate c k job =
      ((b.populate c k job).1, (b.populate c k job).2.withdraw t) := by
  simp only [populate, withdraw, update, modify_append ht, List.length_modify]

@[simp] theorem stored?_withdraw (t : TaskId) (b : Board σ) (c : σ.Cache) (k : String) :
    (b.withdraw t).stored? c k = b.stored? c k :=
  rfl

/-! ### Other tasks go on -/

/-- Where a task stops has nothing to do with a task that is not stored. -/
theorem halt_withdraw (hn : ∀ c k, b.stored? c k ≠ some t) (w : World σ)
    (p : Program σ σ.Result) : halt w (b.withdraw t) p = halt w b p := by
  induction p with
  | done r => rfl
  | note n next ih => exact ih
  | ask op next ih => exact ih (w op)
  | perform op next ih => rfl
  | lookup c k job next ih =>
    rw [halt_lookup, halt_lookup, stored?_withdraw]
    cases hs : b.stored? c k with
    | none => rfl
    | some s =>
      have hne : s ≠ t := fun he => hn c k (he ▸ hs)
      simp only [outcome?_withdraw_of_ne hne, ih]
  | gather jobs next ih =>
    rw [halt, halt]
    split
    · exact ih []
    · rfl

theorem trace_withdraw (hn : ∀ c k, b.stored? c k ≠ some t) (w : World σ) (u : TaskId)
    (p : Program σ σ.Result) : trace w u (b.withdraw t) p = trace w u b p := by
  induction p with
  | done r => rfl
  | note n next ih => rw [trace, trace, ih]
  | ask op next ih => rw [trace, trace, ih]
  | perform op next ih => rfl
  | lookup c k job next ih =>
    rw [trace, trace, stored?_withdraw]
    cases hs : b.stored? c k with
    | none => rfl
    | some s =>
      have hne : s ≠ t := fun he => hn c k (he ▸ hs)
      simp only [outcome?_withdraw_of_ne hne, ih]
  | gather jobs next ih =>
    rw [trace, trace]
    split
    · exact ih []
    · rfl

theorem entries_evict_withdraw (t u : TaskId) (f : Fault) (b : Board σ) :
    ((b.withdraw t).evict u f).entries = (b.evict u f).entries := by
  rcases hp : b.place? u with _ | ⟨c, k⟩
  · rw [evict_of_no_place hp, evict_of_no_place ((place?_withdraw t u b).trans hp)]
    rfl
  · rw [evict_of_place hp, evict_of_place ((place?_withdraw t u b).trans hp), stored?_withdraw]
    split <;> rfl

/-- The stop of a task is the same for the entries and for the journal. -/
theorem stop_withdraw (h : Halt σ) (t u : TaskId) (b : Board σ) :
    h.entries u (b.withdraw t) = h.entries u b ∧ h.events u (b.withdraw t) = h.events u b := by
  cases h with
  | ended o =>
    cases o with
    | ok r => exact ⟨rfl, rfl⟩
    | error f =>
      refine ⟨entries_evict_withdraw t u f b, ?_⟩
      simp only [Halt.events, place?_withdraw, stored?_withdraw]
      rfl
  | performing op next => exact ⟨rfl, rfl⟩
  | joining s next => exact ⟨rfl, rfl⟩
  | storing c k job next => exact ⟨by simp [Halt.entries], by simp [Halt.events]⟩
  | gathering jobs next => exact ⟨rfl, rfl⟩

/-- **A task runs in the same way without another one** that is stored under no key. -/
theorem run_withdraw (hn : ∀ c k, b.stored? c k ≠ some t) (ht : t < b.tasks.length)
    (hu : u < b.tasks.length) (hne : u ≠ t) (w : World σ) (p : Program σ σ.Result) :
    run w u p (b.withdraw t) = (run w u p b).withdraw t := by
  have hu' : u < (b.withdraw t).tasks.length := by simpa using hu
  refine eq_of_getElem? (fun v => ?_) ?_ ?_
  · rcases Nat.lt_or_ge v b.tasks.length with hv | hv
    · have hv' : v < (b.withdraw t).tasks.length := by simpa using hv
      by_cases hvu : v = u
      · subst hvu
        have hx := List.getElem?_eq_getElem hv
        rw [getElem?_withdraw_of_ne hne, getElem?_run_self hx,
          getElem?_run_self ((getElem?_withdraw_of_ne hne).trans hx), halt_withdraw hn,
          length_withdraw]
      · rw [getElem?_run_of_ne hu' hv' hvu]
        by_cases hvt : v = t
        · subst hvt
          have hx := List.getElem?_eq_getElem hv
          rw [getElem?_withdraw_self hx,
            getElem?_withdraw_self ((getElem?_run_of_ne hu hv hvu).trans hx)]
        · rw [getElem?_withdraw_of_ne hvt, getElem?_withdraw_of_ne hvt,
            getElem?_run_of_ne hu hv hvu]
    · have hvt : v ≠ t := by omega
      rw [getElem?_withdraw_of_ne hvt, getElem?_run_new hu' (by simpa using hv),
        getElem?_run_new hu hv, halt_withdraw hn, length_withdraw]
  · rw [entries_withdraw, entries_run hu', entries_run hu, halt_withdraw hn, (stop_withdraw _ t u b).1]
  · rw [journal_withdraw, journal_run hu', journal_run hu, halt_withdraw hn, trace_withdraw hn,
      (stop_withdraw _ t u b).2, journal_withdraw]

/-- Nothing on the board depends on the task: it is stored under no key, and no task waits
for it. -/
structure Apart (t : TaskId) (b : Board σ) : Prop where
  lt : t < b.tasks.length
  unstored : ∀ c k, b.stored? c k ≠ some t
  unjoined : ∀ (u : Nat) (task : Task σ) (next : σ.Result → Program σ σ.Result),
    b.tasks[u]? = some task → task.phase ≠ .joining t next
  ungathered : ∀ (u : Nat) (task : Task σ) (ts : List Nat)
    (next : List σ.Result → Program σ σ.Result), b.tasks[u]? = some task →
    task.phase = .gathering ts next → t ∉ ts

theorem Apart.run_of_ne (ha : Apart t b) (hu : b.tasks[u]? = some task) (hne : u ≠ t)
    (w : World σ) (p : Program σ σ.Result) :
    run w u p (b.withdraw t) = (run w u p b).withdraw t :=
  run_withdraw ha.unstored ha.lt (lt_of_getElem? hu) hne w p

theorem Apart.finish_of_ne (ha : Apart t b) (hu : b.tasks[u]? = some task) (hne : u ≠ t)
    (w : World σ) (o : Except Fault σ.Result) :
    (b.withdraw t).finish u o = (b.finish u o).withdraw t := by
  rw [← run_done w, ← run_done w]
  exact ha.run_of_ne hu hne w (.done o)

theorem Apart.cancelAll (ha : Apart t b) (ts : List TaskId) :
    Apart t (ts.foldl requestCancel b) where
  lt := by
    rw [length_cancelAll]
    exact ha.lt
  unstored c k := by
    rw [stored?_cancelAll]
    exact ha.unstored c k
  unjoined u x next hx hp := by
    obtain ⟨y, hy, -, -, hxy⟩ := task_of_cancelAll hx
    exact ha.unjoined u y next hy (hxy.symm.trans hp)
  ungathered u x us next hx hp := by
    obtain ⟨y, hy, -, -, hxy⟩ := task_of_cancelAll hx
    exact ha.ungathered u y us next hy (hxy.symm.trans hp)

theorem Apart.stop_of_ne (ha : Apart t b) (hu : b.tasks[u]? = some task) (hne : u ≠ t)
    (w : World σ) : (b.withdraw t).stop u task.phase = (b.stop u task.phase).withdraw t := by
  cases hp : task.phase with
  | fresh =>
    refine eq_of_getElem? (fun v => ?_) rfl rfl
    simp only [stop, withdraw, getElem?_setPhase, getElem?_update]
    by_cases hvt : t = v
    · subst hvt
      rw [if_neg hne, if_pos rfl, if_pos rfl, if_neg hne]
    · rw [if_neg hvt, if_neg hvt]
  | gathering ts next =>
    have hts := ha.ungathered u task ts next hu hp
    simp only [stop, cancelAll_withdraw hts]
    obtain ⟨task', hu', -⟩ := getElem?_stopped hu ts
    exact (ha.cancelAll ts).finish_of_ne hu' hne w _
  | performing op next => exact ha.finish_of_ne hu hne w (.error .cancelled)
  | joining s next => exact ha.finish_of_ne hu hne w (.error .cancelled)
  | ended o => exact ha.finish_of_ne hu hne w (.error .cancelled)

/-- **Other tasks go on in the same way.** -/
theorem Apart.resume_of_ne (ha : Apart t b) (hne : u ≠ t) (program : σ.Job → Program σ σ.Result)
    (w : World σ) : (b.withdraw t).resume program w u = (b.resume program w u).withdraw t := by
  unfold resume
  rw [getElem?_withdraw_of_ne hne]
  cases hu : b.tasks[u]? with
  | none => rfl
  | some task =>
    simp only
    have hstop := ha.stop_of_ne hu hne w
    cases hp : task.phase with
    | ended o => rfl
    | fresh =>
      rw [hp] at hstop
      cases task.cancelRequested with
      | true => exact hstop
      | false => exact ha.run_of_ne hu hne w _
    | performing op next =>
      rw [hp] at hstop
      cases task.cancelRequested with
      | true => exact hstop
      | false => rfl
    | joining s next =>
      rw [hp] at hstop
      cases task.cancelRequested with
      | true => exact hstop
      | false =>
        have hst : s ≠ t := fun he => ha.unjoined u task next hu (he ▸ hp)
        simp only [outcome?_withdraw_of_ne hst]
        rcases b.outcome? s with _ | (f | r)
        · rfl
        · exact ha.finish_of_ne hu hne w _
        · exact ha.run_of_ne hu hne w _
    | gathering ts next =>
      rw [hp] at hstop
      cases task.cancelRequested with
      | true => exact hstop
      | false =>
        have hts := ha.ungathered u task ts next hu hp
        simp only [firstFault?_withdraw hts, results?_withdraw hts]
        rcases b.firstFault? ts with _ | f
        · rcases b.results? ts with _ | rs
          · rfl
          · exact ha.run_of_ne hu hne w _
        · exact ha.finish_of_ne hu hne w _

theorem Apart.complete_of_ne (ha : Apart t b) (hne : u ≠ t) (w : World σ) :
    (b.withdraw t).complete w u = (b.complete w u).withdraw t := by
  unfold complete
  rw [getElem?_withdraw_of_ne hne]
  cases hu : b.tasks[u]? with
  | none => rfl
  | some task =>
    obtain ⟨job, place, phase, asked⟩ := task
    cases phase with
    | performing op next =>
      cases asked with
      | true => rfl
      | false => exact ha.run_of_ne hu hne w _
    | _ => rfl

/-! ### The task itself -/

/-- A task that gave up does not go on. -/
theorem resume_withdraw_self (ht : b.tasks[t]? = some task)
    (program : σ.Job → Program σ σ.Result) (w : World σ) :
    (b.withdraw t).resume program w t = b.withdraw t := by
  unfold resume
  rw [getElem?_withdraw_self ht]

theorem complete_withdraw_self (ht : b.tasks[t]? = some task) (w : World σ) :
    (b.withdraw t).complete w t = b.withdraw t := by
  unfold complete
  rw [getElem?_withdraw_self ht]

/-- A task that was started for no key, and that ends as soon as it goes on, leaves nothing
behind but its end. -/
theorem withdraw_finish (ht : b.tasks[t]? = some task) (hp : task.place = none)
    (o : Except Fault σ.Result) : (b.finish t o).withdraw t = b.withdraw t := by
  have hev : ∀ f, b.evict t f = b := evict_of_no_place ((place?_eq ht).trans hp)
  have hset : ∀ ph : Phase σ, (b.setPhase t ph).withdraw t = b.withdraw t := by
    intro ph
    refine withdraw_congr rfl rfl (fun u hu => ?_) ⟨task, { task with phase := ph }, ht, ?_, rfl, rfl⟩
    · rw [getElem?_setPhase, if_neg (Ne.symm hu)]
    · rw [getElem?_setPhase, if_pos rfl, ht]
      rfl
  cases o with
  | ok r => exact hset _
  | error f => rw [finish, hev]; exact hset _

end CachedViews.Board
