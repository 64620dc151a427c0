import CachedViews.Proofs.Task.Mirror

/-
# Each task ends as it would alone

A task that another one starts and waits for does not keep to itself. But where no task is asked to
stop and nothing is looked up, it makes no difference to it: each task of a board, together with
those that it starts, is copied by a board on which its job was started alone
(`Board.allCopied_worksTo`). So it may end as its job may end on a board of its own, and in no other
way (`Board.AllCopied.mayEnd`, `Board.AllCopied.exists_outcome`).

Key definitions: `Board.AllCopied`.
Key theorems: `Board.AllCopied.turn`, `Board.allCopied_worksTo`, `Board.AllCopied.mayEnd`,
`Board.AllCopied.exists_outcome`.
-/

namespace CachedViews.Board

variable {σ : Signature} [DecidableEq σ.Cache]

/-- Each task, together with those that came of it, is copied by a board on which its job was
started alone. -/
def AllCopied (program : σ.Job → Program σ σ.Result) (worlds : World σ → Prop) (U : Usage σ)
    (b : Board σ) : Prop :=
  ∀ t task, b.tasks[t]? = some task → ∃ ts m, ts[0]? = some t ∧ Copies U ts b m ∧
    Relation.ReflTransGen (Works program worlds) (spawn task.job {}).2 m

variable {program : σ.Job → Program σ σ.Result} {worlds : World σ → Prop} {U : Usage σ}
  {b b' m m' : Board σ} {ts : List TaskId} {w : World σ} {t u i : Nat} {task : Task σ}
  {job : σ.Job} {o : Except Fault σ.Result}

/-! ### One turn -/

/-- A task is as it would be on a board of its own: it is not shared, nor asked to stop. -/
theorem AllCopied.twin (h : AllCopied program worlds U b) (ht : b.tasks[t]? = some task) :
    ∃ ts y, task.Twin U ts y := by
  obtain ⟨ts, m, hfirst, hcopies, -⟩ := h t task ht
  obtain ⟨x, y, hx, -, htwin⟩ := hcopies.tasks 0 t hfirst
  obtain rfl := Option.some.inj (ht.symm.trans hx)
  exact ⟨ts, y, htwin⟩

/-- A turn of a task that was not asked to stop leaves all other tasks as they are. -/
theorem Turn.task_of_ne (hs : Turn program w t b b')
    (hc : ∀ task, b.tasks[t]? = some task → task.cancelRequested = false)
    (hu : u < b.tasks.length) (hne : u ≠ t) : b'.tasks[u]? = b.tasks[u]? := by
  cases hs.move with
  | nothing => rfl
  | goesOn ht _ hp => exact getElem?_run_of_ne (lt_of_getElem? ht) hu hne
  | dropped ht hasked => exact absurd hasked (by simp [hc _ ht])
  | stopped ht hasked => exact absurd hasked (by simp [hc _ ht])

/-- What another task does makes no difference to copied tasks. -/
theorem Copies.elsewhere (h : Copies U ts b m) (ht : t ∉ ts) (hs : Turn program w t b b')
    (hc : ∀ task, b.tasks[t]? = some task → task.cancelRequested = false) : Copies U ts b' m where
  nodup := h.nodup
  length := h.length
  entries := h.entries
  unbegun := ⟨h.unbegun.1.step hs.step, h.unbegun.2⟩
  tasks i u hi := by
    obtain ⟨x, y, hx, hy, htwin⟩ := h.tasks i u hi
    have hne : u ≠ t := fun he => ht (he ▸ List.mem_of_getElem? hi)
    exact ⟨x, y, (hs.task_of_ne hc (lt_of_getElem? hx) hne).trans hx, hy, htwin⟩
  accounts i u hi := by
    have hne : u ≠ t := fun he => ht (he ▸ List.mem_of_getElem? hi)
    rw [hs.move.account_of_ne hne, h.accounts i u hi]

section Turns

variable (hk : ∀ c k, ¬U.keys c k) (hprog : ∀ job, U.jobs job → (program job).Uses U)
include hk hprog

/-- **A turn of a task keeps all tasks copied**: those that it was waiting with, those that it has
nothing to do with, and those that it starts. -/
theorem AllCopied.turn (h : AllCopied program worlds U b) (hw : worlds w)
    (hs : Turn program w t b b') : AllCopied program worlds U b' := by
  have hc : ∀ task, b.tasks[t]? = some task → task.cancelRequested = false := by
    intro task ht
    obtain ⟨ts, y, htwin⟩ := h.twin ht
    exact htwin.unasked.1
  intro u task hu
  by_cases hlt : u < b.tasks.length
  · -- a task that was there, with its family
    obtain ⟨task', hu', hlater⟩ := hs.step.grows u _ (List.getElem?_eq_getElem hlt)
    obtain rfl := Option.some.inj (hu.symm.trans hu')
    obtain ⟨ts, m, hfirst, hcopies, hm⟩ := h u _ (List.getElem?_eq_getElem hlt)
    rw [← hlater.job] at hm
    by_cases ht : t ∈ ts
    · obtain ⟨i, hi⟩ := List.mem_iff_getElem?.1 ht
      obtain ⟨m', hturn, hcopies', -⟩ := hcopies.turn hk hprog hi hs
      have hfirst' : (ts ++ newTasks b b')[0]? = some u :=
        (List.getElem?_append_left (List.getElem?_eq_some_iff.1 hfirst).1).trans hfirst
      exact ⟨_, m', hfirst', hcopies', hm.tail (hturn.works hw)⟩
    · exact ⟨ts, m, hfirst, hcopies.elsewhere ht hs hc, hm⟩
  · -- a task that was started in the turn
    have hle := Nat.le_of_not_lt hlt
    have ht : t < b.tasks.length := by
      by_contra hnot
      rw [hs.eq_of_length_le (Nat.le_of_not_lt hnot)] at hu
      exact hlt (lt_of_getElem? hu)
    obtain ⟨ts, m, hfirst, hcopies, -⟩ := h t _ (List.getElem?_eq_getElem ht)
    obtain ⟨m', -, hcopies', -⟩ := hcopies.turn hk hprog hfirst hs
    have hnew : u ∈ ts ++ newTasks b b' :=
      List.mem_append_right _ (mem_newTasks.2 ⟨hle, lt_of_getElem? hu⟩)
    obtain ⟨i, hi⟩ := List.mem_iff_getElem?.1 hnew
    obtain ⟨x, y, hx, -, htwin⟩ := hcopies'.tasks i u hi
    obtain rfl := Option.some.inj (hu.symm.trans hx)
    have haccount : b'.account u = [] := by
      rw [hs.move.account_of_ne (by omega), hcopies.unbegun.1 u hle]
    have hjob : U.jobs task.job := htwin.job ▸ htwin.allowed
    exact ⟨[u], _, rfl, copies_fresh hcopies'.unbegun.1 hu htwin.places.1 htwin.unasked.1
      (hs.step.born hle hu).1 hjob haccount, .refl⟩

/-- **Each task is copied by a board of its own**, in whatever order the work goes on. -/
theorem allCopied_worksTo (hj : U.jobs job)
    (hs : Relation.ReflTransGen (Works program worlds) (spawn job {}).2 b) :
    AllCopied program worlds U b := by
  induction hs with
  | refl =>
    intro t task ht
    obtain ⟨rfl, rfl⟩ : t = 0 ∧ task = { job := job } := by
      cases t with
      | zero => exact ⟨rfl, (Option.some.inj ht).symm⟩
      | succ t => cases ht
    exact ⟨[0], _, rfl, copies_fresh (fun _ _ => rfl) ht rfl rfl rfl hj rfl, .refl⟩
  | tail _ hs ih =>
    obtain ⟨w, t, hw, hturn⟩ := hs.turn
    exact ih.turn hk hprog hw hturn

/-- What a board does, the tasks do that it copies. -/
theorem Copies.worksTo (h : Copies U ts b m) (hs : Relation.ReflTransGen (Works program worlds) m m') :
    ∃ ts' b', Relation.ReflTransGen (Works program worlds) b b' ∧ ts <+: ts' ∧ Copies U ts' b' m' := by
  induction hs with
  | refl => exact ⟨ts, b, .refl, List.prefix_refl ts, h⟩
  | tail _ hs ih =>
    obtain ⟨ts', b', hb, hprefix, h'⟩ := ih
    obtain ⟨w, i, hw, hturn⟩ := hs.turn
    by_cases hi : i < ts'.length
    · obtain ⟨b'', hturn', h'', -⟩ := h'.turn_back hk hprog (List.getElem?_eq_getElem hi) hturn
      exact ⟨_, b'', hb.tail (hturn'.works hw), hprefix.trans (List.prefix_append _ _), h''⟩
    · rw [hturn.eq_of_length_le (by rw [h'.length]; exact Nat.le_of_not_lt hi)]
      exact ⟨ts', b', hb, hprefix, h'⟩

end Turns

/-! ### How a task may end -/

/-- **A task ends as its job may end alone.** -/
theorem AllCopied.mayEnd (h : AllCopied program worlds U b) (hj : b.job? t = some job)
    (ho : b.outcome? t = some o) : MayEnd program worlds 0 o (spawn job {}).2 := by
  obtain ⟨task, ht, rfl⟩ := Option.map_eq_some_iff.1 hj
  obtain ⟨ts, m, hfirst, hcopies, hm⟩ := h t task ht
  exact ⟨m, hm, (hcopies.outcome?_eq hfirst).symm.trans ho⟩

/-- **A task that has not begun may end in all ways in which its job may end alone.** -/
theorem AllCopied.exists_outcome (hk : ∀ c k, ¬U.keys c k)
    (hprog : ∀ job, U.jobs job → (program job).Uses U) (h : AllCopied program worlds U b)
    (ht : b.tasks[t]? = some task) (hp : task.phase = .fresh) (ha : b.account t = [])
    (hend : MayEnd program worlds 0 o (spawn task.job {}).2) :
    ∃ b', Relation.ReflTransGen (Works program worlds) b b' ∧ b'.outcome? t = some o := by
  obtain ⟨ts, m, hfirst, hcopies, -⟩ := h t task ht
  obtain ⟨x, y, hx, -, htwin⟩ := hcopies.tasks 0 t hfirst
  obtain rfl := Option.some.inj (ht.symm.trans hx)
  have halone := copies_fresh hcopies.unbegun.1 ht htwin.places.1 htwin.unasked.1 hp
    (htwin.job ▸ htwin.allowed) ha
  obtain ⟨m', hm, ho⟩ := hend
  obtain ⟨ts', b', hb, ⟨more, rfl⟩, hcopies'⟩ := halone.worksTo hk hprog hm
  exact ⟨b', hb, (hcopies'.outcome?_eq rfl).trans ho⟩

end CachedViews.Board
