import CachedViews.Proofs.Task.Accounts
import CachedViews.Proofs.Task.Ending

/-
# Work amid other work

Some tasks of a board are worked on while others are in flight and anything else may happen
(`Board.Amid`). A task that one of them starts joins them.

Tasks that no other task waits for are secluded (`Board.Secluded`): whatever happens
elsewhere, they stay as they are (`Board.Secluded.task_of_elsewhere`) and nothing is added to
their accounts. They stay secluded when they go on, together with the tasks that they start.

Key definitions: `Board.Turn`, `Board.Elsewhere`, `Board.Amid`, `Board.ConcludesAmid`,
`Board.Secluded`.
Key theorems: `Board.Move.gathers`, `Board.Secluded.turn`, `Board.Secluded.elsewhere`,
`Board.secluded_spawn`.
-/

namespace CachedViews.Board

variable {σ : Signature} [DecidableEq σ.Cache]

/-! ### What happens -/

/-- A turn of a task: it is resumed, or its operation ends. -/
inductive Turn (program : σ.Job → Program σ σ.Result) (w : World σ) (t : TaskId) (b : Board σ) :
    Board σ → Prop
  | resume : Turn program w t b (b.resume program w t)
  | complete : Turn program w t b (b.complete w t)

/-- Something happens, but the tasks `ts` have no turn and are not asked to stop. Others may be
given any answers. -/
inductive Elsewhere (program : σ.Job → Program σ σ.Result) (ts : List TaskId) (b : Board σ) :
    Board σ → Prop
  | turn {w : World σ} {t : TaskId} {b' : Board σ} (ht : t ∉ ts) (h : Turn program w t b b') :
      Elsewhere program ts b b'
  | spawn (job : σ.Job) : Elsewhere program ts b (b.spawn job).2
  | populate (c : σ.Cache) (k : String) (job : σ.Job) :
      Elsewhere program ts b (b.populate c k job).2
  | cancel {t : TaskId} (ht : t ∉ ts) : Elsewhere program ts b (b.cancel t).2
  | invalidate (c : σ.Cache) (k : String) : Elsewhere program ts b (b.invalidate c k).2
  | clear (c : σ.Cache) : Elsewhere program ts b (b.clear c)

/-- The numbers of the tasks that are new on the board `b'`. -/
def newTasks (b b' : Board σ) : List TaskId :=
  List.range' b.tasks.length (b'.tasks.length - b.tasks.length)

/-- One step while tasks are worked on in one of the given `worlds`: one of them has a turn, and
the tasks that it starts join them, or something happens elsewhere. -/
inductive Amid (program : σ.Job → Program σ σ.Result) (worlds : World σ → Prop) :
    List TaskId × Board σ → List TaskId × Board σ → Prop
  | own {ts : List TaskId} {b b' : Board σ} {w : World σ} {t : TaskId} (hw : worlds w)
      (ht : t ∈ ts) (h : Turn program w t b b') :
      Amid program worlds (ts, b) (ts ++ newTasks b b', b')
  | other {ts : List TaskId} {b b' : Board σ} (h : Elsewhere program ts b b') :
      Amid program worlds (ts, b) (ts, b')

/-- One of the tasks has a turn and does something, after anything else that may happen
before. -/
def Advances (program : σ.Job → Program σ σ.Result) (worlds : World σ → Prop)
    (s s' : List TaskId × Board σ) : Prop :=
  ∃ b, Relation.ReflTransGen (Elsewhere program s.1) s.2 b ∧
    ∃ w t b', worlds w ∧ t ∈ s.1 ∧ Turn program w t b b' ∧ b' ≠ b ∧
      s' = (s.1 ++ newTasks b b', b')

/-- However the work on some tasks goes on, amid whatever else happens, it comes to its end, and
then the task `t` has ended. -/
def ConcludesAmid (program : σ.Job → Program σ σ.Result) (worlds : World σ → Prop) (t : TaskId)
    (s : List TaskId × Board σ) : Prop :=
  Acc (fun s' s => Advances program worlds s s') s ∧
    ∀ ts b, Relation.ReflTransGen (Amid program worlds) s (ts, b) →
      (∀ w u b', worlds w → u ∈ ts → Turn program w u b b' → b' = b) → b.outcome? t ≠ none

/-- The work on some tasks, amid whatever else happens, may come to a point where the task `t`
has ended with the outcome. -/
def MayEndAmid (program : σ.Job → Program σ σ.Result) (worlds : World σ → Prop) (t : TaskId)
    (o : Except Fault σ.Result) (s : List TaskId × Board σ) : Prop :=
  ∃ ts b, Relation.ReflTransGen (Amid program worlds) s (ts, b) ∧ b.outcome? t = some o

variable {program : σ.Job → Program σ σ.Result} {w : World σ} {t u : Nat}
  {p : Program σ σ.Result} {b b' : Board σ} {ts : List TaskId}

theorem Turn.move (h : Turn program w t b b') : Move program w t b b' := by
  cases h with
  | resume => exact move_resume program w t b
  | complete => exact move_complete program w t b

theorem Turn.step (h : Turn program w t b b') : Step program b b' := by
  cases h with
  | resume => exact .resume w t b
  | complete => exact .complete w t b

theorem Elsewhere.step (h : Elsewhere program ts b b') : Step program b b' := by
  cases h with
  | turn ht h => exact h.step
  | spawn job => exact .spawn job b
  | populate c k job => exact .populate c k job b
  | cancel ht => exact .cancel _ b
  | invalidate c k => exact .invalidate c k b
  | clear c => exact .clear c b

omit [DecidableEq σ.Cache] in
theorem mem_newTasks : u ∈ newTasks b b' ↔ b.tasks.length ≤ u ∧ u < b'.tasks.length := by
  rw [newTasks, List.mem_range'_1]
  omega

/-! ### One task in a step -/

/-- A task that gathers others was doing so, or it has just started them. -/
theorem Move.gathers {x : Task σ} {us : List TaskId} {next : List σ.Result → Program σ σ.Result}
    (h : Move program w t b b') (hx : b'.tasks[u]? = some x) (hp : x.phase = .gathering us next) :
    (∃ y, b.tasks[u]? = some y ∧ y.phase = .gathering us next) ∨
      (u = t ∧ ∀ s ∈ us, b.tasks.length ≤ s) := by
  cases h with
  | nothing => exact .inl ⟨x, hx, hp⟩
  | @goesOn task q ht hc hgo =>
    rcases getElem?_run_cases ht hx with ⟨rfl, rfl⟩ | ⟨-, hx⟩ | ⟨-, hnew⟩
    · refine .inr ⟨rfl, fun s hs => ?_⟩
      cases hh : halt w b q with
      | gathering jobs next' =>
        simp only [hh, Halt.phase, Phase.gathering.injEq] at hp
        rw [← hp.1, List.mem_range'_1] at hs
        exact hs.1
      | ended o => simp [hh, Halt.phase] at hp
      | performing op next => simp [hh, Halt.phase] at hp
      | joining s next => simp [hh, Halt.phase] at hp
      | storing c k job next => simp [hh, Halt.phase] at hp
    · exact .inl ⟨x, hx, hp⟩
    · simp [fresh_of_started hnew] at hp
  | @dropped task ht hc hf =>
    rcases task_of_setPhase hx with ⟨-, y, -, rfl⟩ | hx
    · simp at hp
    · exact .inl ⟨x, hx, hp⟩
  | @stopped task us' ht hc hn ho hts =>
    obtain ⟨task', ht', -⟩ := getElem?_stopped ht us'
    rcases getElem?_run_cases ht' hx with ⟨rfl, rfl⟩ | ⟨-, hx⟩ | ⟨-, hnew⟩
    · simp [halt, Halt.phase] at hp
    · obtain ⟨y, hy, -, -, hph⟩ := task_of_cancelAll hx
      exact .inl ⟨y, hy, hph.symm.trans hp⟩
    · simp [fresh_of_started hnew] at hp

/-- A task that another one does not wait for stays as it is when that one goes on. -/
theorem Move.task_of_ne (h : Move program w t b b') (hlt : u < b.tasks.length) (hne : u ≠ t)
    (hg : ∀ task us next, b.tasks[t]? = some task → task.phase = .gathering us next → u ∉ us) :
    b'.tasks[u]? = b.tasks[u]? := by
  cases h with
  | nothing => rfl
  | goesOn ht hc hp => exact getElem?_run_of_ne (lt_of_getElem? ht) hlt hne
  | dropped ht hc hp => rw [getElem?_setPhase, if_neg (Ne.symm hne)]
  | @stopped task us ht hc hn ho hts =>
    have hu : u ∉ us := by
      rcases hts with rfl | ⟨next, hp⟩
      · simp
      · exact hg task us next ht hp
    have hlt' : t < (us.foldl requestCancel b).tasks.length := by
      rw [length_cancelAll]
      exact lt_of_getElem? ht
    rw [getElem?_run_of_ne hlt' (by rw [length_cancelAll]; exact hlt) hne, getElem?_cancelAll,
      if_neg hu]

theorem Move.account_of_ne (h : Move program w t b b') (hne : u ≠ t) :
    b'.account u = b.account u := by
  cases h with
  | nothing => rfl
  | goesOn ht hc hp => rw [account_run (lt_of_getElem? ht), if_neg (Ne.symm hne)]
  | dropped ht hc hp => rfl
  | stopped ht hc hn ho hts =>
    rw [account_run (by simpa using lt_of_getElem? ht), if_neg (Ne.symm hne), account_cancelAll]

/-! ### Tasks that there are not -/

theorem Unbegun.step (hb : Unbegun b) (h : Step program b b') : Unbegun b' := by
  cases h with
  | resume w t => exact hb.move (move_resume program w t b)
  | complete w t => exact hb.move (move_complete program w t b)
  | spawn job => exact fun u hle => hb u (Nat.le_trans (grows_of_append rfl).length_le hle)
  | populate c k job =>
    have hs : Step program b (b.populate c k job).2 := .populate c k job b
    exact fun u hu => hb u (Nat.le_trans hs.grows.length_le hu)
  | cancel t =>
    unfold Board.cancel
    split
    · exact hb.cancelAll [t]
    · exact hb
  | invalidate c k => exact hb
  | clear c => exact hb

theorem Reaches.unbegun (h : Reaches program {} b) : Unbegun b := by
  induction h with
  | refl => exact fun _ _ => rfl
  | tail _ hs ih => exact ih.step hs

/-! ### Tasks that keep to themselves -/

/-- The tasks `ts` of a board keep to themselves: no other task waits for them. -/
structure Secluded (ts : List TaskId) (b : Board σ) : Prop where
  orderly : Orderly b
  unbegun : Unbegun b
  nodup : ts.Nodup
  lt : ∀ t ∈ ts, t < b.tasks.length
  ungathered : ∀ (u : Nat) (x : Task σ) (us : List TaskId)
    (next : List σ.Result → Program σ σ.Result), u ∉ ts → b.tasks[u]? = some x →
    x.phase = .gathering us next → ∀ s ∈ us, s ∉ ts

/-- A job that is started makes a task that keeps to itself. -/
theorem secluded_spawn (ho : Orderly b) (hu : Unbegun b) (job : σ.Job) :
    Secluded [b.tasks.length] (b.spawn job).2 where
  orderly := ho.spawn job
  unbegun u hle := hu u (Nat.le_trans (grows_of_append rfl).length_le hle)
  nodup := List.nodup_singleton _
  lt t ht := by
    obtain rfl := List.mem_singleton.1 ht
    simp [Board.spawn]
  ungathered u x us next hnew hx hp s hs he := by
    obtain rfl := List.mem_singleton.1 he
    have ht : (b.spawn job).2.tasks = b.tasks ++ [{ job := job }] := rfl
    rcases getElem?_of_append ht hx with hx | ⟨-, hx⟩
    · exact absurd (ho.gathered u x us next hx hp _ hs).1 (Nat.lt_irrefl _)
    · obtain rfl := List.mem_singleton.1 hx
      simp at hp

theorem Secluded.nodup_append (h : Secluded ts b) (b' : Board σ) :
    (ts ++ newTasks b b').Nodup := by
  refine List.nodup_append.2 ⟨h.nodup, List.nodup_range', fun u hu v hv he => ?_⟩
  subst he
  exact absurd (h.lt u hu) (Nat.not_lt.2 (mem_newTasks.1 hv).1)

/-- **Tasks keep to themselves when they go on**, together with those that they start. -/
theorem Secluded.turn (h : Secluded ts b) (ht : t ∈ ts) (hs : Turn program w t b b') :
    Secluded (ts ++ newTasks b b') b' where
  orderly := h.orderly.step hs.step
  unbegun := h.unbegun.step hs.step
  nodup := h.nodup_append b'
  lt u hu := by
    rcases List.mem_append.1 hu with hu | hu
    · exact Nat.lt_of_lt_of_le (h.lt u hu) hs.step.grows.length_le
    · exact (mem_newTasks.1 hu).2
  ungathered u x us next hu hx hp s hs' hmem := by
    rw [List.mem_append, not_or] at hu
    rcases hs.move.gathers hx hp with ⟨y, hy, hph⟩ | ⟨rfl, -⟩
    · have hlt := (h.orderly.gathered u y us next hy hph s hs').1
      rcases List.mem_append.1 hmem with hmem | hmem
      · exact h.ungathered u y us next hu.1 hy hph s hs' hmem
      · exact absurd (mem_newTasks.1 hmem).1 (Nat.not_le.2 hlt)
    · exact hu.1 ht

/-- **Whatever happens elsewhere**, the tasks stay as they are, and so do their accounts. -/
theorem Secluded.task_of_elsewhere (h : Secluded ts b) (hs : Elsewhere program ts b b')
    (hu : u ∈ ts) : b'.tasks[u]? = b.tasks[u]? ∧ b'.account u = b.account u := by
  have hlt := h.lt u hu
  cases hs with
  | @turn w t b' ht hs =>
    have hne : u ≠ t := fun he => ht (he ▸ hu)
    refine ⟨hs.move.task_of_ne hlt hne fun task us next hx hp hmem => ?_, hs.move.account_of_ne hne⟩
    exact h.ungathered t task us next ht hx hp u hmem hu
  | spawn job => exact ⟨List.getElem?_append_left hlt, rfl⟩
  | populate c k job => exact ⟨List.getElem?_append_left hlt, rfl⟩
  | @cancel t ht =>
    have hne : t ≠ u := fun he => ht (he ▸ hu)
    unfold Board.cancel
    split
    · exact ⟨by rw [getElem?_requestCancel, if_neg hne], rfl⟩
    · exact ⟨rfl, rfl⟩
  | invalidate c k => exact ⟨rfl, rfl⟩
  | clear c => exact ⟨rfl, rfl⟩

/-- Tasks that come elsewhere wait for none of the tasks. -/
theorem Secluded.elsewhere (h : Secluded ts b) (hs : Elsewhere program ts b b') :
    Secluded ts b' where
  orderly := h.orderly.step hs.step
  unbegun := h.unbegun.step hs.step
  nodup := h.nodup
  lt u hu := Nat.lt_of_lt_of_le (h.lt u hu) hs.step.grows.length_le
  ungathered u x us next hu hx hp s hs' hmem := by
    have hlt : ∀ {y : Task σ}, b.tasks[u]? = some y → y.phase = .gathering us next → False :=
      fun hy hph => h.ungathered u _ us next hu hy hph s hs' hmem
    by_cases hul : b.tasks.length ≤ u
    · rw [(hs.step.born hul hx).1] at hp
      cases hp
    · have hy := List.getElem?_eq_getElem (Nat.lt_of_not_le hul)
      rcases hs.step.at_task hy with hx' | hx' | ⟨w, hm⟩
      · obtain rfl := Option.some.inj (hx.symm.trans hx')
        exact hlt hy hp
      · obtain rfl := Option.some.inj (hx.symm.trans hx')
        exact hlt hy (by simpa using hp)
      · rcases hm.gathers hx hp with ⟨y, hy, hph⟩ | ⟨-, hnew⟩
        · exact hlt hy hph
        · exact absurd (h.lt s hmem) (Nat.not_lt.2 (hnew s hs'))

end CachedViews.Board
