import CachedViews.Proofs.PathCache.Bystanders

/-
# What the end of a task does to a cache

A task may end long after others have taken its place. If it succeeds, nothing changes in what is
stored. If it fails, its own entry goes, if it still has one, and nothing else
(`Board.Move.entries_of_error`); so a task that was removed or replaced ends without a trace
(`PathCache.Reached.entries_of_not_stored`). A task that was asked to stop before it had run has
invoked nothing, and leaves what is stored as it is.

Hence there are two ways only in which an entry goes: an action from outside that is about its key
or about all keys (`PathCache.Action.Ousts`), and the failure of its own task.

Key definitions: `PathCache.Ends`, `PathCache.Action.Ousts`, `PathCache.Invoked`,
`PathCache.Reached`.
Key theorems: `Board.Move.entries_of_ok`, `Board.Move.entries_of_error`,
`PathCache.Reached.not_stored_of_ousts`, `PathCache.Reached.removed_by`, `PathCache.late_ends`.
-/

namespace CachedViews

namespace Board

variable {σ : Signature} [DecidableEq σ.Cache] {program : σ.Job → Program σ σ.Result}
  {w : World σ} {t u : Nat} {b b' : Board σ} {task : Task σ} {c : σ.Cache} {k : String}

/-! ### The entry of a task -/

/-- The entries without that of a task, if it is stored where it was started for. -/
def without (b : Board σ) (t : TaskId) : List (Entry σ) :=
  match b.place? t with
  | some (c, k) => if b.stored? c k = some t then erase c k b.entries else b.entries
  | none => b.entries

theorem entries_evict (t : TaskId) (f : Fault) (b : Board σ) :
    (b.evict t f).entries = b.without t := by
  unfold without
  rcases hp : b.place? t with _ | ⟨c, k⟩
  · rw [evict_of_no_place hp]
  · rw [evict_of_place hp]
    dsimp only
    split
    · rfl
    · rfl

theorem without_of_stored (hb : Orderly b) (hs : b.stored? c k = some t) :
    b.without t = erase c k b.entries := by
  unfold without
  rw [hb.stored c k t hs]
  exact if_pos hs

theorem without_of_not_stored (hn : ∀ c k, b.stored? c k ≠ some t) : b.without t = b.entries := by
  unfold without
  rcases b.place? t with _ | ⟨c, k⟩
  · rfl
  · exact if_neg (hn c k)

theorem without_cancelAll (ts : List TaskId) (t : TaskId) (b : Board σ) :
    (ts.foldl requestCancel b).without t = b.without t := by
  have hplace : (ts.foldl requestCancel b).place? t = b.place? t := by
    unfold place?
    rw [getElem?_cancelAll]
    split
    · cases b.tasks[t]? with
      | none => rfl
      | some task => exact task.asked_place
    · rfl
  unfold without
  rw [hplace, entries_cancelAll]
  simp only [stored?_cancelAll]

/-! ### The step in which a task ends -/

/-- A task ends by its own move. -/
theorem Step.move_of_ended {o : Except Fault σ.Result} (h : Step program b b')
    (ho : b.outcome? t = none) (ho' : b'.outcome? t = some o) : ∃ w, Move program w t b b' := by
  obtain ⟨x, hx, hxo⟩ := outcome?_eq_some.1 ho'
  by_cases hlt : t < b.tasks.length
  · have hy := List.getElem?_eq_getElem hlt
    rw [outcome?_eq hy] at ho
    rcases h.at_task hy with he | he | hm
    · obtain rfl := Option.some.inj (hx.symm.trans he)
      simp [hxo, Phase.outcome?] at ho
    · obtain rfl := Option.some.inj (hx.symm.trans he)
      rw [Task.asked_phase] at hxo
      simp [hxo, Phase.outcome?] at ho
    · exact hm
  · rw [(h.born (Nat.le_of_not_lt hlt) hx).1] at hxo
    cases hxo

theorem Move.entries_of_ok {r : σ.Result} (h : Move program w t b b')
    (ho' : b'.outcome? t = some (.ok r)) : b'.entries = b.entries := by
  cases h with
  | nothing => rfl
  | goesOn ht hc hp =>
    rw [outcome?_run_self ht] at ho'
    rw [entries_run (lt_of_getElem? ht), eq_ended_of_outcome? ho']
    rfl
  | dropped ht hc hp => rfl
  | @stopped task ts ht hc hn hto hts =>
    obtain ⟨x, hx, -⟩ := getElem?_stopped ht ts
    rw [outcome?_run_self hx] at ho'
    cases ho'

/-- A task was asked to stop before it had run. -/
def Unrun (b : Board σ) (t : TaskId) : Prop :=
  ∃ task, b.tasks[t]? = some task ∧ task.phase = .fresh ∧ task.cancelRequested = true

/-- A task that fails takes its own entry with it, unless it was asked to stop before it had run. -/
theorem Move.entries_of_error {f : Fault} (h : Move program w t b b') (hu : ¬b.Unrun t)
    (ho : b.outcome? t = none) (ho' : b'.outcome? t = some (.error f)) :
    b'.entries = b.without t := by
  cases h with
  | nothing => simp [ho] at ho'
  | goesOn ht hc hp =>
    rw [outcome?_run_self ht] at ho'
    rw [entries_run (lt_of_getElem? ht), eq_ended_of_outcome? ho']
    exact entries_evict t f b
  | dropped ht hc hp => exact absurd ⟨_, ht, hp, hc⟩ hu
  | @stopped task ts ht hc hn hto hts =>
    have hlt : t < (ts.foldl requestCancel b).tasks.length := by
      rw [length_cancelAll]
      exact lt_of_getElem? ht
    rw [entries_run hlt, ← without_cancelAll ts t b]
    exact entries_evict t .cancelled _

theorem Move.of_unrun (h : Move program w t b b') (hu : b.Unrun t) :
    b'.entries = b.entries ∧ b'.journal = b.journal := by
  obtain ⟨x, hx, hf, hc⟩ := hu
  cases h with
  | nothing => exact ⟨rfl, rfl⟩
  | goesOn ht hc' hp =>
    obtain rfl := Option.some.inj (hx.symm.trans ht)
    simp [hc] at hc'
  | dropped ht hc' hp => exact ⟨rfl, rfl⟩
  | stopped ht hc' hn hto hts =>
    obtain rfl := Option.some.inj (hx.symm.trans ht)
    exact absurd hf hn

/-- An entry goes in a move only if its own task fails. -/
theorem Move.failed_of_gone {u : Nat} (h : Move program w u b b')
    (hs : b.stored? c k = some t) (hn : b'.stored? c k ≠ some t) :
    b.outcome? t = none ∧ ∃ f, b'.outcome? t = some (.error f) := by
  cases h with
  | nothing => exact absurd hs hn
  | @goesOn task p ht hc hp =>
    have hrun := stored?_run (w := w) (p := p) (lt_of_getElem? ht) c k
    cases hh : halt w b p with
    | ended o =>
      cases o with
      | ok r => exact absurd ((hrun.trans (by rw [hh])).trans hs) hn
      | error f =>
        rw [hh] at hrun
        dsimp only at hrun
        split at hrun
        · -- the task that failed is the one that was stored
          rename_i hgone
          obtain rfl : t = u := Option.some.inj (hs.symm.trans hgone.2)
          refine ⟨(outcome?_eq ht).trans hp.not_ended, f, ?_⟩
          rw [outcome?_run_self ht, hh]
          rfl
        · exact absurd (hrun.trans hs) hn
    | storing c' k' job next =>
      rw [hh] at hrun
      dsimp only at hrun
      split at hrun
      · rename_i hsame
        obtain ⟨rfl, rfl⟩ := hsame
        rw [stored?_of_storing hh] at hs
        cases hs
      · exact absurd (hrun.trans hs) hn
    | performing op next => exact absurd ((hrun.trans (by rw [hh])).trans hs) hn
    | joining s next => exact absurd ((hrun.trans (by rw [hh])).trans hs) hn
    | gathering jobs next => exact absurd ((hrun.trans (by rw [hh])).trans hs) hn
  | dropped ht hc hp => exact absurd hs hn
  | @stopped task ts ht hc hf hto hts =>
    obtain ⟨x, hx, hph, -⟩ := getElem?_stopped ht ts
    have hrun := stored?_run (w := w) (p := .done (.error .cancelled)) (lt_of_getElem? hx) c k
    rw [stored?_cancelAll] at hrun
    simp only [halt] at hrun
    split at hrun
    · rename_i hgone
      obtain rfl : t = u := Option.some.inj (hs.symm.trans hgone.2)
      refine ⟨(outcome?_eq ht).trans hto, .cancelled, ?_⟩
      rw [outcome?_run_self hx]
      rfl
    · exact absurd (hrun.trans hs) hn

/-! ### Notes -/

theorem Move.noteCount_le (h : Move program w u b b') (t : TaskId) :
    noteCount t b.journal ≤ noteCount t b'.journal := by
  cases h with
  | nothing => exact Nat.le_refl _
  | goesOn ht hc hp =>
    rw [noteCount_run (lt_of_getElem? ht)]
    omega
  | dropped ht hc hp => exact Nat.le_refl _
  | @stopped task ts ht hc hn hto hts =>
    obtain ⟨x, hx, -⟩ := getElem?_stopped ht ts
    rw [noteCount_run (lt_of_getElem? hx), journal_cancelAll]
    omega

theorem Step.noteCount_le (h : Step program b b') (t : TaskId) :
    noteCount t b.journal ≤ noteCount t b'.journal := by
  cases h with
  | resume w u => exact (move_resume program w u b).noteCount_le t
  | complete w u => exact (move_complete program w u b).noteCount_le t
  | spawn job => exact Nat.le_refl _
  | populate c k job => exact Nat.le_refl _
  | cancel u =>
    unfold Board.cancel
    split
    · exact Nat.le_refl _
    · exact Nat.le_refl _
  | invalidate c k => exact Nat.le_refl _
  | clear c => exact Nat.le_refl _

end Board

namespace PathCache

variable {ρ : Type} {cwd : String} {b b' : Cache ρ} {t u : Nat} {w : World (signature ρ)}
  {task : Task (signature ρ)} {k : String}

/-! ### Invocations -/

/-- The computations of shared tasks that wait were invoked. -/
def Invoked (b : Cache ρ) : Prop :=
  ∀ (t : Nat) (task : Task (signature ρ)) (compute : Compute ρ), b.tasks[t]? = some task →
    task.job = .shared compute → task.phase ≠ .fresh → task.phase.outcome? = none →
    0 < invocations t b

theorem invoked_empty : Invoked ({} : Cache ρ) := fun t task compute h => by simp at h

/-- A shared task that goes on has invoked its computation then. -/
theorem Invoked.run (hb : Invoked b) (ht : b.tasks[t]? = some task) {compute : Compute ρ}
    (hj : task.job = .shared compute) {p : Program (signature ρ) (signature ρ).Result}
    (hp : Board.GoesOn (program cwd) w b task p) : 0 < invocations t (Board.run w t p b) := by
  show 0 < Board.noteCount t (Board.run w t p b).journal
  rw [Board.noteCount_run (Board.lt_of_getElem? ht)]
  by_cases hf : task.phase = .fresh
  · have hnoted : 0 < Board.noteCount t (Board.trace w t b p) := by
      cases hp with
      | first h =>
        have htrace : Board.trace w t b (program cwd task.job) =
            Board.trace w t b compute.course.program ++ [.noted t compute.name] := by
          rw [hj]
          rfl
        rw [htrace, Board.noteCount_append]
        simp [Board.noteCount, Event.isNoteOf]
      | answered h => simp [hf] at h
      | joined h ho => simp [hf] at h
      | joinFailed h ho => simp [hf] at h
      | gathered h hr => simp [hf] at h
      | gatherFailed h hr => simp [hf] at h
    omega
  · have := hb t task compute ht hj hf hp.not_ended
    unfold invocations at this
    omega

theorem Invoked.step (hb : Invoked b) (h : Board.Step (program cwd) b b') : Invoked b' := by
  intro t x compute hx hj hf ho
  by_cases hlt : t < b.tasks.length
  · have hy := List.getElem?_eq_getElem hlt
    have hkeep : ∀ y : Task (signature ρ), b.tasks[t]? = some y → y.job = x.job →
        y.phase = x.phase → 0 < invocations t b' := fun y hy hyj hyp =>
      Nat.lt_of_lt_of_le
        (hb t y compute hy (hyj.trans hj) (hyp ▸ hf) (hyp ▸ ho)) (h.noteCount_le t)
    rcases h.at_task hy with he | he | ⟨w, hm⟩
    · obtain rfl := Option.some.inj (hx.symm.trans he)
      exact hkeep _ hy rfl rfl
    · obtain rfl := Option.some.inj (hx.symm.trans he)
      exact hkeep _ hy (Task.asked_job _).symm (Task.asked_phase _).symm
    · cases hm with
      | nothing => exact hkeep x hx rfl rfl
      | @goesOn y p hz hc hp =>
        rw [Board.getElem?_run_self hz] at hx
        obtain rfl := Option.some.inj hx
        exact hb.run hz hj hp
      | dropped hz hc hp =>
        rw [Board.getElem?_setPhase, if_pos rfl, hz] at hx
        obtain rfl := Option.some.inj hx
        cases ho
      | stopped hz hc hn hto hts =>
        obtain ⟨y, hy', -⟩ := Board.getElem?_stopped hz _
        rw [Board.getElem?_run_self hy'] at hx
        obtain rfl := Option.some.inj hx
        cases ho
  · exact absurd (h.born (Nat.le_of_not_lt hlt) hx).1 hf

/-! ### One action -/

/-- The task ends with the outcome in the action. -/
def Ends (cwd : String) (b : Cache ρ) (a : Action ρ) (t : TaskId)
    (o : Except Fault (signature ρ).Result) : Prop :=
  b.outcome? t = none ∧ Board.outcome? (a.act cwd b) t = some o

/-- An action from outside that removes what is stored under a key or replaces it. -/
inductive Action.Ousts (cwd : String) (k : String) : Action ρ → Prop
  | invalidate {key : Value} (h : keyOf cwd key = .ok k) : Ousts cwd k (.invalidate key)
  | clear : Ousts cwd k .clear
  | populate {key : Value} (compute : Compute ρ) (h : keyOf cwd key = .ok k) :
      Ousts cwd k (.populate key compute)

variable {a : Action ρ} {o : Except Fault (signature ρ).Result}

theorem Ends.move (h : Ends cwd b a t o) : ∃ w, Board.Move (program cwd) w t b (a.act cwd b) := by
  rcases step_act cwd b a with he | hs
  · have hsame := h.2
    rw [he, h.1] at hsame
    cases hsame
  · exact hs.move_of_ended h.1 h.2

theorem entries_of_ok {r : ρ} (h : Ends cwd b a t (.ok r)) : (a.act cwd b).entries = b.entries := by
  obtain ⟨w, hm⟩ := h.move
  exact hm.entries_of_ok h.2

/-- What holds of every cache that a run comes to. -/
structure Reached (cwd : String) (b : Cache ρ) : Prop where
  orderly : Board.Orderly b
  standings : Standings b
  unplaced : Unplaced b
  invoked : Invoked b
  budgeted : Board.Budgeted (program cwd) limit b

theorem reached_empty : Reached cwd ({} : Cache ρ) :=
  ⟨Board.orderly_empty, standings_empty, unplaced_empty, invoked_empty, budgeted_empty⟩

theorem Reached.after (hb : Reached cwd b) (as : List (Action ρ)) :
    Reached cwd (after cwd b as) where
  orderly := orderly_after cwd hb.orderly as
  standings := standings_after cwd hb.standings as
  unplaced := hb.unplaced.after hb.standings as
  invoked := keeps_after (fun _ _ hs hb => hb.step hs) hb.invoked as
  budgeted := budgeted_after hb.budgeted as

/-- What is stored is a shared computation. -/
theorem Reached.shared_of_stored (hb : Reached cwd b) (hs : b.stored? paths k = some t) :
    ∃ task compute, b.tasks[t]? = some task ∧ task.job = .shared compute := by
  obtain ⟨task, ht⟩ : ∃ task, b.tasks[t]? = some task :=
    ⟨_, List.getElem?_eq_getElem (hb.orderly.lt hs)⟩
  have hplace := (Board.place?_eq ht).symm.trans (hb.orderly.stored paths k t hs)
  cases hj : task.job with
  | shared compute => exact ⟨task, compute, ht, hj⟩
  | request key compute cached =>
    rw [hb.unplaced t task key compute cached ht hj] at hplace
    cases hplace

/-- A stored task that fails has invoked its computation, unless it was asked to stop before it
had run. -/
theorem Reached.invoked_of_move (hb : Reached cwd b) (hs : b.stored? paths k = some t)
    (hm : Board.Move (program cwd) w t b b') (hu : ¬b.Unrun t) (ho : b.outcome? t = none)
    (ho' : b'.outcome? t ≠ none) : 0 < invocations t b' := by
  obtain ⟨task, compute, ht, hj⟩ := hb.shared_of_stored hs
  cases hm with
  | nothing => exact absurd ho ho'
  | goesOn hx hc hp =>
    obtain rfl := Option.some.inj (ht.symm.trans hx)
    exact hb.invoked.run ht hj hp
  | dropped hx hc hp => exact absurd ⟨_, hx, hp, hc⟩ hu
  | stopped hx hc hn hto hts =>
    have hmove : Board.Move (program cwd) w t b _ := .stopped hx hc hn hto hts
    obtain rfl := Option.some.inj (ht.symm.trans hx)
    exact Nat.lt_of_lt_of_le (hb.invoked t task compute ht hj hn hto) (hmove.noteCount_le t)

/-- **A failure.** A task whose computation fails removes its own entry exactly, if it still has
one; otherwise nothing changes in what is stored. -/
theorem Reached.entries_of_error (hb : Reached cwd b) {f : Fault} (h : Ends cwd b a t (.error f)) :
    (∃ k, b.stored? paths k = some t ∧ 0 < invocations t (a.act cwd b) ∧
      (a.act cwd b).entries = Board.erase paths k b.entries) ∨
    (a.act cwd b).entries = b.entries ∧
      ∀ k, b.stored? paths k = some t → invocations t (a.act cwd b) = 0 := by
  obtain ⟨w, hm⟩ := h.move
  obtain ⟨ho, ho'⟩ := h
  by_cases hu : b.Unrun t
  · obtain ⟨he, hjournal⟩ := hm.of_unrun hu
    obtain ⟨task, ht, hf, -⟩ := hu
    refine .inr ⟨he, fun k hs => ?_⟩
    unfold invocations
    rw [hjournal]
    exact invocations_fresh hb.budgeted ht hf
  · have he := hm.entries_of_error hu ho ho'
    by_cases hs : ∃ k, b.stored? paths k = some t
    · obtain ⟨k, hs⟩ := hs
      refine .inl ⟨k, hs, hb.invoked_of_move hs hm hu ho (by simp [ho']), ?_⟩
      exact he.trans (Board.without_of_stored hb.orderly hs)
    · have hn : ∀ c k, b.stored? c k ≠ some t := fun c k hk => hs ⟨k, hk⟩
      exact .inr ⟨he.trans (Board.without_of_not_stored hn), fun k hk => absurd hk (hn paths k)⟩

/-- A task that is stored under no key ends without a trace in what is stored. -/
theorem Reached.entries_of_not_stored (hb : Reached cwd b)
    (hn : ∀ k, b.stored? paths k ≠ some t) (h : Ends cwd b a t o) :
    (a.act cwd b).entries = b.entries := by
  cases o with
  | ok r => exact entries_of_ok h
  | error f =>
    rcases hb.entries_of_error h with ⟨k, hs, -⟩ | ⟨he, -⟩
    · exact absurd hs (hn k)
    · exact he

/-! ### How entries go -/

theorem stored?_invalidate {key : Value} (h : keyOf cwd key = .ok k) (b : Cache ρ) (k' : String) :
    ((Action.invalidate key).act cwd b).stored? paths k' =
      if k = k' then none else b.stored? paths k' := by
  have hact : (Action.invalidate key).act cwd b = (Board.invalidate paths k b).2 := by
    simp only [Action.act, PathCache.invalidate, h]
    rfl
  rw [hact]
  refine (Board.stored?_invalidate paths k b paths k').trans ?_
  simp only [true_and]

theorem stored?_populate {key : Value} (h : keyOf cwd key = .ok k) (compute : Compute ρ)
    (b : Cache ρ) (k' : String) : ((Action.populate key compute).act cwd b).stored? paths k' =
      if k = k' then some b.tasks.length else b.stored? paths k' := by
  have hact : (Action.populate key compute).act cwd b =
      (Board.populate paths k (Job.shared compute) b).2 := by
    simp only [Action.act, PathCache.populate, h]
    rfl
  rw [hact]
  refine (Board.stored?_populate paths k (Job.shared compute) b paths k').trans ?_
  simp only [true_and]

/-- What is removed or replaced from outside is stored under no key. -/
theorem Reached.not_stored_of_ousts (hb : Reached cwd b) (hs : b.stored? paths k = some t)
    (ha : a.Ousts cwd k) (k' : String) : (a.act cwd b).stored? paths k' ≠ some t := by
  intro hs'
  -- it was stored under its own key only
  have hkey : b.stored? paths k' = some t → k = k' := by
    intro h
    have hplace := (hb.orderly.stored paths k t hs).symm.trans (hb.orderly.stored paths k' t h)
    exact (Prod.mk.inj (Option.some.inj hplace)).2
  cases ha with
  | invalidate hk =>
    rw [stored?_invalidate hk] at hs'
    split at hs'
    · cases hs'
    · exact absurd (hkey hs') ‹_›
  | clear =>
    have hcleared := Board.stored?_clear paths b paths k'
    rw [if_pos rfl] at hcleared
    cases hcleared.symm.trans hs'
  | populate compute hk =>
    rw [stored?_populate hk] at hs'
    split at hs'
    · have hlt := hb.orderly.lt hs
      have hnew : b.tasks.length = t := Option.some.inj hs'
      omega
    · exact absurd (hkey hs') ‹_›

theorem Reached.failed_of_move (hb : Reached cwd b) (hs : b.stored? paths k = some t)
    (hn : (a.act cwd b).stored? paths k ≠ some t)
    (hm : Board.Move (program cwd) w u b (a.act cwd b)) :
    ∃ f, Ends cwd b a t (.error f) ∧ 0 < invocations t (a.act cwd b) := by
  obtain ⟨ho, f, ho'⟩ := hm.failed_of_gone hs hn
  refine ⟨f, ⟨ho, ho'⟩, ?_⟩
  rcases hb.entries_of_error ⟨ho, ho'⟩ with ⟨-, -, hinvoked, -⟩ | ⟨he, -⟩
  · exact hinvoked
  · exact absurd ((Board.stored?_congr he paths k).trans hs) hn

/-- **One action.** An entry goes because its key is removed or replaced from outside, or because
its own computation fails. -/
theorem Reached.removed_by (hb : Reached cwd b) (hs : b.stored? paths k = some t)
    (hn : (a.act cwd b).stored? paths k ≠ some t) :
    a.Ousts cwd k ∨ ∃ f, Ends cwd b a t (.error f) ∧ 0 < invocations t (a.act cwd b) := by
  cases a with
  | get key compute cached => exact absurd hs hn
  | populate key compute =>
    cases hk : keyOf cwd key with
    | error f =>
      simp only [Action.act, PathCache.populate, hk] at hn
      exact absurd hs hn
    | ok k' =>
      rw [stored?_populate hk] at hn
      by_cases h : k' = k
      · exact .inl (.populate compute (h ▸ hk))
      · rw [if_neg h] at hn
        exact absurd hs hn
  | invalidate key =>
    cases hk : keyOf cwd key with
    | error f =>
      simp only [Action.act, PathCache.invalidate, hk] at hn
      exact absurd hs hn
    | ok k' =>
      rw [stored?_invalidate hk] at hn
      by_cases h : k' = k
      · exact .inl (.invalidate (h ▸ hk))
      · rw [if_neg h] at hn
        exact absurd hs hn
  | clear => exact .inl .clear
  | cancel u =>
    simp only [Action.act, Board.cancel] at hn
    split at hn
    · exact absurd ((Board.stored?_cancelAll [u] b paths k).trans hs) hn
    · exact absurd hs hn
  | resume u => exact .inr (hb.failed_of_move hs hn (Board.move_resume _ _ u b))
  | openGate outcome u => exact .inr (hb.failed_of_move hs hn (Board.move_complete _ _ u b))

/-- **A run.** By induction on the actions: the first one after which the task is not stored under
the key removed it. -/
theorem Reached.removed_in (hb : Reached cwd b) (hs : b.stored? paths k = some t)
    (future : List (Action ρ)) (hn : (PathCache.after cwd b future).stored? paths k ≠ some t) :
    ∃ before a behind, future = before ++ a :: behind ∧
      (PathCache.after cwd b before).stored? paths k = some t ∧
      (a.Ousts cwd k ∨ ∃ f, Ends cwd (PathCache.after cwd b before) a t (.error f) ∧
        0 < invocations t (a.act cwd (PathCache.after cwd b before))) := by
  induction future generalizing b with
  | nil => exact absurd hs hn
  | cons a future ih =>
    by_cases hs' : (a.act cwd b).stored? paths k = some t
    · obtain ⟨before, a', behind, rfl, hstored, hby⟩ := ih (hb.after [a]) hs' hn
      exact ⟨a :: before, a', behind, rfl, hstored, hby⟩
    · exact ⟨[], a, future, rfl, hs, hb.removed_by hs hs'⟩

/-! ### Late ends -/

/-- **Late ends touch their own entry only.** In every state that a run comes to, a task that
succeeds changes nothing in what is stored; and one that fails changes something only if it is the
one that is stored under its key and its computation was invoked, and then exactly this entry goes.
A task that was removed or replaced from outside is stored no more, whatever happens then, and
ends without a trace. An entry goes in one of these ways only: its key is removed, the cache is
cleared, another task is stored under its key, or its own computation fails. -/
theorem late_ends (cwd : String) (past : List (Action ρ)) :
    let b := after cwd ({} : Cache ρ) past
    (∀ (a : Action ρ) (t : Nat) (r : ρ), Ends cwd b a t (.ok r) →
      (a.act cwd b).entries = b.entries) ∧
    (∀ (a : Action ρ) (t : Nat) (f : Fault), Ends cwd b a t (.error f) →
      (∃ k, b.stored? paths k = some t ∧ 0 < invocations t (a.act cwd b) ∧
        (a.act cwd b).entries = Board.erase paths k b.entries) ∨
      (a.act cwd b).entries = b.entries ∧
        ∀ k, b.stored? paths k = some t → invocations t (a.act cwd b) = 0) ∧
    (∀ (k : String) (t : Nat) (a : Action ρ), b.stored? paths k = some t → a.Ousts cwd k →
      ∀ future, let b₁ := after cwd (a.act cwd b) future
        (∀ k', b₁.stored? paths k' ≠ some t) ∧
        ∀ a' o, Ends cwd b₁ a' t o → (a'.act cwd b₁).entries = b₁.entries) ∧
    ∀ (k : String) (t : Nat) (future : List (Action ρ)), b.stored? paths k = some t →
      (after cwd b future).stored? paths k ≠ some t →
      ∃ before a behind, future = before ++ a :: behind ∧
        let b₁ := after cwd b before
        b₁.stored? paths k = some t ∧
          (a.Ousts cwd k ∨ ∃ f, Ends cwd b₁ a t (.error f) ∧ 0 < invocations t (a.act cwd b₁)) := by
  intro b
  have hb : Reached cwd b := reached_empty.after past
  refine ⟨fun a t r h => entries_of_ok h, fun a t f h => hb.entries_of_error h,
    fun k t a hs ha future => ?_, fun k t future hs hn => hb.removed_in hs future hn⟩
  have hlt : t < (a.act cwd b).tasks.length :=
    Nat.lt_of_lt_of_le (hb.orderly.lt hs) (grows_after cwd b [a]).length_le
  have hn := not_stored_after cwd (hb.after [a]).orderly hlt (hb.not_stored_of_ousts hs ha) future
  exact ⟨hn, fun a' o h => ((hb.after [a]).after future).entries_of_not_stored hn h⟩

/-- A computation fails while its entry is stored, and while another one was stored in its place:
once its entry goes, and once the newer entry stays. -/
theorem late_ends_replaced :
    let compute : Compute Nat := .gated "g"
    let b := after "/" ({} : Cache Nat) [.populate (.str "k") compute, .resume 0]
    let fails : Action Nat := .openGate (.error .divisionByZero) 0
    let b₁ := after "/" (Action.act "/" b (.populate (.str "k") compute)) []
    (Ends "/" b fails 0 (.error .divisionByZero) ∧
      ∃ k, b.stored? paths k = some 0 ∧ 0 < invocations 0 (fails.act "/" b) ∧
        (fails.act "/" b).entries = Board.erase paths k b.entries) ∧
    (Ends "/" b₁ fails 0 (.error .divisionByZero) ∧ b₁.stored? paths "/k" = some 1 ∧
      (fails.act "/" b₁).entries = b₁.entries) ∧
    ∃ before a behind, [fails] = before ++ a :: behind ∧
      let b₂ := after "/" b before
      b₂.stored? paths "/k" = some 0 ∧
        (a.Ousts "/" "/k" ∨
          ∃ f, Ends "/" b₂ a 0 (.error f) ∧ 0 < invocations 0 (a.act "/" b₂)) := by
  intro compute b fails b₁
  obtain ⟨-, hfails, hlate, hgone⟩ :=
    late_ends "/" [.populate (.str "k") compute, .resume 0]
  have hstored : b.stored? paths "/k" = some 0 := rfl
  have hends : Ends "/" b fails 0 (.error .divisionByZero) := ⟨rfl, rfl⟩
  have hends₁ : Ends "/" b₁ fails 0 (.error .divisionByZero) := ⟨rfl, rfl⟩
  have hreplaced : (Action.populate (.str "k") compute).Ousts "/" "/k" := .populate compute rfl
  refine ⟨⟨hends, ?_⟩, ⟨hends₁, rfl, ?_⟩, hgone "/k" 0 [fails] hstored (by decide)⟩
  · rcases hfails fails 0 _ hends with h | ⟨-, h⟩
    · exact h
    · exact absurd (h "/k" hstored) (by decide)
  · exact (hlate "/k" 0 _ hstored hreplaced []).2 fails _ hends₁

end PathCache

end CachedViews
