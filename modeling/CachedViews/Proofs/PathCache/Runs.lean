import CachedViews.Proofs.Task.Failures
import CachedViews.Proofs.Task.Notes
import CachedViews.PathCache

/-
# Runs of a path cache

A run of a path cache is a list of actions: requests and other calls from outside,
and the steps of the tasks, in any order. Each action is one step of the board or
changes nothing, so what holds of all steps of boards holds of all runs.

The tasks of a path cache have few shapes (`PathCache.Standing`): a request with
caching waits for the task that is stored and for nothing else, all other tasks
follow their courses, and none starts tasks of its own. So a task is asked to stop
by name only.

Key definitions: `PathCache.Action`, `PathCache.after`, `PathCache.invocations`,
`PathCache.Standing`.
Key theorems: `PathCache.step_act`, `PathCache.keeps_after`,
`PathCache.standings_after`, `PathCache.invocations_le`,
`PathCache.wasAsked_after`.
-/

namespace CachedViews.PathCache

/-- What may happen to a cache. -/
inductive Action (ρ : Type) where
  | get (key : Value) (compute : Compute ρ) (cached : Bool)
  | populate (key : Value) (compute : Compute ρ)
  | invalidate (key : Value)
  | clear
  | cancel (task : TaskId)
  /-- A task goes on, if it can. -/
  | resume (task : TaskId)
  /-- What a task waits for ends. -/
  | openGate (outcome : Except Fault ρ) (task : TaskId)

variable {ρ : Type}

/-- The cache after an action. A key that is no path changes nothing. -/
def Action.act (cwd : String) (b : Cache ρ) : Action ρ → Cache ρ
  | .get key compute cached => (PathCache.get key compute cached b).2
  | .populate key compute =>
    match PathCache.populate cwd key compute b with
    | .ok (_, b') => b'
    | .error _ => b
  | .invalidate key =>
    match PathCache.invalidate cwd key b with
    | .ok (_, b') => b'
    | .error _ => b
  | .clear => PathCache.clear b
  | .cancel t => (Board.cancel t b).2
  | .resume t => PathCache.resume cwd t b
  | .openGate outcome t => PathCache.openGate outcome t b

/-- The cache after a list of actions. -/
def after (cwd : String) (b : Cache ρ) (actions : List (Action ρ)) : Cache ρ :=
  actions.foldl (Action.act cwd) b

/-- The one cache of the board. -/
def paths : (signature ρ).Cache := ()

/-- How often a task has invoked its computation. -/
def invocations (t : TaskId) (b : Cache ρ) : Nat := Board.noteCount t b.journal

/-- Was a task asked to stop? -/
def wasAsked (t : TaskId) (b : Cache ρ) : Prop :=
  ∃ task, b.tasks[t]? = some task ∧ task.cancelRequested = true

/-- How far a task of a cache may have come. -/
inductive Standing : Job ρ → Phase (signature ρ) → Prop
  | fresh (job : Job ρ) : Standing job .fresh
  | waiting (job : Job ρ) (op : Op ρ) (next : Except Fault ρ → Course ρ)
      (h : ∀ key compute, job ≠ .request key compute true) :
      Standing job (.performing op fun o => (next o).program)
  | joined (key : Value) (compute : Compute ρ) (s : TaskId) :
      Standing (.request key compute true) (.joining s fun r => .done (.ok r))
  | ended (job : Job ρ) (o : Except Fault ρ) : Standing job (.ended o)

variable {cwd : String} {b b' : Cache ρ} {t u s : Nat} {w : World (signature ρ)}
  {task : Task (signature ρ)}

/-! ### Actions are steps -/

theorem step_act (cwd : String) (b : Cache ρ) (a : Action ρ) :
    a.act cwd b = b ∨ Board.Step (program cwd) b (a.act cwd b) := by
  cases a with
  | get key compute cached => exact .inr (.spawn _ b)
  | populate key compute =>
    simp only [Action.act, PathCache.populate]
    cases keyOf cwd key with
    | error f => exact .inl rfl
    | ok k => exact .inr (.populate _ k _ b)
  | invalidate key =>
    simp only [Action.act, PathCache.invalidate]
    cases keyOf cwd key with
    | error f => exact .inl rfl
    | ok k => exact .inr (.invalidate _ k b)
  | clear => exact .inr (.clear _ b)
  | cancel t => exact .inr (.cancel t b)
  | resume t => exact .inr (.resume _ t b)
  | openGate outcome t => exact .inr (.complete _ t b)

theorem after_cons (cwd : String) (b : Cache ρ) (a : Action ρ) (as : List (Action ρ)) :
    after cwd b (a :: as) = after cwd (a.act cwd b) as := rfl

theorem after_append (cwd : String) (b : Cache ρ) (as bs : List (Action ρ)) :
    after cwd b (as ++ bs) = after cwd (after cwd b as) bs :=
  List.foldl_append

/-- What every step keeps, a run keeps. -/
theorem keeps_after {P : Cache ρ → Prop} (h : ∀ b b', Board.Step (program cwd) b b' → P b → P b')
    (hb : P b) (as : List (Action ρ)) : P (after cwd b as) := by
  induction as generalizing b with
  | nil => exact hb
  | cons a as ih =>
    rcases step_act cwd b a with he | hs
    · rw [after_cons, he]
      exact ih hb
    · exact ih (h _ _ hs hb)

theorem grows_after (cwd : String) (b : Cache ρ) (as : List (Action ρ)) :
    Board.Grows b (after cwd b as) :=
  keeps_after (P := Board.Grows b) (fun _ _ hs h => h.trans hs.grows) (.refl b) as

theorem orderly_after (cwd : String) (hb : Board.Orderly b) (as : List (Action ρ)) :
    Board.Orderly (after cwd b as) :=
  keeps_after (fun _ _ hs h => h.step hs) hb as

/-! ### The program of a request -/

theorem program_request {key : Value} {k : String} (h : keyOf cwd key = .ok k)
    (compute : Compute ρ) : program cwd (.request key compute true) =
      .lookup paths k (.shared compute) fun r => .done (.ok r) := by
  unfold keyOf at h
  simp only [program]
  cases hk : key.asPath with
  | error f => simp [hk, Except.map] at h
  | ok path =>
    obtain rfl : Path.absolute cwd path = k := by simpa [hk, Except.map] using h
    rfl

theorem program_request_error {key : Value} {f : Fault} (h : keyOf cwd key = .error f)
    (compute : Compute ρ) : program cwd (.request key compute true) = .done (.error f) := by
  unfold keyOf at h
  simp only [program]
  cases hk : key.asPath with
  | error f' =>
    obtain rfl : f' = f := by simpa [hk, Except.map] using h
    rfl
  | ok path => simp [hk, Except.map] at h

/-- Where a request with caching stops when it runs. -/
theorem halt_request {key : Value} {k : String} (h : keyOf cwd key = .ok k) (compute : Compute ρ)
    (w : World (signature ρ)) (b : Cache ρ) :
    Board.halt w b (program cwd (.request key compute true)) =
      match b.stored? paths k with
      | none => .storing paths k (.shared compute) fun r => .done (.ok r)
      | some s =>
        match b.outcome? s with
        | none => .joining s fun r => .done (.ok r)
        | some o => .ended o := by
  rw [program_request h]
  refine (Board.halt_lookup w b paths k _ _).trans ?_
  cases b.stored? paths k with
  | none => rfl
  | some s =>
    simp only
    rcases b.outcome? s with _ | (f | r)
    · rfl
    · rfl
    · rfl

/-! ### The shapes of tasks -/

theorem standing_course (w : World (signature ρ)) (b : Cache ρ) (job : Job ρ) (n : Nat)
    (h : ∀ key compute, job ≠ .request key compute true) (c : Course ρ) :
    Standing job ((Board.halt w b c.program).phase n) := by
  cases c with
  | ended o => exact .ended job o
  | waiting op next => exact .waiting job op next h

theorem standing_request (cwd : String) (w : World (signature ρ)) (b : Cache ρ) (key : Value)
    (compute : Compute ρ) (n : Nat) : Standing (.request key compute true)
      ((Board.halt w b (program cwd (.request key compute true))).phase n) := by
  cases hk : keyOf cwd key with
  | error f =>
    rw [program_request_error hk]
    exact .ended _ _
  | ok k =>
    rw [halt_request hk]
    split
    · exact .joined key compute n
    · split
      · exact .joined key compute _
      · exact .ended _ _

/-- A task that goes on keeps to its shapes. -/
theorem standing_goesOn {p : Program (signature ρ) ρ} (hs : Standing task.job task.phase)
    (hp : Board.GoesOn (program cwd) w b task p) (n : Nat) :
    Standing task.job ((Board.halt w b p).phase n) := by
  obtain ⟨job, place, phase, asked⟩ := task
  simp only at hs ⊢
  cases hp with
  | first h =>
    match job with
    | .shared compute => exact standing_course w b _ n (by simp) compute.course
    | .request key compute false => exact standing_course w b _ n (by simp) compute.course
    | .request key compute true => exact standing_request cwd w b key compute n
  | answered h =>
    obtain rfl : phase = _ := h
    cases hs with
    | waiting _ op next hj => exact standing_course w b _ n hj (next _)
  | joined h ho =>
    obtain rfl : phase = _ := h
    cases hs with
    | joined key compute s => exact .ended _ _
  | joinFailed h ho => exact .ended _ _
  | gathered h hr =>
    obtain rfl : phase = _ := h
    cases hs
  | gatherFailed h hf => exact .ended _ _

theorem Standing.ne_gathering {job : Job ρ} {ph : Phase (signature ρ)} (h : Standing job ph)
    (ts : List Nat) (next : List ρ → Program (signature ρ) ρ) : ph ≠ .gathering ts next := by
  rintro rfl
  cases h

/-- Every task has one of its shapes. -/
def Standings (b : Cache ρ) : Prop :=
  ∀ (t : Nat) (task : Task (signature ρ)), b.tasks[t]? = some task → Standing task.job task.phase

theorem Standings.step (hb : Standings b) (h : Board.Step (program cwd) b b') : Standings b' := by
  intro u x hu
  by_cases hlt : u < b.tasks.length
  · have hy := List.getElem?_eq_getElem hlt
    have hst := hb u _ hy
    rcases h.at_task hy with he | he | ⟨w, hm⟩
    · obtain rfl := Option.some.inj (hu.symm.trans he)
      exact hst
    · obtain rfl := Option.some.inj (hu.symm.trans he)
      simpa using hst
    · cases hm with
      | nothing =>
        obtain rfl := Option.some.inj (hu.symm.trans hy)
        exact hst
      | goesOn hz hc hp =>
        obtain rfl := Option.some.inj (hz.symm.trans hy)
        rw [Board.getElem?_run_self hz] at hu
        obtain rfl := Option.some.inj hu
        exact standing_goesOn hst hp _
      | dropped hz hc hp =>
        rw [Board.getElem?_setPhase, if_pos rfl, hz] at hu
        obtain rfl := Option.some.inj hu
        exact .ended _ _
      | stopped hz hc hn ho hts =>
        obtain ⟨task', h', -⟩ := Board.getElem?_stopped hz _
        rw [Board.getElem?_run_self h'] at hu
        obtain rfl := Option.some.inj hu
        exact .ended _ _
  · rw [(h.born (Nat.le_of_not_lt hlt) hu).1]
    exact .fresh _

theorem standings_after (cwd : String) (hb : Standings b) (as : List (Action ρ)) :
    Standings (after cwd b as) :=
  keeps_after (fun _ _ hs h => Standings.step h hs) hb as

theorem standings_empty : Standings ({} : Cache ρ) := fun t task h => by simp at h

/-! ### Invocations -/

/-- How often a job may invoke its computation: requests with caching never do. -/
def limit : Job ρ → Nat
  | .request _ _ true => 0
  | _ => 1

theorem limit_le (job : Job ρ) : limit job ≤ 1 := by
  unfold limit
  split
  · exact Nat.zero_le 1
  · exact Nat.le_refl 1

theorem notesAtMost_course (c : Course ρ) : c.program.NotesAtMost 0 := by
  induction c with
  | ended o => trivial
  | waiting op next ih => exact fun o => ih o

theorem notesAtMost_program (cwd : String) (job : Job ρ) :
    (program cwd job).NotesAtMost (limit job) := by
  cases job with
  | shared compute => exact ⟨0, rfl, notesAtMost_course compute.course⟩
  | request key compute cached =>
    cases cached with
    | false => exact ⟨0, rfl, notesAtMost_course compute.course⟩
    | true =>
      cases hk : keyOf cwd key with
      | error f => rw [program_request_error hk]; trivial
      | ok k => rw [program_request hk]; exact fun r => trivial

theorem budgeted_empty : Board.Budgeted (program cwd) limit ({} : Cache ρ) :=
  ⟨fun t task h => by simp at h, fun t _ => rfl⟩

theorem budgeted_after (hb : Board.Budgeted (program cwd) limit b) (as : List (Action ρ)) :
    Board.Budgeted (program cwd) limit (after cwd b as) :=
  keeps_after (fun _ _ hs h => h.step (notesAtMost_program cwd) hs) hb as

/-- **Computations are invoked once at most**, and never by a request with caching. -/
theorem invocations_le (as : List (Action ρ)) (h : (after cwd {} as).tasks[t]? = some task) :
    invocations t (after cwd {} as) ≤ limit task.job :=
  (budgeted_after budgeted_empty as).noteCount_le h

/-! ### Requests to stop -/

/-- A task is asked to stop by name only. -/
theorem wasAsked_act (hb : Standings b) {a : Action ρ} (h : wasAsked t (a.act cwd b)) :
    wasAsked t b ∨ a = .cancel t := by
  obtain ⟨task, ht, hc⟩ := h
  by_cases hlt : t < b.tasks.length
  · have hmove : ∀ (w : World (signature ρ)) (u : Nat),
        Board.Move (program cwd) w u b (a.act cwd b) → wasAsked t b := by
      intro w u hm
      obtain ⟨task', ht', hc'⟩ := hm.cancelRequested_eq
        (fun x ts next hx => (hb u x hx).ne_gathering ts next)
        (List.getElem?_eq_getElem hlt)
      obtain rfl := Option.some.inj (ht.symm.trans ht')
      exact ⟨_, List.getElem?_eq_getElem hlt, hc'.symm.trans hc⟩
    have hsame : (a.act cwd b).tasks[t]? = b.tasks[t]? → wasAsked t b :=
      fun he => ⟨task, he.symm.trans ht, hc⟩
    cases a with
    | get key compute cached => exact .inl (hsame (List.getElem?_append_left hlt))
    | populate key compute =>
      refine .inl (hsame ?_)
      simp only [Action.act, PathCache.populate]
      cases keyOf cwd key with
      | error f => rfl
      | ok k => exact List.getElem?_append_left hlt
    | invalidate key =>
      refine .inl (hsame ?_)
      simp only [Action.act, PathCache.invalidate]
      cases keyOf cwd key with
      | error f => rfl
      | ok k => rfl
    | clear => exact .inl (hsame rfl)
    | cancel u =>
      by_cases hut : u = t
      · exact .inr (by rw [hut])
      · refine .inl (hsame ?_)
        simp only [Action.act, Board.cancel]
        split
        · rw [Board.getElem?_requestCancel, if_neg hut]
        · rfl
    | resume u => exact .inl (hmove _ u (Board.move_resume _ _ u b))
    | openGate outcome u => exact .inl (hmove _ u (Board.move_complete _ _ u b))
  · -- a task that is new was not asked
    rcases step_act cwd b a with he | hs
    · rw [he] at ht
      exact absurd (Board.lt_of_getElem? ht) hlt
    · rw [(hs.born (Nat.le_of_not_lt hlt) ht).2] at hc
      simp at hc

theorem wasAsked_after (hb : Standings b) (as : List (Action ρ)) (h : wasAsked t (after cwd b as)) :
    wasAsked t b ∨ .cancel t ∈ as := by
  induction as generalizing b with
  | nil => exact .inl h
  | cons a as ih =>
    have hb' : Standings (a.act cwd b) := standings_after cwd hb [a]
    rcases ih hb' h with h' | hmem
    · rcases wasAsked_act hb h' with h'' | rfl
      · exact .inl h''
      · exact .inr (List.mem_cons_self ..)
    · exact .inr (List.mem_cons_of_mem _ hmem)

end CachedViews.PathCache
