import CachedViews.Proofs.Task.Contract
import CachedViews.Proofs.Task.Failures

/-
# Contracts are upheld

Work begins on a board on which all tasks have ended (`Board.Settled`) and whose caches
hold good results only. As long as the surroundings answer as the contract expects, every
task that is started from then on meets its specification when it ends, whatever the
order in which tasks go on (`Board.Upheld`). What was stored at the beginning stays stored.

Key definitions: `Contract.Suits`, `Board.Awaited`, `Phase.Upheld`, `Board.Settled`,
`Board.Upheld`.
Key theorems: `Board.upheld_halt`, `Board.Upheld.run`, `Board.Upheld.move`,
`Board.Upheld.spawn`.
-/

namespace CachedViews

variable {σ : Signature}

/-- A program that a task with the job may go on with. -/
def Contract.Suits (C : Contract σ) (job : σ.Job) (p : Program σ σ.Result) : Prop :=
  p.Calls C.jobAt C.rank (C.rank job) ∧
    p.Ensures C.answer C.allowed C.spec (C.spec job)

/-- Every job may end as cancelled. -/
def Contract.Lenient (C : Contract σ) : Prop := ∀ job, C.spec job (.error .cancelled)

theorem Contract.suits_program (C : Contract σ) {job : σ.Job} (h : C.allowed job) :
    C.Suits job (C.program job) :=
  ⟨C.calls job, C.ensures job h⟩

namespace Board

/-- The job of a task. -/
def job? (b : Board σ) (t : TaskId) : Option σ.Job := (b.tasks[t]?).map (·.job)

theorem job?_eq {b : Board σ} {t : TaskId} {task : Task σ} (h : b.tasks[t]? = some task) :
    b.job? t = some task.job := by
  simp [job?, h]

theorem Grows.job? {b b' : Board σ} (h : Grows b b') {t : TaskId} {job : σ.Job}
    (hj : b.job? t = some job) : b'.job? t = some job := by
  obtain ⟨task, ht, rfl⟩ := Option.map_eq_some_iff.1 hj
  obtain ⟨task', ht', l⟩ := h t task ht
  rw [job?_eq ht', l.job]

/-- A task that a task of the rank `n` waits for: it was started since the board `d`, and
is of a lower rank. -/
def Awaited (C : Contract σ) (d b : Board σ) (n s : Nat) (job : σ.Job) : Prop :=
  d.tasks.length ≤ s ∧ b.job? s = some job ∧ C.rank job < n

end Board

/-- What a contract says of a task with the job at its phase. -/
def Phase.Upheld (C : Contract σ) (d b : Board σ) (job : σ.Job) : Phase σ → Prop
  | .fresh => True
  | .performing op next => ∀ a, C.answer op a → C.Suits job (next a)
  | .joining s next => ∃ j, Board.Awaited C d b (C.rank job) s j ∧
      (∀ r, C.spec j (.ok r) → C.Suits job (next r)) ∧
      ∀ f, C.spec j (.error f) → C.spec job (.error f)
  | .gathering ts next => ∃ js, List.Forall₂ (Board.Awaited C d b (C.rank job)) ts js ∧
      (∀ rs, List.Forall₂ (fun j r => C.spec j (.ok r)) js rs → C.Suits job (next rs)) ∧
      ∀ j ∈ js, ∀ f, C.spec j (.error f) → C.spec job (.error f)
  | .ended o => C.spec job o

/-- What a contract says of the stop of a task with the job. -/
def Halt.Upheld (C : Contract σ) (d b : Board σ) (job : σ.Job) : Halt σ → Prop
  | .ended o => C.spec job o
  | .performing op next => ∀ a, C.answer op a → C.Suits job (next a)
  | .joining s next => ∃ j, Board.Awaited C d b (C.rank job) s j ∧
      (∀ r, C.spec j (.ok r) → C.Suits job (next r)) ∧
      ∀ f, C.spec j (.error f) → C.spec job (.error f)
  | .storing c k j next => (j = C.jobAt c k ∧ C.allowed j ∧ C.rank j < C.rank job) ∧
      (∀ r, C.spec j (.ok r) → C.Suits job (next r)) ∧
      ∀ f, C.spec j (.error f) → C.spec job (.error f)
  | .gathering js next => (∀ j ∈ js, C.allowed j ∧ C.rank j < C.rank job) ∧
      (∀ rs, List.Forall₂ (fun j r => C.spec j (.ok r)) js rs → C.Suits job (next rs)) ∧
      ∀ j ∈ js, ∀ f, C.spec j (.error f) → C.spec job (.error f)

namespace Board

variable {C : Contract σ} {d b b' : Board σ} {w : World σ} {t s n : Nat}
  {p : Program σ σ.Result} {task : Task σ} {job : σ.Job}

theorem Awaited.grows (h : Awaited C d b n s job) (hg : Grows b b') :
    Awaited C d b' n s job :=
  ⟨h.1, hg.job? h.2.1, h.2.2⟩

theorem upheld_grows {ph : Phase σ} (h : ph.Upheld C d b job) (hg : Grows b b') :
    ph.Upheld C d b' job := by
  cases ph with
  | fresh => trivial
  | performing op next => exact h
  | joining s next =>
    obtain ⟨j, hj, hr⟩ := h
    exact ⟨j, hj.grows hg, hr⟩
  | gathering ts next =>
    obtain ⟨js, hjs, hr⟩ := h
    exact ⟨js, hjs.imp fun _ _ h => h.grows hg, hr⟩
  | ended o => exact h

variable [DecidableEq σ.Cache]

/-- A board to begin with: all tasks have ended, what is stored is good, and what is not
stored may be started. -/
structure Settled (C : Contract σ) (d : Board σ) : Prop where
  orderly : Orderly d
  ended : ∀ (t : Nat) (task : Task σ), d.tasks[t]? = some task → task.phase.outcome? ≠ none
  stored : ∀ (c : σ.Cache) (k : String) (s : Nat), d.stored? c k = some s →
    ∃ r, d.outcome? s = some (.ok r) ∧ C.spec (C.jobAt c k) (.ok r)
  missing : ∀ (c : σ.Cache) (k : String), d.stored? c k = none → C.allowed (C.jobAt c k)

/-- What a contract says of a board that comes from the board `d`. -/
structure Upheld (C : Contract σ) (d b : Board σ) : Prop where
  grows : Grows d b
  orderly : Orderly b
  kept : ∀ (c : σ.Cache) (k : String) (s : Nat), d.stored? c k = some s →
    b.stored? c k = some s
  stored : ∀ (c : σ.Cache) (k : String) (s : Nat), b.stored? c k = some s →
    d.tasks.length ≤ s ∨ d.stored? c k = some s
  placed : ∀ (t : Nat) (task : Task σ) (c : σ.Cache) (k : String), d.tasks.length ≤ t →
    b.tasks[t]? = some task → task.place = some (c, k) → task.job = C.jobAt c k
  allowed : ∀ (t : Nat) (task : Task σ), d.tasks.length ≤ t → b.tasks[t]? = some task →
    C.allowed task.job
  asked : ∀ (t : Nat) (task : Task σ), d.tasks.length ≤ t → b.tasks[t]? = some task →
    task.cancelRequested = true → C.Lenient
  phases : ∀ (t : Nat) (task : Task σ), d.tasks.length ≤ t → b.tasks[t]? = some task →
    task.phase.Upheld C d b task.job

theorem Settled.upheld (hd : Settled C d) : Upheld C d d := by
  have hnew : ∀ (t : Nat) (task : Task σ), d.tasks.length ≤ t → d.tasks[t]? ≠ some task :=
    fun t task hle ht => absurd (lt_of_getElem? ht) (Nat.not_lt.2 hle)
  exact {
    grows := .refl d
    orderly := hd.orderly
    kept := fun _ _ _ h => h
    stored := fun _ _ _ h => .inr h
    placed := fun t task _ _ hle ht => absurd ht (hnew t task hle)
    allowed := fun t task hle ht => absurd ht (hnew t task hle)
    asked := fun t task hle ht => absurd ht (hnew t task hle)
    phases := fun t task hle ht => absurd ht (hnew t task hle) }

/-! ### The tasks that are stored -/

/-- The outcome of a task that is stored meets the specification of its key. -/
theorem Upheld.outcome_stored (hb : Upheld C d b) (hd : Settled C d) {c : σ.Cache} {k : String}
    (hs : b.stored? c k = some s) {o : Except Fault σ.Result} (ho : b.outcome? s = some o) :
    C.spec (C.jobAt c k) o := by
  rcases hb.stored c k s hs with hle | hold
  · obtain ⟨x, hx, hxo⟩ := outcome?_eq_some.1 ho
    have hp := hb.phases s x hle hx
    have hpl : x.place = some (c, k) := (place?_eq hx).symm.trans (hb.orderly.stored c k s hs)
    rw [hb.placed s x c k hle hx hpl, hxo] at hp
    exact hp
  · obtain ⟨r, hr, hspec⟩ := hd.stored c k s hold
    obtain rfl : .ok r = o := Option.some.inj ((hb.grows.outcome? hr).symm.trans ho)
    exact hspec

/-- A task that is stored and has not ended was started since. -/
theorem Upheld.awaited_stored (hb : Upheld C d b) (hd : Settled C d) {c : σ.Cache} {k : String}
    (hs : b.stored? c k = some s) (ho : b.outcome? s = none) (hr : C.rank (C.jobAt c k) < n) :
    Awaited C d b n s (C.jobAt c k) := by
  rcases hb.stored c k s hs with hle | hold
  · have hx := List.getElem?_eq_getElem (hb.orderly.lt hs)
    have hpl := (place?_eq hx).symm.trans (hb.orderly.stored c k s hs)
    refine ⟨hle, ?_, hr⟩
    rw [job?_eq hx, hb.placed s _ c k hle hx hpl]
  · obtain ⟨r, hr, -⟩ := hd.stored c k s hold
    simp [hb.grows.outcome? hr] at ho

/-! ### A run -/

/-- The stop of a task whose program suits it is as the contract says. -/
theorem upheld_halt (hb : Upheld C d b) (hd : Settled C d) (hw : ∀ op, C.answer op (w op))
    (hp : C.Suits job p) : (halt w b p).Upheld C d b job := by
  induction p with
  | done r => exact hp.2
  | note e next ih => exact ih ⟨hp.1, hp.2⟩
  | ask op next ih => exact ih (w op) ⟨hp.1 (w op), hp.2 (w op) (hw op)⟩
  | perform op next ih => exact fun a ha => ⟨hp.1 a, hp.2 a ha⟩
  | lookup c k j next ih =>
    obtain ⟨⟨rfl, hrank, hcalls⟩, hok, herr⟩ := hp
    rw [halt_lookup]
    cases hs : b.stored? c k with
    | none =>
      have hmiss : d.stored? c k = none := by
        cases hds : d.stored? c k with
        | none => rfl
        | some s => simp [hb.kept c k s hds] at hs
      exact ⟨⟨rfl, hd.missing c k hmiss, hrank⟩, fun r hr => ⟨hcalls r, hok r hr⟩, herr⟩
    | some s =>
      simp only
      rcases ho : b.outcome? s with _ | (f | r)
      · exact ⟨_, hb.awaited_stored hd hs ho hrank, fun r hr => ⟨hcalls r, hok r hr⟩, herr⟩
      · exact herr f (hb.outcome_stored hd hs ho)
      · exact ih r ⟨hcalls r, hok r (hb.outcome_stored hd hs ho)⟩
  | gather js next ih =>
    obtain ⟨⟨hrank, hcalls⟩, hallowed, hok, herr⟩ := hp
    rw [halt]
    split
    · rename_i hempty
      obtain rfl : js = [] := List.isEmpty_iff.1 hempty
      exact ih [] ⟨hcalls [], hok [] .nil⟩
    · exact ⟨fun j hj => ⟨hallowed j hj, hrank j hj⟩, fun rs hrs => ⟨hcalls rs, hok rs hrs⟩, herr⟩

omit [DecidableEq σ.Cache] in
/-- The tasks that are started at a stop are allowed, of lower ranks, and belong to their
places. -/
theorem upheld_started {h : Halt σ} (hh : h.Upheld C d b job) {x : Task σ} (hx : x ∈ h.started) :
    C.allowed x.job ∧ C.rank x.job < C.rank job ∧
      ∀ c k, x.place = some (c, k) → x.job = C.jobAt c k := by
  rcases mem_started hx with ⟨c, k, j, next, rfl, rfl⟩ | ⟨js, next, rfl, j, hj, rfl⟩
  · refine ⟨hh.1.2.1, hh.1.2.2, fun c' k' he => ?_⟩
    obtain ⟨rfl, rfl⟩ : c = c' ∧ k = k' := by simpa using he
    exact hh.1.1
  · exact ⟨(hh.1 j hj).1, (hh.1 j hj).2, fun c k he => by simp at he⟩

/-- Behind the run, the task waits for tasks that it may wait for. -/
theorem upheld_phase (ht : t < b.tasks.length) (hg : Grows b (run w t p b))
    (hl : d.tasks.length ≤ b.tasks.length) (hh : (halt w b p).Upheld C d b job) :
    ((halt w b p).phase b.tasks.length).Upheld C d (run w t p b) job := by
  have hnew : ∀ i, (run w t p b).job? (b.tasks.length + i) =
      ((halt w b p).started[i]?).map (·.job) := by
    intro i
    rw [job?, getElem?_run_new ht (Nat.le_add_right _ _), Nat.add_sub_cancel_left]
  cases hh' : halt w b p with
  | ended o => rw [hh'] at hh; exact hh
  | performing op next => rw [hh'] at hh; exact hh
  | joining s next =>
    rw [hh'] at hh
    obtain ⟨j, hj, hr⟩ := hh
    exact ⟨j, hj.grows hg, hr⟩
  | storing c k j next =>
    rw [hh'] at hh hnew
    obtain ⟨⟨-, -, hrank⟩, hr⟩ := hh
    exact ⟨j, ⟨hl, hnew 0, hrank⟩, hr⟩
  | gathering js next =>
    rw [hh'] at hh hnew
    obtain ⟨hjs, hr⟩ := hh
    refine ⟨js, List.forall₂_iff_get.2 ⟨by simp, fun i h₁ h₂ => ?_⟩, hr⟩
    simp only [List.get_eq_getElem, List.getElem_range', Nat.one_mul]
    refine ⟨by omega, ?_, (hjs _ (List.getElem_mem _)).2⟩
    rw [hnew i]
    simp [Halt.started, h₂]

theorem Upheld.run (hb : Upheld C d b) (hd : Settled C d) (hw : ∀ op, C.answer op (w op))
    (ht : b.tasks[t]? = some task) (hle : d.tasks.length ≤ t) (ho : task.phase.outcome? = none)
    (hp : C.Suits task.job p) : Upheld C d (run w t p b) := by
  have hlt := lt_of_getElem? ht
  have hg : Grows b (Board.run w t p b) := grows_run ht ho
  have hh := upheld_halt hb hd hw hp
  exact {
    grows := hb.grows.trans hg
    orderly := hb.orderly.run ht
    kept := fun c k s h => by
      have hs := hb.kept c k s h
      rw [stored?_run hlt]
      cases hh' : halt w b p with
      | ended o =>
        cases o with
        | ok r => exact hs
        | error f =>
          -- an entry from the beginning is not that of a task that runs
          simp only
          rw [if_neg]
          · exact hs
          · rintro ⟨-, hst⟩
            have hsd : s < d.tasks.length := hd.orderly.lt h
            have hst' : s = t := Option.some.inj (hs.symm.trans hst)
            omega
      | storing c' k' j next =>
        simp only
        rw [if_neg]
        · exact hs
        · rintro ⟨rfl, rfl⟩
          simp [stored?_of_storing hh'] at hs
      | performing op next => exact hs
      | joining s next => exact hs
      | gathering js next => exact hs
    stored := fun c k s h => by
      rcases stored_run hb.orderly hlt h with ⟨h, -⟩ | ⟨rfl, -⟩
      · exact hb.stored c k s h
      · exact .inl hb.grows.length_le
    placed := fun u x c k hu hx hpl => by
      rcases getElem?_run_cases ht hx with ⟨rfl, rfl⟩ | ⟨-, hx⟩ | ⟨-, hx⟩
      · exact hb.placed u task c k hu ht hpl
      · exact hb.placed u x c k hu hx hpl
      · exact (upheld_started hh hx).2.2 c k hpl
    allowed := fun u x hu hx => by
      rcases getElem?_run_cases ht hx with ⟨rfl, rfl⟩ | ⟨-, hx⟩ | ⟨-, hx⟩
      · exact hb.allowed u task hu ht
      · exact hb.allowed u x hu hx
      · exact (upheld_started hh hx).1
    asked := fun u x hu hx hc => by
      rcases getElem?_run_cases ht hx with ⟨rfl, rfl⟩ | ⟨-, hx⟩ | ⟨-, hx⟩
      · exact hb.asked u task hu ht hc
      · exact hb.asked u x hu hx hc
      · simp [not_asked_of_started hx] at hc
    phases := fun u x hu hx => by
      rcases getElem?_run_cases ht hx with ⟨rfl, rfl⟩ | ⟨-, hx⟩ | ⟨-, hx⟩
      · exact upheld_phase hlt hg hb.grows.length_le hh
      · exact upheld_grows (hb.phases u x hu hx) hg
      · rw [fresh_of_started hx]
        trivial }

/-! ### Moves -/

omit [DecidableEq σ.Cache] in
/-- The first fault is that of one of the tasks. -/
theorem outcome?_firstFault {ts : List Nat} {f : Fault} (h : b.firstFault? ts = some f) :
    ∃ u ∈ ts, b.outcome? u = some (.error f) := by
  induction ts with
  | nil => simp [firstFault?] at h
  | cons u ts ih =>
    rw [firstFault?] at h
    split at h
    · rename_i f' ho
      obtain rfl := Option.some.inj h
      exact ⟨u, by simp, ho⟩
    · obtain ⟨v, hv, ho⟩ := ih h
      exact ⟨v, by simp [hv], ho⟩

theorem Upheld.outcome_awaited (hb : Upheld C d b) (ha : Awaited C d b n s job)
    {o : Except Fault σ.Result} (ho : b.outcome? s = some o) : C.spec job o := by
  obtain ⟨hle, hj, -⟩ := ha
  obtain ⟨x, hx, hxo⟩ := outcome?_eq_some.1 ho
  have hp := hb.phases s x hle hx
  rw [job?_eq hx, Option.some.injEq] at hj
  rw [hj, hxo] at hp
  exact hp

/-- A task that has not ended was started since: those from the beginning have ended. -/
theorem Upheld.new_of_unfinished (hb : Upheld C d b) (hd : Settled C d)
    (ht : b.tasks[t]? = some task) (ho : task.phase.outcome? = none) : d.tasks.length ≤ t := by
  refine Nat.le_of_not_lt fun hlt => ?_
  obtain ⟨task', ht', l⟩ := hb.grows t _ (List.getElem?_eq_getElem hlt)
  have hend := hd.ended t _ (List.getElem?_eq_getElem hlt)
  obtain rfl := Option.some.inj (ht.symm.trans ht')
  rw [l.ended hend] at ho
  exact hend ho

/-- The results of awaited tasks meet their specifications, in their order. -/
theorem Upheld.spec_results (hb : Upheld C d b) {ts : List Nat} {js : List σ.Job}
    (hjs : List.Forall₂ (Awaited C d b n) ts js) {rs : List σ.Result}
    (hr : b.results? ts = some rs) : List.Forall₂ (fun j r => C.spec j (.ok r)) js rs := by
  induction hjs generalizing rs with
  | nil =>
    obtain rfl : [] = rs := by simpa [results?] using hr
    exact .nil
  | @cons u j ts js hj _ ih =>
    rw [results?] at hr
    rcases ho : b.outcome? u with _ | (f | r)
    · simp [ho] at hr
    · simp [ho] at hr
    · simp only [ho, Option.map_eq_some_iff] at hr
      obtain ⟨rs', hrs', rfl⟩ := hr
      exact .cons (hb.outcome_awaited hj ho) (ih hrs')

/-- A task that goes on does so with a program that suits it. -/
theorem Upheld.suits_goesOn (hb : Upheld C d b) (hw : ∀ op, C.answer op (w op))
    (ht : b.tasks[t]? = some task) (hle : d.tasks.length ≤ t)
    (hp : GoesOn C.program w b task p) : C.Suits task.job p := by
  have hph := hb.phases t task hle ht
  cases hp with
  | first h => exact C.suits_program (hb.allowed t task hle ht)
  | answered h =>
    rw [h] at hph
    exact hph _ (hw _)
  | joined h ho =>
    rw [h] at hph
    obtain ⟨j, hj, hok, -⟩ := hph
    exact hok _ (hb.outcome_awaited hj ho)
  | joinFailed h ho =>
    rw [h] at hph
    obtain ⟨j, hj, -, herr⟩ := hph
    exact ⟨trivial, herr _ (hb.outcome_awaited hj ho)⟩
  | gathered h hr =>
    rw [h] at hph
    obtain ⟨js, hjs, hok, -⟩ := hph
    exact hok _ (hb.spec_results hjs hr)
  | gatherFailed h hf =>
    rw [h] at hph
    obtain ⟨js, hjs, -, herr⟩ := hph
    obtain ⟨u, hu, ho⟩ := outcome?_firstFault hf
    obtain ⟨i, hi, rfl⟩ := List.getElem_of_mem hu
    obtain ⟨hlen, hget⟩ := List.forall₂_iff_get.1 hjs
    have hj := hget i hi (hlen ▸ hi)
    exact ⟨trivial, herr _ (List.getElem_mem _) _ (hb.outcome_awaited hj ho)⟩

/-! ### Steps -/

/-- A board that has fewer new entries, and whose new tasks are fresh or as they were up to
cancellation, is as the contract says. -/
theorem Upheld.of_tasks (hb : Upheld C d b) (hg : Grows b b') (ho : Orderly b')
    (hk : ∀ c k s, d.stored? c k = some s → b'.stored? c k = some s)
    (hs : ∀ c k s, b'.stored? c k = some s → b.stored? c k = some s)
    (ht : ∀ (u : Nat) (x : Task σ), d.tasks.length ≤ u → b'.tasks[u]? = some x →
      (∃ y, b.tasks[u]? = some y ∧ x.job = y.job ∧ x.place = y.place ∧
        (x.phase = y.phase ∨ x.phase = .ended (.error .cancelled) ∧ C.Lenient) ∧
        (x.cancelRequested = true → y.cancelRequested = true ∨ C.Lenient)) ∨
      (x.place = none ∧ C.allowed x.job ∧ x.phase = .fresh ∧ x.cancelRequested = false)) :
    Upheld C d b' where
  grows := hb.grows.trans hg
  orderly := ho
  kept := hk
  stored c k s h := hb.stored c k s (hs c k s h)
  placed u x c k hu hx hpl := by
    rcases ht u x hu hx with ⟨y, hy, hj, hp, -⟩ | ⟨hp, -⟩
    · rw [hj]
      exact hb.placed u y c k hu hy (hp ▸ hpl)
    · simp [hp] at hpl
  allowed u x hu hx := by
    rcases ht u x hu hx with ⟨y, hy, hj, -⟩ | ⟨-, ha, -⟩
    · rw [hj]
      exact hb.allowed u y hu hy
    · exact ha
  asked u x hu hx hc := by
    rcases ht u x hu hx with ⟨y, hy, -, -, -, hyc⟩ | ⟨-, -, -, hxc⟩
    · rcases hyc hc with hyc | hl
      · exact hb.asked u y hu hy hyc
      · exact hl
    · simp [hxc] at hc
  phases u x hu hx := by
    rcases ht u x hu hx with ⟨y, hy, hj, -, hp | ⟨hp, hl⟩, -⟩ | ⟨-, -, hp, -⟩
    · rw [hp, hj]
      exact upheld_grows (hb.phases u y hu hy) hg
    · rw [hp]
      exact hl x.job
    · rw [hp]
      trivial

theorem Upheld.cancelAll (hb : Upheld C d b) (hl : C.Lenient) (ts : List Nat) :
    Upheld C d (ts.foldl requestCancel b) := by
  refine hb.of_tasks (grows_cancelAll ts b) (hb.orderly.cancelAll ts)
    (fun c k s h => (stored?_cancelAll ts b c k).trans (hb.kept c k s h))
    (fun c k s h => (stored?_cancelAll ts b c k).symm.trans h) fun u x hu hx => .inl ?_
  obtain ⟨y, hy, hj, hpl, hph⟩ := task_of_cancelAll hx
  exact ⟨y, hy, hj, hpl, .inl hph, fun _ => .inr hl⟩

theorem Upheld.move (hb : Upheld C d b) (hd : Settled C d) (hw : ∀ op, C.answer op (w op))
    (h : Move C.program w t b b') : Upheld C d b' := by
  cases h with
  | nothing => exact hb
  | goesOn ht hc hp =>
    have hle := hb.new_of_unfinished hd ht hp.not_ended
    exact hb.run hd hw ht hle hp.not_ended (hb.suits_goesOn hw ht hle hp)
  | @dropped task ht hc hp =>
    have ho : task.phase.outcome? = none := by simp [hp, Phase.outcome?]
    have hl : C.Lenient := hb.asked t task (hb.new_of_unfinished hd ht ho) ht hc
    refine hb.of_tasks (grows_setPhase ht ho (by simp)) (hb.orderly.setPhase ht ho _)
      hb.kept (fun c k s h => h) fun u x hu hx => .inl ?_
    rcases task_of_setPhase hx with ⟨-, y, hy, rfl⟩ | hx
    · exact ⟨y, hy, rfl, rfl, .inr ⟨rfl, hl⟩, .inl⟩
    · exact ⟨x, hx, rfl, rfl, .inl rfl, .inl⟩
  | @stopped task ts ht hc hn ho hts =>
    have hle := hb.new_of_unfinished hd ht ho
    have hl : C.Lenient := hb.asked t task hle ht hc
    obtain ⟨task', ht', hp, -⟩ := getElem?_stopped ht ts
    exact (hb.cancelAll hl ts).run hd hw ht' hle (by rw [hp]; exact ho) ⟨trivial, hl task'.job⟩

theorem Upheld.spawn (hb : Upheld C d b) (ha : C.allowed job) : Upheld C d (b.spawn job).2 := by
  have ht : (b.spawn job).2.tasks = b.tasks ++ [{ job := job }] := rfl
  refine hb.of_tasks (grows_of_append ht) (hb.orderly.spawn job) hb.kept (fun c k s h => h)
    fun u x hu hx => ?_
  rcases getElem?_of_append ht hx with hx | ⟨-, hx⟩
  · exact .inl ⟨x, hx, rfl, rfl, .inl rfl, .inl⟩
  · obtain rfl := List.mem_singleton.1 hx
    exact .inr ⟨rfl, ha, rfl, rfl⟩

theorem Upheld.cancel (hb : Upheld C d b) (hl : C.Lenient) (t : Nat) :
    Upheld C d (b.cancel t).2 := by
  unfold Board.cancel
  split
  · exact hb.cancelAll hl [t]
  · exact hb

/-! ### From the empty board -/

theorem settled_empty (ha : ∀ job, C.allowed job) : Settled C {} where
  orderly := orderly_empty
  ended _ _ ht := by simp at ht
  stored _ _ _ hs := by simp [stored?] at hs
  missing _ _ _ := ha _

/-- Where nothing was stored at the beginning, caches may be cleared. -/
theorem Upheld.clear (hb : Upheld C {} b) (c : σ.Cache) : Upheld C {} (b.clear c) := by
  refine hb.of_tasks (grows_of_tasks rfl) (hb.orderly.clear c)
    (fun c' k s h => by simp [stored?] at h) (fun c' k s h => ?_)
    fun u x hu hx => .inl ⟨x, hx, rfl, rfl, .inl rfl, .inl⟩
  rw [stored?_clear] at h
  split at h
  · simp at h
  · exact h

end Board

end CachedViews
