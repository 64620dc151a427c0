import CachedViews.Proofs.Task.Seeks
import CachedViews.Proofs.Task.Accounts

/-
# What a job comes down to

What the program of a job begins and calls for may be known beforehand, if the surroundings
answer as expected and the jobs that it waits for end as they may: it does certain deeds in
their order, and may leave out the last ones only if something fails that it waits for
(`Program.Does`). The deeds of a job are the operations it begins and the jobs that it looks up
or starts.

Then the deeds of the jobs that these call for can be added up. On a board that work has led
to, no task has done anything else, and every task that has ended has done all of it
(`Board.Doing`): each job that it was to call has a task, each operation that it was to begin
has begun.

Key definitions: `Deed`, `Program.Does`, `Board.Did`, `Board.Doing`.
Key theorems: `Program.Does.bind`, `Board.does_halt`, `Board.Doing.move`, `Board.doing_worksTo`.
-/

namespace CachedViews

variable {σ : Signature}

/-- What a program does that others can see. -/
inductive Deed (σ : Signature) where
  | begins (op : σ.Op)
  | calls (job : σ.Job)

namespace Program

variable {α β : Type}

/-- A program does these deeds in their order, if what it asks is answered as expected. Where a
job fails that it waits for, none of them is left. -/
def Does (C : Contract σ) : Program σ α → List (Deed σ) → Prop
  | .done _, ds => ds = []
  | .note _ next, ds => next.Does C ds
  | .ask op next, ds => ∀ a, C.answer op a → (next a).Does C ds
  | .perform op next, ds =>
    ∃ rest, ds = .begins op :: rest ∧ ∀ a, C.answer op a → (next a).Does C rest
  | .lookup _ _ job next, ds =>
    ∃ rest, ds = .calls job :: rest ∧ (∀ r, C.spec job (.ok r) → (next r).Does C rest) ∧
      ∀ f, C.spec job (.error f) → rest = []
  | .gather jobs next, ds =>
    ∃ rest, ds = jobs.map .calls ++ rest ∧
      (∀ rs, List.Forall₂ (fun job r => C.spec job (.ok r)) jobs rs → (next rs).Does C rest) ∧
        ∀ job ∈ jobs, ∀ f, C.spec job (.error f) → rest = []

variable {C : Contract σ} {ds ds' : List (Deed σ)}

/-- The deeds of one program after another. -/
theorem Does.bind {p : Program σ α} {f : α → Program σ β} (hp : p.Does C ds)
    (hf : p.Ensures C.answer C.allowed C.spec fun o =>
      (∀ a, o = .ok a → (f a).Does C ds') ∧ ∀ e, o = .error e → ds' = []) :
    (p.bind f).Does C (ds ++ ds') := by
  induction p generalizing ds with
  | done r =>
    obtain rfl : ds = [] := hp
    cases r with
    | ok a => exact hf.1 a rfl
    | error e => exact hf.2 e rfl
  | note n next ih => exact ih hp hf
  | ask op next ih => exact fun a ha => ih a (hp a ha) (hf a ha)
  | perform op next ih =>
    obtain ⟨rest, rfl, hnext⟩ := hp
    exact ⟨rest ++ ds', rfl, fun a ha => ih a (hnext a ha) (hf a ha)⟩
  | lookup c k job next ih =>
    obtain ⟨rest, rfl, hok, herr⟩ := hp
    refine ⟨rest ++ ds', rfl, fun r hr => ih r (hok r hr) (hf.1 r hr), fun e he => ?_⟩
    rw [herr e he, (hf.2 e he).2 e rfl, List.append_nil]
  | gather jobs next ih =>
    obtain ⟨rest, rfl, hok, herr⟩ := hp
    refine ⟨rest ++ ds', by rw [List.append_assoc], fun rs hrs => ih rs (hok rs hrs)
      (hf.2.1 rs hrs), fun job hj e he => ?_⟩
    rw [herr job hj e he, (hf.2.2 job hj e he).2 e rfl, List.append_nil]

end Program

/-- What is left to do at a phase, on a board that tells the jobs of tasks. -/
def Phase.Does (C : Contract σ) (b : Board σ) (job : σ.Job) : Phase σ → List (Deed σ) → Prop
  | .fresh, ds => (C.program job).Does C ds
  | .performing op next, ds => ∀ a, C.answer op a → (next a).Does C ds
  | .joining s next, ds =>
    ∃ j, b.job? s = some j ∧ (∀ r, C.spec j (.ok r) → (next r).Does C ds) ∧
      ∀ f, C.spec j (.error f) → ds = []
  | .gathering ts next, ds =>
    ∃ js, List.Forall₂ (fun s j => b.job? s = some j) ts js ∧
      (∀ rs, List.Forall₂ (fun j r => C.spec j (.ok r)) js rs → (next rs).Does C ds) ∧
        ∀ j ∈ js, ∀ f, C.spec j (.error f) → ds = []
  | .ended _, ds => ds = []

/-- What is left to do when a task comes to a stop, what it does at the stop included. -/
def Halt.Does (C : Contract σ) (b : Board σ) : Halt σ → List (Deed σ) → Prop
  | .ended _, ds => ds = []
  | .performing op next, ds =>
    ∃ rest, ds = .begins op :: rest ∧ ∀ a, C.answer op a → (next a).Does C rest
  | .joining s next, ds =>
    ∃ j rest, b.job? s = some j ∧ ds = .calls j :: rest ∧
      (∀ r, C.spec j (.ok r) → (next r).Does C rest) ∧ ∀ f, C.spec j (.error f) → rest = []
  | .storing _ _ j next, ds =>
    ∃ rest, ds = .calls j :: rest ∧ (∀ r, C.spec j (.ok r) → (next r).Does C rest) ∧
      ∀ f, C.spec j (.error f) → rest = []
  | .gathering js next, ds =>
    ∃ rest, ds = js.map .calls ++ rest ∧
      (∀ rs, List.Forall₂ (fun j r => C.spec j (.ok r)) js rs → (next rs).Does C rest) ∧
        ∀ j ∈ js, ∀ f, C.spec j (.error f) → rest = []

namespace Board

variable {C : Contract σ} {d b b' : Board σ} {w : World σ} {t n : Nat}
  {p : Program σ σ.Result} {task : Task σ} {job : σ.Job} {deeds : σ.Job → List (Deed σ)}
  {ds : List (Deed σ)}

/-- A task did a deed: it began the operation, or there is a task for the job. -/
def Did (b : Board σ) (t : TaskId) : Deed σ → Prop
  | .begins op => .began op ∈ b.account t
  | .calls job => ∃ s, b.job? s = some job

/-- The task did some of its deeds, and the others are left for its phase. -/
def Underway (C : Contract σ) (b : Board σ) (t : TaskId) (job : σ.Job) (ph : Phase σ)
    (ds : List (Deed σ)) : Prop :=
  ∃ past rest, ds = past ++ rest ∧ (∀ x ∈ past, b.Did t x) ∧ ph.Does C b job rest

theorem began_mem_account {op : σ.Op} :
    .began op ∈ b.account t ↔ .began t op ∈ b.journal := by
  rw [mem_account]
  constructor
  · rintro ⟨ev, hev, ha⟩
    cases ev with
    | began u op' =>
      obtain ⟨rfl, rfl⟩ : u = t ∧ op' = op := by simpa [Event.actOf] using ha
      exact hev
    | _ => simp [Event.actOf] at ha
  · exact fun h => ⟨_, h, by simp [Event.actOf]⟩

theorem does_grows {ph : Phase σ} (h : ph.Does C b job ds) (hg : Grows b b') :
    ph.Does C b' job ds := by
  cases ph with
  | joining s next =>
    obtain ⟨j, hj, hr⟩ := h
    exact ⟨j, hg.job? hj, hr⟩
  | gathering ts next =>
    obtain ⟨js, hjs, hr⟩ := h
    exact ⟨js, hjs.imp fun _ _ h => hg.job? h, hr⟩
  | _ => exact h

theorem Did.grows {x : Deed σ} (h : b.Did t x) (hg : Grows b b')
    (ha : ∀ a ∈ b.account t, a ∈ b'.account t) : b'.Did t x := by
  cases x with
  | begins op => exact ha _ h
  | calls job => exact h.imp fun s hs => hg.job? hs

theorem Underway.grows {ph : Phase σ} (h : Underway C b t job ph ds) (hg : Grows b b')
    (ha : ∀ a ∈ b.account t, a ∈ b'.account t) : Underway C b' t job ph ds := by
  obtain ⟨past, rest, he, hpast, hrest⟩ := h
  exact ⟨past, rest, he, fun x hx => (hpast x hx).grows hg ha, does_grows hrest hg⟩

variable [DecidableEq σ.Cache]

/-! ### A run -/

/-- A task that is stored was started for the job of its key. -/
theorem Upheld.job_stored (hb : Upheld C {} b) {c : σ.Cache} {k : String} {s : Nat}
    (hs : b.stored? c k = some s) : b.job? s = some (C.jobAt c k) := by
  have hx := List.getElem?_eq_getElem (hb.orderly.lt hs)
  have hpl := (place?_eq hx).symm.trans (hb.orderly.stored c k s hs)
  rw [job?_eq hx, hb.placed s _ c k (Nat.zero_le s) hx hpl]

/-- On its way to a stop a program calls jobs only that have tasks already. -/
theorem does_halt (hb : Upheld C {} b) (hd : Settled C {}) (hw : ∀ op, C.answer op (w op))
    (hsuits : C.Suits job p) (hp : p.Does C ds) :
    ∃ past rest, ds = past ++ rest ∧ (∀ x ∈ past, b.Did t x) ∧ (halt w b p).Does C b rest := by
  induction p generalizing ds with
  | done r => exact ⟨[], ds, rfl, nofun, hp⟩
  | note e next ih => exact ih ⟨hsuits.1, hsuits.2⟩ hp
  | ask op next ih => exact ih (w op) ⟨hsuits.1 (w op), hsuits.2 (w op) (hw op)⟩ (hp (w op) (hw op))
  | perform op next ih => exact ⟨[], ds, rfl, nofun, hp⟩
  | lookup c k j next ih =>
    obtain ⟨⟨rfl, hrank, hcalls⟩, hok, -⟩ := hsuits
    obtain ⟨rest, rfl, hnext, herr⟩ := hp
    rw [halt_lookup]
    cases hs : b.stored? c k with
    | none => exact ⟨[], _, rfl, nofun, rest, rfl, hnext, herr⟩
    | some s =>
      have hjob := hb.job_stored hs
      simp only
      rcases ho : b.outcome? s with _ | (f | r)
      · exact ⟨[], _, rfl, nofun, _, rest, hjob, rfl, hnext, herr⟩
      · refine ⟨[.calls (C.jobAt c k)], rest, rfl, ?_, herr f (hb.outcome_stored hd hs ho)⟩
        simpa using ⟨s, hjob⟩
      · have hspec := hb.outcome_stored hd hs ho
        obtain ⟨past, rest', rfl, hpast, hrest⟩ := ih r ⟨hcalls r, hok r hspec⟩ (hnext r hspec)
        exact ⟨_ :: past, rest', rfl, List.forall_mem_cons.2 ⟨⟨s, hjob⟩, hpast⟩, hrest⟩
  | gather js next ih =>
    obtain ⟨⟨-, hcalls⟩, -, hok, -⟩ := hsuits
    obtain ⟨rest, rfl, hnext, herr⟩ := hp
    rw [halt]
    split
    · rename_i hempty
      obtain rfl : js = [] := List.isEmpty_iff.1 hempty
      exact ih [] ⟨hcalls [], hok [] .nil⟩ (hnext [] .nil)
    · exact ⟨[], _, rfl, nofun, rest, rfl, hnext, herr⟩

/-- What is done at the stop is done behind the run. -/
theorem underway_run (ht : t < b.tasks.length) (hg : Grows b (run w t p b))
    (hh : (halt w b p).Does C b ds) :
    Underway C (run w t p b) t job ((halt w b p).phase b.tasks.length) ds := by
  have hnew : ∀ i, (run w t p b).job? (b.tasks.length + i) =
      ((halt w b p).started[i]?).map (·.job) := by
    intro i
    rw [job?, getElem?_run_new ht (Nat.le_add_right _ _), Nat.add_sub_cancel_left]
  have hacts : ∀ a ∈ (halt w b p).acts, a ∈ (run w t p b).account t := fun a ha => by
    rw [account_run ht, if_pos rfl]
    exact List.mem_append_left _ ha
  cases hh' : halt w b p with
  | ended o =>
    rw [hh'] at hh
    exact ⟨[], ds, rfl, fun _ h => absurd h List.not_mem_nil, hh⟩
  | performing op next =>
    rw [hh'] at hh hacts
    obtain ⟨rest, rfl, hnext⟩ := hh
    have hbegan : (run w t p b).Did t (.begins op) := hacts _ List.mem_cons_self
    exact ⟨[.begins op], rest, rfl, by simpa using hbegan, hnext⟩
  | joining s next =>
    rw [hh'] at hh
    obtain ⟨j, rest, hj, rfl, hnext⟩ := hh
    have hjob := hg.job? hj
    exact ⟨[.calls j], rest, rfl, by simpa using ⟨s, hjob⟩, j, hjob, hnext⟩
  | storing c k j next =>
    rw [hh'] at hh hnew
    obtain ⟨rest, rfl, hnext⟩ := hh
    have hjob : (run w t p b).job? b.tasks.length = some j := hnew 0
    exact ⟨[.calls j], rest, rfl, by simpa using ⟨_, hjob⟩, j, hjob, hnext⟩
  | gathering js next =>
    rw [hh'] at hh hnew
    obtain ⟨rest, rfl, hnext⟩ := hh
    have hjob : ∀ i (hi : i < js.length),
        (run w t p b).job? (b.tasks.length + i) = some js[i] := fun i hi => by
      rw [hnew i]
      simp [Halt.started, hi]
    refine ⟨js.map .calls, rest, rfl, fun x hx => ?_, js, ?_, hnext⟩
    · obtain ⟨j, hj, rfl⟩ := List.mem_map.1 hx
      obtain ⟨i, hi, rfl⟩ := List.getElem_of_mem hj
      exact ⟨_, hjob i hi⟩
    · refine List.forall₂_iff_get.2 ⟨by simp, fun i h₁ h₂ => ?_⟩
      simp only [List.get_eq_getElem, List.getElem_range', Nat.one_mul]
      exact hjob i h₂

/-- A task goes on with a program that does what was left. -/
theorem Upheld.does_goesOn (hb : Upheld C {} b) (hw : ∀ op, C.answer op (w op))
    (ht : b.tasks[t]? = some task) (hph : task.phase.Does C b task.job ds)
    (hp : GoesOn C.program w b task p) : p.Does C ds := by
  have hup := hb.phases t task (Nat.zero_le t) ht
  cases hp with
  | first h =>
    rw [h] at hph
    exact hph
  | answered h =>
    rw [h] at hph
    exact hph _ (hw _)
  | joined h ho =>
    rw [h] at hph hup
    obtain ⟨j', hj', -⟩ := hup
    obtain ⟨j, hj, hr, -⟩ := hph
    obtain rfl := Option.some.inj (hj'.2.1.symm.trans hj)
    exact hr _ (hb.outcome_awaited hj' ho)
  | joinFailed h ho =>
    rw [h] at hph hup
    obtain ⟨j', hj', -⟩ := hup
    obtain ⟨j, hj, -, hf⟩ := hph
    obtain rfl := Option.some.inj (hj'.2.1.symm.trans hj)
    exact hf _ (hb.outcome_awaited hj' ho)
  | gathered h hr =>
    rw [h] at hph hup
    obtain ⟨js', hjs', -⟩ := hup
    obtain ⟨js, hjs, hrest, -⟩ := hph
    obtain rfl := eq_of_awaited hjs hjs'
    exact hrest _ (hb.spec_results hjs' hr)
  | gatherFailed h hf =>
    rw [h] at hph hup
    obtain ⟨js', hjs', -⟩ := hup
    obtain ⟨js, hjs, -, hno⟩ := hph
    obtain rfl := eq_of_awaited hjs hjs'
    obtain ⟨u, hu, ho⟩ := outcome?_firstFault hf
    obtain ⟨i, hi, rfl⟩ := List.getElem_of_mem hu
    obtain ⟨hlen, hget⟩ := List.forall₂_iff_get.1 hjs'
    have hj := hget i hi (hlen ▸ hi)
    exact hno _ (List.getElem_mem _) _ (hb.outcome_awaited hj ho)

/-! ### The deeds of all tasks -/

/-- The jobs `J` do the deeds that they are said to do, and call for jobs of the same kind. -/
structure Accounted (C : Contract σ) (deeds : σ.Job → List (Deed σ)) (J : σ.Job → Prop) :
    Prop where
  does : ∀ job, J job → (C.program job).Does C (deeds job)
  calls : ∀ job, J job → ∀ j, .calls j ∈ deeds job → J j

/-- All tasks are of the jobs `J` and have done some of their deeds, and nothing else. -/
structure Doing (C : Contract σ) (deeds : σ.Job → List (Deed σ)) (J : σ.Job → Prop)
    (b : Board σ) : Prop where
  unbegun : Unbegun b
  jobs : ∀ (t : Nat) (x : Task σ), b.tasks[t]? = some x → J x.job
  begun : ∀ (t : Nat) (x : Task σ), b.tasks[t]? = some x → ∀ op, .began op ∈ b.account t →
    .begins op ∈ deeds x.job
  underway : ∀ (t : Nat) (x : Task σ), b.tasks[t]? = some x →
    Underway C b t x.job x.phase (deeds x.job)

/-- What is passed on the way to a stop are no beginnings. -/
theorem not_began_of_passed (w : World σ) (b : Board σ) (p : Program σ σ.Result) (op : σ.Op) :
    .began op ∉ passed w b p := by
  fun_induction passed w b p <;> simp_all

omit [DecidableEq σ.Cache] in
/-- What a stop begins and calls for is left to do there. -/
theorem mem_of_halt {h : Halt σ} (hh : h.Does C b ds) :
    (∀ op, .began op ∈ h.acts → .begins op ∈ ds) ∧ ∀ x ∈ h.started, .calls x.job ∈ ds := by
  cases h with
  | performing op next =>
    obtain ⟨rest, rfl, -⟩ := hh
    simp [Halt.acts, Halt.started]
  | storing c k j next =>
    obtain ⟨rest, rfl, -⟩ := hh
    simp [Halt.acts, Halt.started]
  | gathering js next =>
    obtain ⟨rest, rfl, -⟩ := hh
    simp +contextual [Halt.acts, Halt.started]
  | _ => simp [Halt.acts, Halt.started]

variable {J : σ.Job → Prop}

theorem mem_account_run (ht : t < b.tasks.length) {u : TaskId} {a : Act σ}
    (ha : a ∈ b.account u) : a ∈ (run w t p b).account u := by
  rw [account_run ht]
  split
  · exact List.mem_append_right _ (List.mem_append_right _ ha)
  · exact ha

/-- What a task has begun behind a run, it begins at the stop or had begun before. -/
theorem began_run (ht : t < b.tasks.length) {op : σ.Op}
    (h : .began op ∈ (run w t p b).account t) :
    .began op ∈ (halt w b p).acts ∨ .began op ∈ b.account t := by
  rw [account_run ht, if_pos rfl] at h
  rcases List.mem_append.1 h with h | h
  · exact .inl h
  · exact .inr ((List.mem_append.1 h).resolve_left (not_began_of_passed w b p op))

/-- Where a task stops next, its deeds are what was done and what is left to do there. -/
theorem Doing.before_halt (hb : Doing C deeds J b) (hup : Upheld C {} b) (hd : Settled C {})
    (hw : ∀ op, C.answer op (w op)) (ht : b.tasks[t]? = some task)
    (hp : GoesOn C.program w b task p) :
    ∃ done left, deeds task.job = done ++ left ∧ (∀ x ∈ done, b.Did t x) ∧
      (halt w b p).Does C b left := by
  obtain ⟨past, rest, hdeeds, hpast, hrest⟩ := hb.underway t task ht
  obtain ⟨past', left, rfl, hpast', hleft⟩ := does_halt (t := t) hup hd hw
    (hup.suits_goesOn hw ht (Nat.zero_le t) hp) (hup.does_goesOn hw ht hrest hp)
  exact ⟨past ++ past', left, by rw [hdeeds, List.append_assoc],
    List.forall_mem_append.2 ⟨hpast, hpast'⟩, hleft⟩

theorem Doing.run (hb : Doing C deeds J b) (hC : Accounted C deeds J) (hup : Upheld C {} b)
    (hd : Settled C {}) (hw : ∀ op, C.answer op (w op)) (ht : b.tasks[t]? = some task)
    (hp : GoesOn C.program w b task p) : Doing C deeds J (run w t p b) := by
  have hlt := lt_of_getElem? ht
  have hg : Grows b (Board.run w t p b) := grows_run ht hp.not_ended
  obtain ⟨done, left, hdeeds, hdone, hhalt⟩ := hb.before_halt hup hd hw ht hp
  obtain ⟨hbegan, hstarted⟩ := mem_of_halt hhalt
  have hmem : ∀ x ∈ left, x ∈ deeds task.job := fun x hx => by
    rw [hdeeds]
    exact List.mem_append_right _ hx
  have hjobs : ∀ x ∈ (halt w b p).started, J x.job := fun x hx =>
    hC.calls _ (hb.jobs t task ht) _ (hmem _ (hstarted x hx))
  refine ⟨hb.unbegun.run hlt, fun u x hx => ?_, fun u x hx op hop => ?_, fun u x hx => ?_⟩
  · rcases getElem?_run_cases ht hx with ⟨rfl, rfl⟩ | ⟨-, hx⟩ | ⟨-, hx⟩
    · exact hb.jobs u task ht
    · exact hb.jobs u x hx
    · exact hjobs x hx
  · rcases getElem?_run_cases ht hx with ⟨rfl, rfl⟩ | ⟨hut, hx⟩ | ⟨hul, hx⟩
    · exact (began_run hlt hop).elim (fun h => hmem _ (hbegan op h)) (hb.begun u task ht op)
    · rw [account_run hlt, if_neg (Ne.symm hut)] at hop
      exact hb.begun u x hx op hop
    · rw [account_run hlt, if_neg (by omega), hb.unbegun u hul] at hop
      cases hop
  · rcases getElem?_run_cases ht hx with ⟨rfl, rfl⟩ | ⟨-, hx⟩ | ⟨-, hx⟩
    · obtain ⟨done', left', rfl, hdone', hleft⟩ := underway_run hlt hg hhalt
      refine ⟨done ++ done', left', by rw [hdeeds, List.append_assoc],
        List.forall_mem_append.2 ⟨fun x hx => ?_, hdone'⟩, hleft⟩
      exact (hdone x hx).grows hg fun _ => mem_account_run hlt
    · exact (hb.underway u x hx).grows hg fun _ => mem_account_run hlt
    · rw [fresh_of_started hx]
      exact ⟨[], _, rfl, nofun, hC.does _ (hjobs x hx)⟩

/-- **Nothing else is done, whichever task goes on**, as long as none is asked to stop. -/
theorem Doing.move (hb : Doing C deeds J b) (hC : Accounted C deeds J) (hup : Upheld C {} b)
    (hd : Settled C {}) (hl : ¬C.Lenient) (hw : ∀ op, C.answer op (w op))
    (h : Move C.program w t b b') : Doing C deeds J b' := by
  have hnone : ∀ {u : Nat} {x : Task σ}, b.tasks[u]? = some x → x.cancelRequested ≠ true :=
    fun hx hc => hl (hup.asked _ _ (Nat.zero_le _) hx hc)
  cases h with
  | nothing => exact hb
  | goesOn ht hc hp => exact hb.run hC hup hd hw ht hp
  | dropped ht hc hp => exact absurd hc (hnone ht)
  | stopped ht hc hn ho hts => exact absurd hc (hnone ht)

omit [DecidableEq σ.Cache] in
theorem doing_spawn (hC : Accounted C deeds J) (hj : J job) :
    Doing C deeds J (({} : Board σ).spawn job).2 := by
  have htask : ∀ {t : Nat} {x : Task σ}, (({} : Board σ).spawn job).2.tasks[t]? = some x →
      x = { job := job } := fun hx => List.mem_singleton.1 (List.mem_of_getElem? hx)
  refine ⟨fun u _ => rfl, fun t x hx => ?_, fun t x hx op hop => (nomatch hop),
    fun t x hx => ?_⟩
  · rw [htask hx]
    exact hj
  · rw [htask hx]
    exact ⟨[], _, rfl, nofun, hC.does job hj⟩

/-- **All work that a job leads to is told by the deeds** of the job and of those it calls for. -/
theorem doing_worksTo (hC : Accounted C deeds J) (hj : J job) (ha : ∀ job, C.allowed job)
    (hl : ¬C.Lenient) {worlds : World σ → Prop} (hw : ∀ w, worlds w → ∀ op, C.answer op (w op))
    (h : Relation.ReflTransGen (Works C.program worlds) (({} : Board σ).spawn job).2 b) :
    Doing C deeds J b := by
  have hd : Settled C {} := settled_empty ha
  have hboth : Upheld C {} b ∧ Doing C deeds J b := by
    induction h with
    | refl => exact ⟨hd.upheld.spawn (ha job), doing_spawn hC hj⟩
    | tail _ hs ih =>
      obtain ⟨w, t, hworld, hm⟩ := hs.move
      exact ⟨ih.1.works hd hw hs, ih.2.move hC ih.1 hd hl (hw w hworld) hm⟩
  exact hboth.2

omit [DecidableEq σ.Cache] in
/-- A task that has ended has done all of its deeds. -/
theorem Doing.did (hb : Doing C deeds J b) (ht : b.tasks[t]? = some task)
    (ho : task.phase.outcome? ≠ none) : ∀ x ∈ deeds task.job, b.Did t x := by
  obtain ⟨past, rest, he, hpast, hrest⟩ := hb.underway t task ht
  cases hp : task.phase with
  | ended o =>
    rw [hp] at hrest
    obtain rfl : rest = [] := hrest
    rw [he, List.append_nil]
    exact hpast
  | _ => simp [hp, Phase.outcome?] at ho

end Board

end CachedViews
