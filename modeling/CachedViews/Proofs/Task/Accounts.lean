import CachedViews.Proofs.Task.Failures
import CachedViews.Proofs.Task.Onward

/-
# What each task did

The journal of a board tells of all tasks. What one of them did, the notes it left and the
operations it asked for or began, is its account (`Board.account`). A task adds to its own
account only, and only when it goes on.

So what is to be true of an account can be shown for one program at a time. A program keeps
an account (`Program.Keeps`) if what is done is as wanted wherever it stops, whatever it was
answered. Then so are the accounts of all tasks, in whatever order they go on
(`Board.Kept`).

Key definitions: `Act`, `Board.account`, `Audit`, `Program.Keeps`, `Board.Kept`.
Key theorems: `Board.account_run`, `Board.keeps_halt`, `Board.Kept.move`,
`Board.Kept.spawn`, `Board.Kept.cancel`.
-/

namespace CachedViews

variable {σ : Signature}

/-- What a task does that is told in the journal. -/
inductive Act (σ : Signature) : Type where
  | noted (n : σ.Note)
  | asked (op : σ.Op)
  | began (op : σ.Op)

/-- What an event tells of a task. -/
def Event.actOf (u : TaskId) : Event σ → Option (Act σ)
  | .noted t n => if t = u then some (.noted n) else none
  | .asked t op => if t = u then some (.asked op) else none
  | .began t op => if t = u then some (.began op) else none
  | _ => none

/-- What is to be true of the accounts of tasks: which jobs may be started that are not
shared, and what an account is to be like for a task of a place that has the outcome, or has
not ended. A task may fail whenever it waits. -/
structure Audit (σ : Signature) where
  allowed : σ.Job → Prop
  want : Option (σ.Cache × String) → List (Act σ) → Option (Except Fault σ.Result) → Prop
  fresh : ∀ place, want place [] none
  fails : ∀ {place acts}, want place acts none → ∀ f, want place acts (some (.error f))

/-- A program keeps an account that began with `acts`: wherever it stops, what was done is as
wanted, and the jobs that it starts are allowed. -/
def Program.Keeps (A : Audit σ) (place : Option (σ.Cache × String)) :
    List (Act σ) → Program σ σ.Result → Prop
  | acts, .done r => A.want place acts (some r)
  | acts, .note n next => next.Keeps A place (.noted n :: acts)
  | acts, .ask op next => ∀ a, (next a).Keeps A place (.asked op :: acts)
  | acts, .perform op next =>
    A.want place (.began op :: acts) none ∧ ∀ a, (next a).Keeps A place (.began op :: acts)
  | acts, .lookup _ _ _ next => A.want place acts none ∧ ∀ r, (next r).Keeps A place acts
  | acts, .gather jobs next =>
    A.want place acts none ∧ (∀ job ∈ jobs, A.allowed job) ∧
      ∀ rs, (next rs).Keeps A place acts

/-- What is true of the account of a task at its phase. -/
def Phase.Keeps (A : Audit σ) (place : Option (σ.Cache × String)) (acts : List (Act σ)) :
    Phase σ → Prop
  | .fresh => acts = []
  | .performing op next =>
    (∃ before, acts = .began op :: before) ∧ A.want place acts none ∧
      ∀ a, (next a).Keeps A place acts
  | .joining _ next => A.want place acts none ∧ ∀ r, (next r).Keeps A place acts
  | .gathering _ next => A.want place acts none ∧ ∀ rs, (next rs).Keeps A place acts
  | .ended o => A.want place acts (some o)

theorem Phase.Keeps.want {A : Audit σ} {place : Option (σ.Cache × String)} {acts : List (Act σ)}
    {ph : Phase σ} (h : ph.Keeps A place acts) : A.want place acts ph.outcome? := by
  cases ph with
  | fresh =>
    obtain rfl : acts = [] := h
    exact A.fresh place
  | performing op next => exact h.2.1
  | joining s next => exact h.1
  | gathering ts next => exact h.1
  | ended o => exact h

/-- A task that has not ended may fail. -/
theorem Phase.Keeps.fails {A : Audit σ} {place : Option (σ.Cache × String)}
    {acts : List (Act σ)} {ph : Phase σ} (h : ph.Keeps A place acts) (ho : ph.outcome? = none)
    (f : Fault) : A.want place acts (some (.error f)) :=
  A.fails (ho ▸ h.want) f

/-- What the stop of a task adds to its account. -/
def Halt.acts : Halt σ → List (Act σ)
  | .performing op _ => [.began op]
  | _ => []

namespace Board

/-- What a task did, the last act first. -/
def account (b : Board σ) (u : TaskId) : List (Act σ) := b.journal.filterMap (Event.actOf u)

/-- What is told of an act by a journal is in the account of its task. -/
theorem mem_account {b : Board σ} {u : TaskId} {a : Act σ} :
    a ∈ b.account u ↔ ∃ ev ∈ b.journal, ev.actOf u = some a :=
  List.mem_filterMap

/-- Events that all tell of one task are in its account. -/
theorem countP_journal_le {b : Board σ} {u : TaskId} {P : Event σ → Bool} {Q : Act σ → Bool}
    (h : ∀ ev ∈ b.journal, P ev = true → ∃ a, ev.actOf u = some a ∧ Q a = true) :
    b.journal.countP P ≤ (b.account u).countP Q := by
  unfold account
  generalize b.journal = es at h
  induction es with
  | nil => exact Nat.le_refl _
  | cons ev es ih =>
    have hrest := ih fun ev' hev => h ev' (List.mem_cons_of_mem ev hev)
    rw [List.countP_cons]
    cases hP : P ev with
    | false =>
      refine Nat.le_trans hrest ?_
      cases ha : ev.actOf u with
      | none => exact Nat.le_of_eq (by rw [List.filterMap_cons_none ha])
      | some a =>
        rw [List.filterMap_cons_some ha, List.countP_cons]
        exact Nat.le_add_right _ _
    | true =>
      obtain ⟨a, ha, hQ⟩ := h ev (by simp) hP
      rw [List.filterMap_cons_some ha, List.countP_cons, hQ]
      exact Nat.add_le_add_right hrest _

@[simp] theorem account_cancelAll (ts : List TaskId) (b : Board σ) (u : TaskId) :
    (ts.foldl requestCancel b).account u = b.account u := by
  unfold account
  rw [journal_cancelAll]

@[simp] theorem account_setPhase (t : TaskId) (ph : Phase σ) (b : Board σ) (u : TaskId) :
    (b.setPhase t ph).account u = b.account u := rfl

/-! ### The account of a task that goes on -/

variable [DecidableEq σ.Cache] {w : World σ} {t u n : Nat} {p : Program σ σ.Result}
  {b b' : Board σ} {task : Task σ} {A : Audit σ} {program : σ.Job → Program σ σ.Result}
  {place : Option (σ.Cache × String)} {acts : List (Act σ)}

/-- What a task does on its way to the stop, the last act first. -/
def passed (w : World σ) (b : Board σ) : Program σ σ.Result → List (Act σ)
  | .note n next => passed w b next ++ [.noted n]
  | .ask op next => passed w b (next (w op)) ++ [.asked op]
  | .lookup c k _ next =>
    match b.stored? c k with
    | none => []
    | some s =>
      match b.outcome? s with
      | some (.ok r) => passed w b (next r)
      | _ => []
  | .gather jobs next => if jobs.isEmpty then passed w b (next []) else []
  | _ => []

theorem filterMap_trace (w : World σ) (t : TaskId) (b : Board σ) (p : Program σ σ.Result)
    (u : TaskId) : (trace w t b p).filterMap (Event.actOf u) =
      if t = u then passed w b p else [] := by
  fun_induction trace w t b p <;> by_cases h : t = u <;>
    simp_all [passed, Event.actOf]

theorem filterMap_events (h : Halt σ) (t : TaskId) (b : Board σ) (u : TaskId) :
    (h.events t b).filterMap (Event.actOf u) = if t = u then h.acts else [] := by
  cases h with
  | ended o =>
    have hev : ((Halt.ended o).events t b).filterMap (Event.actOf u) = [] := by
      unfold Halt.events
      split
      · split
        · split <;> simp [Event.actOf]
        · rfl
      · simp_all
      · simp_all
      · rfl
    rw [hev]
    split <;> rfl
  | performing op next => by_cases h : t = u <;> simp [Halt.events, Halt.acts, Event.actOf, h]
  | joining s next => simp [Halt.events, Halt.acts]
  | storing c k job next => simp [Halt.events, Halt.acts, Event.actOf]
  | gathering jobs next => simp [Halt.events, Halt.acts]

/-- **A task that goes on adds to its own account**, and to no other. -/
theorem account_run (ht : t < b.tasks.length) (u : TaskId) : (run w t p b).account u =
    if t = u then (halt w b p).acts ++ (passed w b p ++ b.account u) else b.account u := by
  unfold account
  rw [journal_run ht, List.filterMap_append, List.filterMap_append, filterMap_trace,
    filterMap_events]
  split <;> simp

/-! ### Programs that keep their accounts -/

/-- Where a task stops, its account is as wanted, and the jobs that it starts are allowed. -/
theorem keeps_halt (w : World σ) (b : Board σ) (n : Nat) (hp : p.Keeps A place acts) :
    ((halt w b p).phase n).Keeps A place ((halt w b p).acts ++ (passed w b p ++ acts)) ∧
      ∀ x ∈ (halt w b p).started, x.place = none → A.allowed x.job := by
  induction p generalizing acts with
  | done r => exact ⟨hp, by simp [halt, Halt.started]⟩
  | note m next ih =>
    rw [halt, passed, List.append_assoc]
    exact ih hp
  | ask op next ih =>
    rw [halt, passed, List.append_assoc]
    exact ih (w op) (hp (w op))
  | perform op next ih => exact ⟨⟨⟨acts, rfl⟩, hp⟩, by simp [halt, Halt.started]⟩
  | lookup c k job next ih =>
    obtain ⟨hwait, hnext⟩ := hp
    rw [halt, passed]
    cases hs : b.stored? c k with
    | none => exact ⟨⟨hwait, hnext⟩, by simp [Halt.started]⟩
    | some s =>
      simp only
      rcases ho : b.outcome? s with _ | (f | r)
      · exact ⟨⟨hwait, hnext⟩, by simp [Halt.started]⟩
      · exact ⟨A.fails hwait f, by simp [Halt.started]⟩
      · exact ih r (hnext r)
  | gather jobs next ih =>
    obtain ⟨hwait, hjobs, hnext⟩ := hp
    rw [halt, passed]
    split
    · exact ih [] (hnext [])
    · refine ⟨⟨hwait, hnext⟩, fun x hx _ => ?_⟩
      obtain ⟨job, hj, rfl⟩ := List.mem_map.1 hx
      exact hjobs job hj

/-! ### The accounts of all tasks -/

/-- Tasks that there are not have done nothing. -/
def Unbegun (b : Board σ) : Prop := ∀ u, b.tasks.length ≤ u → b.account u = []

/-- The tasks before the number `n` have ended, and the accounts of all others are as wanted. -/
structure Kept (A : Audit σ) (n : Nat) (b : Board σ) : Prop where
  unbegun : Unbegun b
  old : n ≤ b.tasks.length
  ended : ∀ (u : Nat) (task : Task σ), u < n → b.tasks[u]? = some task →
    task.phase.outcome? ≠ none
  allowed : ∀ (u : Nat) (task : Task σ), n ≤ u → b.tasks[u]? = some task →
    task.place = none → A.allowed task.job
  phases : ∀ (u : Nat) (task : Task σ), n ≤ u → b.tasks[u]? = some task →
    task.phase.Keeps A task.place (b.account u)

omit [DecidableEq σ.Cache] in
/-- A task goes on with a program that keeps its account. -/
theorem keeps_goesOn (hph : task.phase.Keeps A task.place acts)
    (hprog : (program task.job).Keeps A task.place []) (hp : GoesOn program w b task p) :
    p.Keeps A task.place acts := by
  have hfail := hph.fails hp.not_ended
  cases hp with
  | first h =>
    rw [h] at hph
    obtain rfl : acts = [] := hph
    exact hprog
  | answered h =>
    rw [h] at hph
    exact hph.2.2 _
  | joined h ho =>
    rw [h] at hph
    exact hph.2 _
  | joinFailed h ho => exact hfail _
  | gathered h hr =>
    rw [h] at hph
    exact hph.2 _
  | gatherFailed h hf => exact hfail _

theorem Unbegun.run (hb : Unbegun b) (ht : t < b.tasks.length) : Unbegun (run w t p b) := by
  intro u hu
  have hle := length_le_run (w := w) (p := p) ht
  rw [account_run ht, if_neg (by omega)]
  exact hb u (by omega)

omit [DecidableEq σ.Cache] in
theorem Unbegun.cancelAll (hb : Unbegun b) (ts : List TaskId) :
    Unbegun (ts.foldl requestCancel b) := by
  intro u hu
  rw [account_cancelAll]
  exact hb u (by simpa using hu)

theorem Unbegun.move (hb : Unbegun b) (h : Move program w t b b') : Unbegun b' := by
  cases h with
  | nothing => exact hb
  | goesOn ht hc hp => exact hb.run (lt_of_getElem? ht)
  | dropped ht hc hp => exact fun u hu => hb u (by simpa [setPhase] using hu)
  | stopped ht hc hn ho hts => exact (hb.cancelAll _).run (by simpa using lt_of_getElem? ht)

theorem Unbegun.onward {answer : (op : σ.Op) → σ.Answer op → Prop} (hb : Unbegun b)
    (h : Onward program answer b b') : Unbegun b' := by
  cases h with
  | move hw h => exact hb.move h
  | quiet h =>
    intro u hu
    obtain ⟨es, he, hc⟩ := h.journal
    have hnone : es.filterMap (Event.actOf u) = [] := by
      refine List.filterMap_eq_nil_iff.2 fun ev hev => ?_
      obtain ⟨c, rfl⟩ := hc ev hev
      rfl
    rw [account, he, List.filterMap_append, hnone]
    exact hb u (Nat.le_trans h.grows.length_le hu)

/-- A task that has ended does nothing more. -/
theorem Move.account_of_ended (h : Move program w t b b') (hu : b.tasks[u]? = some task)
    (ho : task.phase.outcome? ≠ none) : b'.account u = b.account u := by
  have hne : ∀ {x : Task σ}, b.tasks[t]? = some x → x.phase.outcome? = none → t ≠ u := by
    rintro x hx hnone rfl
    obtain rfl := Option.some.inj (hu.symm.trans hx)
    exact ho hnone
  cases h with
  | nothing => rfl
  | goesOn ht hc hp => rw [account_run (lt_of_getElem? ht), if_neg (hne ht hp.not_ended)]
  | dropped ht hc hp => rfl
  | stopped ht hc hn hout hts =>
    rw [account_run (by simpa using lt_of_getElem? ht), if_neg (hne ht hout), account_cancelAll]

omit [DecidableEq σ.Cache] in
/-- Where all tasks have ended, the accounts of those to come are as wanted. -/
theorem kept_ended (A : Audit σ) (hb : Unbegun b)
    (he : ∀ (u : Nat) (task : Task σ), b.tasks[u]? = some task → task.phase.outcome? ≠ none) :
    Kept A b.tasks.length b where
  unbegun := hb
  old := Nat.le_refl _
  ended u task _ ht := he u task ht
  allowed _ _ hu ht := absurd (lt_of_getElem? ht) (Nat.not_lt.2 hu)
  phases _ _ hu ht := absurd (lt_of_getElem? ht) (Nat.not_lt.2 hu)

omit [DecidableEq σ.Cache] in
theorem Kept.cancelAll (hb : Kept A n b) (ts : List TaskId) :
    Kept A n (ts.foldl requestCancel b) := by
  refine ⟨hb.unbegun.cancelAll ts, by simpa using hb.old, fun u x hu hx => ?_,
    fun u x hu hx hp => ?_, fun u x hu hx => ?_⟩
  · obtain ⟨y, hy, -, -, hph⟩ := task_of_cancelAll hx
    rw [hph]
    exact hb.ended u y hu hy
  · obtain ⟨y, hy, hj, hpl, -⟩ := task_of_cancelAll hx
    rw [hj]
    exact hb.allowed u y hu hy (hpl ▸ hp)
  · obtain ⟨y, hy, -, hpl, hph⟩ := task_of_cancelAll hx
    rw [account_cancelAll, hph, hpl]
    exact hb.phases u y hu hy

/-- The accounts are as wanted when a task has gone on with a program that keeps its own. -/
theorem Kept.run (hb : Kept A n b) (ht : b.tasks[t]? = some task) (hle : n ≤ t)
    (hp : p.Keeps A task.place (b.account t)) : Kept A n (run w t p b) := by
  have hlt := lt_of_getElem? ht
  obtain ⟨hphase, hstarted⟩ := keeps_halt w b b.tasks.length hp
  have hold := Nat.le_trans hb.old (length_le_run (w := w) (p := p) hlt)
  refine ⟨hb.unbegun.run hlt, hold, fun u x hu hx => ?_, fun u x hu hx hpl => ?_, fun u x hu hx => ?_⟩
  · rcases getElem?_run_cases ht hx with ⟨rfl, rfl⟩ | ⟨-, hx⟩ | ⟨hul, -⟩
    · omega
    · exact hb.ended u x hu hx
    · omega
  · rcases getElem?_run_cases ht hx with ⟨rfl, rfl⟩ | ⟨-, hx⟩ | ⟨-, hx⟩
    · exact hb.allowed u task hu ht hpl
    · exact hb.allowed u x hu hx hpl
    · exact hstarted x hx hpl
  · rw [account_run hlt]
    rcases getElem?_run_cases ht hx with ⟨rfl, rfl⟩ | ⟨hut, hx⟩ | ⟨hul, hx⟩
    · rw [if_pos rfl]
      exact hphase
    · rw [if_neg (Ne.symm hut)]
      exact hb.phases u x hu hx
    · rw [if_neg (by omega), hb.unbegun u hul, fresh_of_started hx]
      rfl

/-- The accounts stay as wanted when tasks go on. -/
theorem Kept.move (hb : Kept A n b)
    (hprog : ∀ (u : Nat) (task : Task σ), n ≤ u → b.tasks[u]? = some task →
      (program task.job).Keeps A task.place [])
    (h : Move program w t b b') : Kept A n b' := by
  have hold : ∀ {task : Task σ}, b.tasks[t]? = some task → task.phase.outcome? = none → n ≤ t :=
    fun ht ho => Nat.le_of_not_lt fun hlt => hb.ended t _ hlt ht ho
  cases h with
  | nothing => exact hb
  | @goesOn task p ht hc hp =>
    have hle := hold ht hp.not_ended
    exact hb.run ht hle (keeps_goesOn (hb.phases t task hle ht) (hprog t task hle ht) hp)
  | @dropped task ht hc hp =>
    have hle := hold ht (by simp [hp, Phase.outcome?])
    have hlen : (b.setPhase t (.ended (.error .cancelled))).tasks.length = b.tasks.length :=
      length_update t _ b
    refine ⟨fun u hu => hb.unbegun u (hlen ▸ hu), hlen ▸ hb.old, fun u x hu hx => ?_,
      fun u x hu hx hpl => ?_, fun u x hu hx => ?_⟩
    · rcases task_of_setPhase hx with ⟨rfl, -⟩ | hx
      · omega
      · exact hb.ended u x hu hx
    · rcases task_of_setPhase hx with ⟨-, y, hy, rfl⟩ | hx
      · exact hb.allowed u y hu hy hpl
      · exact hb.allowed u x hu hx hpl
    · rw [account_setPhase]
      rcases task_of_setPhase hx with ⟨rfl, y, hy, rfl⟩ | hx
      · obtain rfl := Option.some.inj (ht.symm.trans hy)
        exact (hb.phases u task hu ht).fails (by simp [hp, Phase.outcome?]) .cancelled
      · exact hb.phases u x hu hx
  | @stopped task ts ht hc hn ho hts =>
    have hle := hold ht ho
    obtain ⟨task', ht', hph, hpl, -⟩ := getElem?_stopped ht ts
    refine (hb.cancelAll ts).run ht' hle ?_
    rw [account_cancelAll, hpl]
    exact (hb.phases t task hle ht).fails ho .cancelled

omit [DecidableEq σ.Cache] in
/-- A job that is allowed may be started. -/
theorem Kept.spawn (hb : Kept A n b) {job : σ.Job} (hj : A.allowed job) :
    Kept A n (b.spawn job).2 := by
  have ht : (b.spawn job).2.tasks = b.tasks ++ [{ job := job }] := rfl
  have hlen : (b.spawn job).2.tasks.length = b.tasks.length + 1 := by simp [ht]
  have hold := hb.old
  refine ⟨fun u hu => hb.unbegun u (by omega), by omega, fun u x hu hx => ?_,
    fun u x hu hx hpl => ?_, fun u x hu hx => ?_⟩
  · rcases getElem?_of_append ht hx with hx | ⟨hle, -⟩
    · exact hb.ended u x hu hx
    · omega
  · rcases getElem?_of_append ht hx with hx | ⟨-, hx⟩
    · exact hb.allowed u x hu hx hpl
    · obtain rfl := List.mem_singleton.1 hx
      exact hj
  · rcases getElem?_of_append ht hx with hx | ⟨hle, hx⟩
    · exact hb.phases u x hu hx
    · obtain rfl := List.mem_singleton.1 hx
      exact hb.unbegun u hle

omit [DecidableEq σ.Cache] in
theorem Kept.cancel (hb : Kept A n b) (t : TaskId) : Kept A n (b.cancel t).2 := by
  unfold Board.cancel
  split
  · exact hb.cancelAll [t]
  · exact hb

end Board

end CachedViews
