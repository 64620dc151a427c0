import CachedViews.Proofs.Task.Ending

/-
# Lookups that cannot be left out

A program seeks one of several keys (`Program.Seeks`) if it looks one of them up whatever it
is answered: it does so itself, or a task does that it waits for, or it does when all that
it waits for before has ended, which cannot fail.

Nobody takes a lookup back. A task may fail while others that it started go on, but what
these are to look up is looked up when all work has ended (`Board.Settled.served`): the key
was stored from the beginning, or a task was started for it.

Key definitions: `Program.Seeks`, `Board.Served`, `Board.Seeking`.
Key theorems: `Program.seeks_bind`, `Board.seeks_halt`, `Board.Seeking.move`,
`Board.Settled.served`.
-/

namespace CachedViews

variable {σ : Signature}

/-- A program is bound to look up one of the keys `K`, by itself or through a task that it
waits for. -/
inductive Program.Seeks (C : Contract σ) (K : σ.Cache → String → Prop) :
    {α : Type} → Program σ α → Prop
  | note {α : Type} {n : σ.Note} {next : Program σ α} (h : Seeks C K next) :
      Seeks C K (.note n next)
  | ask {α : Type} {op : σ.Op} {next : σ.Answer op → Program σ α}
      (h : ∀ a, C.answer op a → Seeks C K (next a)) : Seeks C K (.ask op next)
  | perform {α : Type} {op : σ.Op} {next : σ.Answer op → Program σ α}
      (h : ∀ a, C.answer op a → Seeks C K (next a)) : Seeks C K (.perform op next)
  | here {α : Type} {c : σ.Cache} {k : String} {job : σ.Job} {next : σ.Result → Program σ α}
      (h : K c k) : Seeks C K (.lookup c k job next)
  | inside {α : Type} {c : σ.Cache} {k : String} {job : σ.Job} {next : σ.Result → Program σ α}
      (h : Seeks C K (C.program job)) : Seeks C K (.lookup c k job next)
  | after {α : Type} {c : σ.Cache} {k : String} {job : σ.Job} {next : σ.Result → Program σ α}
      (hf : ∀ f, ¬C.spec job (.error f)) (h : ∀ r, C.spec job (.ok r) → Seeks C K (next r)) :
      Seeks C K (.lookup c k job next)
  | child {α : Type} {jobs : List σ.Job} {job : σ.Job} {next : List σ.Result → Program σ α}
      (hj : job ∈ jobs) (h : Seeks C K (C.program job)) : Seeks C K (.gather jobs next)
  | rest {α : Type} {jobs : List σ.Job} {next : List σ.Result → Program σ α}
      (hf : ∀ job ∈ jobs, ∀ f, ¬C.spec job (.error f))
      (h : ∀ rs, List.Forall₂ (fun job r => C.spec job (.ok r)) jobs rs → Seeks C K (next rs)) :
      Seeks C K (.gather jobs next)

namespace Program

variable {α β : Type} {C : Contract σ} {K : σ.Cache → String → Prop}

/-- What a program seeks, it seeks before another one. -/
theorem Seeks.bind {p : Program σ α} (h : p.Seeks C K) (f : α → Program σ β) :
    (p.bind f).Seeks C K := by
  induction h with
  | note _ ih => exact .note (ih f)
  | ask _ ih => exact .ask fun a ha => ih a ha f
  | perform _ ih => exact .perform fun a ha => ih a ha f
  | here h => exact .here h
  | inside h _ => exact .inside h
  | after hf _ ih => exact .after hf fun r hr => ih r hr f
  | child hj h _ => exact .child hj h
  | rest hf _ ih => exact .rest hf fun rs hrs => ih rs hrs f

/-- What a program seeks behind one that ends well, the two seek together. -/
theorem seeks_bind {p : Program σ α} {f : α → Program σ β}
    (hp : p.Ensures C.answer C.allowed C.spec fun o => ∃ a, o = .ok a ∧ (f a).Seeks C K) :
    (p.bind f).Seeks C K := by
  have hno : ∀ {e : Fault}, ¬∃ a : α, (.error e : Except Fault α) = .ok a ∧ (f a).Seeks C K := by
    rintro e ⟨a, he, -⟩
    cases he
  induction p with
  | done r =>
    obtain ⟨a, rfl, h⟩ := hp
    exact h
  | note n next ih => exact .note (ih hp)
  | ask op next ih => exact .ask fun a ha => ih a (hp a ha)
  | perform op next ih => exact .perform fun a ha => ih a (hp a ha)
  | lookup c k job next ih =>
    exact .after (fun e he => hno (hp.2 e he)) fun r hr => ih r (hp.1 r hr)
  | gather jobs next ih =>
    exact .rest (fun job hj e he => hno (hp.2.2 job hj e he)) fun rs hrs => ih rs (hp.2.1 rs hrs)

end Program

/-- A stop behind which a task is bound to look up one of the keys. -/
def Halt.Seeks (C : Contract σ) (K : σ.Cache → String → Prop) (b : Board σ) : Halt σ → Prop
  | .ended _ => False
  | .performing op next => ∀ a, C.answer op a → (next a).Seeks C K
  | .joining s next => ∃ j, b.job? s = some j ∧ (∀ f, ¬C.spec j (.error f)) ∧
      ∀ r, C.spec j (.ok r) → (next r).Seeks C K
  | .storing c k j next => K c k ∨ (C.program j).Seeks C K ∨
      ((∀ f, ¬C.spec j (.error f)) ∧ ∀ r, C.spec j (.ok r) → (next r).Seeks C K)
  | .gathering js next => (∃ j ∈ js, (C.program j).Seeks C K) ∨
      ((∀ j ∈ js, ∀ f, ¬C.spec j (.error f)) ∧
        ∀ rs, List.Forall₂ (fun j r => C.spec j (.ok r)) js rs → (next rs).Seeks C K)

/-- A phase at which a task is bound to look up one of the keys. -/
def Phase.Seeks (C : Contract σ) (K : σ.Cache → String → Prop) (b : Board σ) : Phase σ → Prop
  | .fresh => True
  | .performing op next => ∀ a, C.answer op a → (next a).Seeks C K
  | .joining s next => ∃ j, b.job? s = some j ∧ (∀ f, ¬C.spec j (.error f)) ∧
      ∀ r, C.spec j (.ok r) → (next r).Seeks C K
  | .gathering ts next => ∃ js, List.Forall₂ (fun s j => b.job? s = some j) ts js ∧
      (∀ j ∈ js, ∀ f, ¬C.spec j (.error f)) ∧
        ∀ rs, List.Forall₂ (fun j r => C.spec j (.ok r)) js rs → (next rs).Seeks C K
  | .ended _ => False

namespace Board

variable {C : Contract σ} {K : σ.Cache → String → Prop} {d b b' : Board σ} {w : World σ}
  {t n : Nat} {p : Program σ σ.Result} {task : Task σ} {job : σ.Job}

/-- A task of a lower rank is bound to look up one of the keys. -/
def Delegated (C : Contract σ) (K : σ.Cache → String → Prop) (d b : Board σ) (n : Nat) : Prop :=
  ∃ s j, Awaited C d b n s j ∧ (C.program j).Seeks C K

theorem Delegated.grows (h : Delegated C K d b n) (hg : Grows b b') : Delegated C K d b' n := by
  obtain ⟨s, j, hs, hj⟩ := h
  exact ⟨s, j, hs.grows hg, hj⟩

theorem seeks_grows {ph : Phase σ} (h : ph.Seeks C K b) (hg : Grows b b') :
    ph.Seeks C K b' := by
  cases ph with
  | fresh => trivial
  | performing op next => exact h
  | joining s next =>
    obtain ⟨j, hj, hr⟩ := h
    exact ⟨j, hg.job? hj, hr⟩
  | gathering ts next =>
    obtain ⟨js, hjs, hr⟩ := h
    exact ⟨js, hjs.imp fun _ _ h => hg.job? h, hr⟩
  | ended o => exact h

variable [DecidableEq σ.Cache]

/-- One of the keys was stored from the beginning, or a task was started for it since. -/
def Served (K : σ.Cache → String → Prop) (d b : Board σ) : Prop :=
  ∃ c k, K c k ∧ (d.stored? c k ≠ none ∨ ∃ s, d.tasks.length ≤ s ∧ b.place? s = some (c, k))

theorem Served.grows (h : Served K d b) (hg : Grows b b') : Served K d b' := by
  obtain ⟨c, k, hK, hs | ⟨s, hle, hp⟩⟩ := h
  · exact ⟨c, k, hK, .inl hs⟩
  · exact ⟨c, k, hK, .inr ⟨s, hle, hg.keeps_place hp⟩⟩

/-- A key that is stored is served. -/
theorem Upheld.served_stored (hb : Upheld C d b) {c : σ.Cache} {k : String} (hK : K c k) {s : Nat}
    (hs : b.stored? c k = some s) : Served K d b := by
  refine ⟨c, k, hK, ?_⟩
  rcases hb.stored c k s hs with hle | hold
  · exact .inr ⟨s, hle, hb.orderly.stored c k s hs⟩
  · exact .inl (by simp [hold])

/-- What a task that is stored is bound to look up is served, or that task will do it. -/
theorem Upheld.delegated_stored (hb : Upheld C d b)
    (hclosed : ∀ c k, d.stored? c k ≠ none → (C.program (C.jobAt c k)).Seeks C K → Served K d d)
    {c : σ.Cache} {k : String} {s : Nat} (hs : b.stored? c k = some s)
    (hr : C.rank (C.jobAt c k) < n) (h : (C.program (C.jobAt c k)).Seeks C K) :
    Served K d b ∨ Delegated C K d b n := by
  rcases hb.stored c k s hs with hle | hold
  · have hx := List.getElem?_eq_getElem (hb.orderly.lt hs)
    have hpl := (place?_eq hx).symm.trans (hb.orderly.stored c k s hs)
    refine .inr ⟨s, _, ⟨hle, ?_, hr⟩, h⟩
    rw [job?_eq hx, hb.placed s _ c k hle hx hpl]
  · exact .inl ((hclosed c k (by simp [hold]) h).grows hb.grows)

/-! ### A run -/

/-- Where a task stops that is bound to look up one of the keys, one of them is served, or
another task will do it, or this one behind the stop. -/
theorem seeks_halt (hb : Upheld C d b) (hd : Settled C d)
    (hclosed : ∀ c k, d.stored? c k ≠ none → (C.program (C.jobAt c k)).Seeks C K → Served K d d)
    (hw : ∀ op, C.answer op (w op)) (hsuits : C.Suits job p) (hp : p.Seeks C K) :
    Served K d b ∨ Delegated C K d b (C.rank job) ∨ (halt w b p).Seeks C K b := by
  induction p with
  | done r => cases hp
  | note e next ih =>
    cases hp with
    | note h => exact ih ⟨hsuits.1, hsuits.2⟩ h
  | ask op next ih =>
    cases hp with
    | ask h => exact ih (w op) ⟨hsuits.1 (w op), hsuits.2 (w op) (hw op)⟩ (h (w op) (hw op))
  | perform op next ih =>
    cases hp with
    | perform h => exact .inr (.inr h)
  | lookup c k j next ih =>
    obtain ⟨⟨rfl, hrank, hcalls⟩, hok, -⟩ := hsuits
    rw [halt_lookup]
    cases hs : b.stored? c k with
    | none =>
      refine .inr (.inr ?_)
      cases hp with
      | here h => exact .inl h
      | inside h => exact .inr (.inl h)
      | after hf h => exact .inr (.inr ⟨hf, h⟩)
    | some s =>
      cases hp with
      | here h => exact .inl (hb.served_stored h hs)
      | inside h =>
        rcases hb.delegated_stored hclosed hs hrank h with h | h
        · exact .inl h
        · exact .inr (.inl h)
      | after hf h =>
        simp only
        rcases ho : b.outcome? s with _ | (f | r)
        · exact .inr (.inr ⟨_, (hb.awaited_stored hd hs ho hrank).2.1, hf, h⟩)
        · exact absurd (hb.outcome_stored hd hs ho) (hf f)
        · have hspec := hb.outcome_stored hd hs ho
          exact ih r ⟨hcalls r, hok r hspec⟩ (h r hspec)
  | gather js next ih =>
    obtain ⟨⟨-, hcalls⟩, -, hok, -⟩ := hsuits
    rw [halt]
    split
    · rename_i hj
      obtain rfl := List.isEmpty_iff.1 hj
      cases hp with
      | child hj h => simp at hj
      | rest hf h => exact ih [] ⟨hcalls [], hok [] .nil⟩ (h [] .nil)
    · refine .inr (.inr ?_)
      cases hp with
      | child hj h => exact .inl ⟨_, hj, h⟩
      | rest hf h => exact .inr ⟨hf, h⟩

/-- Behind the run, one of the keys is served, or a task is bound to look it up. -/
theorem seeks_phase (ht : t < b.tasks.length) (hl : d.tasks.length ≤ b.tasks.length)
    (hu : (halt w b p).Upheld C d b job) (hg : Grows b (run w t p b))
    (hh : (halt w b p).Seeks C K b) :
    Served K d (run w t p b) ∨ Delegated C K d (run w t p b) (C.rank job) ∨
      ((halt w b p).phase b.tasks.length).Seeks C K (run w t p b) := by
  have hnew : ∀ i, (run w t p b).job? (b.tasks.length + i) =
      ((halt w b p).started[i]?).map (·.job) := by
    intro i
    rw [job?, getElem?_run_new ht (Nat.le_add_right _ _), Nat.add_sub_cancel_left]
  cases hh' : halt w b p with
  | ended o =>
    rw [hh'] at hh
    exact hh.elim
  | performing op next =>
    rw [hh'] at hh
    exact .inr (.inr hh)
  | joining s next =>
    rw [hh'] at hh
    obtain ⟨j, hj, hr⟩ := hh
    exact .inr (.inr ⟨j, hg.job? hj, hr⟩)
  | storing c k j next =>
    have hplace : (run w t p b).place? b.tasks.length = some (c, k) := by
      simp [place?_run ht, hh']
    rw [hh'] at hh hnew hu
    rcases hh with hK | hj | hr
    · exact .inl ⟨c, k, hK, .inr ⟨_, hl, hplace⟩⟩
    · exact .inr (.inl ⟨_, j, ⟨hl, hnew 0, hu.1.2.2⟩, hj⟩)
    · exact .inr (.inr ⟨j, hnew 0, hr⟩)
  | gathering js next =>
    rw [hh'] at hh hnew hu
    rcases hh with ⟨j, hj, hseeks⟩ | hr
    · obtain ⟨i, hi, rfl⟩ := List.getElem_of_mem hj
      refine .inr (.inl ⟨b.tasks.length + i, _, ⟨by omega, ?_, (hu.1 _ hj).2⟩, hseeks⟩)
      rw [hnew i]
      simp [Halt.started, hi]
    · refine .inr (.inr ⟨js, List.forall₂_iff_get.2 ⟨by simp, fun i h₁ h₂ => ?_⟩, hr⟩)
      simp only [List.get_eq_getElem, List.getElem_range', Nat.one_mul]
      rw [hnew i]
      simp [Halt.started, h₂]

/-! ### All tasks -/

/-- Of each new task that is bound to look up one of the keys: one is served, or another task
will do it, or this one. -/
def Seeking (C : Contract σ) (K : σ.Cache → String → Prop) (d b : Board σ) : Prop :=
  ∀ (u : Nat) (task : Task σ), d.tasks.length ≤ u → b.tasks[u]? = some task →
    (C.program task.job).Seeks C K →
    Served K d b ∨ Delegated C K d b (C.rank task.job) ∨ task.phase.Seeks C K b

omit [DecidableEq σ.Cache] in
theorem eq_of_awaited {ts : List Nat} {js js' : List σ.Job}
    (h : List.Forall₂ (fun s j => b.job? s = some j) ts js)
    (h' : List.Forall₂ (Awaited C d b n) ts js') : js' = js := by
  induction h generalizing js' with
  | nil =>
    cases h'
    rfl
  | cons hj _ ih =>
    cases h' with
    | cons ha hrest =>
      obtain rfl := Option.some.inj (hj.symm.trans ha.2.1)
      rw [ih hrest]

/-- A task goes on with a program that is bound to look up one of the keys. -/
theorem Upheld.seeks_goesOn (hb : Upheld C d b) (hw : ∀ op, C.answer op (w op))
    (ht : b.tasks[t]? = some task) (hle : d.tasks.length ≤ t)
    (hprog : (C.program task.job).Seeks C K) (hph : task.phase.Seeks C K b)
    (hp : GoesOn C.program w b task p) : p.Seeks C K := by
  have hup := hb.phases t task hle ht
  cases hp with
  | first h => exact hprog
  | answered h =>
    rw [h] at hph
    exact hph _ (hw _)
  | joined h ho =>
    rw [h] at hph hup
    obtain ⟨j', hj', -⟩ := hup
    obtain ⟨j, hj, -, hr⟩ := hph
    obtain rfl := Option.some.inj (hj'.2.1.symm.trans hj)
    exact hr _ (hb.outcome_awaited hj' ho)
  | joinFailed h ho =>
    rw [h] at hph hup
    obtain ⟨j', hj', -⟩ := hup
    obtain ⟨j, hj, hf, -⟩ := hph
    obtain rfl := Option.some.inj (hj'.2.1.symm.trans hj)
    exact absurd (hb.outcome_awaited hj' ho) (hf _)
  | gathered h hr =>
    rw [h] at hph hup
    obtain ⟨js', hjs', -⟩ := hup
    obtain ⟨js, hjs, -, hrest⟩ := hph
    obtain rfl := eq_of_awaited hjs hjs'
    exact hrest _ (hb.spec_results hjs' hr)
  | gatherFailed h hf =>
    rw [h] at hph hup
    obtain ⟨js', hjs', -⟩ := hup
    obtain ⟨js, hjs, hno, -⟩ := hph
    obtain rfl := eq_of_awaited hjs hjs'
    obtain ⟨u, hu, ho⟩ := outcome?_firstFault hf
    obtain ⟨i, hi, rfl⟩ := List.getElem_of_mem hu
    obtain ⟨hlen, hget⟩ := List.forall₂_iff_get.1 hjs'
    have hj := hget i hi (hlen ▸ hi)
    exact absurd (hb.outcome_awaited hj ho) (hno _ (List.getElem_mem _) _)

theorem Seeking.move (h : Seeking C K d b) (hb : Upheld C d b) (hd : Settled C d)
    (hl : ¬C.Lenient)
    (hclosed : ∀ c k, d.stored? c k ≠ none → (C.program (C.jobAt c k)).Seeks C K → Served K d d)
    (hw : ∀ op, C.answer op (w op)) (hm : Move C.program w t b b') : Seeking C K d b' := by
  -- no task is asked to stop
  have hnone : ∀ {u : Nat} {x : Task σ}, b.tasks[u]? = some x → x.phase.outcome? = none →
      x.cancelRequested ≠ true := fun hx ho hc =>
    hl (hb.asked _ _ (hb.new_of_unfinished hd hx ho) hx hc)
  cases hm with
  | nothing => exact h
  | dropped ht hc hp => exact absurd hc (hnone ht (by simp [hp, Phase.outcome?]))
  | stopped ht hc hn ho hts => exact absurd hc (hnone ht ho)
  | @goesOn task p ht hc hp =>
    have hle := hb.new_of_unfinished hd ht hp.not_ended
    have hlt := lt_of_getElem? ht
    have hg : Grows b (run w t p b) := grows_run ht hp.not_ended
    have hsuits := hb.suits_goesOn hw ht hle hp
    intro u x hu hx hprog
    rcases getElem?_run_cases ht hx with ⟨rfl, rfl⟩ | ⟨-, hx⟩ | ⟨-, hx⟩
    · rcases h u task hu ht hprog with h | h | h
      · exact .inl (h.grows hg)
      · exact .inr (.inl (h.grows hg))
      · rcases seeks_halt hb hd hclosed hw hsuits (hb.seeks_goesOn hw ht hle hprog h hp) with
          h | h | h
        · exact .inl (h.grows hg)
        · exact .inr (.inl (h.grows hg))
        · exact seeks_phase hlt hb.grows.length_le (upheld_halt hb hd hw hsuits) hg h
    · rcases h u x hu hx hprog with h | h | h
      · exact .inl (h.grows hg)
      · exact .inr (.inl (h.grows hg))
      · exact .inr (.inr (seeks_grows h hg))
    · rw [fresh_of_started hx]
      exact .inr (.inr trivial)

/-- When all work has ended, what a task was bound to look up is served. -/
theorem Seeking.served (h : Seeking C K d b)
    (hr : ∀ (u : Nat) (x : Task σ), d.tasks.length ≤ u → b.tasks[u]? = some x →
      x.phase.outcome? ≠ none)
    (hle : d.tasks.length ≤ t) (ht : b.tasks[t]? = some task)
    (hprog : (C.program task.job).Seeks C K) : Served K d b := by
  induction hn : C.rank task.job using Nat.strong_induction_on generalizing t task with
  | _ n ih =>
    rcases h t task hle ht hprog with h | ⟨s, j, ⟨hs, hj, hrank⟩, hseeks⟩ | h
    · exact h
    · obtain ⟨x, hx, rfl⟩ := Option.map_eq_some_iff.1 hj
      exact ih _ (hn ▸ hrank) hs hx hseeks rfl
    · obtain ⟨o, ho⟩ := Option.ne_none_iff_exists'.1 (hr t task hle ht)
      cases hp : task.phase with
      | ended o' =>
        rw [hp] at h
        exact h.elim
      | _ => simp [hp, Phase.outcome?] at ho

/-- **What a job is bound to look up is looked up.** A job that is started where all work has
ended, and that seeks one of the keys, finds one of them stored, or a task is started for
one of them, by the time all work has ended. -/
theorem Settled.served (hd : Settled C d) (hl : ¬C.Lenient)
    (hclosed : ∀ c k, d.stored? c k ≠ none → (C.program (C.jobAt c k)).Seeks C K → Served K d d)
    {worlds : World σ → Prop} (hw : ∀ w, worlds w → ∀ op, C.answer op (w op))
    (ha : C.allowed job) (hs : (C.program job).Seeks C K)
    (h : Relation.ReflTransGen (Works C.program worlds) (d.spawn job).2 b)
    (hr : ∀ (u : Nat) (x : Task σ), d.tasks.length ≤ u → b.tasks[u]? = some x →
      x.phase.outcome? ≠ none) : Served K d b := by
  have hstart : Upheld C d (d.spawn job).2 := hd.upheld.spawn ha
  have htask : (d.spawn job).2.tasks[d.tasks.length]? = some { job := job } := by
    simp [Board.spawn]
  have hseeking : Upheld C d b ∧ Seeking C K d b := by
    clear hr
    induction h with
    | refl =>
      refine ⟨hstart, fun u x hu hx _ => .inr (.inr ?_)⟩
      have hu' := lt_of_getElem? hx
      obtain rfl : u = d.tasks.length := by
        simp [Board.spawn] at hu'
        omega
      obtain rfl := Option.some.inj (htask.symm.trans hx)
      trivial
    | tail _ hstep ih =>
      obtain ⟨w, t, hworld, hm⟩ := hstep.move
      exact ⟨ih.1.works hd hw hstep, ih.2.move ih.1 hd hl hclosed (hw w hworld) hm⟩
  obtain ⟨x, hx, l⟩ := grows_worksTo h d.tasks.length _ htask
  refine hseeking.2.served hr (Nat.le_refl _) hx ?_
  rw [l.job]
  exact hs

end Board

end CachedViews
