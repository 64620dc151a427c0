import CachedViews.Proofs.Task.Onward

/-
# Where answers come from

Fix a board `d` and let work go on. Whoever looks up a key from then on finds a task that was
stored under it on `d`, or one that was started for it since (`Board.Source`).

So the outcome of a new task can be traced. One that performs an operation and ends
(`Phase.Reading`) has begun the operation since `d`. One that looks up a key and ends
(`Phase.Finding`) has the outcome of a source, or what it makes of that.

Key definitions: `Board.eventsSince`, `Board.Source`, `Board.Sourced`, `Program.Ends`,
`Phase.Reading`, `Phase.Finding`, `Board.Traced`.
Key theorems: `Board.Sourced.onward`, `Board.Onward.reading`, `Board.Onward.finding`,
`Board.Traced.onward`.
-/

namespace CachedViews

variable {σ : Signature}

namespace Board

variable [DecidableEq σ.Cache] {program : σ.Job → Program σ σ.Result}
  {answer : (op : σ.Op) → σ.Answer op → Prop} {w : World σ} {t u s : Nat}
  {p : Program σ σ.Result} {b b' d : Board σ} {c : σ.Cache} {k : String}

/-! ### Sources -/

/-- The events since the board `d`, the last one first. -/
def eventsSince (d b : Board σ) : List (Event σ) :=
  b.journal.take (b.journal.length - d.journal.length)

/-- A key was looked up, and the task was stored under it or stored new. -/
def Found (es : List (Event σ)) (c : σ.Cache) (k : String) (s : TaskId) : Prop :=
  .hit c k s ∈ es ∨ .missed c k s ∈ es

/-- A task that was started for a key, and was stored under it on the board `d` or has been
started since. -/
structure Source (d b : Board σ) (c : σ.Cache) (k : String) (s : TaskId) : Prop where
  place : b.place? s = some (c, k)
  since : d.tasks.length ≤ s ∨ d.stored? c k = some s

/-- All that is stored, and all that has been looked up since the board `d`, is a source. -/
structure Sourced (d b : Board σ) : Prop where
  grows : Grows d b
  orderly : Orderly b
  stored : ∀ (c : σ.Cache) (k : String) (s : Nat), b.stored? c k = some s → Source d b c k s
  joined : ∀ (u : Nat) (x : Task σ) (s : Nat) (next : σ.Result → Program σ σ.Result),
    b.tasks[u]? = some x → x.phase = .joining s next →
    (∃ c k, Source d b c k s) ∨ ∃ y, d.tasks[u]? = some y ∧ y.phase = x.phase
  journal : b.journal = eventsSince d b ++ d.journal
  found : ∀ (c : σ.Cache) (k : String) (s : Nat), Found (eventsSince d b) c k s → Source d b c k s

omit [DecidableEq σ.Cache] in
theorem not_found_nil : ¬Found ([] : List (Event σ)) c k s := by
  simp [Found]

omit [DecidableEq σ.Cache] in
theorem found_append {es es' : List (Event σ)} :
    Found (es ++ es') c k s ↔ Found es c k s ∨ Found es' c k s := by
  unfold Found
  rw [List.mem_append, List.mem_append]
  exact or_or_or_comm

omit [DecidableEq σ.Cache] in
theorem eventsSince_eq {es : List (Event σ)} (h : b.journal = es ++ d.journal) :
    eventsSince d b = es := by
  unfold eventsSince
  rw [h, List.length_append, Nat.add_sub_cancel, List.take_left]

theorem Source.grows (h : Source d b c k s) (hg : Grows b b') : Source d b' c k s :=
  ⟨hg.keeps_place h.place, h.since⟩

/-- Where nothing was stored, a source has been started since. -/
theorem Source.started (h : Source d b c k s) (hn : d.stored? c k = none) : d.tasks.length ≤ s := by
  refine h.since.resolve_right fun hs => ?_
  rw [hn] at hs
  cases hs

omit [DecidableEq σ.Cache] in
theorem eventsSince_append {es : List (Event σ)} (hb : b.journal = eventsSince d b ++ d.journal)
    (h : b'.journal = es ++ b.journal) : eventsSince d b' = es ++ eventsSince d b := by
  refine eventsSince_eq ?_
  rw [h, List.append_assoc, ← hb]

theorem Sourced.refl (hd : Orderly d) : Sourced d d where
  grows := .refl d
  orderly := hd
  stored c k s h := ⟨hd.stored c k s h, .inr h⟩
  joined u x s next hx _ := .inr ⟨x, hx, rfl⟩
  journal := by rw [eventsSince_eq (List.nil_append _).symm, List.nil_append]
  found c k s h := by
    rw [eventsSince_eq (List.nil_append _).symm] at h
    exact absurd h not_found_nil

/-- A task that waits for another one, or has looked it up on its way, found it stored. -/
theorem stored_of_joining {next : σ.Result → Program σ σ.Result}
    (h : halt w b p = .joining s next) : ∃ c k, b.stored? c k = some s := by
  induction p with
  | done r => cases h
  | note n next ih => exact ih h
  | ask op next ih => exact ih _ h
  | perform op next => cases h
  | lookup c k job next' ih =>
    rcases halt_lookup_cases w b c k job next' with
      ⟨-, hh⟩ | ⟨s', hs, ⟨-, hh⟩ | ⟨r, -, hh⟩ | ⟨f, -, hh⟩⟩
    · rw [hh] at h
      cases h
    · rw [hh] at h
      obtain rfl : s' = s := by
        cases h
        rfl
      exact ⟨c, k, hs⟩
    · exact ih r (hh.symm.trans h)
    · rw [hh] at h
      cases h
  | gather jobs next' ih =>
    rw [halt] at h
    split at h
    · exact ih [] h
    · cases h

theorem stored_of_hit (h : .hit c k s ∈ trace w t b p) : b.stored? c k = some s := by
  fun_induction trace w t b p with
  | case1 next n ih =>
    rcases List.mem_append.1 h with h | h
    · exact ih h
    · cases List.mem_singleton.1 h
  | case2 op next ih =>
    rcases List.mem_append.1 h with h | h
    · exact ih h
    · cases List.mem_singleton.1 h
  | case3 c' k' job next hs => simp at h
  | case4 c' k' job next s' hs r ho ih =>
    rcases List.mem_append.1 h with h | h
    · exact ih h
    · cases List.mem_singleton.1 h
      exact hs
  | case5 c' k' job next s' hs ho =>
    cases List.mem_singleton.1 h
    exact hs
  | case6 jobs next hj ih => exact ih h
  | case7 jobs next hj => simp at h
  | case8 => simp at h

theorem missed_not_mem_trace : .missed c k s ∉ trace w t b p := by
  fun_induction trace w t b p <;> simp_all

/-- A stop of a task is no hit, and it is a miss if the task stores a new one. -/
theorem found_of_events {h : Halt σ} (he : Found (h.events t b) c k s) :
    s = b.tasks.length ∧ ∃ job next, h = .storing c k job next := by
  unfold Found at he
  cases h with
  | ended o =>
    cases o with
    | ok r => simp [Halt.events] at he
    | error f =>
      rcases hpl : b.place? t with _ | ⟨c', k'⟩
      · simp [Halt.events, hpl] at he
      · by_cases hs : b.stored? c' k' = some t <;> simp [Halt.events, hpl, hs] at he
  | performing op next => simp [Halt.events] at he
  | joining s' next => simp [Halt.events] at he
  | storing c' k' job next =>
    simp only [Halt.events, List.mem_singleton, reduceCtorEq, Event.missed.injEq, false_or] at he
    obtain ⟨rfl, rfl, rfl⟩ := he
    exact ⟨rfl, job, next, rfl⟩
  | gathering jobs next => simp [Halt.events] at he

/-- What a task looks up when it goes on is stored, or is stored new. -/
theorem found_run (ht : t < b.tasks.length) (w : World σ) (p : Program σ σ.Result) :
    ∃ es, (run w t p b).journal = es ++ b.journal ∧ ∀ c k s, Found es c k s →
      b.stored? c k = some s ∨ (b.tasks.length ≤ s ∧ (run w t p b).place? s = some (c, k)) := by
  refine ⟨(halt w b p).events t b ++ trace w t b p, ?_, fun c k s h => ?_⟩
  · rw [journal_run ht, List.append_assoc]
  · rcases found_append.1 h with h | h | h
    · obtain ⟨rfl, job, next, hh⟩ := found_of_events h
      refine .inr ⟨Nat.le_refl _, ?_⟩
      rw [place?_run ht, if_neg (Nat.lt_irrefl _), hh]
      exact if_pos rfl
    · exact .inl (stored_of_hit h)
    · exact absurd h missed_not_mem_trace

/-- What is looked up in a step is stored, or is stored new. -/
theorem Onward.found (h : Onward program answer b b') :
    ∃ es, b'.journal = es ++ b.journal ∧ ∀ c k s, Found es c k s →
      b.stored? c k = some s ∨ (b.tasks.length ≤ s ∧ b'.place? s = some (c, k)) := by
  have hnone : ∀ c k s, Found ([] : List (Event σ)) c k s →
      b.stored? c k = some s ∨ (b.tasks.length ≤ s ∧ b'.place? s = some (c, k)) :=
    fun c k s h => absurd h not_found_nil
  cases h with
  | quiet h =>
    obtain ⟨es, he, hc⟩ := h.journal
    refine ⟨es, he, fun c k s hev => ?_⟩
    rcases hev with hev | hev
    · obtain ⟨c', h'⟩ := hc _ hev
      cases h'
    · obtain ⟨c', h'⟩ := hc _ hev
      cases h'
  | @move w t hw h =>
    cases h with
    | nothing => exact ⟨[], rfl, hnone⟩
    | goesOn hz hc hp => exact found_run (lt_of_getElem? hz) w _
    | dropped hz hc hp => exact ⟨[], rfl, hnone⟩
    | @stopped task ts hz hc hn ho hts =>
      have hlt : t < (ts.foldl requestCancel b).tasks.length := by
        rw [length_cancelAll]
        exact lt_of_getElem? hz
      obtain ⟨es, he, hf⟩ := found_run hlt w (.done (.error .cancelled))
      refine ⟨es, by rw [he, journal_cancelAll], fun c k s hev => ?_⟩
      have hs := hf c k s hev
      rwa [stored?_cancelAll, length_cancelAll] at hs

theorem Sourced.onward (hb : Sourced d b) (h : Onward program answer b b') : Sourced d b' := by
  have hg := h.grows
  have hlen := hb.grows.length_le
  have hnew : ∀ c k s, b.tasks.length ≤ s → b'.place? s = some (c, k) → Source d b' c k s :=
    fun c k s hle hp => ⟨hp, .inl (Nat.le_trans hlen hle)⟩
  obtain ⟨es, hes, hfound⟩ := h.found
  have hsince := eventsSince_append hb.journal hes
  exact {
    grows := hb.grows.trans hg
    orderly := h.orderly hb.orderly
    stored := fun c k s hs => by
      rcases h.stored_cases hb.orderly hs with hs' | hle
      · exact (hb.stored c k s hs').grows hg
      · exact hnew c k s hle ((h.orderly hb.orderly).stored c k s hs)
    joined := fun u x s next hx hp => by
      rcases h.became hx with ⟨-, hf⟩ | ⟨y, hy, -, hsame | ⟨-, hend⟩ | ⟨w, p, -, -, rfl, hph⟩⟩
      · rw [hp] at hf
        cases hf
      · -- it has waited before
        rcases hb.joined u y s next hy (hsame ▸ hp) with ⟨c, k, hs⟩ | ⟨z, hz, hzp⟩
        · exact .inl ⟨c, k, hs.grows hg⟩
        · exact .inr ⟨z, hz, hzp.trans hsame.symm⟩
      · rw [hp] at hend
        cases hend
      · rw [hp] at hph
        cases hh : halt w b p with
        | joining s' next' =>
          rw [hh] at hph
          obtain rfl : s = s' := by
            cases hph
            rfl
          obtain ⟨c, k, hs⟩ := stored_of_joining hh
          exact .inl ⟨c, k, (hb.stored c k s hs).grows hg⟩
        | storing c k job next' =>
          rw [hh] at hph
          obtain rfl : s = b.tasks.length := by
            cases hph
            rfl
          refine .inl ⟨c, k, hnew c k _ (Nat.le_refl _) ?_⟩
          rw [place?_run (lt_of_getElem? hy), if_neg (Nat.lt_irrefl _), hh]
          exact if_pos rfl
        | ended o =>
          rw [hh] at hph
          cases hph
        | performing op next' =>
          rw [hh] at hph
          cases hph
        | gathering jobs next' =>
          rw [hh] at hph
          cases hph
    journal := by
      rw [hsince, hes, List.append_assoc, ← hb.journal]
    found := fun c k s hev => by
      rw [hsince] at hev
      rcases found_append.1 hev with hev | hev
      · rcases hfound c k s hev with hs | ⟨hle, hpl⟩
        · exact (hb.stored c k s hs).grows hg
        · exact hnew c k s hle hpl
      · exact (hb.found c k s hev).grows hg }

end Board

/-! ### Tasks that do one thing -/

/-- The program ends without waiting for anything, and as is wanted, if the surroundings give
an `answer`. -/
def Program.Ends (answer : (op : σ.Op) → σ.Answer op → Prop)
    (want : Except Fault σ.Result → Prop) : Program σ σ.Result → Prop
  | .done o => want o
  | .note _ next => next.Ends answer want
  | .ask op next => ∀ a, answer op a → (next a).Ends answer want
  | .perform _ _ => False
  | .lookup _ _ _ _ => False
  | .gather _ _ => False

/-- How far a task may have come that performs an operation and ends. It has an outcome that
is wanted when the operation was begun, or was asked to stop. -/
inductive Phase.Reading (op : σ.Op) (next : σ.Answer op → Program σ σ.Result)
    (want : Except Fault σ.Result → Prop) (begun asked : Prop) : Phase σ → Prop
  | fresh : Reading op next want begun asked .fresh
  | performing (hb : begun) : Reading op next want begun asked (.performing op next)
  | ended {o : Except Fault σ.Result} (h : asked ∨ begun ∧ want o) :
      Reading op next want begun asked (.ended o)

/-- How far a task may have come that looks up a key and ends. It has an outcome that is
wanted of one who found a task with some outcome, or was asked to stop. -/
inductive Phase.Finding (next : σ.Result → Program σ σ.Result)
    (want : Except Fault σ.Result → Except Fault σ.Result → Prop)
    (source : TaskId → Prop) (outcome? : TaskId → Option (Except Fault σ.Result))
    (asked : Prop) : Phase σ → Prop
  | fresh : Finding next want source outcome? asked .fresh
  | joining {s : TaskId} (hs : source s) :
      Finding next want source outcome? asked (.joining s next)
  | ended {o : Except Fault σ.Result}
      (h : asked ∨ ∃ s o', source s ∧ outcome? s = some o' ∧ want o' o) :
      Finding next want source outcome? asked (.ended o)

namespace Board

variable [DecidableEq σ.Cache] {program : σ.Job → Program σ σ.Result}
  {answer : (op : σ.Op) → σ.Answer op → Prop} {w : World σ} {t u s : Nat}
  {p : Program σ σ.Result} {b b' d : Board σ} {x : Task σ} {c : σ.Cache} {k : String}

theorem halt_of_ends {want : Except Fault σ.Result → Prop} (hp : p.Ends answer want)
    (hw : ∀ op, answer op (w op)) (b : Board σ) : ∃ o, halt w b p = .ended o ∧ want o := by
  induction p with
  | done o => exact ⟨o, rfl, hp⟩
  | note n next ih => exact ih hp
  | ask op next ih => exact ih (w op) (hp (w op) (hw op))
  | perform op next => exact hp.elim
  | lookup c k job next => exact hp.elim
  | gather jobs next => exact hp.elim

section

variable {op : σ.Op} {next : σ.Answer op → Program σ σ.Result}
  {want : Except Fault σ.Result → Prop}

/-- **A task that reads.** In a step it begins its operation, or ends with what it makes of an
answer. -/
theorem Onward.reading (h : Onward program answer b b') (hx : b'.tasks[u]? = some x)
    (hprog : program x.job = .perform op next)
    (hends : ∀ a, answer op a → (next a).Ends answer want)
    (hb : ∀ y, b.tasks[u]? = some y → y.job = x.job →
      y.phase.Reading op next want (.began u op ∈ b.journal) (y.cancelRequested = true)) :
    x.phase.Reading op next want (.began u op ∈ b'.journal) (x.cancelRequested = true) := by
  have hmono : .began u op ∈ b.journal → .began u op ∈ b'.journal := by
    obtain ⟨es, hes, -⟩ := h.found
    rw [hes]
    exact List.mem_append_right es
  rcases h.became hx with ⟨-, hf⟩ | ⟨y, hy, hl, hbecame⟩
  · rw [hf]
    exact .fresh
  have hold := hb y hy hl.job.symm
  rcases hbecame with hsame | ⟨hc, hend⟩ | ⟨w, p, hw, hp, rfl, hph⟩
  · rw [hsame]
    generalize y.phase = ph at hold
    cases hold with
    | fresh => exact .fresh
    | performing hbegan => exact .performing (hmono hbegan)
    | ended ho => exact .ended (ho.imp hl.asked (And.imp_left hmono))
  · rw [hend]
    exact .ended (.inl hc)
  · rw [hph]
    cases hp with
    | first hf =>
      rw [← hl.job, hprog]
      refine .performing ?_
      rw [journal_run (lt_of_getElem? hy)]
      exact List.mem_append_left _ (List.mem_singleton_self _)
    | answered hf =>
      rw [hf] at hold
      cases hold with
      | performing hbegan =>
        obtain ⟨o, ho, hwant⟩ := halt_of_ends (hends _ (hw op)) hw b
        rw [ho]
        exact .ended (.inr ⟨hmono hbegan, hwant⟩)
    | joined hf ho =>
      rw [hf] at hold
      cases hold
    | joinFailed hf ho =>
      rw [hf] at hold
      cases hold
    | gathered hf hr =>
      rw [hf] at hold
      cases hold
    | gatherFailed hf hr =>
      rw [hf] at hold
      cases hold

end

section

variable {job : σ.Job} {next : σ.Result → Program σ σ.Result}
  {want : Except Fault σ.Result → Except Fault σ.Result → Prop}

/-- **A task that looks up a key.** In a step it comes to wait for a source, or ends with what
it makes of the outcome of one. -/
theorem Onward.finding (h : Onward program answer b b') (hd : Sourced d b)
    (hx : b'.tasks[u]? = some x) (hprog : program x.job = .lookup c k job next)
    (hends : ∀ r, (next r).Ends answer (want (.ok r)))
    (herr : ∀ f, want (.error f) (.error f))
    (hb : ∀ y, b.tasks[u]? = some y → y.job = x.job →
      y.phase.Finding next want (Source d b c k) b.outcome? (y.cancelRequested = true)) :
    x.phase.Finding next want (Source d b' c k) b'.outcome? (x.cancelRequested = true) := by
  have hg := h.grows
  rcases h.became hx with ⟨-, hf⟩ | ⟨y, hy, hl, hbecame⟩
  · rw [hf]
    exact .fresh
  have hold := hb y hy hl.job.symm
  rcases hbecame with hsame | ⟨hc, hend⟩ | ⟨w, p, hw, hp, rfl, hph⟩
  · rw [hsame]
    generalize y.phase = ph at hold
    cases hold with
    | fresh => exact .fresh
    | joining hs => exact .joining (hs.grows hg)
    | ended ho =>
      refine .ended (ho.imp hl.asked ?_)
      rintro ⟨s, o', hs, ho', hwant⟩
      exact ⟨s, o', hs.grows hg, hg.outcome? ho', hwant⟩
  · rw [hend]
    exact .ended (.inl hc)
  · rw [hph]
    have hlt := lt_of_getElem? hy
    -- the result of a source is there, and the rest of the program ends
    have hfound : ∀ s r, Source d b c k s → b.outcome? s = some (.ok r) →
        ((halt w b (next r)).phase b.tasks.length).Finding next want
          (Source d (run w u p b) c k) (run w u p b).outcome? (x.cancelRequested = true) := by
      intro s r hs ho
      obtain ⟨o, hh, hwant⟩ := halt_of_ends (hends r) hw b
      rw [hh]
      exact .ended (.inr ⟨s, .ok r, hs.grows hg, hg.outcome? ho, hwant⟩)
    have hfailed : ∀ s f, Source d b c k s → b.outcome? s = some (.error f) →
        (Phase.ended (.error f)).Finding next want
          (Source d (run w u p b) c k) (run w u p b).outcome? (x.cancelRequested = true) :=
      fun s f hs ho => .ended (.inr ⟨s, .error f, hs.grows hg, hg.outcome? ho, herr f⟩)
    cases hp with
    | first hf =>
      have hsrc := hd.onward h
      rw [← hl.job, hprog] at hfound hfailed hsrc ⊢
      rcases halt_lookup_cases w b c k job next with
        ⟨-, hh⟩ | ⟨s, hs, ⟨-, hh⟩ | ⟨r, ho, hh⟩ | ⟨f, ho, hh⟩⟩
      · rw [hh]
        refine .joining (hsrc.stored c k _ ((stored?_run hlt c k).trans ?_))
        rw [hh]
        exact if_pos ⟨rfl, rfl⟩
      · rw [hh]
        exact .joining ((hd.stored c k s hs).grows (hprog ▸ hl.job ▸ hg))
      · rw [hh]
        exact hfound s r (hd.stored c k s hs) ho
      · rw [hh]
        exact hfailed s f (hd.stored c k s hs) ho
    | joined hf ho =>
      rw [hf] at hold
      cases hold with
      | joining hs => exact hfound _ _ hs ho
    | joinFailed hf ho =>
      rw [hf] at hold
      cases hold with
      | joining hs => exact hfailed _ _ hs ho
    | answered hf =>
      rw [hf] at hold
      cases hold
    | gathered hf hr =>
      rw [hf] at hold
      cases hold
    | gatherFailed hf hr =>
      rw [hf] at hold
      cases hold

end

/-! ### All new tasks -/

/-- What is found is a source, and new tasks that do one thing are as far as they may have
come. -/
structure Traced (program : σ.Job → Program σ σ.Result)
    (answer : (op : σ.Op) → σ.Answer op → Prop) (d b : Board σ) : Prop where
  sourced : Sourced d b
  reading : ∀ (u : Nat) (x : Task σ) (op : σ.Op) (next : σ.Answer op → Program σ σ.Result)
    (want : Except Fault σ.Result → Prop), d.tasks.length ≤ u → b.tasks[u]? = some x →
    program x.job = .perform op next → (∀ a, answer op a → (next a).Ends answer want) →
    x.phase.Reading op next want (.began u op ∈ b.journal) (x.cancelRequested = true)
  finding : ∀ (u : Nat) (x : Task σ) (c : σ.Cache) (k : String) (job : σ.Job)
    (next : σ.Result → Program σ σ.Result)
    (want : Except Fault σ.Result → Except Fault σ.Result → Prop), d.tasks.length ≤ u →
    b.tasks[u]? = some x → program x.job = .lookup c k job next →
    (∀ r, (next r).Ends answer (want (.ok r))) → (∀ f, want (.error f) (.error f)) →
    x.phase.Finding next want (Source d b c k) b.outcome? (x.cancelRequested = true)

theorem Traced.refl (hd : Orderly d) : Traced program answer d d where
  sourced := .refl hd
  reading _ _ _ _ _ hu hx := absurd (lt_of_getElem? hx) (Nat.not_lt.2 hu)
  finding _ _ _ _ _ _ _ hu hx := absurd (lt_of_getElem? hx) (Nat.not_lt.2 hu)

/-- **New tasks keep to what they may do**, step by step. -/
theorem Traced.onward (hb : Traced program answer d b) (h : Onward program answer b b') :
    Traced program answer d b' where
  sourced := hb.sourced.onward h
  reading u x op next want hu hx hprog hends := by
    refine h.reading hx hprog hends fun y hy hj => ?_
    exact hb.reading u y op next want hu hy (hj ▸ hprog) hends
  finding u x c k job next want hu hx hprog hends herr := by
    refine h.finding hb.sourced hx hprog hends herr fun y hy hj => ?_
    exact hb.finding u y c k job next want hu hy (hj ▸ hprog) hends herr

end Board

end CachedViews
