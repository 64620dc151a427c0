import CachedViews.Proofs.PathCache.Runs

/-
# Requests for one key share one computation

A request with caching that runs while a task is stored under its key waits for that
task (`PathCache.Follows`): whatever happens to the cache afterwards, it invokes
nothing and it ends as the task ended, unless it is itself asked to stop
(`PathCache.AnsweredBy`). If nothing is stored, it stores one new task and waits for
that in the same way. No task invokes its computation twice.

Key definitions: `PathCache.Follows`, `PathCache.AnsweredBy`.
Key theorems: `PathCache.Follows.step`, `PathCache.Follows.answeredBy`,
`PathCache.requests_coalesce`.
-/

namespace CachedViews.PathCache

variable {ρ : Type} {cwd : String} {b b' : Cache ρ} {t s : Nat} {w : World (signature ρ)}
  {task : Task (signature ρ)}

/-- A request with caching waits for a task, or has ended as that task ended. If it was
asked to stop it may have ended in another way. -/
def Follows (t s : Nat) (b : Cache ρ) : Prop :=
  ∃ task key compute, b.tasks[t]? = some task ∧ task.job = .request key compute true ∧
    ((task.phase = .joining s fun r => .done (.ok r)) ∨
      ∃ o, task.phase = .ended o ∧ (task.cancelRequested = true ∨ b.outcome? s = some o))

/-- Whatever happens to the cache, a request invokes nothing. It was asked to stop by
name only; and if it was not, it ends as the task `s` ends: not in another way, and as
soon as it goes on when that task has ended. -/
def AnsweredBy (cwd : String) (t s : Nat) (b : Cache ρ) : Prop :=
  ∀ future : List (Action ρ),
    let b' := after cwd b future
    invocations t b' = 0 ∧
    (wasAsked t b' → .cancel t ∈ future) ∧
    (¬wasAsked t b' →
      (∀ o, b'.outcome? t = some o → b'.outcome? s = some o) ∧
      (∀ o, b'.outcome? s = some o → Board.outcome? (resume cwd t b') t = some o))

/-! ### Following a task -/

/-- A task whose run has come to its end. -/
theorem outcome?_run_done (ht : b.tasks[t]? = some task) (o : Except Fault ρ) :
    Board.outcome? (Board.run w t (.done o) b) t = some o := by
  rw [Board.outcome?_run_self ht]
  rfl

theorem Follows.move (hf : Follows t s b) (h : Board.Move (program cwd) w t b b') :
    Follows t s b' := by
  obtain ⟨task, key, compute, ht, hj, hp⟩ := hf
  have hg := h.grows
  obtain ⟨task', ht', l⟩ := hg t task ht
  have hj' := l.job.trans hj
  -- what it ended with is the outcome of the task that it waited for
  have hend : ∀ o, b'.outcome? t = some o → (task'.cancelRequested = true ∨
      b.outcome? s = some o) → Follows t s b' := by
    intro o ho hor
    obtain ⟨x, hx, hxo⟩ := Board.outcome?_eq_some.1 ho
    obtain rfl := Option.some.inj (ht'.symm.trans hx)
    exact ⟨task', key, compute, ht', hj', .inr ⟨o, hxo, hor.imp_right hg.outcome?⟩⟩
  cases h with
  | nothing => exact ⟨task, key, compute, ht, hj, hp⟩
  | @goesOn x p hx hc hgo =>
    obtain rfl := Option.some.inj (ht.symm.trans hx)
    rcases hp with hp | ⟨o, hp, -⟩
    · cases hgo with
      | first h => simp [hp] at h
      | answered h => simp [hp] at h
      | gathered h hr => simp [hp] at h
      | gatherFailed h hr => simp [hp] at h
      | joined h ho =>
        rw [hp, Phase.joining.injEq] at h
        obtain ⟨rfl, rfl⟩ := h
        exact hend _ (outcome?_run_done ht _) (.inr ho)
      | joinFailed h ho =>
        rw [hp, Phase.joining.injEq] at h
        obtain ⟨rfl, rfl⟩ := h
        exact hend _ (outcome?_run_done ht _) (.inr ho)
    · exact absurd hgo.not_ended (by simp [hp, Phase.outcome?])
  | dropped hx hc hf =>
    obtain rfl := Option.some.inj (ht.symm.trans hx)
    rcases hp with hp | ⟨o, hp, -⟩ <;> simp [hp] at hf
  | stopped hx hc hn ho hts =>
    obtain rfl := Option.some.inj (ht.symm.trans hx)
    obtain ⟨y, hy, -⟩ := Board.getElem?_stopped hx _
    exact hend _ (outcome?_run_done hy _) (.inl (l.asked hc))

theorem Follows.step (hf : Follows t s b) (h : Board.Step (program cwd) b b') :
    Follows t s b' := by
  obtain ⟨task, key, compute, ht, hj, hp⟩ := hf
  have hout : ∀ o, b.outcome? s = some o → b'.outcome? s = some o := fun _ => h.grows.outcome?
  rcases h.at_task ht with he | he | ⟨w, hm⟩
  · refine ⟨task, key, compute, he, hj, ?_⟩
    rcases hp with hp | ⟨o, hp, hor⟩
    · exact .inl hp
    · exact .inr ⟨o, hp, hor.imp_right (hout o)⟩
  · refine ⟨task.asked, key, compute, he, by simpa using hj, ?_⟩
    rcases hp with hp | ⟨o, hp, hor⟩
    · exact .inl (by simpa using hp)
    · exact .inr ⟨o, by simpa using hp,
        hor.imp task.asked_cancelRequested (hout o)⟩
  · exact Follows.move ⟨task, key, compute, ht, hj, hp⟩ hm

theorem Follows.after (hf : Follows t s b) (cwd : String) (as : List (Action ρ)) :
    Follows t s (after cwd b as) :=
  keeps_after (fun _ _ hs h => Follows.step h hs) hf as

/-- A request that follows a task ends with its outcome when it goes on. -/
theorem Follows.resume (hf : Follows t s b) (hc : ¬wasAsked t b) {o : Except Fault ρ}
    (ho : b.outcome? s = some o) : Board.outcome? (resume cwd t b) t = some o := by
  obtain ⟨task, key, compute, ht, hj, hp⟩ := hf
  have hasked : task.cancelRequested = false := by
    cases h : task.cancelRequested with
    | false => rfl
    | true => exact absurd ⟨task, ht, h⟩ hc
  rcases hp with hp | ⟨o', hp, hor⟩
  · unfold PathCache.resume Board.resume
    simp only [ht, hp, hasked, ho]
    rcases o with f | r
    · simp only
      rw [← Board.run_done (answers (.error .cancelled))]
      exact outcome?_run_done ht _
    · exact outcome?_run_done ht _
  · have ho' : b.outcome? s = some o' := hor.resolve_left (by simp [hasked])
    obtain rfl : o' = o := Option.some.inj (ho'.symm.trans ho)
    exact (Board.move_resume _ _ t b).grows.outcome? (Board.outcome?_eq_some.2 ⟨task, ht, hp⟩)

theorem Follows.answeredBy (hf : Follows t s b) (hs : Standings b)
    (hb : Board.Budgeted (program cwd) limit b) (hc : ¬wasAsked t b) :
    AnsweredBy cwd t s b := by
  intro future
  have hf' := hf.after cwd future
  refine ⟨?_, fun ha => ?_, fun ha => ⟨fun o ho => ?_, fun o ho => hf'.resume ha ho⟩⟩
  · -- the limit of a request with caching is zero
    obtain ⟨task, key, compute, ht, hj, -⟩ := hf'
    have hle := (budgeted_after hb future).noteCount_le ht
    rw [hj] at hle
    exact Nat.le_zero.1 hle
  · exact (wasAsked_after hs future ha).resolve_left hc
  · obtain ⟨task, key, compute, ht, -, hp⟩ := hf'
    obtain ⟨x, hx, hxo⟩ := Board.outcome?_eq_some.1 ho
    obtain rfl := Option.some.inj (ht.symm.trans hx)
    rcases hp with hp | ⟨o', hp, hor⟩
    · simp [hp] at hxo
    · obtain rfl : o' = o := by simpa [hp] using hxo
      exact hor.resolve_left fun h => ha ⟨task, ht, h⟩

/-! ### A request that runs -/

/-- A request with caching for a key that has not run yet. -/
def Requests (cwd : String) (t : Nat) (k : String) (compute : Compute ρ) (b : Cache ρ) : Prop :=
  ∃ key, b.tasks[t]? = some { job := .request key compute true } ∧ keyOf cwd key = .ok k

theorem requests_get {key : Value} {k : String} (h : keyOf cwd key = .ok k) (compute : Compute ρ)
    (b : Cache ρ) : Requests cwd b.tasks.length k compute (get key compute true b).2 :=
  ⟨key, List.getElem?_concat_length, h⟩

/-- A request that is resumed runs up to the task that is stored or that it stores. -/
theorem resume_request {k : String} {compute : Compute ρ} (h : Requests cwd t k compute b) :
    ∃ key, b.tasks[t]? = some { job := .request key compute true } ∧
      ∃ p : Program (signature ρ) (signature ρ).Result,
        resume cwd t b = Board.run (answers (.error .cancelled)) t p b ∧
        Board.halt (answers (.error .cancelled)) b p =
          match b.stored? paths k with
          | none => .storing paths k (.shared compute) fun r => .done (.ok r)
          | some s =>
            match b.outcome? s with
            | none => .joining s fun r => .done (.ok r)
            | some o => .ended o := by
  obtain ⟨key, ht, hk⟩ := h
  refine ⟨key, ht, program cwd (.request key compute true), ?_, halt_request hk compute _ b⟩
  unfold resume Board.resume
  rw [ht]

/-- A request that finds a task that has ended ends at once, and in the same way. -/
theorem outcome?_resume_hit {k : String} {compute : Compute ρ} (h : Requests cwd t k compute b)
    (hs : b.stored? paths k = some s) {o : Except Fault ρ} (ho : b.outcome? s = some o) :
    Board.outcome? (resume cwd t b) t = some o := by
  obtain ⟨key, ht, p, he, hhalt⟩ := resume_request h
  simp only [hs, ho] at hhalt
  rw [he, Board.outcome?_run_self ht, hhalt]
  rfl

theorem follows_hit {k : String} {compute : Compute ρ} (h : Requests cwd t k compute b)
    (hs : b.stored? paths k = some s) :
    let b' := resume cwd t b
    b'.tasks.length = b.tasks.length ∧ b'.entries = b.entries ∧ Follows t s b' := by
  obtain ⟨key, ht, p, he, hhalt⟩ := resume_request h
  have hlt := Board.lt_of_getElem? ht
  simp only [hs] at hhalt
  simp only [he]
  have hself := Board.getElem?_run_self (w := answers (.error .cancelled)) (p := p) ht
  have hg := Board.grows_run (w := answers (.error .cancelled)) (p := p) ht rfl
  rw [Board.length_run hlt, Board.entries_run hlt]
  cases ho : b.outcome? s with
  | none =>
    rw [ho] at hhalt
    rw [hhalt] at hself ⊢
    exact ⟨rfl, rfl, _, key, compute, hself, rfl, .inl rfl⟩
  | some o =>
    rw [ho] at hhalt
    rw [hhalt] at hself ⊢
    refine ⟨rfl, ?_, _, key, compute, hself, rfl, .inr ⟨o, rfl, .inr (hg.outcome? ho)⟩⟩
    cases o with
    | ok r => rfl
    | error f => rw [Halt.entries, Board.evict_of_no_place (Board.place?_eq ht)]

theorem follows_miss {k : String} {compute : Compute ρ} (h : Requests cwd t k compute b)
    (hs : b.stored? paths k = none) :
    let b' := resume cwd t b
    b'.tasks.length = b.tasks.length + 1 ∧
    b'.tasks[b.tasks.length]? = some { job := .shared compute, place := some (paths, k) } ∧
    b'.entries = b.entries ++ [⟨paths, k, b.tasks.length⟩] ∧ Follows t b.tasks.length b' := by
  obtain ⟨key, ht, p, he, hhalt⟩ := resume_request h
  have hlt := Board.lt_of_getElem? ht
  simp only [hs] at hhalt
  simp only [he]
  have hself := Board.getElem?_run_self (w := answers (.error .cancelled)) (p := p) ht
  rw [Board.length_run hlt, Board.entries_run hlt, Board.getElem?_run_new hlt (Nat.le_refl _)]
  rw [hhalt] at hself ⊢
  refine ⟨rfl, by simp [Halt.started], Board.store_of_not_stored hs _, _, key, compute, hself, rfl,
    .inl rfl⟩

theorem not_wasAsked_resume {k : String} {compute : Compute ρ} (h : Requests cwd t k compute b)
    (hb : Standings b) : ¬wasAsked t (resume cwd t b) := by
  obtain ⟨key, ht, -⟩ := h
  intro ha
  rcases wasAsked_act (a := .resume t) hb ha with ⟨x, hx, hc⟩ | he
  · obtain rfl := Option.some.inj (ht.symm.trans hx)
    simp at hc
  · simp at he

/-- In a run, a request that follows a task behind its first step is answered by it. -/
theorem answeredBy_of_follows (past : List (Action ρ)) {k : String} {compute : Compute ρ}
    (h : Requests cwd t k compute (after cwd {} past))
    (hf : Follows t s (resume cwd t (after cwd {} past))) :
    AnsweredBy cwd t s (resume cwd t (after cwd {} past)) := by
  have hst : Standings (after cwd ({} : Cache ρ) past) := standings_after cwd standings_empty past
  have hbud : Board.Budgeted (program cwd) limit (after cwd ({} : Cache ρ) past) :=
    budgeted_after budgeted_empty past
  exact hf.answeredBy (standings_after cwd hst [.resume t])
    (budgeted_after hbud [.resume t]) (not_wasAsked_resume h hst)

/-- A request with caching that runs is answered by the task that is stored under its key,
which was there or is new. -/
theorem answered_request (past : List (Action ρ)) {k : String} {compute : Compute ρ}
    (h : Requests cwd t k compute (after cwd {} past)) :
    let b := after cwd {} past
    ∃ s, Board.stored? (resume cwd t b) paths k = some s ∧
      (b.stored? paths k = some s ∨ s = b.tasks.length) ∧ AnsweredBy cwd t s (resume cwd t b) := by
  intro b
  cases hs : b.stored? paths k with
  | some s =>
    obtain ⟨-, hent, hf⟩ := follows_hit h hs
    exact ⟨s, (Board.stored?_congr hent paths k).trans hs, .inl rfl, answeredBy_of_follows past h hf⟩
  | none =>
    obtain ⟨-, -, hent, hf⟩ := follows_miss h hs
    refine ⟨b.tasks.length, ?_, .inr rfl, answeredBy_of_follows past h hf⟩
    have hpop : (resume cwd t b).entries = (Board.populate paths k (Job.shared compute) b).2.entries :=
      hent.trans (Board.store_of_not_stored hs _).symm
    exact (Board.stored?_congr hpop paths k).trans
      ((Board.stored?_populate paths k _ b paths k).trans (if_pos ⟨rfl, rfl⟩))

/-- **Requests for one key share one computation.** However a cache was used before: no
task that was started for a key has invoked its computation twice, and a request with
caching that runs is answered by the task that is stored under its key, or by the one
new task that it stores. -/
theorem requests_coalesce (cwd : String) (past : List (Action ρ)) :
    let b := after cwd ({} : Cache ρ) past
    (∀ t : Nat, b.place? t ≠ none → invocations t b ≤ 1) ∧
    ∀ (t : Nat) (k : String) (compute : Compute ρ), Requests cwd t k compute b →
      let b' := resume cwd t b
      (∀ s, b.stored? paths k = some s →
        b'.tasks.length = b.tasks.length ∧ b'.entries = b.entries ∧ AnsweredBy cwd t s b') ∧
      (b.stored? paths k = none →
        b'.tasks.length = b.tasks.length + 1 ∧
        b'.tasks[b.tasks.length]? = some { job := .shared compute, place := some (paths, k) } ∧
        b'.entries = b.entries ++ [⟨paths, k, b.tasks.length⟩] ∧
        AnsweredBy cwd t b.tasks.length b') := by
  intro b
  refine ⟨fun t hp => ?_, fun t k compute h => ⟨fun s hs => ?_, fun hs => ?_⟩⟩
  · obtain ⟨task, ht⟩ : ∃ task, b.tasks[t]? = some task := by
      cases h : b.tasks[t]? with
      | none => simp [Board.place?, h] at hp
      | some task => exact ⟨task, rfl⟩
    have hle : invocations t b ≤ limit task.job := invocations_le past ht
    exact Nat.le_trans hle (limit_le task.job)
  · obtain ⟨hlen, hent, hf⟩ := follows_hit h hs
    exact ⟨hlen, hent, answeredBy_of_follows past h hf⟩
  · obtain ⟨hlen, hnew, hent, hf⟩ := follows_miss h hs
    exact ⟨hlen, hnew, hent, answeredBy_of_follows past h hf⟩

/-- Two requests for one key: the second one is answered by the task that the first one
stored. -/
theorem requests_coalesce_two :
    let compute : Compute Nat := .gated "g"
    let b := after "/" {} [.get (.str "a") compute true, .get (.str "b/../a") compute true,
      .resume 0]
    Requests "/" 1 "/a" compute b ∧ b.stored? paths "/a" = some 2 ∧
      AnsweredBy "/" 1 2 (resume "/" 1 b) ∧ invocations 2 b ≤ 1 := by
  intro compute b
  have h : Requests "/" 1 "/a" compute b := ⟨.str "b/../a", rfl, rfl⟩
  have hs : b.stored? paths "/a" = some 2 := by decide
  have hp : b.place? 2 ≠ none := by decide
  have hall := requests_coalesce "/" [.get (.str "a") compute true,
    .get (.str "b/../a") compute true, .resume 0]
  exact ⟨h, hs, ((hall.2 1 "/a" compute h).1 2 hs).2.2, hall.1 2 hp⟩

end CachedViews.PathCache
