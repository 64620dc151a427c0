import CachedViews.Proofs.Task.Amid
import CachedViews.Proofs.Task.Usage

/-
# Tasks that look nothing up

A task that looks nothing up, and starts only tasks of its kind, does the same on any board:
nothing that is stored and no other task can make a difference to it. So a family of such
tasks is mirrored by a board of its own on which there is nothing else (`Board.Mirrors`): task
by task they are as far, have done the same and come to the same end. Their numbers differ,
since other tasks have numbers too.

This goes both ways. What a family does amid anything else, it does on a board of its own
(`Board.Mirrors.amid`), and what it may do on a board of its own, it may do amid anything
else (`Board.Mirrors.works`).

Key definitions: `Phase.Matches`, `Task.Twin`, `Board.Copies`, `Board.Mirrors`.
Key theorems: `Board.halt_of_uses`, `Board.Copies.run`, `Board.Copies.turn`, `Board.Mirrors.amid`,
`Board.Mirrors.works`, `Board.Mirrors.concludesAmid`.
-/

namespace CachedViews

variable {σ : Signature}

/-- Two phases are the same, if the task with the number `i` of the second board is the task
`ts[i]` of the first one. -/
inductive Phase.Matches (ts : List TaskId) : Phase σ → Phase σ → Prop
  | fresh : Matches ts .fresh .fresh
  | performing (op : σ.Op) (next : σ.Answer op → Program σ σ.Result) :
      Matches ts (.performing op next) (.performing op next)
  | gathering {us vs : List TaskId} (next : List σ.Result → Program σ σ.Result)
      (h : List.Forall₂ (fun u v => ts[v]? = some u) us vs) :
      Matches ts (.gathering us next) (.gathering vs next)
  | ended (o : Except Fault σ.Result) : Matches ts (.ended o) (.ended o)

/-- Two tasks are the same up to the numbers of tasks, and are not shared. Neither was asked to
stop. -/
structure Task.Twin (U : Usage σ) (ts : List TaskId) (x y : Task σ) : Prop where
  job : x.job = y.job
  places : x.place = none ∧ y.place = none
  unasked : x.cancelRequested = false ∧ y.cancelRequested = false
  phase : x.phase.Matches ts y.phase
  uses : y.phase.Uses U
  allowed : U.jobs y.job

theorem Phase.Matches.mono {ts new : List TaskId} {ph ph' : Phase σ} (h : ph.Matches ts ph') :
    ph.Matches (ts ++ new) ph' := by
  cases h with
  | fresh => exact .fresh
  | performing op next => exact .performing op next
  | gathering next h =>
    refine .gathering next (h.imp fun u v huv => ?_)
    rw [List.getElem?_append_left (List.getElem?_eq_some_iff.1 huv).1, huv]
  | ended o => exact .ended o

theorem Phase.Matches.outcome?_eq {ts : List TaskId} {ph ph' : Phase σ} (h : ph.Matches ts ph') :
    ph.outcome? = ph'.outcome? := by
  cases h <;> rfl

theorem Task.Twin.mono {U : Usage σ} {ts new : List TaskId} {x y : Task σ} (h : x.Twin U ts y) :
    x.Twin U (ts ++ new) y :=
  { h with phase := h.phase.mono }

/-- Two new tasks of the same job. -/
theorem Task.twin_new {U : Usage σ} {job : σ.Job} (ts : List TaskId) (h : U.jobs job) :
    ({ job := job } : Task σ).Twin U ts { job := job } :=
  ⟨rfl, ⟨rfl, rfl⟩, ⟨rfl, rfl⟩, .fresh, trivial, h⟩

namespace Board

variable {U : Usage σ} {program : σ.Job → Program σ σ.Result} {worlds : World σ → Prop}
  {w : World σ} {t i : Nat} {p : Program σ σ.Result} {b b' m m' : Board σ} {ts : List TaskId}
  {task : Task σ}

variable [DecidableEq σ.Cache]

/-! ### Programs that look nothing up -/

/-- Where a program stops that looks nothing up, it does on every board. -/
theorem halt_of_uses (hk : ∀ c k, ¬U.keys c k) (hp : p.Uses U) (w : World σ) (b m : Board σ) :
    halt w b p = halt w m p := by
  induction p with
  | done r => rfl
  | note n next ih => exact ih hp.2
  | ask op next ih => exact ih (w op) (hp.2 (w op))
  | perform op next ih => rfl
  | lookup c k job next ih => exact absurd hp.1 (hk c k)
  | gather jobs next ih =>
    rw [halt, halt]
    split
    · exact ih [] (hp.2 [])
    · rfl

theorem passed_of_uses (hk : ∀ c k, ¬U.keys c k) (hp : p.Uses U) (w : World σ) (b m : Board σ) :
    passed w b p = passed w m p := by
  induction p with
  | done r => rfl
  | note n next ih => rw [passed, passed, ih hp.2]
  | ask op next ih => rw [passed, passed, ih (w op) (hp.2 (w op))]
  | perform op next ih => rfl
  | lookup c k job next ih => exact absurd hp.1 (hk c k)
  | gather jobs next ih =>
    rw [passed, passed]
    split
    · exact ih [] (hp.2 [])
    · rfl

/-- The stop of a program that looks nothing up: it joins no task and stores none. -/
inductive Alone (U : Usage σ) : Halt σ → Prop
  | ended (o : Except Fault σ.Result) : Alone U (.ended o)
  | performing {op : σ.Op} {next : σ.Answer op → Program σ σ.Result}
      (h : ∀ a, (next a).Uses U) : Alone U (.performing op next)
  | gathering {jobs : List σ.Job} {next : List σ.Result → Program σ σ.Result} (hne : jobs ≠ [])
      (hj : ∀ job ∈ jobs, U.jobs job) (h : ∀ rs, (next rs).Uses U) :
      Alone U (.gathering jobs next)

theorem alone_halt (hk : ∀ c k, ¬U.keys c k) (hp : p.Uses U) (w : World σ) (b : Board σ) :
    Alone U (halt w b p) := by
  induction p with
  | done r => exact .ended r
  | note n next ih => exact ih hp.2
  | ask op next ih => exact ih (w op) (hp.2 (w op))
  | perform op next ih => exact .performing hp.2
  | lookup c k job next ih => exact absurd hp.1 (hk c k)
  | gather jobs next ih =>
    rw [halt]
    split
    · exact ih [] (hp.2 [])
    · exact .gathering (fun h => ‹¬_› (List.isEmpty_iff.2 h)) hp.1 hp.2

theorem Alone.entries_eq {h : Halt σ} (hh : Alone U h) (hp : b.place? t = none) :
    h.entries t b = b.entries := by
  cases hh with
  | ended o =>
    cases o with
    | ok r => rfl
    | error f => rw [Halt.entries, evict_of_no_place hp]
  | performing hn => rfl
  | gathering hne hj hn => rfl

/-- What is recorded at the stop is about the task. -/
theorem Alone.events_own {h : Halt σ} (hh : Alone U h) (hp : b.place? t = none) :
    ∀ ev ∈ h.events t b, (ev.actOf t).isSome = true := by
  intro ev hev
  cases hh with
  | ended o => cases o <;> simp [Halt.events, hp] at hev
  | performing hn =>
    obtain rfl := List.mem_singleton.1 hev
    simp [Event.actOf]
  | gathering hne hj hn => simp [Halt.events] at hev

/-- What is recorded on the way of a program that looks nothing up is about its task. -/
theorem trace_of_uses (hk : ∀ c k, ¬U.keys c k) (hp : p.Uses U) (w : World σ) (t : TaskId)
    (b : Board σ) : ∀ ev ∈ trace w t b p, (ev.actOf t).isSome = true := by
  induction p with
  | done r => simp [trace]
  | note n next ih =>
    intro ev hev
    rcases List.mem_append.1 hev with hev | hev
    · exact ih hp.2 ev hev
    · obtain rfl := List.mem_singleton.1 hev
      simp [Event.actOf]
  | ask op next ih =>
    intro ev hev
    rcases List.mem_append.1 hev with hev | hev
    · exact ih (w op) (hp.2 (w op)) ev hev
    · obtain rfl := List.mem_singleton.1 hev
      simp [Event.actOf]
  | perform op next ih => simp [trace]
  | lookup c k job next ih => exact absurd hp.1 (hk c k)
  | gather jobs next ih =>
    rw [trace]
    split
    · exact ih [] (hp.2 [])
    · simp

/-! ### A run that leaves no trace -/

/-- A task that is not shared and looks nothing up leaves the entries as they are, and records
only what it does itself. -/
theorem traceless_run (hk : ∀ c k, ¬U.keys c k) (hp : p.Uses U) (ht : b.tasks[t]? = some task)
    (hpl : task.place = none) : (run w t p b).entries = b.entries ∧
      ∃ es, (run w t p b).journal = es ++ b.journal ∧
        ∀ ev ∈ es, (ev.actOf t).isSome = true := by
  have hlt := lt_of_getElem? ht
  have hplace : b.place? t = none := (place?_eq ht).trans hpl
  have halone := alone_halt hk hp w b
  refine ⟨(entries_run hlt).trans (halone.entries_eq hplace), _,
    (journal_run hlt).trans (List.append_assoc _ _ _).symm, fun ev hev => ?_⟩
  rcases List.mem_append.1 hev with hev | hev
  · exact halone.events_own hplace ev hev
  · exact trace_of_uses hk hp w t b ev hev

/-- A task that goes on and looks nothing up changes the board. -/
theorem run_ne_of_uses (hk : ∀ c k, ¬U.keys c k) (hp : p.Uses U) (ht : b.tasks[t]? = some task)
    (ho : task.phase.outcome? = none) : run w t p b ≠ b := by
  intro he
  have hlt := lt_of_getElem? ht
  have hself := getElem?_run_self (w := w) (p := p) ht
  have hlen := length_run (w := w) (p := p) hlt
  have hjournal := congrArg List.length (journal_run (w := w) (p := p) hlt)
  have halone := alone_halt hk hp w b
  rw [he] at hself hlen hjournal
  -- it ends, or begins an operation, or starts tasks
  generalize halt w b p = h at hself hlen hjournal halone
  cases halone with
  | ended o =>
    rw [Option.some.inj (ht.symm.trans hself)] at ho
    cases ho
  | performing hn =>
    simp only [Halt.events, List.length_append, List.length_singleton] at hjournal
    omega
  | gathering hne hj hn =>
    simp only [Halt.started, List.length_map] at hlen
    exact hne (List.length_eq_zero_iff.1 (by omega))

/-! ### A family and its mirror -/

/-- The tasks `ts` of the board `b` are, in their order, the tasks of the board `m`, which stores
nothing, and have done the same. -/
structure Copies (U : Usage σ) (ts : List TaskId) (b m : Board σ) : Prop where
  nodup : ts.Nodup
  length : m.tasks.length = ts.length
  entries : m.entries = []
  unbegun : Unbegun b ∧ Unbegun m
  tasks : ∀ (i t : Nat), ts[i]? = some t → ∃ x y, b.tasks[t]? = some x ∧
    m.tasks[i]? = some y ∧ x.Twin U ts y
  accounts : ∀ (i t : Nat), ts[i]? = some t → b.account t = m.account i

/-- The tasks `ts` of the board `b` are mirrored by the board `m`: they are its tasks, and keep to
themselves. -/
structure Mirrors (U : Usage σ) (ts : List TaskId) (b m : Board σ) : Prop
    extends Copies U ts b m where
  secluded : Secluded ts b

omit [DecidableEq σ.Cache] in
theorem Copies.outcome?_eq (h : Copies U ts b m) (hi : ts[i]? = some t) :
    b.outcome? t = m.outcome? i := by
  obtain ⟨x, y, hx, hy, htwin⟩ := h.tasks i t hi
  rw [Board.outcome?_eq hx, Board.outcome?_eq hy, htwin.phase.outcome?_eq]

omit [DecidableEq σ.Cache] in
theorem Copies.firstFault?_eq (h : Copies U ts b m) {us vs : List TaskId}
    (huv : List.Forall₂ (fun u v => ts[v]? = some u) us vs) :
    b.firstFault? us = m.firstFault? vs := by
  induction huv with
  | nil => rfl
  | cons hu _ ih => rw [firstFault?, firstFault?, h.outcome?_eq hu, ih]

omit [DecidableEq σ.Cache] in
theorem Copies.results?_eq (h : Copies U ts b m) {us vs : List TaskId}
    (huv : List.Forall₂ (fun u v => ts[v]? = some u) us vs) :
    b.results? us = m.results? vs := by
  induction huv with
  | nil => rfl
  | cons hu _ ih => rw [results?, results?, h.outcome?_eq hu, ih]

omit [DecidableEq σ.Cache] in
/-- A task that has not begun is a copy of the only task of a board. -/
theorem copies_fresh (hb : Unbegun b) (ht : b.tasks[t]? = some task) (hpl : task.place = none)
    (hc : task.cancelRequested = false) (hp : task.phase = .fresh) (hj : U.jobs task.job)
    (ha : b.account t = []) : Copies U [t] b (spawn task.job ({} : Board σ)).2 where
  nodup := List.nodup_singleton t
  length := rfl
  entries := rfl
  unbegun := ⟨hb, fun _ _ => rfl⟩
  tasks i u hi := by
    obtain ⟨rfl, rfl⟩ : i = 0 ∧ u = t := by
      cases i with
      | zero => exact ⟨rfl, (Option.some.inj hi).symm⟩
      | succ i => simp at hi
    have hmatches : task.phase.Matches [u] .fresh := by
      rw [hp]
      exact .fresh
    exact ⟨task, { job := task.job }, ht, rfl, rfl, ⟨hpl, rfl⟩, ⟨hc, rfl⟩, hmatches, trivial, hj⟩
  accounts i u hi := by
    obtain rfl := List.mem_singleton.1 (List.mem_of_getElem? hi)
    exact ha

/-- A job that is started is mirrored by the same job on an empty board. -/
theorem mirrors_spawn {job : σ.Job} (ho : Orderly b) (hu : Unbegun b) (hj : U.jobs job) :
    Mirrors U [b.tasks.length] (b.spawn job).2 (spawn job ({} : Board σ)).2 where
  toCopies := copies_fresh (secluded_spawn ho hu job).unbegun List.getElem?_concat_length rfl rfl
    rfl hj (hu _ (Nat.le_refl _))
  secluded := secluded_spawn ho hu job

/-- What happens elsewhere does not matter. -/
theorem Mirrors.elsewhere (h : Mirrors U ts b m) (hs : Elsewhere program ts b b') :
    Mirrors U ts b' m where
  nodup := h.nodup
  length := h.length
  entries := h.entries
  unbegun := ⟨(h.secluded.elsewhere hs).unbegun, h.unbegun.2⟩
  tasks i t hi := by
    rw [(h.secluded.task_of_elsewhere hs (List.mem_of_getElem? hi)).1]
    exact h.tasks i t hi
  accounts i t hi := by
    rw [(h.secluded.task_of_elsewhere hs (List.mem_of_getElem? hi)).2]
    exact h.accounts i t hi
  secluded := h.secluded.elsewhere hs

/-! ### A turn -/

/-- The board behind a turn of a task, and the one behind the same turn in the mirror: nothing
happened on either, or both tasks went on with the same program. -/
inductive SameTurn (U : Usage σ) (w : World σ) (t i : TaskId) (b m : Board σ) :
    Board σ → Board σ → Prop
  | nothing : SameTurn U w t i b m b m
  | goesOn {x y : Task σ} {p : Program σ σ.Result} (hx : b.tasks[t]? = some x)
      (hy : m.tasks[i]? = some y) (ho : y.phase.outcome? = none) (hp : p.Uses U) :
      SameTurn U w t i b m (Board.run w t p b) (Board.run w i p m)

theorem Copies.resume (h : Copies U ts b m) (hprog : ∀ job, U.jobs job → (program job).Uses U)
    (hi : ts[i]? = some t) (w : World σ) :
    SameTurn U w t i b m (b.resume program w t) (m.resume program w i) := by
  obtain ⟨x, y, hx, hy, htwin⟩ := h.tasks i t hi
  have hgo : ∀ {q : Program σ σ.Result}, y.phase.outcome? = none → q.Uses U →
      SameTurn U w t i b m (Board.run w t q b) (Board.run w i q m) := fun ho hq =>
    .goesOn hx hy ho hq
  have hphase := htwin.phase
  have huses := htwin.uses
  unfold Board.resume
  rw [hx, hy]
  simp only [htwin.unasked.1, htwin.unasked.2, htwin.job]
  generalize hph : x.phase = ph at hphase
  generalize hph' : y.phase = ph' at hphase huses
  rw [hph'] at hgo
  cases hphase with
  | fresh => exact hgo rfl (hprog _ htwin.allowed)
  | performing op next => exact .nothing
  | gathering next huv =>
    simp only [h.firstFault?_eq huv, h.results?_eq huv]
    rcases m.firstFault? _ with _ | f
    · rcases m.results? _ with _ | rs
      · exact .nothing
      · exact hgo rfl (huses rs)
    · have hfail := hgo (q := .done (.error f)) rfl trivial
      rwa [run_done, run_done] at hfail
  | ended o => exact .nothing

theorem complete_of_not_performing (ht : b.tasks[t]? = some task)
    (hp : ∀ op next, task.phase ≠ .performing op next) : b.complete w t = b := by
  unfold Board.complete
  split
  · rename_i op next h
    rw [ht] at h
    exact absurd (congrArg Task.phase (Option.some.inj h)) (hp op next)
  · rfl

theorem Copies.complete (h : Copies U ts b m) (hi : ts[i]? = some t) (w : World σ) :
    SameTurn U w t i b m (b.complete w t) (m.complete w i) := by
  obtain ⟨x, y, hx, hy, htwin⟩ := h.tasks i t hi
  have hphase := htwin.phase
  have huses := htwin.uses
  generalize hph : x.phase = ph at hphase
  generalize hph' : y.phase = ph' at hphase huses
  have hnothing : (∀ op next, ph ≠ .performing op next) → (∀ op next, ph' ≠ .performing op next) →
      SameTurn U w t i b m (b.complete w t) (m.complete w i) := by
    intro hn hn'
    rw [complete_of_not_performing hx (hph ▸ hn), complete_of_not_performing hy (hph' ▸ hn')]
    exact .nothing
  cases hphase with
  | performing op next =>
    rw [complete_of_performing w hx htwin.unasked.1 hph,
      complete_of_performing w hy htwin.unasked.2 hph']
    exact .goesOn hx hy (by rw [hph']; rfl) (huses (w op))
  | fresh => exact hnothing nofun nofun
  | gathering next huv => exact hnothing nofun nofun
  | ended o => exact hnothing nofun nofun

omit [DecidableEq σ.Cache] in
/-- The phases of two tasks at the same stop match, if the tasks that they start are matched. -/
theorem Alone.matches {h : Halt σ} (hh : Alone U h) (ts : List TaskId) (n : Nat) :
    (h.phase n).Matches (ts ++ List.range' n h.started.length) (h.phase ts.length) := by
  cases hh with
  | ended o => exact .ended o
  | performing hn => exact .performing _ _
  | @gathering jobs next hne hj hn =>
    refine .gathering next (List.forall₂_iff_get.2 ⟨by simp, fun k hk hk' => ?_⟩)
    simp only [List.length_range'] at hk
    simp only [List.get_eq_getElem, List.getElem_range', Nat.one_mul]
    rw [List.getElem?_append_right (Nat.le_add_right _ _), Nat.add_sub_cancel_left,
      List.getElem?_range' (by simpa [Halt.started] using hk), Nat.one_mul]

omit [DecidableEq σ.Cache] in
theorem Alone.uses {h : Halt σ} (hh : Alone U h) (n : Nat) : (h.phase n).Uses U := by
  cases hh with
  | ended o => trivial
  | performing hn => exact hn
  | gathering hne hj hn => exact hn

omit [DecidableEq σ.Cache] in
/-- A task that is started is its own twin on another board. -/
theorem Alone.twin_started {h : Halt σ} (hh : Alone U h) (ts : List TaskId) {x : Task σ}
    (hx : x ∈ h.started) : x.Twin U ts x := by
  cases hh with
  | ended o => simp [Halt.started] at hx
  | performing hn => simp [Halt.started] at hx
  | gathering hne hj hn =>
    obtain ⟨job, hjob, rfl⟩ := List.mem_map.1 hx
    exact Task.twin_new ts (hj job hjob)

omit [DecidableEq σ.Cache] in
theorem Copies.nodup_append (h : Copies U ts b m) (b' : Board σ) :
    (ts ++ newTasks b b').Nodup := by
  refine List.nodup_append.2 ⟨h.nodup, List.nodup_range', fun u hu v hv he => ?_⟩
  subst he
  obtain ⟨i, hi⟩ := List.mem_iff_getElem?.1 hu
  obtain ⟨x, -, hx, -⟩ := h.tasks i u hi
  exact absurd (lt_of_getElem? hx) (Nat.not_lt.2 (mem_newTasks.1 hv).1)

omit [DecidableEq σ.Cache] in
/-- A task behind a turn is the one whose turn it was, another one of the family, or a new one. -/
theorem Copies.task_cases (h : Copies U ts b m) (hi : ts[i]? = some t) {n j : Nat}
    (hj : (ts ++ List.range' b.tasks.length n)[j]? = some u) :
    (j = i ∧ u = t) ∨ (j ≠ i ∧ u ≠ t ∧ ts[j]? = some u) ∨
      ∃ k < n, j = m.tasks.length + k ∧ u = b.tasks.length + k := by
  by_cases hlt : j < ts.length
  · rw [List.getElem?_append_left hlt] at hj
    by_cases hji : j = i
    · subst hji
      exact .inl ⟨rfl, Option.some.inj (hj.symm.trans hi)⟩
    · refine .inr (.inl ⟨hji, fun hut => hji ?_, hj⟩)
      exact (List.getElem?_inj hlt h.nodup).1 (hj.trans (hut ▸ hi.symm))
  · have hle : ts.length ≤ j := Nat.le_of_not_lt hlt
    rw [List.getElem?_append_right hle, List.getElem?_eq_some_iff] at hj
    obtain ⟨hnew, hget⟩ := hj
    rw [List.length_range'] at hnew
    rw [List.getElem_range', Nat.one_mul] at hget
    exact .inr (.inr ⟨j - ts.length, hnew, by rw [h.length]; omega, hget.symm⟩)

/-- The board and its copy when a task and its twin have gone on with the same program. -/
theorem Copies.run (h : Copies U ts b m) (hk : ∀ c k, ¬U.keys c k) (hi : ts[i]? = some t)
    (hp : p.Uses U) :
    Copies U (ts ++ newTasks b (Board.run w t p b)) (Board.run w t p b) (Board.run w i p m) := by
  have hnodup := h.nodup_append (Board.run w t p b)
  obtain ⟨x, y, hx, hy, htwin⟩ := h.tasks i t hi
  have ht := lt_of_getElem? hx
  have him := lt_of_getElem? hy
  have halone := alone_halt hk hp w b
  have hhalt : halt w m p = halt w b p := halt_of_uses hk hp w m b
  have hpassed : passed w m p = passed w b p := passed_of_uses hk hp w m b
  have hnew : newTasks b (Board.run w t p b) =
      List.range' b.tasks.length (halt w b p).started.length := by
    rw [newTasks, length_run ht, Nat.add_sub_cancel_left]
  rw [hnew] at hnodup ⊢
  refine ⟨hnodup, ?_, ?_, ⟨h.unbegun.1.run ht, h.unbegun.2.run him⟩, fun j u hj => ?_,
    fun j u hj => ?_⟩
  · rw [length_run him, hhalt, h.length, List.length_append, List.length_range']
  · exact (traceless_run hk hp hy htwin.places.2).1.trans h.entries
  · rcases h.task_cases hi hj with ⟨rfl, rfl⟩ | ⟨hji, hut, hj⟩ | ⟨k, hk', rfl, rfl⟩
    · refine ⟨_, _, getElem?_run_self hx, getElem?_run_self hy, ?_⟩
      rw [hhalt, h.length]
      exact { htwin with phase := halone.matches ts _, uses := halone.uses _ }
    · obtain ⟨x', y', hx', hy', htwin'⟩ := h.tasks j u hj
      refine ⟨x', y', ?_, ?_, htwin'.mono⟩
      · rw [getElem?_run_of_ne ht (lt_of_getElem? hx') hut, hx']
      · rw [getElem?_run_of_ne him (lt_of_getElem? hy') hji, hy']
    · have hstarted := List.getElem?_eq_getElem hk'
      refine ⟨_, _, ?_, ?_, halone.twin_started _ (List.getElem_mem hk')⟩
      · rw [getElem?_run_new ht (Nat.le_add_right _ _), Nat.add_sub_cancel_left, hstarted]
      · rw [getElem?_run_new him (Nat.le_add_right _ _), Nat.add_sub_cancel_left, hhalt, hstarted]
  · rw [account_run ht, account_run him]
    rcases h.task_cases hi hj with ⟨rfl, rfl⟩ | ⟨hji, hut, hj⟩ | ⟨k, -, rfl, rfl⟩
    · rw [if_pos rfl, if_pos rfl, hhalt, hpassed, h.accounts _ _ hi]
    · rw [if_neg (Ne.symm hji), if_neg (Ne.symm hut), h.accounts _ _ hj]
    · rw [if_neg (by omega), if_neg (by omega), h.unbegun.2 _ (Nat.le_add_right _ _),
        h.unbegun.1 _ (Nat.le_add_right _ _)]

/-! ### Turns on both sides -/

section Turns

variable (hk : ∀ c k, ¬U.keys c k) (hprog : ∀ job, U.jobs job → (program job).Uses U)

/-- A turn of a task of the family leaves the entries as they are, and what it records is what
the task does itself. -/
structure Traceless (t : TaskId) (b b' : Board σ) : Prop where
  entries : b'.entries = b.entries
  journal : ∃ es, b'.journal = es ++ b.journal ∧ ∀ ev ∈ es, (ev.actOf t).isSome = true

include hk in
theorem Copies.sameTurn (h : Copies U ts b m) (hi : ts[i]? = some t)
    (hsame : SameTurn U w t i b m b' m') :
    Copies U (ts ++ newTasks b b') b' m' ∧ (b' = b ↔ m' = m) ∧ Traceless t b b' := by
  cases hsame with
  | nothing =>
    have hnone : ts ++ newTasks b b = ts := by simp [newTasks]
    rw [hnone]
    exact ⟨h, by simp, rfl, [], rfl, by simp⟩
  | @goesOn x y p hx hy ho hp =>
    obtain ⟨x', y', hx', hy', htwin⟩ := h.tasks i t hi
    obtain rfl := Option.some.inj (hx.symm.trans hx')
    obtain rfl := Option.some.inj (hy.symm.trans hy')
    obtain ⟨hentries, hjournal⟩ := traceless_run (w := w) hk hp hx htwin.places.1
    refine ⟨h.run hk hi hp, ?_, hentries, hjournal⟩
    exact iff_of_false (run_ne_of_uses hk hp hx (htwin.phase.outcome?_eq.trans ho))
      (run_ne_of_uses hk hp hy ho)

include hk hprog in
/-- **A turn of a task is copied by the turn of its twin**, changes something exactly when that does,
and leaves no trace. -/
theorem Copies.turn (h : Copies U ts b m) (hi : ts[i]? = some t) (hs : Turn program w t b b') :
    ∃ m', Turn program w i m m' ∧ Copies U (ts ++ newTasks b b') b' m' ∧ (b' = b ↔ m' = m) ∧
      Traceless t b b' := by
  cases hs with
  | resume => exact ⟨_, .resume, h.sameTurn hk hi (h.resume hprog hi w)⟩
  | complete => exact ⟨_, .complete, h.sameTurn hk hi (h.complete hi w)⟩

include hk hprog in
/-- The turn of a twin copies the turn of its task. -/
theorem Copies.turn_back (h : Copies U ts b m) (hi : ts[i]? = some t)
    (hs : Turn program w i m m') :
    ∃ b', Turn program w t b b' ∧ Copies U (ts ++ newTasks b b') b' m' ∧ (b' = b ↔ m' = m) := by
  cases hs with
  | resume =>
    have hcopy := h.sameTurn hk hi (h.resume hprog hi w)
    exact ⟨_, .resume, hcopy.1, hcopy.2.1⟩
  | complete =>
    have hcopy := h.sameTurn hk hi (h.complete hi w)
    exact ⟨_, .complete, hcopy.1, hcopy.2.1⟩

include hk hprog in
/-- Tasks that keep to themselves do so after a turn of one of them. -/
theorem Mirrors.turn (h : Mirrors U ts b m) (hi : ts[i]? = some t) (hs : Turn program w t b b') :
    ∃ m', Turn program w i m m' ∧ Mirrors U (ts ++ newTasks b b') b' m' ∧ (b' = b ↔ m' = m) ∧
      Traceless t b b' := by
  obtain ⟨m', hturn, hcopies, hrest⟩ := h.toCopies.turn hk hprog hi hs
  exact ⟨m', hturn, ⟨hcopies, h.secluded.turn (List.mem_of_getElem? hi) hs⟩, hrest⟩

include hk hprog in
theorem Mirrors.turn_back (h : Mirrors U ts b m) (hi : ts[i]? = some t)
    (hs : Turn program w i m m') :
    ∃ b', Turn program w t b b' ∧ Mirrors U (ts ++ newTasks b b') b' m' ∧ (b' = b ↔ m' = m) := by
  obtain ⟨b', hturn, hcopies, hiff⟩ := h.toCopies.turn_back hk hprog hi hs
  exact ⟨b', hturn, ⟨hcopies, h.secluded.turn (List.mem_of_getElem? hi) hturn⟩, hiff⟩

/-! ### Runs on both sides -/

theorem Turn.works (hw : worlds w) (h : Turn program w t b b') : Works program worlds b b' := by
  cases h with
  | resume => exact .resume hw t
  | complete => exact .complete hw t

theorem Works.turn (h : Works program worlds b b') : ∃ w t, worlds w ∧ Turn program w t b b' := by
  cases h with
  | resume hw t => exact ⟨_, t, hw, .resume⟩
  | complete hw t => exact ⟨_, t, hw, .complete⟩

/-- A task that there is not has no turn. -/
theorem Turn.eq_of_length_le (h : Turn program w t b b') (ht : b.tasks.length ≤ t) : b' = b := by
  have hnone : b.tasks[t]? = none := List.getElem?_eq_none ht
  cases h with
  | resume => rw [Board.resume, hnone]
  | complete => rw [Board.complete, hnone]

/-- The tasks of a family stay in their places. -/
theorem Amid.family {s s' : List TaskId × Board σ}
    (hs : Relation.ReflTransGen (Amid program worlds) s s') (hi : s.1[i]? = some t) :
    s'.1[i]? = some t := by
  induction hs with
  | refl => exact hi
  | tail _ hs ih =>
    cases hs with
    | own hw ht h => exact (List.getElem?_append_left (List.getElem?_eq_some_iff.1 ih).1).trans ih
    | other h => exact ih

/-- A family stays as it was mirrored, whatever happens elsewhere. -/
theorem Mirrors.elsewheres (h : Mirrors U ts b m)
    (hs : Relation.ReflTransGen (Elsewhere program ts) b b') : Mirrors U ts b' m := by
  induction hs with
  | refl => exact h
  | tail _ hs ih => exact ih.elsewhere hs

include hk hprog in
/-- **What a family does amid anything else, it does on a board of its own.** -/
theorem Mirrors.amid {s s' : List TaskId × Board σ} (h : Mirrors U s.1 s.2 m)
    (hs : Relation.ReflTransGen (Amid program worlds) s s') :
    ∃ m', Relation.ReflTransGen (Works program worlds) m m' ∧ Mirrors U s'.1 s'.2 m' := by
  induction hs with
  | refl => exact ⟨m, .refl, h⟩
  | tail _ hs ih =>
    obtain ⟨m', hm, h'⟩ := ih
    cases hs with
    | own hw ht hturn =>
      obtain ⟨i, hi⟩ := List.mem_iff_getElem?.1 ht
      obtain ⟨m'', hturn', h'', -⟩ := h'.turn hk hprog hi hturn
      exact ⟨m'', hm.tail (hturn'.works hw), h''⟩
    | other helse => exact ⟨m', hm, h'.elsewhere helse⟩

include hk hprog in
/-- **What a family may do on a board of its own, it may do amid anything else.** -/
theorem Mirrors.works {s : List TaskId × Board σ} (h : Mirrors U s.1 s.2 m)
    (hs : Relation.ReflTransGen (Works program worlds) m m') :
    ∃ s', Relation.ReflTransGen (Amid program worlds) s s' ∧ Mirrors U s'.1 s'.2 m' := by
  induction hs with
  | refl => exact ⟨s, .refl, h⟩
  | tail _ hs ih =>
    obtain ⟨⟨ts, b⟩, hb, h'⟩ := ih
    obtain ⟨w, i, hw, hturn⟩ := hs.turn
    by_cases hi : i < ts.length
    · obtain ⟨b', hturn', h'', -⟩ := h'.turn_back hk hprog (List.getElem?_eq_getElem hi) hturn
      exact ⟨_, hb.tail (.own hw (List.getElem_mem hi) hturn'), h''⟩
    · rw [hturn.eq_of_length_le (by rw [h'.length]; exact Nat.le_of_not_lt hi)]
      exact ⟨_, hb, h'⟩

include hk hprog in
/-- A family may end amid other work as it may on a board of its own. -/
theorem Mirrors.mayEndAmid_iff {s : List TaskId × Board σ} (h : Mirrors U s.1 s.2 m)
    (hi : s.1[i]? = some t) (o : Except Fault σ.Result) :
    MayEndAmid program worlds t o s ↔ MayEnd program worlds i o m := by
  constructor
  · rintro ⟨ts, b, hs, ho⟩
    obtain ⟨m', hm, h'⟩ := h.amid hk hprog hs
    exact ⟨m', hm, (h'.outcome?_eq (Amid.family hs hi)).symm.trans ho⟩
  · rintro ⟨m', hm, ho⟩
    obtain ⟨⟨ts, b⟩, hs, h'⟩ := h.works hk hprog hm
    exact ⟨ts, b, hs, (h'.outcome?_eq (Amid.family hs hi)).trans ho⟩

include hk hprog in
/-- There is no endless work amid other work where there is none on a board of one's own. -/
theorem Mirrors.acc_advances (ha : Acc (fun m' m => Works program worlds m m' ∧ m' ≠ m) m)
    {s : List TaskId × Board σ} (h : Mirrors U s.1 s.2 m) :
    Acc (fun s' s => Advances program worlds s s') s := by
  induction ha generalizing s with
  | intro m _ ih =>
    refine ⟨s, fun s' hadv => ?_⟩
    obtain ⟨b, helse, w, t, b', hw, ht, hturn, hne, rfl⟩ := hadv
    obtain ⟨i, hi⟩ := List.mem_iff_getElem?.1 ht
    obtain ⟨m', hturn', h', hiff, -⟩ := (h.elsewheres helse).turn hk hprog hi hturn
    exact ih m' ⟨hturn'.works hw, fun he => hne (hiff.2 he)⟩ h'

include hk hprog in
/-- **Work comes to its end amid other work if it does on a board of its own.** -/
theorem Mirrors.concludesAmid {s : List TaskId × Board σ} (h : Mirrors U s.1 s.2 m)
    (hi : s.1[i]? = some t) (hc : Concludes program worlds i m) :
    ConcludesAmid program worlds t s := by
  refine ⟨h.acc_advances hk hprog hc.1, fun ts b hs hrest => ?_⟩
  obtain ⟨m', hm, h'⟩ := h.amid hk hprog hs
  rw [h'.outcome?_eq (Amid.family hs hi)]
  refine hc.2 m' hm fun m'' hwork => ?_
  -- a turn in the mirror is that of a task, which changes nothing any more
  obtain ⟨w, j, hw, hturn⟩ := hwork.turn
  by_cases hj : j < ts.length
  · have hget := List.getElem?_eq_getElem hj
    obtain ⟨b', hturn', -, hiff⟩ := h'.turn_back hk hprog hget hturn
    exact hiff.1 (hrest w _ b' hw (List.getElem_mem hj) hturn')
  · exact hturn.eq_of_length_le (by rw [h'.length]; exact Nat.le_of_not_lt hj)

/-! ### Where all other tasks have ended -/

/-- All tasks but the given ones have ended. -/
def OthersEnded (ts : List TaskId) (b : Board σ) : Prop :=
  ∀ (u : Nat) (x : Task σ), u ∉ ts → b.tasks[u]? = some x → x.phase.outcome? ≠ none

/-- A task that has ended, or that there is not, has no turn. -/
theorem Turn.eq_of_ended (h : Turn program w t b b')
    (ho : ∀ task, b.tasks[t]? = some task → task.phase.outcome? ≠ none) : b' = b := by
  cases ht : b.tasks[t]? with
  | none => exact h.eq_of_length_le (List.getElem?_eq_none_iff.1 ht)
  | some task =>
    have hend := ho task ht
    cases hp : task.phase with
    | ended o =>
      cases h with
      | resume => rw [Board.resume, ht]; simp only [hp]
      | complete => exact complete_of_not_performing ht (by simp [hp])
    | _ => simp [hp, Phase.outcome?] at hend

/-- New tasks are among those of the family. -/
theorem OthersEnded.turn (ho : OthersEnded ts b) (h : Turn program w t b b') :
    OthersEnded (ts ++ newTasks b b') b' := by
  intro u x hu hx
  rw [List.mem_append, not_or, mem_newTasks] at hu
  have hlt : u < b.tasks.length := by
    have hlen := lt_of_getElem? hx
    omega
  have hy := List.getElem?_eq_getElem hlt
  obtain ⟨x', hx', hlater⟩ := h.step.grows u _ hy
  obtain rfl := Option.some.inj (hx.symm.trans hx')
  have hend := ho u _ hu.1 hy
  rw [hlater.ended hend]
  exact hend

include hk hprog in
/-- **A family that is alone at work leaves the entries as they are.** -/
theorem Mirrors.entries_works (h : Mirrors U ts b m) (ho : OthersEnded ts b)
    (hs : Relation.ReflTransGen (Works program worlds) b b') : b'.entries = b.entries := by
  suffices hrun : b'.entries = b.entries ∧ ∃ ts' m', Mirrors U ts' b' m' ∧ OthersEnded ts' b' from
    hrun.1
  induction hs with
  | refl => exact ⟨rfl, ts, m, h, ho⟩
  | tail _ hs ih =>
    obtain ⟨he, ts', m', h', ho'⟩ := ih
    obtain ⟨w, t, -, hturn⟩ := hs.turn
    by_cases ht : t ∈ ts'
    · obtain ⟨i, hi⟩ := List.mem_iff_getElem?.1 ht
      obtain ⟨m'', -, h'', -, htrace⟩ := h'.turn hk hprog hi hturn
      exact ⟨htrace.entries.trans he, _, m'', h'', ho'.turn hturn⟩
    · rw [hturn.eq_of_ended fun task htask => ho' t task ht htask]
      exact ⟨he, ts', m', h', ho'⟩

end Turns

end Board

end CachedViews
