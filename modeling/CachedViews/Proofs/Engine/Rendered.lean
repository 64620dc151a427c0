import CachedViews.Proofs.Engine.Once

/-
# A view rendered through the caches

A view that uses caches is started on a desk where no work is in flight, the files stay as
they are, and the work is done in any order until nothing is left to do
(`Engine.Rendered`). Each step keeps what is known of the desk (`Engine.Rendering.working`):
shared tasks end as forecast, and those that do not fail stay stored. So in the end the
caches hold what they held before and the results of all new shared tasks that went well
(`Engine.Rendered.stored_iff`), and nothing was looked up that is found in a cache
(`Engine.Rendered.place_of_event`).

Key definitions: `Engine.Sane`, `Engine.Working`, `Engine.Rendering`, `Engine.Rendered`.
Key theorems: `Engine.Rendering.working`, `Engine.Rendered.rendering`,
`Engine.Rendered.atRest_of_rests`, `Engine.Rendered.stored_iff`,
`Engine.Rendered.place_of_event`.
-/

namespace CachedViews.Engine

/-- What is true of every desk that an engine comes to, whatever the files were. -/
structure Sane (e : Engine) (d : Desk) : Prop where
  recorded : e.Recorded (fun _ => True) d
  dated : Board.Dated d
  unbegun : Board.Unbegun d

/-- A step of the work while the files stay as they are. Templates are numbered in any way. -/
abbrev Working (e : Engine) (tree : FileTree) : Desk → Desk → Prop :=
  Board.Works e.program fun w => ∃ n, w = e.world tree n

/-- What is true while a view is rendered that was started on the desk `d`. -/
structure Rendering (e : Engine) (tree : FileTree) (d b : Desk) : Prop where
  sane : e.Sane b
  followed : e.Followed (fun _ => True) (· = tree) d b
  upheld : Board.Upheld ((e.cachedRegime d tree).contract e) d b
  kept : Board.Kept lookupAudit d.tasks.length b
  held : Board.Held d.tasks.length b
  stays : ∀ c k s, Board.stored? (σ := signature) d c k = some s →
    Board.stored? (σ := signature) b c k = some s
  idle : ∀ u, u < d.tasks.length →
    Board.account (σ := signature) b u = Board.account (σ := signature) d u

/-- A view was started on the desk `d`, and all work has been done on the desk `d'`. -/
structure Rendered (e : Engine) (tree : FileTree) (file options : Value) (d d' : Desk) : Prop where
  works : Relation.ReflTransGen (e.Working tree) (start (.view file options) d).2 d'
  atRest : AtRest d'

variable {e : Engine} {trees : FileTree → Prop} {tree : FileTree} {d d' b b' : Desk}
  {file options : Value} {c : CacheName} {k : String} {s u : Nat}

/-! ### Sane desks -/

theorem Reached.sane (h : e.Reached trees d) : e.Sane d := by
  have h' : e.Reached (fun _ => True) d := h.mono fun _ _ => trivial
  refine ⟨h'.recorded, dated_reached h', ?_⟩
  clear h
  induction h' with
  | refl => exact fun _ _ => rfl
  | tail _ hs ih => exact ih.onward hs.onward

theorem Sane.happens (h : e.Sane b) (hs : e.Happens (fun _ => True) b b') : e.Sane b' where
  recorded := h.recorded.happens hs
  dated := h.dated.onward hs.onward
  unbegun := h.unbegun.onward hs.onward

theorem Sane.start (h : e.Sane d) (job : Job) : e.Sane (start job d).2 := h.happens (.start job)

theorem onward_working (h : e.Working tree b b') :
    Board.Onward e.program (e.records (· = tree)).answer b b' := by
  obtain ⟨w, t, ⟨n, rfl⟩, hm⟩ := h.move
  exact .move (fun op => ⟨tree, n, rfl, rfl⟩) hm

theorem Recorded.working (h : e.Recorded trees b) (ht : trees tree)
    (hs : e.Working tree b b') : e.Recorded trees b' := by
  obtain ⟨w, t, ⟨n, rfl⟩, hm⟩ := hs.move
  exact h.move ht hm

theorem Sane.working (h : e.Sane b) (hs : e.Working tree b b') : e.Sane b' where
  recorded := h.recorded.working trivial hs
  dated := h.dated.onward (onward_working hs)
  unbegun := h.unbegun.onward (onward_working hs)

/-- What was started on a sane desk may be followed from there. -/
theorem Sane.followed (h : e.Sane d) (later : FileTree → Prop) :
    e.Followed (fun _ => True) later d d where
  recorded := by
    have hall : (fun tree => True ∨ later tree) = fun _ : FileTree => True :=
      funext fun _ => propext (or_iff_left_of_imp fun _ => trivial)
    rw [hall]
    exact h.recorded
  dated := h.dated
  traced := .refl h.recorded.upheld.orderly

theorem Followed.working (h : e.Followed trees (· = tree) d b) (hs : e.Working tree b b') :
    e.Followed trees (· = tree) d b' where
  recorded := h.recorded.working (.inr rfl) hs
  dated := h.dated
  traced := h.traced.onward (onward_working hs)

/-! ### While the work goes on -/

/-- The answers of the files are those that the caches leave open. -/
theorem answers_cached (e : Engine) (d : Desk) (tree : FileTree) (w : World signature)
    (hw : ∃ n, w = e.world tree n) (op : Op) : (e.cachedRegime d tree).answer e op (w op) := by
  obtain ⟨n, rfl⟩ := hw
  exact answer_cached e d tree n op

theorem allowed_cached (e : Engine) (d : Desk) (tree : FileTree) (file : Value)
    (hc : Caches options) : (e.cachedRegime d tree).allowed e (.view file options) :=
  fun _ hp => .inl (hc.planView hp)

theorem rendering_start (hd : e.Sane d) (hr : AtRest d) (hc : Caches options) :
    e.Rendering tree d (start (.view file options) d).2 where
  sane := hd.start (.view file options)
  followed := (hd.followed _).happens (.start _)
  upheld := (settled_cached hd.recorded hr tree).upheld.spawn (allowed_cached e d tree file hc)
  kept := (Board.kept_ended lookupAudit hd.unbegun hr).spawn (iff_of_true hc rfl)
  held := (Board.held_length d).spawn _
  stays _ _ _ hs := hs
  idle _ _ := rfl

/-- **What is known of the desk is kept by every step.** -/
theorem Rendering.working (h : e.Rendering tree d b) (hd : e.Sane d) (hr : AtRest d)
    (hs : e.Working tree b b') : e.Rendering tree d b' := by
  have hsettled := settled_cached hd.recorded hr tree
  have hup := h.upheld.works hsettled (answers_cached e d tree) hs
  obtain ⟨w, t, -, hm⟩ := hs.move
  refine ⟨h.sane.working hs, h.followed.working hs, hup, ?_, h.held.move hm, ?_, ?_⟩
  · refine h.kept.move (fun u task hu ht => keeps_program (fun c k hp => ?_) ?_) hm
    · exact h.upheld.placed u task c k hu ht hp
    · exact h.kept.allowed u task hu ht
  · intro c k s hst
    -- what was stored on `d` has not failed
    obtain ⟨r, ho, -⟩ := hsettled.stored c k s hst
    rcases hm.stored_or_failed (h.stays c k s hst) with hst' | ⟨f, hf⟩
    · exact hst'
    · rw [hup.grows.outcome? ho] at hf
      cases hf
  · intro u hu
    obtain ⟨task, ht, l⟩ := h.upheld.grows u _ (List.getElem?_eq_getElem hu)
    have hended := hr u _ (List.getElem?_eq_getElem hu)
    rw [hm.account_of_ended ht (by rwa [l.ended hended]), h.idle u hu]

theorem rendering (hd : e.Sane d) (hr : AtRest d) (hc : Caches options)
    (h : Relation.ReflTransGen (e.Working tree) (start (.view file options) d).2 b) :
    e.Rendering tree d b := by
  induction h with
  | refl => exact rendering_start hd hr hc
  | tail _ hs ih => exact ih.working hd hr hs

/-- Where no step changes the desk, no work is in flight. -/
theorem Rendering.atRest_of_rests (h : e.Rendering tree d b) (hd : e.Sane d) (hr : AtRest d)
    (hrests : ∀ b', e.Working tree b b' → b' = b) : AtRest b := fun _ _ ht =>
  h.upheld.ended_of_rests (settled_cached hd.recorded hr tree) (answers_cached e d tree)
    ⟨_, 0, rfl⟩ hrests ht

/-! ### When all work has been done -/

section

variable (h : e.Rendered tree file options d d') (hd : e.Sane d) (hr : AtRest d)
  (hc : Caches options)

include h hd hr hc

theorem Rendered.rendering : e.Rendering tree d d' :=
  Engine.rendering hd hr hc h.works

/-- A new shared task has ended as forecast for its key. -/
theorem Rendered.ended (hu : d.tasks.length ≤ u)
    (hp : Board.place? (σ := signature) d' u = some (c, k)) :
    ∃ o, Board.outcome? (σ := signature) d' u = some o ∧
      (e.forecast (lookupsOf (e.overlay d tree 0)) (jobAt c k)).Admits Product.bare o := by
  have hren := h.rendering hd hr hc
  obtain ⟨task, ht, hj, -⟩ := hren.followed.task_at hp
  obtain ⟨o, ho⟩ := Option.ne_none_iff_exists'.1 (h.atRest u task ht)
  refine ⟨o, (Board.outcome?_eq ht).trans ho, ?_⟩
  have hph := hren.upheld.phases u task hu ht
  rw [hj] at hph
  cases hphase : task.phase with
  | ended o' =>
    rw [hphase] at hph ho
    obtain rfl := Option.some.inj ho
    exact hph
  | _ => simp [hphase, Phase.outcome?] at ho

/-- **What the caches hold in the end** is what they held before, and the results of all new
shared tasks that went well. -/
theorem Rendered.stored_iff : Board.stored? (σ := signature) d' c k = some s ↔
    Board.stored? (σ := signature) d c k = some s ∨
      d.tasks.length ≤ s ∧ Board.place? (σ := signature) d' s = some (c, k) ∧
        ∃ r, Board.outcome? (σ := signature) d' s = some (.ok r) := by
  have hren := h.rendering hd hr hc
  refine ⟨fun hs => ?_, ?_⟩
  · have hsrc := hren.followed.traced.sourced.stored c k s hs
    refine hsrc.since.symm.imp_right fun hle => ⟨hle, hsrc.place, ?_⟩
    obtain ⟨o, ho, -⟩ := h.ended hd hr hc hle hsrc.place
    cases o with
    | ok r => exact ⟨r, ho⟩
    | error f => exact absurd ho (hren.sane.recorded.unfailed c k s f hs)
  · rintro (hs | ⟨hle, hp, r, ho⟩)
    · exact hren.stays c k s hs
    · refine hren.held s c k hle ⟨hp, fun f hf => ?_⟩
      rw [ho] at hf
      cases hf

/-- What the caches hold in the end was forecast. -/
theorem Rendered.forecast_of_stored (hs : Board.stored? (σ := signature) d' c k = some s) :
    ∃ r, Board.outcome? (σ := signature) d' s = some (.ok r) ∧
      e.forecast (lookupsOf (e.overlay d tree 0)) (jobAt c k) = .ok r.bare := by
  rcases (h.stored_iff hd hr hc).1 hs with hold | ⟨hle, hp, r, ho⟩
  · obtain ⟨r, ho, hspec⟩ := (settled_cached hd.recorded hr tree).stored c k s hold
    exact ⟨r, (h.rendering hd hr hc).upheld.grows.outcome? ho, hspec⟩
  · obtain ⟨o, ho', hadmits⟩ := h.ended hd hr hc hle hp
    obtain rfl := Option.some.inj (ho.symm.trans ho')
    exact ⟨r, ho, hadmits⟩

/-- A key for which a task was started was not stored before. -/
theorem Rendered.not_stored (hu : d.tasks.length ≤ u)
    (hp : Board.place? (σ := signature) d' u = some (c, k)) :
    Board.stored? (σ := signature) d c k = none := by
  have hren := h.rendering hd hr hc
  cases hs : Board.stored? (σ := signature) d c k with
  | none => rfl
  | some s =>
    -- the last task that was started for a key is the one that is stored
    have hnewest := hren.sane.recorded.upheld.orderly.newest c k s u (hren.stays c k s hs) hp
    have hlt := hd.recorded.upheld.orderly.lt hs
    omega

/-- **Nothing is looked up that is found in a cache.** Whatever is walked, opened or compiled,
is so by a new shared task of its key, and was not stored before. -/
theorem Rendered.place_of_event {op : Op}
    (hev : .began u op ∈ Board.eventsSince (σ := signature) d d' ∨
      .asked u op ∈ Board.eventsSince (σ := signature) d d') :
    d.tasks.length ≤ u ∧ Board.place? (σ := signature) d' u = some (Op.place op) ∧
      Board.stored? (σ := signature) d (Op.place op).1 (Op.place op).2 = none := by
  have hren := h.rendering hd hr hc
  obtain ⟨a, hact, hplace⟩ : ∃ a, operationPlace? a = some (Op.place op) ∧
      ∃ ev ∈ Board.eventsSince (σ := signature) d d', Event.actOf u ev = some a := by
    rcases hev with hev | hev
    · exact ⟨.began op, rfl, _, hev, if_pos rfl⟩
    · exact ⟨.asked op, rfl, _, hev, if_pos rfl⟩
  obtain ⟨ev, hmem, ha⟩ := hplace
  have hjournal := hren.followed.traced.sourced.journal
  have hle : d.tasks.length ≤ u := by
    -- tasks that had ended before have done nothing more
    refine Nat.le_of_not_lt fun hlt => ?_
    have hacc := hren.idle u hlt
    unfold Board.account at hacc
    rw [hjournal, List.filterMap_append, List.append_left_eq_self] at hacc
    have hnone := List.filterMap_eq_nil_iff.1 hacc ev hmem
    rw [ha] at hnone
    cases hnone
  have hin : a ∈ Board.account (σ := signature) d' u :=
    Board.mem_account.2 ⟨ev, by rw [hjournal]; exact List.mem_append_left _ hmem, ha⟩
  have hp := place_of_operation hren.kept hle hin hact
  exact ⟨hle, hp, h.not_stored hd hr hc hle hp⟩

end

end CachedViews.Engine
