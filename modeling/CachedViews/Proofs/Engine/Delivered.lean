import CachedViews.Engine.Delivery
import CachedViews.Proofs.Task.Results
import Mathlib.Data.List.Nodup
import Mathlib.Data.List.Perm.Basic

/-
# A view is delivered exactly once

A view with a callback is watched until it has ended, then its outcome is due, then its
callback is due, then the callback has been called: at any time it stands at one of these, and
no step of the loop takes it anywhere but to the next one (`Loop.Tracked`). So the callback is
not called before the view has ended, and once nothing is due it has been called exactly once,
with what the view ended with, however the steps of the tasks, of other views and of what is
due follow each other, and whenever the view is cancelled (`Engine.view_delivered_once`).

Key definitions: `Call.Tells`, `Loop.Tracked`.
Key theorems: `Loop.Step.tracked`, `Loop.due_drain`, `Engine.view_delivered_once`.
-/

namespace CachedViews.Engine

/-- A call tells of an outcome: of the text that is its result, or of its fault. -/
inductive Call.Tells : Except Fault Product → Call → Prop
  | text (s : String) : Tells (.ok (.value (.str s))) { text := some s }
  | fault (f : Fault) : Tells (.error f) { error := some f }

/-! ### The result of a view -/

/-- What a view gives is a text. -/
def IsText (p : Product) : Prop := ∃ s, p = .value (.str s)

theorem yields_view (e : Engine) (file options : Value) :
    (e.program (.view file options)).Yields IsText := by
  have hview : (e.view file options).Yields fun v => ∃ s, v = .str s := by
    refine Program.yields_bind _ fun plan => Program.yields_bind _ fun loaded =>
      Program.yields_bind _ fun body => ?_
    split
    · exact Program.yields_pure ⟨_, rfl⟩
    · exact Program.yields_bind _ fun _ => Program.yields_bind _ fun whole =>
        Program.yields_pure ⟨_, rfl⟩
  exact hview.bind fun v hv => Program.yields_pure (hv.imp fun s hs => congrArg Product.value hs)

theorem tells_deliver {o : Except Fault Product} (h : ∀ p, o = .ok p → IsText p) :
    (deliver o).call.Tells o := by
  cases o with
  | error f => exact .fault f
  | ok p =>
    obtain ⟨s, rfl⟩ := h p rfl
    exact .text s

/-- A call that tells of an outcome has exactly one of its arguments. -/
theorem Call.Tells.one {o : Except Fault Product} {c : Call} (h : c.Tells o) :
    c.error.isNone = c.text.isSome := by
  cases h <;> rfl

/-- The task that something due is about. -/
def Due.task : Due → TaskId
  | .outcome w => w.task
  | .call t _ => t

/-- What is known of a task that has ended when something is due about it. -/
def Due.Holds (d : Desk) : Due → Prop
  | .outcome w => ∃ o, Board.outcome? (σ := signature) d w.task = some o ∧
      ∀ p, o = .ok p → IsText p
  | .call t c => ∃ o, Board.outcome? (σ := signature) d t = some o ∧ c.Tells o

namespace Loop

/-! ### Where a view stands -/

/-- The tasks that a loop watches, has something due about, or has called a callback of. -/
def mentions (l : Loop) : List TaskId :=
  l.watched.map (·.task) ++ (l.due.map Due.task ++ l.calls.map (·.1))

/-- Each view with a callback stands at one place: it is watched and has not ended, or
something is due about it and it has ended, or its callback has been called and it has
ended. -/
structure Tracked (e : Engine) (l : Loop) : Prop where
  nodup : l.mentions.Nodup
  watched : ∀ w ∈ l.watched, ∃ x, l.desk.tasks[w.task]? = some x ∧ x.phase.outcome? = none ∧
    x.phase.Yields (σ := signature) e.program IsText x.job
  due : ∀ x ∈ l.due, x.Holds l.desk
  calls : ∀ t c, (t, c) ∈ l.calls →
    ∃ o, Board.outcome? (σ := signature) l.desk t = some o ∧ c.Tells o

variable {e : Engine} {l l' : Loop} {t : TaskId} {d : Desk}

theorem tracked_start (e : Engine) (d : Desk) : Tracked e { desk := d } where
  nodup := List.nodup_nil
  watched := fun _ h => nomatch h
  due := fun _ h => nomatch h
  calls := fun _ _ h => nomatch h

/-- A task that a loop mentions is one of its desk. -/
theorem Tracked.lt (h : Tracked e l) (ht : t ∈ l.mentions) : t < l.desk.tasks.length := by
  have hlt : ∀ {o}, Board.outcome? (σ := signature) l.desk t = some o →
      t < l.desk.tasks.length := fun ho => by
    obtain ⟨x, hx, -⟩ := Board.outcome?_eq_some.1 ho
    exact Board.lt_of_getElem? hx
  simp only [mentions, List.mem_append, List.mem_map] at ht
  rcases ht with ⟨w, hw, rfl⟩ | ⟨x, hx, rfl⟩ | ⟨⟨u, c⟩, hc, rfl⟩
  · obtain ⟨x, hx, -⟩ := h.watched w hw
    exact Board.lt_of_getElem? hx
  · cases x with
    | outcome w =>
      obtain ⟨o, ho, -⟩ := h.due _ hx
      exact hlt ho
    | call u c =>
      obtain ⟨o, ho, -⟩ := h.due _ hx
      exact hlt ho
  · obtain ⟨o, ho, -⟩ := h.calls u c hc
    exact hlt ho

/-! ### The desk changes -/

theorem mentions_put (d : Desk) (l : Loop) : (l.put d).mentions.Perm l.mentions := by
  have hsplit := (List.filter_append_perm (Watch.isOver d) l.watched).map fun w => w.task
  refine List.perm_iff_count.2 fun t => ?_
  have ht := hsplit.count_eq t
  simp only [mentions, put, List.map_append, List.map_map, List.count_append,
    Function.comp_def, Due.task] at ht ⊢
  omega

/-- When tasks go on, the views that have ended become due, and all else stays. -/
theorem Tracked.desk (h : Tracked e l) (hs : Board.Step (σ := signature) e.program l.desk d) :
    Tracked e (l.put d) where
  nodup := (mentions_put d l).nodup_iff.2 h.nodup
  watched := fun w hw => by
    obtain ⟨hw, hover⟩ := List.mem_filter.1 hw
    obtain ⟨x, hx, -, hy⟩ := h.watched w hw
    obtain ⟨x', hx', hy'⟩ := hs.yields hx hy
    refine ⟨x', hx', ?_, hy'⟩
    simpa [Watch.isOver, Board.outcome?_eq hx'] using hover
  due := fun x hx => by
    rcases List.mem_append.1 hx with hx | hx
    · cases x with
      | outcome w => exact (h.due _ hx).imp fun o ho => ⟨hs.grows.outcome? ho.1, ho.2⟩
      | call t c => exact (h.due _ hx).imp fun o ho => ⟨hs.grows.outcome? ho.1, ho.2⟩
    · obtain ⟨w, hw, rfl⟩ := List.mem_map.1 hx
      obtain ⟨hw, hover⟩ := List.mem_filter.1 hw
      obtain ⟨o, ho⟩ := Option.isSome_iff_exists.1 hover
      obtain ⟨x, hx, -, hy⟩ := h.watched w hw
      obtain ⟨x', hx', hy'⟩ := hs.yields hx hy
      refine ⟨o, ho, fun p hp => ?_⟩
      obtain ⟨x'', hx'', hend⟩ := Board.outcome?_eq_some.1 ho
      obtain rfl := Option.some.inj (hx'.symm.trans hx'')
      rw [hend] at hy'
      exact hy' p hp
  calls := fun t c hc => (h.calls t c hc).imp fun o ho => ⟨hs.grows.outcome? ho.1, ho.2⟩

/-! ### A view is started -/

theorem mentions_renderView (file options : Value) (l : Loop) :
    (l.renderView file options).2.mentions.Perm (l.desk.tasks.length :: l.mentions) := by
  simp only [mentions, renderView, start, Board.spawn, List.map_append, List.map_cons,
    List.map_nil, List.append_assoc, List.singleton_append]
  exact List.perm_middle

theorem Tracked.renderView (h : Tracked e l) (file options : Value) :
    Tracked e (l.renderView file options).2 := by
  have hs : Board.Step (σ := signature) e.program l.desk (l.renderView file options).2.desk :=
    .spawn _ _
  have hnew : l.desk.tasks.length ∉ l.mentions := fun hm => Nat.lt_irrefl _ (h.lt hm)
  refine ⟨(mentions_renderView file options l).nodup_iff.2 (List.nodup_cons.2 ⟨hnew, h.nodup⟩),
    fun w hw => ?_, fun x hx => ?_, fun t c hc => ?_⟩
  · rcases List.mem_append.1 hw with hw | hw
    · obtain ⟨x, hx, ho, hy⟩ := h.watched w hw
      refine ⟨x, ?_, ho, hy⟩
      exact (List.getElem?_append_left (Board.lt_of_getElem? hx)).trans hx
    · obtain rfl := List.mem_singleton.1 hw
      exact ⟨_, List.getElem?_concat_length, rfl, yields_view e file options⟩
  · cases x with
    | outcome w => exact (h.due _ hx).imp fun o ho => ⟨hs.grows.outcome? ho.1, ho.2⟩
    | call t c => exact (h.due _ hx).imp fun o ho => ⟨hs.grows.outcome? ho.1, ho.2⟩
  · exact (h.calls t c hc).imp fun o ho => ⟨hs.grows.outcome? ho.1, ho.2⟩

/-! ### What is due is run -/

theorem mentions_run (i : Nat) (l : Loop) : (l.run i).mentions.Perm l.mentions := by
  unfold run
  split
  · exact .refl _
  · rename_i x hx
    obtain ⟨hi, rfl⟩ := List.getElem?_eq_some_iff.1 hx
    have hsplit := (List.getElem_cons_eraseIdx_perm hi).map Due.task
    refine List.perm_iff_count.2 fun t => ?_
    have ht := hsplit.count_eq t
    cases hx : l.due[i] with
    | outcome w =>
      simp only [hx, perform, mentions, List.map_append, List.map_cons, List.map_nil,
        List.count_append, List.count_cons, List.count_nil, Due.task] at ht ⊢
      omega
    | call u c =>
      simp only [hx, perform, mentions, List.map_append, List.map_cons, List.map_nil,
        List.count_append, List.count_cons, List.count_nil, Due.task] at ht ⊢
      omega

theorem Tracked.run (h : Tracked e l) (i : Nat) : Tracked e (l.run i) := by
  have hnodup := (mentions_run i l).nodup_iff.2 h.nodup
  unfold Loop.run at hnodup ⊢
  split at hnodup
  · exact h
  · rename_i x hx
    have hdue : ∀ y ∈ l.due.eraseIdx i, y.Holds l.desk := fun y hy =>
      h.due y (List.mem_of_mem_eraseIdx hy)
    have hxd := h.due x (List.mem_of_getElem? hx)
    cases x with
    | outcome w =>
      refine ⟨hnodup, h.watched, fun y hy => ?_, h.calls⟩
      rcases List.mem_append.1 hy with hy | hy
      · exact hdue y hy
      · obtain rfl := List.mem_singleton.1 hy
        obtain ⟨o, ho, hp⟩ := hxd
        refine ⟨o, ho, ?_⟩
        have hout : outcome l.desk w.task = o := by rw [outcome, ho]
        rw [hout]
        exact tells_deliver hp
    | call u c =>
      refine ⟨hnodup, h.watched, hdue, fun t c' hc => ?_⟩
      rcases List.mem_append.1 hc with hc | hc
      · exact h.calls t c' hc
      · cases List.mem_singleton.1 hc
        exact hxd

/-! ### Runs -/

theorem Step.tracked (h : Step e l l') (hl : Tracked e l) : Tracked e l' := by
  cases h with
  | desk hs => exact hl.desk hs
  | renderView file options => exact hl.renderView file options
  | run i => exact hl.run i

theorem Reaches.tracked (h : Reaches e l l') (hl : Tracked e l) : Tracked e l' := by
  induction h with
  | refl => exact hl
  | tail _ hs ih => exact hs.tracked ih

theorem Step.mentions (h : Step e l l') (ht : t ∈ l.mentions) : t ∈ l'.mentions := by
  cases h with
  | desk hs => exact (mentions_put _ l).mem_iff.2 ht
  | renderView file options =>
    exact (mentions_renderView file options l).mem_iff.2 (List.mem_cons_of_mem _ ht)
  | run i => exact (mentions_run i l).mem_iff.2 ht

/-- No view is lost. -/
theorem Reaches.mentions (h : Reaches e l l') (ht : t ∈ l.mentions) : t ∈ l'.mentions := by
  induction h with
  | refl => exact ht
  | tail _ hs ih => exact hs.mentions ih

/-! ### Running what is due to its end -/

/-- The number of turns that are needed for something due: one to handle an outcome, and one for
the call that follows. -/
def turns : List Due → Nat
  | [] => 0
  | .outcome _ :: xs => turns xs + 2
  | .call _ _ :: xs => turns xs + 1

theorem turns_append (xs ys : List Due) : turns (xs ++ ys) = turns xs + turns ys := by
  induction xs with
  | nil => simp [turns]
  | cons x xs ih => cases x <;> simp [turns, ih] <;> omega

theorem turns_le (xs : List Due) : turns xs ≤ 2 * xs.length := by
  induction xs with
  | nil => exact Nat.le_refl 0
  | cons x xs ih => cases x <;> simp [turns] <;> omega

theorem turns_run (l : Loop) : turns (l.run 0).due = turns l.due - 1 := by
  unfold run
  cases hd : l.due with
  | nil => simp [hd, turns]
  | cons x xs => cases x <;> simp [perform, turns, turns_append]

theorem due_runFirst (n : Nat) (l : Loop) (h : turns l.due ≤ n) : (runFirst n l).due = [] := by
  induction n generalizing l with
  | zero =>
    cases hd : l.due with
    | nil => exact hd
    | cons x xs => cases x <;> simp [hd, turns] at h
  | succ n ih => exact ih (l.run 0) (by rw [turns_run]; omega)

/-- Nothing is left to run. -/
theorem due_drain (l : Loop) : l.drain.due = [] := due_runFirst _ l (turns_le l.due)

theorem desk_run (i : Nat) (l : Loop) : (l.run i).desk = l.desk := by
  unfold run
  split
  · rfl
  · rename_i x _
    cases x <;> rfl

theorem reaches_runFirst (e : Engine) (n : Nat) {l l' : Loop} (h : Reaches e l l') :
    Reaches e l (runFirst n l') := by
  induction n generalizing l' with
  | zero => exact h
  | succ n ih => exact ih (h.tail (.run 0 l'))

theorem desk_runFirst (n : Nat) (l : Loop) : (runFirst n l).desk = l.desk := by
  induction n generalizing l with
  | zero => rfl
  | succ n ih => exact (ih (l.run 0)).trans (desk_run 0 l)

theorem reaches_drain (h : Reaches e l l') : Reaches e l l'.drain := reaches_runFirst e _ h

theorem desk_drain (l : Loop) : l.drain.desk = l.desk := desk_runFirst _ l

/-! ### The calls of one callback -/

theorem mem_callsOf {c : Call} : c ∈ l.callsOf t ↔ (t, c) ∈ l.calls := by
  simp [callsOf]

theorem length_callsOf (t : TaskId) (l : Loop) :
    (l.callsOf t).length = (l.calls.map (·.1)).count t := by
  rw [callsOf, List.length_map, ← List.countP_eq_length_filter, List.count, List.countP_map]
  exact List.countP_congr (by simp)

/-- A callback is called at most once. -/
theorem Tracked.at_most_once (h : Tracked e l) (t : TaskId) : (l.callsOf t).length ≤ 1 := by
  rw [length_callsOf]
  have hall := List.nodup_iff_count_le_one.1 h.nodup t
  simp only [mentions, List.count_append] at hall
  omega

/-- When a view has ended and nothing is due, its callback has been called. -/
theorem Tracked.called (h : Tracked e l) (ht : t ∈ l.mentions) {o : Except Fault Product}
    (ho : Board.outcome? (σ := signature) l.desk t = some o) (hdue : l.due = []) :
    ∃ c, l.callsOf t = [c] ∧ c.Tells o := by
  simp only [mentions, hdue, List.map_nil, List.nil_append, List.mem_append, List.mem_map] at ht
  rcases ht with ⟨w, hw, rfl⟩ | ⟨⟨u, c⟩, hc, rfl⟩
  · obtain ⟨x, hx, hnone, -⟩ := h.watched w hw
    rw [Board.outcome?_eq hx, hnone] at ho
    nomatch ho
  · have hmem : c ∈ l.callsOf u := mem_callsOf.2 hc
    obtain ⟨c', hl⟩ := List.length_eq_one_iff.1
      (Nat.le_antisymm (h.at_most_once u) (List.length_pos_of_mem hmem))
    obtain rfl : c = c' := List.mem_singleton.1 (hl ▸ hmem)
    obtain ⟨o', ho', htells⟩ := h.calls u c hc
    obtain rfl := Option.some.inj (ho.symm.trans ho')
    exact ⟨c, hl, htells⟩

end Loop

open Loop in
/-- **A view is delivered exactly once.** A view is started with a callback, at any time in the
life of an engine, and then anything may happen in any order: tasks go on, operations end, the
view or anything else is cancelled, caches change, other views are started, and what is due is
run. When the view has just been started its callback has not been called. Later it is never
called before the view has ended, nor more than once, and only with what the view ended with:
with its text alone, or with its fault alone, which is that of a cancellation if the view was
cancelled. Once the view has ended and nothing is due it has been called exactly once, and
what is due runs out. -/
theorem view_delivered_once {e : Engine} {d : Desk} {l l₁ l' : Loop} {file options : Value}
    {t : TaskId} (hl : Reaches e { desk := d } l) (hv : l.renderView file options = (t, l₁))
    (h : Reaches e l₁ l') :
    l₁.callsOf t = [] ∧
    (∀ c ∈ l'.callsOf t, c.error.isNone = c.text.isSome ∧
      ∃ o, Board.outcome? (σ := signature) l'.desk t = some o ∧ c.Tells o) ∧
    (l'.callsOf t).length ≤ 1 ∧
    ∀ o, Board.outcome? (σ := signature) l'.desk t = some o →
      (l'.due = [] → ∃ c, l'.callsOf t = [c] ∧ c.Tells o) ∧
      ∃ c, l'.drain.callsOf t = [c] ∧ c.Tells o := by
  obtain ⟨rfl, rfl⟩ : l.desk.tasks.length = t ∧ (l.renderView file options).2 = l₁ :=
    ⟨congrArg Prod.fst hv, congrArg Prod.snd hv⟩
  have hbefore : Tracked e l := hl.tracked (tracked_start e d)
  have hafter : Tracked e l' := h.tracked (hbefore.renderView file options)
  have hmem : l.desk.tasks.length ∈ l'.mentions :=
    h.mentions ((mentions_renderView file options l).mem_iff.2 List.mem_cons_self)
  refine ⟨?_, fun c hc => ?_, hafter.at_most_once _, fun o ho => ⟨hafter.called hmem ho, ?_⟩⟩
  · -- the task is new, so that nothing was known of it
    refine List.eq_nil_iff_forall_not_mem.2 fun c hc => ?_
    obtain ⟨o, ho, -⟩ := hbefore.calls _ c (mem_callsOf.1 hc)
    obtain ⟨x, hx, -⟩ := Board.outcome?_eq_some.1 ho
    exact Nat.lt_irrefl _ (Board.lt_of_getElem? hx)
  · obtain ⟨o, ho, htells⟩ := hafter.calls _ c (mem_callsOf.1 hc)
    exact ⟨htells.one, o, ho, htells⟩
  · have hend := reaches_drain h
    exact (hend.tracked (hbefore.renderView file options)).called
      (hend.mentions ((mentions_renderView file options l).mem_iff.2 List.mem_cons_self))
      (by rw [desk_drain]; exact ho) (due_drain l')

/-! ### A view that is read from a file -/

/-- An engine and a tree with one view. -/
def lonelyEngine : Engine where
  config := {}
  cwd := "/"
  runtime := .closed 10

/-- A tree with one file. -/
def lonelyTree : FileTree where
  root := .directory [("v.html", .file (Text.encodeUtf8 "a".toList))]

/-- A view without partials is started with a callback. -/
def lonelyStart : TaskId × Loop :=
  Loop.renderView (.str "/v.html") (.dict [(.str "partials", .dict [])]) {}

/-- Its file is being opened. -/
def lonelyOpening : Loop :=
  lonelyStart.2.put (lonelyEngine.resume lonelyTree 0 lonelyStart.2.desk)

/-- Its file has been read. -/
def lonelyOver : Loop :=
  lonelyOpening.put
    (Board.complete (σ := signature) (lonelyEngine.world lonelyTree 0) 0 lonelyOpening.desk)

/-- The callback of a view that is rendered is called with its text. -/
theorem view_delivered_once_rendered :
    lonelyStart.2.callsOf 0 = [] ∧
      (∃ c o, lonelyOver.drain.callsOf 0 = [c] ∧
        Board.outcome? (σ := signature) lonelyOver.drain.desk 0 = some o ∧ c.Tells o) ∧
      (lonelyOver.drain.callsOf 0).map (·.text) = [some "a"] := by
  have hopen : Loop.Reaches lonelyEngine lonelyStart.2 lonelyOpening :=
    .tail (.refl _) (.desk (.resume _ _ _))
  have hover : Loop.Reaches lonelyEngine lonelyStart.2 lonelyOver :=
    .tail hopen (.desk (.complete _ _ _))
  obtain ⟨o, ho⟩ : ∃ o, Board.outcome? (σ := signature) lonelyOver.drain.desk 0 = some o :=
    Option.isSome_iff_exists.1 (by decide +kernel)
  have hdue : lonelyOver.drain.due = [] := Loop.due_drain lonelyOver
  have h := view_delivered_once (d := {}) (.refl _) (Eq.refl lonelyStart) (Loop.reaches_drain hover)
  obtain ⟨c, hc, htells⟩ := (h.2.2.2 o ho).1 hdue
  exact ⟨h.1, ⟨c, o, hc, ho, htells⟩, by decide +kernel⟩

end CachedViews.Engine
