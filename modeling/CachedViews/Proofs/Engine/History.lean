import CachedViews.Proofs.Engine.Expected
import CachedViews.Proofs.Task.Upheld
import CachedViews.Engine.Running
import Mathlib.Logic.Relation

/-
# The history of an engine

Jobs are started on the desk of an engine, tasks go on while files change, those who wait
give up, and the caches are emptied, in any order (`Engine.Happens`). Whatever happened
(`Engine.Reached`), what the caches hold was looked up in one of the trees that there
were, and the caches belong together: a template that is stored was made of the text
that is stored for its file (`Engine.Coherent`).

What carries this is that a text does not leave its cache alone. It goes when its task
fails, and then so does the task of every template that waits for it, or when all caches
are emptied.

Key definitions: `Engine.Happens`, `Engine.Reached`, `Engine.records`, `Engine.Coherent`,
`Engine.Recorded`.
Key theorems: `Engine.Coherent.move`, `Engine.Recorded.happens`, `Engine.Reached.recorded`.
-/

namespace CachedViews.Engine

/-- Something happens to the desk of an engine, while the files are as in one of the `trees`.
Those who wait for a task may ask it to stop, unless it is shared. -/
inductive Happens (e : Engine) (trees : FileTree → Prop) (d : Desk) : Desk → Prop
  | start (job : Job) : Happens e trees d (start job d).2
  | resume {tree : FileTree} (ht : trees tree) (t : TaskId) : Happens e trees d (e.resume tree t d)
  | complete {tree : FileTree} (ht : trees tree) (t : TaskId) :
      Happens e trees d
        (Board.complete (σ := signature) (e.world tree (compileCount d)) t d)
  | cancel (t : TaskId) (hp : Board.place? (σ := signature) d t = none) :
      Happens e trees d (Board.cancel (σ := signature) t d).2
  | reset : Happens e trees d (reset d)

/-- A desk that an engine may come to. -/
abbrev Reached (e : Engine) (trees : FileTree → Prop) (d : Desk) : Prop :=
  Relation.ReflTransGen (e.Happens trees) {} d

variable {e : Engine} {trees : FileTree → Prop} {d d' : Desk} {tree : FileTree} {n : Nat}

/-! ### What is looked up -/

/-- What jobs come to at any time: what is walked or opened is so in one of the trees. -/
def LookedUp (e : Engine) (trees : FileTree → Prop) : Job → Except Fault Product → Prop
  | .walk dir, .ok r => ∃ tree l, trees tree ∧
      walk tree e.cwd dir e.config.extname = .ok l ∧ r = .names l.paths
  | .open file, .ok r => ∃ tree text, trees tree ∧
      tree.openText e.cwd file = .ok text ∧ r = .text text
  | _, _ => True

theorem ensures_walking (dir : String) :
    Program.Ensures (σ := signature) (fun op a => ∃ tree n, trees tree ∧ a = e.world tree n op)
      (fun _ => True) (e.LookedUp trees) (walking dir) (e.LookedUp trees (.walk dir)) := by
  rintro answer ⟨tree, n, ht, ha⟩
  rcases answer with f | l
  · trivial
  · refine ensures_noteAll _ ?_
    exact ⟨tree, l, ht, ha.symm, rfl⟩

theorem ensures_opening (file : String) :
    Program.Ensures (σ := signature) (fun op a => ∃ tree n, trees tree ∧ a = e.world tree n op)
      (fun _ => True) (e.LookedUp trees) (opening file) (e.LookedUp trees (.open file)) := by
  rintro answer ⟨tree, n, ht, ha⟩
  rcases answer with f | text
  · cases f <;> trivial
  · exact ⟨tree, text, ht, ha.symm, rfl⟩

/-- What is relied on at any time. -/
def records (e : Engine) (trees : FileTree → Prop) : Contract signature where
  program := e.program
  jobAt := jobAt
  rank := rank
  answer op a := ∃ tree n, trees tree ∧ a = e.world tree n op
  allowed _ := True
  spec := e.LookedUp trees
  calls := calls_program e
  ensures job _ := by
    cases job with
    | walk dir => exact ensures_walking dir
    | «open» file => exact ensures_opening file
    | _ => exact Program.ensures_of_forall (fun _ => trivial) (fun _ => trivial) _

/-! ### Templates and the texts they are made of -/

/-- What is left of compiling a file when the compiler has answered. -/
def afterCompiling (file : String) : Except Fault Handle → Work Product
  | .ok h => do
    note (.compiled file)
    return .template h
  | .error (.malformedTemplate f) => do
    note (.compilingFailed file f)
    Program.fail (.view (.compiling file f))
  | .error f => Program.fail f

/-- What is left of compiling a file when its text is there. -/
def compileText (file : String) (text : Product) : Work Product :=
  .ask (Op.compile file text.asText) (afterCompiling file)

/-- Compiling a file begins with the text that is stored for it, or stores its task. -/
theorem halt_compile (e : Engine) (w : World signature) (d : Desk) (file : String) :
    (Board.stored? (σ := signature) d .file file = none ∧
        Board.halt w d (e.program (.compile file true)) =
          .storing CacheName.file file (Job.open file) (compileText file)) ∨
      ∃ s, Board.stored? (σ := signature) d .file file = some s ∧
        ((Board.outcome? (σ := signature) d s = none ∧
            Board.halt w d (e.program (.compile file true)) = .joining s (compileText file)) ∨
          (∃ text, Board.outcome? (σ := signature) d s = some (.ok text) ∧
            Board.halt w d (e.program (.compile file true)) =
              Board.halt w d (compileText file text)) ∨
          ∃ f, Board.outcome? (σ := signature) d s = some (.error f) ∧
            Board.halt w d (e.program (.compile file true)) = .ended (.error f)) :=
  Board.halt_lookup_cases w d CacheName.file file (Job.open file) (compileText file)

/-- With a text, compiling ends: with the template that is made of it, or with a fault. -/
theorem halt_compileText (e : Engine) (tree : FileTree) (n : Nat) (d : Desk) (file : String)
    (text : Product) : ∃ o, Board.halt (e.world tree n) d (compileText file text) = .ended o ∧
      ∀ r, o = .ok r → ∃ h, r = .template h ∧
        e.compiler.compile e.config.compilerOptions file text.asText = .ok h.value := by
  have hask : Board.halt (e.world tree n) d (compileText file text) =
      Board.halt (e.world tree n) d (afterCompiling file
        ((e.compiler.compile e.config.compilerOptions file text.asText).map fun v =>
          ⟨some n, v⟩)) := rfl
  rw [hask]
  cases e.compiler.compile e.config.compilerOptions file text.asText with
  | ok v => exact ⟨_, rfl, fun r hr => ⟨⟨some n, v⟩, (Except.ok.inj hr).symm, rfl⟩⟩
  | error f => cases f <;> exact ⟨_, rfl, fun r hr => by cases hr⟩

/-- The task of a template is backed by what is stored for its file: while it waits, for the
text that is stored or for one that has failed, and when it is there, it is made of the text. -/
def Backed (e : Engine) (d : Desk) (file : String) : Phase signature → Prop
  | .fresh => True
  | .joining s next => next = compileText file ∧
      (Board.stored? (σ := signature) d .file file = some s ∨
        ∃ f, Board.outcome? (σ := signature) d s = some (.error f))
  | .ended (.ok r) => ∃ s text h, Board.stored? (σ := signature) d .file file = some s ∧
      Board.outcome? (σ := signature) d s = some (.ok text) ∧ r = .template h ∧
      e.compiler.compile e.config.compilerOptions file text.asText = .ok h.value
  | .ended (.error _) => True
  | _ => False

/-- All templates that are stored are backed. -/
def Coherent (e : Engine) (d : Desk) : Prop :=
  ∀ (file : String) (t : Nat) (task : Task signature),
    Board.stored? (σ := signature) d .template file = some t → d.tasks[t]? = some task →
    e.Backed d file task.phase

/-- A template stays backed as long as a text goes only when its task fails. -/
theorem Backed.later {file : String} {ph : Phase signature} (hb : e.Backed d file ph)
    (hg : Board.Grows d d')
    (hs : ∀ s, Board.stored? (σ := signature) d .file file = some s →
      Board.stored? (σ := signature) d' .file file = some s ∨
        ∃ f, Board.outcome? (σ := signature) d' s = some (.error f)) :
    e.Backed d' file ph := by
  cases ph with
  | fresh => trivial
  | performing op next => exact hb
  | gathering ts next => exact hb
  | joining s next =>
    obtain ⟨hnext, hst | ⟨f, hf⟩⟩ := hb
    · exact ⟨hnext, hs s hst⟩
    · exact ⟨hnext, .inr ⟨f, hg.outcome? hf⟩⟩
  | ended o =>
    cases o with
    | error f => trivial
    | ok r =>
      obtain ⟨s, text, h, hst, ho, hr, hc⟩ := hb
      rcases hs s hst with hst | ⟨f, hf⟩
      · exact ⟨s, text, h, hst, hg.outcome? ho, hr, hc⟩
      · have ho' := hg.outcome? ho
        rw [hf] at ho'
        cases ho'

/-! ### The task of a template goes on -/

variable {t : Nat} {task : Task signature} {file : String} {p : Program signature signature.Result}

/-- A task that comes to its end with a template made of the text that is stored is backed. -/
theorem backed_of_halt (ht : d.tasks[t]? = some task) (hne : task.phase.outcome? = none) {s : Nat}
    {text : Product} (hs : Board.stored? (σ := signature) d .file file = some s)
    (ho : Board.outcome? (σ := signature) d s = some (.ok text))
    (hh : Board.halt (e.world tree n) d p =
      Board.halt (e.world tree n) d (compileText file text)) :
    e.Backed (Board.run (e.world tree n) t p d) file
      ((Board.halt (e.world tree n) d p).phase d.tasks.length) := by
  obtain ⟨o, ho', hmade⟩ := halt_compileText e tree n d file text
  rw [hh, ho']
  cases o with
  | error f => trivial
  | ok r =>
    obtain ⟨h, hr, hc⟩ := hmade r rfl
    have hnow : e.Backed d file (.ended (.ok r)) := ⟨s, text, h, hs, ho, hr, hc⟩
    exact hnow.later (Board.grows_run ht hne) fun s hs => Board.stored_or_failed_run ht hs

theorem Backed.run (hb : e.Backed d file task.phase) (ht : d.tasks[t]? = some task)
    (hj : task.job = Job.compile file true)
    (hp : Board.GoesOn e.program (e.world tree n) d task p) :
    e.Backed (Board.run (e.world tree n) t p d) file
      ((Board.halt (e.world tree n) d p).phase d.tasks.length) := by
  have hne := hp.not_ended
  cases hp with
  | first h =>
    rw [hj]
    rcases halt_compile e (e.world tree n) d file with
      ⟨hs, hh⟩ | ⟨s, hs, ⟨ho, hh⟩ | ⟨r, ho, hh⟩ | ⟨f, ho, hh⟩⟩
    · -- the text is started, and stored
      rw [hh]
      refine ⟨rfl, .inl ?_⟩
      refine (Board.stored?_run (Board.lt_of_getElem? ht) _ _).trans ?_
      rw [hh]
      exact if_pos ⟨rfl, rfl⟩
    · rw [hh]
      exact ⟨rfl, Board.stored_or_failed_run ht hs⟩
    · exact backed_of_halt ht hne hs ho hh
    · rw [hh]
      trivial
  | answered h =>
    rw [h] at hb
    exact hb.elim
  | joined h ho =>
    rw [h] at hb
    obtain ⟨rfl, hst | ⟨f, hf⟩⟩ := hb
    · exact backed_of_halt ht hne hst ho rfl
    · rw [hf] at ho
      cases ho
  | joinFailed h ho => trivial
  | gathered h hr =>
    rw [h] at hb
    exact hb.elim
  | gatherFailed h hf => trivial

/-- Templates stay backed when tasks go on. -/
theorem Coherent.move (hc : e.Coherent d) (hu : Board.Upheld (e.records trees) {} d)
    (h : Board.Move e.program (e.world tree n) t d d') : e.Coherent d' := by
  intro file u x hs hx
  by_cases hlt : u < d.tasks.length
  · have hs' := h.stored_old hu.orderly hlt hs
    have ht := List.getElem?_eq_getElem hlt
    have hb := hc file u _ hs' ht
    have hlater : e.Backed d' file d.tasks[u].phase :=
      hb.later h.grows fun s hs => h.stored_or_failed hs
    by_cases hut : u = t
    · subst hut
      have hj : d.tasks[u].job = Job.compile file true :=
        hu.placed u _ .template file (Nat.zero_le u) ht
          ((Board.place?_eq ht).symm.trans (hu.orderly.stored .template file u hs'))
      cases h with
      | nothing =>
        obtain rfl := Option.some.inj (ht.symm.trans hx)
        exact hb
      | goesOn h hcr hp =>
        obtain rfl := Option.some.inj (ht.symm.trans h)
        rw [Board.getElem?_run_self h] at hx
        obtain rfl := Option.some.inj hx
        exact hb.run h hj hp
      | dropped h hcr hp =>
        rw [Board.getElem?_setPhase, if_pos rfl, h] at hx
        obtain rfl := Option.some.inj hx
        trivial
      | @stopped task ts h hcr hn ho hts =>
        obtain ⟨task', h', -⟩ := Board.getElem?_stopped h ts
        rw [Board.getElem?_run_self h'] at hx
        obtain rfl := Option.some.inj hx
        trivial
    · rcases h.elsewhere ht hut with h' | h'
      · obtain rfl := Option.some.inj (h'.symm.trans hx)
        exact hlater
      · obtain rfl := Option.some.inj (h'.symm.trans hx)
        rw [Task.asked_phase]
        exact hlater
  · rw [(h.born (Nat.le_of_not_lt hlt) hx).1]
    trivial

/-- Templates stay backed when nothing moves and nothing is stored. -/
theorem Coherent.of_phases (hc : e.Coherent d) (ho : Board.Orderly d) (hg : Board.Grows d d')
    (hs : ∀ c k, Board.stored? (σ := signature) d' c k = Board.stored? (σ := signature) d c k)
    (hp : ∀ (u : Nat) (x : Task signature), d.tasks[u]? = some x →
      ∃ y, d'.tasks[u]? = some y ∧ y.phase = x.phase) : e.Coherent d' := by
  intro file u y hu' hy
  have hu := (hs _ _).symm.trans hu'
  have hx := List.getElem?_eq_getElem (ho.lt hu)
  obtain ⟨y', hy', hph⟩ := hp u _ hx
  obtain rfl := Option.some.inj (hy.symm.trans hy')
  rw [hph]
  exact (hc file u _ hu hx).later hg fun s h => .inl ((hs _ _).trans h)

/-! ### Whatever happens -/

/-- What is true of every desk that an engine comes to. -/
structure Recorded (e : Engine) (trees : FileTree → Prop) (d : Desk) : Prop where
  upheld : Board.Upheld (e.records trees) {} d
  spared : Board.Spared d
  unfailed : Board.Unfailed d
  coherent : e.Coherent d

/-- The outcome of a task that is stored was looked up for its key. -/
theorem Recorded.lookedUp (h : e.Recorded trees d) {c : CacheName} {k : String} {s : Nat}
    {o : Except Fault Product} (hs : Board.stored? (σ := signature) d c k = some s)
    (ho : Board.outcome? (σ := signature) d s = some o) : e.LookedUp trees (jobAt c k) o :=
  h.upheld.outcome_stored (Board.settled_empty fun _ => trivial) hs ho

theorem lenient_records : (e.records trees).Lenient := fun job => by cases job <;> trivial

theorem recorded_new : e.Recorded trees {} where
  upheld := (Board.settled_empty fun _ => trivial).upheld
  spared := Board.spared_empty
  unfailed := Board.unfailed_empty
  coherent file t task hs := by simp [Board.stored?] at hs

theorem Recorded.move (hd : e.Recorded trees d) (ht : trees tree)
    (h : Board.Move e.program (e.world tree n) t d d') : e.Recorded trees d' where
  upheld := hd.upheld.move (Board.settled_empty fun _ => trivial) (fun _ => ⟨tree, n, ht, rfl⟩) h
  spared := hd.spared.move hd.upheld.orderly h
  unfailed := hd.unfailed.move hd.upheld.orderly hd.spared h
  coherent := hd.coherent.move hd.upheld h

theorem Recorded.start (hd : e.Recorded trees d) (job : Job) :
    e.Recorded trees (start job d).2 where
  upheld := hd.upheld.spawn trivial
  spared := hd.spared.of_append rfl fun x hx => by
    obtain rfl := List.mem_singleton.1 hx
    rfl
  unfailed := hd.unfailed.spawn hd.upheld.orderly job
  coherent := hd.coherent.of_phases hd.upheld.orderly (Board.grows_of_append rfl)
    (fun _ _ => rfl) fun u x hu =>
      ⟨x, (List.getElem?_append_left (Board.lt_of_getElem? hu)).trans hu, rfl⟩

theorem Recorded.cancel (hd : e.Recorded trees d)
    (hp : Board.place? (σ := signature) d t = none) :
    e.Recorded trees (Board.cancel (σ := signature) t d).2 where
  upheld := hd.upheld.cancel lenient_records t
  spared := hd.spared.cancel hp
  unfailed := hd.unfailed.cancel t
  coherent := by
    unfold Board.cancel
    split
    · refine hd.coherent.of_phases hd.upheld.orderly (Board.grows_cancelAll [t] d)
        (Board.stored?_cancelAll [t] d) fun u x hu => ?_
      rw [Board.getElem?_requestCancel, hu]
      split
      · exact ⟨x.asked, rfl, x.asked_phase⟩
      · exact ⟨x, rfl, rfl⟩
    · exact hd.coherent

/-- A desk whose caches are emptied stores nothing. -/
theorem stored?_reset (d : Desk) (c : CacheName) (k : String) :
    Board.stored? (σ := signature) (reset d) c k = none := by
  have hclear : ∀ (c' : CacheName) (b : Desk), Board.stored? (σ := signature)
      (Board.clear (σ := signature) c' b) c k =
        if c' = c then none else Board.stored? (σ := signature) b c k :=
    fun c' b => Board.stored?_clear c' b c k
  unfold Engine.reset
  rw [hclear, hclear, hclear]
  cases c <;> simp

theorem Recorded.reset (hd : e.Recorded trees d) : e.Recorded trees (reset d) where
  upheld := ((hd.upheld.clear _).clear _).clear _
  spared := hd.spared.of_tasks rfl
  unfailed := ((hd.unfailed.clear _).clear _).clear _
  coherent file u x hs := by simp [stored?_reset] at hs

/-- **What is recorded stays recorded, whatever happens.** -/
theorem Recorded.happens (hd : e.Recorded trees d) (h : e.Happens trees d d') :
    e.Recorded trees d' := by
  cases h with
  | start job => exact hd.start job
  | resume ht t => exact hd.move ht (Board.move_resume _ _ t d)
  | complete ht t => exact hd.move ht (Board.move_complete _ _ t d)
  | cancel t hp => exact hd.cancel hp
  | reset => exact hd.reset

/-- The schedule that works until nothing is left to do is one of all that may happen. -/
theorem Reached.settle (hd : e.Reached trees d) (ht : trees tree) :
    e.Reached trees (e.settle tree d) :=
  Board.settle_keeps (fun _ t hd => hd.tail (.resume ht t)) (fun _ t hd => hd.tail (.complete ht t))
    _ hd

theorem Reached.recorded (h : e.Reached trees d) : e.Recorded trees d := by
  induction h with
  | refl => exact recorded_new
  | tail _ hs ih => exact ih.happens hs

end CachedViews.Engine
