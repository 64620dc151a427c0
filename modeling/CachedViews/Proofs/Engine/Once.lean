import CachedViews.Proofs.Engine.Provenance
import CachedViews.Proofs.Engine.Usage
import CachedViews.Proofs.Task.Accounts
import CachedViews.Proofs.Task.Held

/-
# Every path is looked up successfully at most once

An engine serves requests that use its caches, in any number and any order, while files
change (`Engine.Serves`). All walks, reads and compilations are then done by shared tasks. A
task that is shared does the one operation of its key, and leaves the note of its success at
its end (`Engine.lookupAudit`), and one that has not failed is stored until the caches are
emptied. So at any time at most one lookup of a path is in flight, and of all that there
ever were at most one succeeded (`Engine.lookups_once`).

Key definitions: `Engine.Serves`, `Engine.InFlight`, `Engine.standing`,
`Engine.successes`, `Engine.lookupAudit`.
Key theorems: `Engine.keeps_jobAt`, `Engine.place_of_operation`, `Engine.lookups_once`.
-/

namespace CachedViews.Engine

/-- The cache that keeps the result of an operation, and the key. -/
def Op.place : Op → CacheName × String
  | .walk dir => (.directory, dir)
  | .open file => (.file, file)
  | .compile file _ => (.template, file)

/-- The cache and the key that a job does the work of. -/
def Job.place? : Job → Option (CacheName × String)
  | .walk dir => some (.directory, dir)
  | .open file => some (.file, file)
  | .compile file _ => some (.template, file)
  | _ => none

/-- Something happens to the desk of an engine while it serves requests that use its caches.
The caches are not emptied. -/
inductive Serves (e : Engine) (trees : FileTree → Prop) (d : Desk) : Desk → Prop
  | start {job : Job} (hj : Chooses true job) : Serves e trees d (start job d).2
  | resume {tree : FileTree} (ht : trees tree) (t : TaskId) : Serves e trees d (e.resume tree t d)
  | complete {tree : FileTree} (ht : trees tree) (t : TaskId) :
      Serves e trees d
        (Board.complete (σ := signature) (e.world tree (compileCount d)) t d)
  | cancel (t : TaskId) (hp : Board.place? (σ := signature) d t = none) :
      Serves e trees d (Board.cancel (σ := signature) t d).2

/-- A task looks up the key of a cache: that is its job, or it waits for the operation, and it
has not ended. -/
def InFlight (d : Desk) (c : CacheName) (k : String) (t : TaskId) : Prop :=
  ∃ task, d.tasks[t]? = some task ∧ task.phase.outcome? = none ∧
    (Job.place? task.job = some (c, k) ∨
      ∃ (op : Op) (next : op.Answer → Work Product),
        task.phase = .performing op next ∧ op.place = (c, k))

/-- Has a task failed? -/
def hasFailed (d : Desk) (t : TaskId) : Bool :=
  match Board.outcome? (σ := signature) d t with
  | some (.error _) => true
  | _ => false

/-- Is an event the beginning of an operation of a key, by a task that has not failed? -/
def isStanding (d : Desk) (c : CacheName) (k : String) : Event signature → Bool
  | .began t op => Op.place op = (c, k) && !hasFailed d t
  | .asked t op => Op.place op = (c, k) && !hasFailed d t
  | _ => false

/-- Is an event the note that an operation of a key succeeded? -/
def isSuccess (c : CacheName) (k : String) : Event signature → Bool
  | .noted _ n => Note.succeeded? n = some (c, k)
  | _ => false

/-- How many operations of a key there were that did not fail: they succeeded, or their tasks
have not ended. -/
def standing (d : Desk) (c : CacheName) (k : String) : Nat := d.journal.countP (isStanding d c k)

/-- How often an operation of a key succeeded. -/
def successes (d : Desk) (c : CacheName) (k : String) : Nat := d.journal.countP (isSuccess c k)

/-- A key is looked up by one task at a time, and successfully at most once. -/
structure LookedUpOnce (d : Desk) (c : CacheName) (k : String) : Prop where
  inFlight : ∀ t t', InFlight d c k t → InFlight d c k t' → t = t'
  standing : standing d c k ≤ 1
  successes : successes d c k ≤ 1

variable {e : Engine} {trees : FileTree → Prop} {d d' : Desk} {c : CacheName} {k : String}
  {t u : Nat}

theorem Serves.happens (h : e.Serves trees d d') : e.Happens trees d d' := by
  cases h with
  | start hj => exact .start _
  | resume ht t => exact .resume ht t
  | complete ht t => exact .complete ht t
  | cancel t hp => exact .cancel t hp

/-! ### The accounts of lookups -/

/-- The key of the operation that an act is. -/
def operationPlace? : Act signature → Option (CacheName × String)
  | .noted _ => none
  | .asked op => some (Op.place op)
  | .began op => some (Op.place op)

/-- The key of the operation whose success an act notes. -/
def successPlace? : Act signature → Option (CacheName × String)
  | .noted n => Note.succeeded? n
  | _ => none

/-- The acts of an account that are about keys. -/
def lookupActs (acts : List (Act signature)) : List (Act signature) :=
  acts.filter fun a => (operationPlace? a).isSome || (successPlace? a).isSome

/-- What the task of a key did about keys: nothing, or the one operation, and if it noted a
success it ended with that. -/
inductive OneLookup (p : CacheName × String) (o : Option (Except Fault Product)) :
    List (Act signature) → Prop
  | nothing : OneLookup p o []
  | operation {a : Act signature} (ha : operationPlace? a = some p) : OneLookup p o [a]
  | success {a a' : Act signature} (ha : successPlace? a = some p)
      (ha' : operationPlace? a' = some p) (ho : ∃ r, o = some (.ok r)) : OneLookup p o [a, a']

/-- Requests that use caches perform nothing themselves. Shared tasks do one lookup. -/
def lookupAudit : Audit signature where
  allowed := Chooses true
  want
    | none, acts, _ => lookupActs acts = []
    | some p, acts, o => OneLookup p o (lookupActs acts)
  fresh place := by
    cases place with
    | none => rfl
    | some p => exact .nothing
  fails {place acts} h f := by
    cases place with
    | none => exact h
    | some p =>
      change OneLookup p none (lookupActs acts) at h
      change OneLookup p _ (lookupActs acts)
      generalize lookupActs acts = found at h
      cases h with
      | nothing => exact .nothing
      | operation ha => exact .operation ha
      | success ha ha' ho => simp at ho

/-- A program of an engine keeps an account. -/
abbrev KeepsAccount (place : Option (CacheName × String)) (acts : List (Act signature))
    (p : Work Product) : Prop :=
  Program.Keeps (σ := signature) lookupAudit place acts p

theorem lookupActs_noted {n : Note} (hn : n.succeeded? = none) (acts : List (Act signature)) :
    lookupActs (.noted n :: acts) = lookupActs acts := by
  simp [lookupActs, operationPlace?, successPlace?, hn]

theorem keeps_of_uses {p : Work Product} (h : UsesAs true p) {acts : List (Act signature)}
    (ha : lookupActs acts = []) : KeepsAccount none acts p := by
  induction p generalizing acts with
  | done r => exact ha
  | note n next ih => exact ih h.2 ((lookupActs_noted (h.1 rfl) acts).trans ha)
  | ask op next => exact nomatch h.1
  | perform op next => exact nomatch h.1
  | lookup c k job next ih => exact ⟨ha, fun r => ih r (h.2 r) ha⟩
  | gather jobs next ih => exact ⟨ha, h.1, fun rs => ih rs (h.2 rs) ha⟩

/-- Notes that tell of no success add nothing to a lookup. -/
theorem keeps_noteAll {place : Option (CacheName × String)} {ns : List Note}
    (hn : ∀ n ∈ ns, Note.succeeded? n = none) {f : Unit → Work Product}
    {acts : List (Act signature)}
    (hf : ∀ acts', lookupActs acts' = lookupActs acts → KeepsAccount place acts' (f ())) :
    KeepsAccount place acts (noteAll ns >>= f) := by
  induction ns generalizing acts with
  | nil => exact hf acts rfl
  | cons n ns ih =>
    have hnote := lookupActs_noted (hn n (by simp)) acts
    exact ih (fun m hm => hn m (List.mem_cons_of_mem n hm)) fun acts' h => hf acts' (h.trans hnote)

theorem keeps_afterWalking {dir : String} {acts : List (Act signature)}
    (h : lookupActs acts = [.began (.walk dir)]) (a : Except FileFault Listing) :
    KeepsAccount (some (.directory, dir)) acts (afterWalking dir a) := by
  cases a with
  | error f =>
    have hnote := lookupActs_noted (n := .listingFailed dir f) rfl acts
    change OneLookup _ _ (lookupActs (.noted (.listingFailed dir f) :: acts))
    rw [hnote, h]
    exact .operation rfl
  | ok l =>
    refine keeps_noteAll (by simp [Note.succeeded?]) fun acts' h' => ?_
    change OneLookup _ _ (.noted (.listed l.paths.length dir) :: lookupActs acts')
    rw [h', h]
    exact .success rfl rfl ⟨_, rfl⟩

theorem keeps_afterOpening {file : String} {acts : List (Act signature)}
    (h : lookupActs acts = [.began (.open file)]) (a : Except FileTree.OpenFault String) :
    KeepsAccount (some (.file, file)) acts (afterOpening file a) := by
  rcases a with (f | _) | text
  · have hnote := lookupActs_noted (n := .readingFailed file f) rfl acts
    change OneLookup _ _ (lookupActs (.noted (.readingFailed file f) :: acts))
    rw [hnote, h]
    exact .operation rfl
  · change OneLookup _ _ (lookupActs acts)
    rw [h]
    exact .operation rfl
  · change OneLookup _ _ (.noted (.read text.length file) :: lookupActs acts)
    rw [h]
    exact .success rfl rfl ⟨_, rfl⟩

theorem keeps_afterCompiling {file text : String} {acts : List (Act signature)}
    (h : lookupActs acts = [.asked (.compile file text)]) (a : Except Fault Handle) :
    KeepsAccount (some (.template, file)) acts (afterCompiling file a) := by
  have hfailed : ∀ f, KeepsAccount (some (.template, file)) acts (Program.fail f) := by
    intro f
    change OneLookup _ _ (lookupActs acts)
    rw [h]
    exact .operation rfl
  cases a with
  | error f =>
    cases f with
    | malformedTemplate f =>
      have hnote := lookupActs_noted (n := .compilingFailed file f) rfl acts
      change OneLookup _ _ (lookupActs (.noted (.compilingFailed file f) :: acts))
      rw [hnote, h]
      exact .operation rfl
    | _ => exact hfailed _
  | ok made =>
    change OneLookup _ _ (.noted (.compiled file) :: lookupActs acts)
    rw [h]
    exact .success rfl rfl ⟨_, rfl⟩

/-- **A shared task does the one lookup of its key.** -/
theorem keeps_jobAt (e : Engine) (c : CacheName) (k : String) :
    KeepsAccount (some (c, k)) [] (e.program (jobAt c k)) := by
  cases c with
  | directory => exact ⟨.operation rfl, keeps_afterWalking rfl⟩
  | file => exact ⟨.operation rfl, keeps_afterOpening rfl⟩
  | template => exact ⟨.nothing, fun text => keeps_afterCompiling rfl⟩

/-! ### While requests are served -/

/-- What is true of a desk while requests are served that use caches. -/
structure Served (e : Engine) (trees : FileTree → Prop) (d : Desk) : Prop where
  recorded : e.Recorded trees d
  kept : Board.Kept lookupAudit 0 d
  held : Board.Held 0 d

theorem served_new : e.Served trees {} where
  recorded := recorded_new
  kept := Board.kept_ended (b := {}) lookupAudit (fun _ _ => rfl) fun u x hx => by simp at hx
  held := Board.held_length {}

/-- The program of each task keeps the account of its place. -/
theorem keeps_program {task : Task signature}
    (hj : ∀ c k, task.place = some (c, k) → task.job = jobAt c k)
    (hc : task.place = none → Chooses true task.job) :
    KeepsAccount task.place [] (e.program task.job) := by
  cases hp : task.place with
  | none => exact keeps_of_uses (uses_program e (hc hp)) rfl
  | some p =>
    obtain ⟨c, k⟩ := p
    rw [hj c k hp]
    exact keeps_jobAt e c k

theorem Served.serves (h : e.Served trees d) (hs : e.Serves trees d d') : e.Served trees d' := by
  have hprog : ∀ (u : Nat) (task : Task signature), 0 ≤ u → d.tasks[u]? = some task →
      KeepsAccount task.place [] (e.program task.job) := fun u task hu ht =>
    keeps_program (h.recorded.upheld.placed u task · · hu ht) (h.kept.allowed u task hu ht)
  refine ⟨h.recorded.happens hs.happens, ?_, ?_⟩
  · cases hs with
    | start hj => exact h.kept.spawn hj
    | resume ht t => exact h.kept.move hprog (Board.move_resume _ _ t d)
    | complete ht t => exact h.kept.move hprog (Board.move_complete e.program _ t d)
    | cancel t hp => exact h.kept.cancel t
  · cases hs with
    | start hj => exact h.held.spawn _
    | resume ht t => exact h.held.move (Board.move_resume e.program _ t d)
    | complete ht t => exact h.held.move (Board.move_complete e.program _ t d)
    | cancel t hp => exact h.held.cancel t

theorem served (h : Relation.ReflTransGen (e.Serves trees) {} d) : e.Served trees d := by
  induction h with
  | refl => exact served_new
  | tail _ hs ih => exact ih.serves hs

/-! ### One lookup of each key -/

theorem OneLookup.of_operation {p q : CacheName × String} {o : Option (Except Fault Product)}
    {acts : List (Act signature)} (h : OneLookup p o acts) {a : Act signature} (ha : a ∈ acts)
    (hq : operationPlace? a = some q) : q = p := by
  cases h with
  | nothing => simp at ha
  | operation hp =>
    obtain rfl := List.mem_singleton.1 ha
    exact Option.some.inj (hq.symm.trans hp)
  | success hn hp ho =>
    rcases List.mem_cons.1 ha with rfl | ha
    · cases a with
      | noted n => cases hq
      | asked op => cases hn
      | began op => cases hn
    · obtain rfl := List.mem_singleton.1 ha
      exact Option.some.inj (hq.symm.trans hp)

theorem OneLookup.of_success {p q : CacheName × String} {o : Option (Except Fault Product)}
    {acts : List (Act signature)} (h : OneLookup p o acts) {a : Act signature} (ha : a ∈ acts)
    (hq : successPlace? a = some q) : q = p ∧ ∃ r, o = some (.ok r) := by
  have hop : ∀ {a : Act signature}, operationPlace? a = some p → successPlace? a ≠ some q := by
    intro a hp hs
    cases a with
    | noted n => cases hp
    | asked op => cases hs
    | began op => cases hs
  cases h with
  | nothing => simp at ha
  | operation hp =>
    obtain rfl := List.mem_singleton.1 ha
    exact absurd hq (hop hp)
  | success hn hp ho =>
    rcases List.mem_cons.1 ha with rfl | ha
    · exact ⟨Option.some.inj (hq.symm.trans hn), ho⟩
    · obtain rfl := List.mem_singleton.1 ha
      exact absurd hq (hop hp)

theorem OneLookup.count_le {p : CacheName × String} {o : Option (Except Fault Product)}
    {acts : List (Act signature)} (h : OneLookup p o acts) :
    acts.countP (fun a => (operationPlace? a).isSome) ≤ 1 ∧
      acts.countP (fun a => (successPlace? a).isSome) ≤ 1 := by
  cases h with
  | nothing => exact ⟨Nat.zero_le 1, Nat.zero_le 1⟩
  | @operation a hp => cases a <;> simp_all [operationPlace?, successPlace?]
  | @success a a' hn hp ho => cases a <;> cases a' <;> simp_all [operationPlace?, successPlace?]

/-- What a task did about keys that did anything about one. -/
theorem one_lookup {n : Nat} (h : Board.Kept lookupAudit n d) (hn : n ≤ t) {a : Act signature}
    (ha : a ∈ lookupActs (Board.account (σ := signature) d t)) :
    ∃ p, Board.place? (σ := signature) d t = some p ∧
      OneLookup p (Board.outcome? (σ := signature) d t)
        (lookupActs (Board.account (σ := signature) d t)) := by
  by_cases hlt : t < d.tasks.length
  · have ht := List.getElem?_eq_getElem hlt
    have hwant := (h.phases t _ hn ht).want
    rw [Board.place?_eq ht, Board.outcome?_eq ht]
    cases hp : d.tasks[t].place with
    | none =>
      rw [hp] at hwant
      have hnil : lookupActs (Board.account (σ := signature) d t) = [] := hwant
      rw [hnil] at ha
      cases ha
    | some p =>
      rw [hp] at hwant
      exact ⟨p, rfl, hwant⟩
  · rw [h.unbegun t (Nat.le_of_not_lt hlt)] at ha
    cases ha

/-- **Every operation is that of a shared task of its key.** -/
theorem place_of_operation {n : Nat} (h : Board.Kept lookupAudit n d) (hn : n ≤ t)
    {a : Act signature} {p : CacheName × String}
    (ha : a ∈ Board.account (σ := signature) d t) (hp : operationPlace? a = some p) :
    Board.place? (σ := signature) d t = some p := by
  have hmem : a ∈ lookupActs (Board.account (σ := signature) d t) :=
    List.mem_filter.2 ⟨ha, by simp [hp]⟩
  obtain ⟨q, hq, hone⟩ := one_lookup h hn hmem
  exact hq.trans (congrArg some (hone.of_operation hmem hp).symm)

/-- A success is that of a shared task of its key, which ended with it. -/
theorem place_of_success {n : Nat} (h : Board.Kept lookupAudit n d) (hn : n ≤ t)
    {a : Act signature} {p : CacheName × String}
    (ha : a ∈ Board.account (σ := signature) d t) (hp : successPlace? a = some p) :
    Board.place? (σ := signature) d t = some p ∧
      ∃ r, Board.outcome? (σ := signature) d t = some (.ok r) := by
  have hmem : a ∈ lookupActs (Board.account (σ := signature) d t) :=
    List.mem_filter.2 ⟨ha, by simp [hp]⟩
  obtain ⟨q, hq, hone⟩ := one_lookup h hn hmem
  obtain ⟨rfl, ho⟩ := hone.of_success hmem hp
  exact ⟨hq, ho⟩

/-- A lookup that is in flight is done by a shared task of its key that has not failed. -/
theorem Served.sound_inFlight (h : e.Served trees d) (hf : InFlight d c k t) :
    Board.Sound (σ := signature) d c k t := by
  obtain ⟨task, ht, ho, hdoes⟩ := hf
  refine ⟨?_, fun f hfail => ?_⟩
  · rcases hdoes with hj | ⟨op, next, hp, hplace⟩
    · cases hp : task.place with
      | none =>
        have hchoice := h.kept.allowed t task (Nat.zero_le t) ht hp
        cases hjob : task.job <;> rw [hjob] at hj hchoice <;> first | exact hchoice.elim | cases hj
      | some p =>
        have hjob : task.job = jobAt p.1 p.2 :=
          h.recorded.upheld.placed t task p.1 p.2 (Nat.zero_le t) ht hp
        have hp' : Job.place? (jobAt p.1 p.2) = some p := by
          obtain ⟨c', k'⟩ := p
          cases c' <;> rfl
        rw [hjob, hp'] at hj
        exact (Board.place?_eq ht).trans (hp.trans hj)
    · have hphase := h.kept.phases t task (Nat.zero_le t) ht
      rw [hp] at hphase
      obtain ⟨before, hacts⟩ := hphase.1
      have hmem : (.began op : Act signature) ∈ Board.account (σ := signature) d t := by
        rw [hacts]
        exact List.mem_cons_self
      exact hplace ▸ place_of_operation h.kept (Nat.zero_le t) hmem rfl
  · rw [Board.outcome?_eq ht, ho] at hfail
    cases hfail

/-- Events that are all acts of one task, of a kind of which it did one at most, are not more
than one. -/
theorem Served.countP_le (h : e.Served trees d) {P : Event signature → Bool}
    {Q : Act signature → Bool} (hQ : ∀ a, Q a = true →
      (operationPlace? a).isSome = true ∨ (successPlace? a).isSome = true)
    (hcount : ∀ p o acts, OneLookup p o acts → acts.countP Q ≤ 1)
    (hP : ∀ ev ∈ d.journal, P ev = true → ∃ t a, ev.actOf t = some a ∧ Q a = true ∧
      Board.Sound (σ := signature) d c k t) : d.journal.countP P ≤ 1 := by
  by_cases hex : ∃ ev ∈ d.journal, P ev = true
  · obtain ⟨ev, hev, hp⟩ := hex
    obtain ⟨t, a, ha, hq, hs⟩ := hP ev hev hp
    have hsame : ∀ ev ∈ d.journal, P ev = true → ∃ a, ev.actOf t = some a ∧ Q a = true := by
      intro ev' hev' hp'
      obtain ⟨t', a', ha', hq', hs'⟩ := hP ev' hev' hp'
      obtain rfl := h.held.unique (Nat.zero_le t) hs (Nat.zero_le t') hs'
      exact ⟨a', ha', hq'⟩
    have hmem : a ∈ lookupActs (Board.account (σ := signature) d t) :=
      List.mem_filter.2 ⟨Board.mem_account.2 ⟨ev, hev, ha⟩, by simpa using hQ a hq⟩
    obtain ⟨p, -, hone⟩ := one_lookup h.kept (Nat.zero_le t) hmem
    calc d.journal.countP P
      _ ≤ (Board.account (σ := signature) d t).countP Q := Board.countP_journal_le hsame
      _ = (lookupActs (Board.account (σ := signature) d t)).countP Q := by
        rw [lookupActs, List.countP_filter]
        refine List.countP_congr fun a _ => ?_
        by_cases hq : Q a = true
        · simpa [hq] using hQ a hq
        · simp [hq]
      _ ≤ 1 := hcount _ _ _ hone
  · have hzero : d.journal.countP P = 0 :=
      List.countP_eq_zero.2 fun ev hev hp => hex ⟨ev, hev, hp⟩
    rw [hzero]
    exact Nat.zero_le 1

/-- **Every path is looked up successfully at most once.** Let an engine serve requests that
use its caches, in any number and any order, while files change in any way and the caches are
not emptied. At any time at most one walk, one reading or one compilation of a path is in
flight, and of all that there ever were at most one succeeded or has not ended. -/
theorem lookups_once (h : Relation.ReflTransGen (e.Serves trees) {} d) (c : CacheName)
    (k : String) : LookedUpOnce d c k where
  inFlight t t' ht ht' := by
    have hserved := served h
    exact hserved.held.unique (Nat.zero_le t) (hserved.sound_inFlight ht) (Nat.zero_le t')
      (hserved.sound_inFlight ht')
  standing := by
    have hserved := served h
    have hevent : ∀ (ev : Event signature) (t : Nat) (op : Op) (a : Act signature),
        ev ∈ d.journal → ev.actOf t = some a → operationPlace? a = some (Op.place op) →
        (decide (Op.place op = (c, k)) && !hasFailed d t) = true →
        ∃ t a, ev.actOf t = some a ∧ (operationPlace? a).isSome = true ∧
          Board.Sound (σ := signature) d c k t := by
      intro ev t op a hev ha hplace hst
      obtain ⟨hp, hf⟩ := Bool.and_eq_true_iff.1 hst
      have hp : Op.place op = (c, k) := of_decide_eq_true hp
      refine ⟨t, a, ha, by simp [hplace], ?_, fun f ho => ?_⟩
      · exact place_of_operation hserved.kept (Nat.zero_le t)
          (Board.mem_account.2 ⟨ev, hev, ha⟩) (hplace.trans (congrArg some hp))
      · simp [hasFailed, ho] at hf
    refine hserved.countP_le (c := c) (k := k) (fun a => .inl)
      (fun _ _ _ hone => hone.count_le.1) ?_
    intro ev hev hst
    cases ev with
    | began t op => exact hevent _ t op (.began op) hev (if_pos rfl) rfl hst
    | asked t op => exact hevent _ t op (.asked op) hev (if_pos rfl) rfl hst
    | _ => cases hst
  successes := by
    have hserved := served h
    refine hserved.countP_le (c := c) (k := k) (fun a => .inr)
      (fun _ _ _ hone => hone.count_le.2) ?_
    intro ev hev hs
    cases ev with
    | noted t n =>
      have hn : Note.succeeded? n = some (c, k) := of_decide_eq_true hs
      have hact : Event.actOf t (.noted t n : Event signature) = some (.noted n) := if_pos rfl
      have hplace : successPlace? (.noted n) = some (c, k) := hn
      obtain ⟨hp, r, ho⟩ := place_of_success hserved.kept (Nat.zero_le t)
        (Board.mem_account.2 ⟨_, hev, hact⟩) hplace
      exact ⟨t, .noted n, hact, by simp [hplace], hp, fun f hf => by simp [ho] at hf⟩
    | _ => cases hs

/-- A desk on which a view was asked for twice, and the file is edited before it is opened. -/
def twiceDesk : Desk :=
  let request := Job.view (.str "/v.html") sampleOptions
  sampleEngine.settle (sampleTree "b")
    (sampleEngine.resume (sampleTree "a") 0 (start request (start request {}).2).2)

/-- Both views come to the same file, which is read and compiled once. -/
theorem lookups_once_two_views :
    Relation.ReflTransGen
        (sampleEngine.Serves fun tree => tree = sampleTree "a" ∨ tree = sampleTree "b") {}
        twiceDesk ∧
      (∀ c k, LookedUpOnce twiceDesk c k) ∧
      successes twiceDesk .file "/v.html" = 1 ∧ successes twiceDesk .template "/v.html" = 1 := by
  have hc : Chooses true (.view (.str "/v.html") sampleOptions) :=
    iff_of_true ⟨[(.str "cache", .bool true)], rfl, rfl⟩ rfl
  have hd : Relation.ReflTransGen
      (sampleEngine.Serves fun tree => tree = sampleTree "a" ∨ tree = sampleTree "b") {}
      twiceDesk := by
    refine Board.settle_keeps (fun _ t hb => hb.tail (.resume (.inr rfl) t))
      (fun _ t hb => hb.tail (.complete (.inr rfl) t)) _ ?_
    exact ((Relation.ReflTransGen.single (.start hc)).tail (.start hc)).tail (.resume (.inl rfl) 0)
  exact ⟨hd, fun c k => lookups_once hd c k, by decide +kernel, by decide +kernel⟩

end CachedViews.Engine
