import CachedViews.Log.Setup
import Mathlib.Data.List.Basic
import Mathlib.Data.List.Induction

/-
# What calls that set the log up leave behind

A call that returns leaves the root logger with the level and the handlers that it asks for,
whatever was there before (`Log.Call.root_of_returns`). A call whose level is refused leaves it
alone (`Log.Call.root_of_refused`). A call whose file cannot be opened fails after the level was set
and the old handlers were taken away, so it leaves its level and no handlers
(`Log.Call.root_of_unopened`).

So setting up is atomic only as long as no call gets past its level and fails then
(`Log.atomic_iff`).

Key definitions: `Log.Call`, `Log.after`, `Log.lastReturned?`, `Log.Atomic`.
Key theorems: `Log.Call.root_of_returns`, `Log.Call.root_of_unopened`, `Log.atomic_iff`.
-/

namespace CachedViews.Log

/-- A call that sets the log up: the directory it works in, the files that it finds, be they those
that an earlier call left or others, and its choices. -/
structure Call where
  cwd : String
  files : FileTree
  choices : LogChoices

namespace Call

variable (k : Call)

/-- What the call comes to. -/
def made (s : LogState) : Except Fault Unit × LogState :=
  setUp k.cwd k.choices { s with files := k.files }

/-- Does the call return? What was set up before has no influence on that (`made_fst`). -/
def returns : Bool := (k.made { files := k.files }).1.isOk

/-- The file that records are to go to, if one is named. -/
def logFile? : Option String :=
  if k.choices.file.isTrue then k.choices.file.path?.map (Path.absolute k.cwd) else none

/-- The root logger that the call asks for. -/
def asked : RootLogger :=
  ⟨(levelOf k.choices.level).toOption.getD 20, handlersOf k.choices k.logFile?⟩

end Call

/-- The log after calls. -/
def after (s : LogState) (calls : List Call) : LogState :=
  calls.foldl (fun s k => (k.made s).2) s

/-- The most recent call that returned. -/
def lastReturned? (calls : List Call) : Option Call := calls.reverse.find? (·.returns)

/-- The root logger that calls are to leave behind: the one that the most recent call that returned
asked for, or else the first one. -/
def intended (root : RootLogger) (calls : List Call) : RootLogger :=
  ((lastReturned? calls).map Call.asked).getD root

/-- Setting up is atomic all along: after each call the root logger is as the most recent call that
returned asked for, and a call that fails leaves it as it found it. -/
structure Atomic (s : LogState) (calls : List Call) : Prop where
  settled : ∀ done, done <+: calls → (after s done).root = intended s.root done
  untouched : ∀ done k, done ++ [k] <+: calls → k.returns = false →
    (after s (done ++ [k])).root = (after s done).root

variable {s : LogState} {calls done : List Call}

namespace Call

variable {k : Call} {level : Int}

/-! ### One call -/

/-- The file of a call, opened, and the files then. -/
def opened (k : Call) : Except Fault (Option String × FileTree) :=
  if k.choices.file.isTrue then
    (openLogFile k.cwd k.choices.file k.files).map fun (path, tree) => (some path, tree)
  else .ok (none, k.files)

/-- What a call does: it is refused for its level and touches nothing, or its file cannot be opened
and only the level is left, or it sets everything up. -/
theorem made_cases (k : Call) (s : LogState) :
    (∃ f, levelOf k.choices.level = .error f ∧
      k.made s = (.error f, { s with files := k.files })) ∨
    (∃ level f, levelOf k.choices.level = .ok level ∧ k.opened = .error f ∧
      k.made s = (.error f, { s with root := ⟨level, []⟩, files := k.files })) ∨
    (∃ level file files s', levelOf k.choices.level = .ok level ∧ k.opened = .ok (file, files) ∧
      k.made s = (.ok (), s') ∧ s'.root = ⟨level, handlersOf k.choices file⟩) := by
  cases hl : levelOf k.choices.level with
  | error f =>
    refine .inl ⟨f, rfl, ?_⟩
    unfold made setUp
    rw [hl]
  | ok level =>
    cases ho : k.opened with
    | error f =>
      refine .inr (.inl ⟨level, f, rfl, rfl, ?_⟩)
      unfold opened at ho
      unfold made setUp
      rw [hl]
      simp only [ho]
    | ok found =>
      refine .inr (.inr ⟨level, found.1, found.2, (k.made s).2, rfl, rfl, ?_⟩)
      unfold opened at ho
      unfold made setUp
      rw [hl]
      simp only [ho, and_self]

/-- A file that is opened has the path that names it. -/
theorem path_of_openLogFile {cwd full : String} {file : Value} {tree tree' : FileTree}
    (h : openLogFile cwd file tree = .ok (full, tree')) :
    file.path?.map (Path.absolute cwd) = some full := by
  cases hp : file.path? with
  | none =>
    unfold openLogFile Value.asPath at h
    rw [hp] at h
    cases h
  | some path =>
    have hfull (made : FileTree) (he : (Path.absolute cwd path, made) = (full, tree')) :
        some (Path.absolute cwd path) = some full := congrArg some (congrArg Prod.fst he)
    unfold openLogFile Value.asPath at h
    rw [hp] at h
    simp only [bind, Except.bind] at h
    -- the path is checked, its directories are made unless it has none, and the file is opened
    split at h
    · cases h
    · split at h
      · split at h
        · exact hfull _ (Except.ok.inj h)
        · cases h
      · split at h
        · split at h
          · exact hfull _ (Except.ok.inj h)
          · cases h
        · cases h

/-- The file that is opened is the one that is named. -/
theorem file_of_opened {file : Option String} {files : FileTree}
    (h : k.opened = .ok (file, files)) : file = k.logFile? := by
  unfold opened at h
  unfold logFile?
  split at h
  · next hnamed =>
    rw [if_pos hnamed]
    cases ho : openLogFile k.cwd k.choices.file k.files with
    | error f =>
      rw [ho] at h
      cases h
    | ok found =>
      rw [ho] at h
      rw [path_of_openLogFile ho]
      exact (congrArg Prod.fst (Except.ok.inj h)).symm
  · next hnamed =>
    rw [if_neg hnamed]
    exact (congrArg Prod.fst (Except.ok.inj h)).symm

/-- What was set up before decides nothing about how a call ends. -/
theorem made_fst (k : Call) (s s' : LogState) : (k.made s).1 = (k.made s').1 := by
  rcases k.made_cases s with ⟨f, hl, hm⟩ | ⟨level, f, hl, ho, hm⟩ | ⟨level, file, _, _, hl, ho, hm, -⟩
  all_goals
    rcases k.made_cases s' with ⟨f', hl', hm'⟩ | ⟨_, f', hl', ho', hm'⟩ | ⟨_, _, _, _, hl', ho', hm', -⟩
    all_goals simp_all

theorem returns_iff (k : Call) (s : LogState) : k.returns = true ↔ (k.made s).1 = .ok () := by
  unfold returns
  rw [k.made_fst _ s]
  cases (k.made s).1 <;> simp [Except.isOk, Except.toBool]

/-- **A call that returns leaves what it asks for**, whatever was there before. -/
theorem root_of_returns (h : k.returns = true) (s : LogState) : (k.made s).2.root = k.asked := by
  have hok := (k.returns_iff s).1 h
  rcases k.made_cases s with ⟨f, hl, hm⟩ | ⟨level, f, hl, ho, hm⟩ | ⟨level, file, _, s', hl, ho, hm, hr⟩
  · rw [hm] at hok
    cases hok
  · rw [hm] at hok
    cases hok
  · have hlevel : (levelOf k.choices.level).toOption.getD 20 = level := by
      rw [hl]
      rfl
    rw [hm, hr, file_of_opened ho, asked, hlevel]

/-- A call that is refused for its level fails, and leaves the root logger alone. -/
theorem root_of_refused {f : Fault} (h : levelOf k.choices.level = .error f) (s : LogState) :
    k.returns = false ∧ (k.made s).2.root = s.root := by
  rcases k.made_cases s with ⟨f', hl, hm⟩ | ⟨_, _, hl, -⟩ | ⟨_, _, _, _, hl, -⟩
  · refine ⟨?_, by rw [hm]⟩
    rw [Bool.eq_false_iff, Ne, k.returns_iff s, hm]
    nofun
  all_goals
    rw [h] at hl
    cases hl

/-- A call that fails for its file leaves its level, and no handlers. -/
theorem root_of_unopened (hl : levelOf k.choices.level = .ok level) (h : k.returns = false)
    (s : LogState) : (k.made s).2.root = ⟨level, []⟩ := by
  rcases k.made_cases s with ⟨_, hl', -⟩ | ⟨level', _, hl', -, hm⟩ | ⟨_, _, _, _, -, -, hm, -⟩
  · rw [hl] at hl'
    cases hl'
  · rw [hl] at hl'
    obtain rfl := Except.ok.inj hl'
    rw [hm]
  · have hok := (k.returns_iff s).2 (congrArg Prod.fst hm)
    rw [h] at hok
    cases hok

/-- What a call asks for: a handler for the console or the given one, and one for the file if one is
named. -/
theorem sinks_asked (k : Call) : k.asked.handlers.map Handler.sink =
    (if k.choices.given then .given else .console) :: (k.logFile?.map Sink.file).toList := by
  unfold asked handlersOf
  cases k.choices.given <;> cases k.logFile? <;> rfl

theorem handlers_asked (k : Call) : k.asked.handlers ≠ [] := fun h => by
  have hsinks := k.sinks_asked
  rw [h] at hsinks
  cases hsinks

end Call

/-! ### All calls -/

theorem after_concat (s : LogState) (done : List Call) (k : Call) :
    after s (done ++ [k]) = (k.made (after s done)).2 :=
  List.foldl_concat ..

theorem lastReturned?_concat (done : List Call) (k : Call) :
    lastReturned? (done ++ [k]) = if k.returns then some k else lastReturned? done := by
  unfold lastReturned?
  rw [List.reverse_append, List.reverse_singleton, List.singleton_append, List.find?_cons]
  cases k.returns <;> rfl

theorem intended_of_returns {k : Call} (h : k.returns = true) (root : RootLogger)
    (done : List Call) : intended root (done ++ [k]) = k.asked := by
  unfold intended
  rw [lastReturned?_concat, if_pos h]
  rfl

theorem intended_of_fails {k : Call} (h : k.returns = false) (root : RootLogger)
    (done : List Call) : intended root (done ++ [k]) = intended root done := by
  unfold intended
  rw [lastReturned?_concat, if_neg (by simp [h])]

/-- Only where nothing was set up yet can there be no handlers to be. -/
theorem intended_eq_bare_iff {root : RootLogger} {level : Int} :
    intended root done = ⟨level, []⟩ ↔ lastReturned? done = none ∧ root = ⟨level, []⟩ := by
  unfold intended
  cases hlast : lastReturned? done with
  | none => simp
  | some k =>
    have hne : k.asked ≠ ⟨level, []⟩ := fun h => k.handlers_asked (congrArg RootLogger.handlers h)
    simpa using hne

/-- A call gets past its level and fails then. -/
def Call.FailsHalfway (k : Call) (level : Int) : Prop :=
  levelOf k.choices.level = .ok level ∧ k.returns = false

/-- A call leaves what is intended, if that was there before; unless it fails halfway. -/
theorem settled_concat {k : Call} (h : (after s done).root = intended s.root done)
    (hk : ∀ level, k.FailsHalfway level → intended s.root done = ⟨level, []⟩) :
    (after s (done ++ [k])).root = intended s.root (done ++ [k]) := by
  rw [after_concat]
  cases hr : k.returns with
  | true => rw [k.root_of_returns hr, intended_of_returns hr]
  | false =>
    rw [intended_of_fails hr]
    cases hl : levelOf k.choices.level with
    | error f => rw [(k.root_of_refused hl _).2, h]
    | ok level => rw [k.root_of_unopened hl hr, hk level ⟨hl, hr⟩]

/-- **Setting up is atomic exactly as long as no call fails halfway.** A call fails halfway if its
level is accepted but its file cannot be opened: then its level stays and all handlers are gone. This
goes unnoticed only if there were no handlers to begin with, the level was the same, and no call has
returned yet. -/
theorem atomic_iff (s : LogState) (calls : List Call) :
    Atomic s calls ↔ ∀ done k level, done ++ [k] <+: calls → k.FailsHalfway level →
      lastReturned? done = none ∧ s.root = ⟨level, []⟩ := by
  refine ⟨fun ha done k level hpre hk => ?_, fun h => ?_⟩
  · have hroot := ha.settled _ hpre
    rw [after_concat, k.root_of_unopened hk.1 hk.2, intended_of_fails hk.2] at hroot
    exact intended_eq_bare_iff.1 hroot.symm
  · have hsettled : ∀ done, done <+: calls → (after s done).root = intended s.root done := by
      intro done
      -- call after call, the last one first
      induction done using List.reverseRecOn with
      | nil => exact fun _ => rfl
      | append_singleton done k ih =>
        intro hpre
        have hbefore := ih ((List.prefix_append _ _).trans hpre)
        exact settled_concat hbefore fun level hk =>
          intended_eq_bare_iff.2 (h done k level hpre hk)
    refine ⟨hsettled, fun done k hpre hk => ?_⟩
    rw [hsettled _ hpre, hsettled _ ((List.prefix_append _ _).trans hpre), intended_of_fails hk]

/-! ### A file in the way of a directory -/

/-- A file that has the name of a directory. -/
def blockedTree : FileTree := { root := .directory [("f", .file [])] }

/-- A call that sets up the console. -/
def consoleCall : Call := ⟨"/", blockedTree, { level := .str "debug" }⟩

/-- A call whose file would lie below the other file. -/
def blockedCall : Call := ⟨"/", blockedTree, { level := .str "error", file := .str "f/x.log" }⟩

/-- The second call fails, and leaves its level and no handlers behind. -/
theorem left_without_handlers :
    blockedCall.FailsHalfway 40 ∧
      (after { files := blockedTree } [consoleCall]).root = consoleCall.asked ∧
      (after { files := blockedTree } [consoleCall, blockedCall]).root = ⟨40, []⟩ ∧
      ¬Atomic { files := blockedTree } [consoleCall, blockedCall] := by
  have hconsole : consoleCall.returns = true := by decide +kernel
  have hblocked : blockedCall.FailsHalfway 40 := ⟨by decide +kernel, by decide +kernel⟩
  have hleft : (after { files := blockedTree } [consoleCall, blockedCall]).root = ⟨40, []⟩ :=
    blockedCall.root_of_unopened hblocked.1 hblocked.2 _
  refine ⟨hblocked, consoleCall.root_of_returns hconsole _, hleft, fun ha => ?_⟩
  have hkept := ha.untouched [consoleCall] blockedCall List.prefix_rfl hblocked.2
  rw [show [consoleCall] ++ [blockedCall] = [consoleCall, blockedCall] from rfl, hleft] at hkept
  exact consoleCall.handlers_asked
    (congrArg RootLogger.handlers ((consoleCall.root_of_returns hconsole _).symm.trans hkept.symm))

end CachedViews.Log
