import CachedViews.Proofs.Engine.History
import CachedViews.Proofs.PathCache.Keys
import CachedViews.Proofs.Template.Faults

/-
# One key from the request to the report

Listing, reading and compiling resolve the path that they are given, look it up under what it
resolves to, and report that path if they fail (`Engine.reports_key`). Resolving again on the way
changes nothing (`Engine.keyOf_again`). With what holds of the keys of every path cache, a path
has one key for all who ask for it, however they spell it (`canonical_keys`).

Key definitions: `Engine.jobKey?`, `Engine.Reports`, `CanonicalKeys`.
Key theorems: `Engine.keyOf_again`, `Engine.reports_key`, `canonical_keys`.
-/

namespace CachedViews

namespace Engine

variable {e : Engine} {trees : FileTree → Prop} {d d' : Desk} {k file dir : String} {cached : Bool}

/-- The key of the path that a job is about, if it is about one. -/
def jobKey? (e : Engine) : Job → Option String
  | .list dir _ => (e.keyOf dir).toOption
  | .walk dir => some dir
  | .read file _ => (e.keyOf file).toOption
  | .open file => some file
  | .template file _ => (e.keyOf file).toOption
  | .compile file _ => some file
  | _ => none

/-- If this is a fault of the library, the path that it reports is `k`. -/
def Reports (k : String) (o : Except Fault Product) : Prop :=
  ∀ f, o = .error (.view f) → f.report.path = .str k

theorem reports_ok (k : String) (p : Product) : Reports k (.ok p) := nofun

theorem reports_fault {f : Fault} (h : ∀ v, f ≠ .view v) : Reports k (.error f) :=
  fun v hv => absurd (Except.error.inj hv) (h v)

/-- What a job that is about one path may end with. -/
def Keyed (e : Engine) (job : Job) (o : Except Fault Product) : Prop :=
  ∀ k, e.jobKey? job = some k → Reports k o

/-- A compiler knows nothing of views. -/
def PlainAnswer : (op : Op) → op.Answer → Prop
  | .compile _ _, a => TellsNoView (α := Handle) a
  | _, _ => True

theorem plainAnswer_world (e : Engine) (tree : FileTree) (n : Nat) (op : Op) :
    PlainAnswer op (e.world tree n op) := by
  cases op with
  | compile file text => exact (tellsNoView_compile _ _ _ _).map _
  | _ => trivial

/-- A program ends in a way that is wanted, where others keep to their keys. -/
abbrev EndsKeyed (e : Engine) (p : Work Product) (want : Except Fault Product → Prop) : Prop :=
  Program.Ensures (σ := signature) PlainAnswer (fun _ => True) e.Keyed p want

/-! ### Listing, reading and compiling -/

theorem reports_walking (dir : String) : e.EndsKeyed (walking dir) (Reports dir) := by
  rintro (f | l) -
  · rintro _ ⟨⟩
    rfl
  · exact ensures_noteAll _ (reports_ok _ _)

theorem reports_opening (file : String) : e.EndsKeyed (opening file) (Reports file) := by
  rintro ((f | _) | text) -
  · rintro _ ⟨⟩
    rfl
  · exact reports_fault nofun
  · exact reports_ok _ _

/-- What is looked up ends as the job of the key does. -/
theorem reports_cachedJob (c : CacheName) {job : Job} (h : e.jobKey? job = some k) :
    e.EndsKeyed (cachedJob c k job) (Reports k) :=
  ⟨fun _ _ => reports_ok _ _, fun _ hf => hf k h⟩

theorem reports_listing (dir : String) (cached : Bool) :
    e.EndsKeyed (listing dir cached) (Reports dir) := by
  cases cached with
  | true => exact reports_cachedJob _ rfl
  | false => exact reports_walking dir

theorem reports_reading (file : String) (cached : Bool) :
    e.EndsKeyed (reading file cached) (Reports file) := by
  cases cached with
  | true => exact reports_cachedJob _ rfl
  | false => exact reports_opening file

theorem reports_compiling (file : String) (cached : Bool) :
    e.EndsKeyed (compiling file cached) (Reports file) := by
  refine Program.Ensures.bind ((reports_reading file cached).mono fun o ho =>
    ⟨fun text _ => ?_, fun f hf => hf ▸ ho⟩)
  rintro (f | made) ha
  · have hplain := fun v hv => ha v (congrArg Except.error hv)
    cases f with
    | malformedTemplate s =>
      rintro _ ⟨⟩
      rfl
    | view v => exact absurd rfl (hplain v)
    | _ => exact reports_fault nofun
  · exact reports_ok _ _

theorem reports_template (file : String) (cached : Bool) :
    e.EndsKeyed (template file cached) (Reports file) := by
  cases cached with
  | true => exact reports_cachedJob _ rfl
  | false => exact reports_compiling file false

/-- A job that resolves its path first reports the key, if what it does with the key does. -/
theorem keyed_resolving {path : Value} {job : Job} (hj : e.jobKey? job = (e.keyOf path).toOption)
    {p : String → Work Product} (hp : ∀ key, e.EndsKeyed (p key) (Reports key)) :
    e.EndsKeyed (Program.ofExcept (e.keyOf path) >>= p) (e.Keyed job) := by
  cases hk : e.keyOf path with
  | error f =>
    intro k hkey
    rw [hj, hk] at hkey
    cases hkey
  | ok key =>
    refine (hp key).mono fun o ho k hkey => ?_
    rw [hj, hk] at hkey
    obtain rfl : key = k := Option.some.inj hkey
    exact ho

/-- What is relied on: jobs about one path report its key. -/
def keeps (e : Engine) : Contract signature where
  program := e.program
  jobAt := jobAt
  rank := rank
  answer := PlainAnswer
  allowed _ := True
  spec := e.Keyed
  calls := calls_program e
  ensures job _ := by
    have hkey : ∀ {key : String}, e.jobKey? job = some key →
        ∀ o, Reports key o → e.Keyed job o := fun hj o ho k hk =>
      Option.some.inj (hj.symm.trans hk) ▸ ho
    have hother : e.jobKey? job = none →
        (∀ p : Work Product, e.EndsKeyed p (e.Keyed job)) := fun hj p =>
      Program.ensures_of_forall (fun _ => trivial) (fun _ k hk => by simp [hj] at hk) p
    cases job with
    | list dir cached => exact keyed_resolving rfl fun key => reports_listing key cached
    | walk dir => exact (reports_walking dir).mono (hkey rfl)
    | read file cached => exact keyed_resolving rfl fun key => reports_reading key cached
    | «open» file => exact (reports_opening file).mono (hkey rfl)
    | template file cached => exact keyed_resolving rfl fun key => reports_template key cached
    | compile file cached => exact (reports_compiling file cached).mono (hkey rfl)
    | _ => exact hother rfl _

theorem lenient_keeps (e : Engine) : e.keeps.Lenient := fun _ _ _ => reports_fault nofun

theorem Happens.keeps (h : e.Happens trees d d') (hd : Board.Upheld e.keeps {} d) :
    Board.Upheld e.keeps {} d' := by
  have hempty : Board.Settled e.keeps {} := Board.settled_empty fun _ => trivial
  cases h with
  | start job => exact hd.spawn trivial
  | resume ht t => exact hd.move hempty (plainAnswer_world e _ _) (Board.move_resume _ _ t d)
  | complete ht t => exact hd.move hempty (plainAnswer_world e _ _) (Board.move_complete _ _ t d)
  | cancel t hp => exact hd.cancel e.lenient_keeps t
  | reset => exact ((hd.clear _).clear _).clear _

theorem Reached.keeps (h : e.Reached trees d) : Board.Upheld e.keeps {} d := by
  induction h with
  | refl => exact (Board.settled_empty fun _ => trivial).upheld
  | tail _ hs ih => exact hs.keeps ih

/-- **What fails about a path reports the key of the path**, at any time and whatever happens to
the files. -/
theorem reports_key (h : e.Reached trees d) {t : Nat} {task : Task signature}
    (ht : d.tasks[t]? = some task) (hk : e.jobKey? task.job = some k) {f : ViewFault}
    (hf : Board.outcome? (σ := signature) d t = some (.error (.view f))) :
    f.report.path = .str k := by
  obtain ⟨x, hx, ho⟩ := Board.outcome?_eq_some.1 hf
  obtain rfl := Option.some.inj (ht.symm.trans hx)
  have hphase := h.keeps.phases t task (Nat.zero_le t) ht
  rw [ho] at hphase
  exact hphase k hk f rfl

/-! ### Resolving again -/

/-- A key is its own key. -/
theorem keyOf_again (hcwd : Path.isAbsolute e.cwd = true) {path : Value}
    (h : e.keyOf path = .ok k) : e.keyOf (.str k) = .ok k := by
  unfold keyOf at h
  cases hp : path.asPath with
  | error f => simp [hp, Except.map] at h
  | ok p =>
    obtain rfl : Path.absolute e.cwd p = k := by simpa [hp, Except.map] using h
    exact congrArg Except.ok (Path.absolute_absolute hcwd p)

end Engine

/-- What holds of keys, seen from a working directory. -/
structure CanonicalKeys (cwd : String) : Prop where
  canonical : ∀ path, Path.IsCanonical (Path.absolute cwd path)
  /-- A canonical path is its own key, and no other one is. -/
  own : ∀ path, Path.IsCanonical path ↔ Path.absolute cwd path = path
  /-- Resolving a key again changes nothing, wherever that is done. -/
  fixed : ∀ path cwd', Path.absolute cwd' (Path.absolute cwd path) = Path.absolute cwd path
  spelled : ∀ path path', Path.Spelled path path' →
    Path.absolute cwd path = Path.absolute cwd path'
  /-- A cache holds each of its keys once, and they are canonical. -/
  held : ∀ (ρ : Type) (actions : List (PathCache.Action ρ)),
    (PathCache.keys (PathCache.after cwd {} actions)).Nodup ∧
      ∀ k ∈ PathCache.keys (PathCache.after cwd {} actions),
        Path.IsCanonical k ∧ Path.absolute cwd k = k
  /-- All operations work on the same entry, however their keys are spelled. -/
  oneEntry : ∀ (ρ : Type) (key key' : Value), PathCache.SamePath key key' →
    ∃ k, Path.IsCanonical k ∧ PathCache.Addresses ρ cwd key k ∧ PathCache.Addresses ρ cwd key' k
  /-- And so whole runs are alike. -/
  alike : ∀ (ρ : Type) (actions actions' : List (PathCache.Action ρ)),
    List.Forall₂ PathCache.Action.Respelled actions actions' →
      Board.Alike (PathCache.program cwd) (PathCache.after cwd {} actions)
        (PathCache.after cwd {} actions')
  /-- An engine resolves paths in several places, and each finds the same key. -/
  again : ∀ (e : Engine), e.cwd = cwd → ∀ path k, e.keyOf path = .ok k →
    e.keyOf (.str k) = .ok k
  /-- A fault of the library about a path reports the key. -/
  reported : ∀ (e : Engine), e.cwd = cwd → ∀ d, e.Reached (fun _ => True) d →
    ∀ (t : TaskId) (task : Task Engine.signature) (k : String) (f : ViewFault),
      d.tasks[t]? = some task → e.jobKey? task.job = some k →
        Board.outcome? (σ := Engine.signature) d t = some (.error (.view f)) →
          f.report.path = .str k

/-- **Cache keys are canonical**: all spellings of a path have one key, and a key is left as it
is by resolving it again. -/
theorem canonical_keys {cwd : String} (h : Path.isAbsolute cwd = true) : CanonicalKeys cwd where
  canonical := Path.isCanonical_absolute h
  own path := Path.isCanonical_iff h
  fixed path cwd' := (Path.isCanonical_absolute h path).absolute_eq cwd'
  spelled path path' hs := Path.absolute_spelled hs cwd
  held ρ actions := by
    refine ⟨PathCache.nodup_keys_after cwd actions, fun k hk => ?_⟩
    have hcanonical := PathCache.canonical_keys_after h actions hk
    exact ⟨hcanonical, hcanonical.absolute_eq cwd⟩
  oneEntry ρ key key' hs := by
    obtain ⟨path, hk, hk'⟩ := hs.exists_keyOf cwd
    exact ⟨_, Path.isCanonical_absolute h path, PathCache.addresses ρ hk,
      PathCache.addresses ρ hk'⟩
  alike ρ actions actions' ha := PathCache.alike_after (.refl _ _) ha
  again e he path k hk := Engine.keyOf_again (he ▸ h) hk
  reported e he d hd t task k f ht hk hf := Engine.reports_key hd ht hk hf

theorem canonical_keys_detour : Path.isAbsolute "/srv" = true ∧
    Path.Spelled "views/page" "views/old/../page" ∧
      Path.absolute "/srv" "views/page" = Path.absolute "/srv" "views/old/../page" := by
  have hback : Path.Spelled "views/page" "views/old/../page" :=
    .rel _ _ (Path.Respelled.within ⟨'v', by decide, by decide⟩ (.detour "old" (by decide)) :
      Path.Respelled ("views" ++ "/" ++ "page") _)
  exact ⟨by decide, hback, (canonical_keys (by decide)).spelled _ _ hback⟩

end CachedViews
