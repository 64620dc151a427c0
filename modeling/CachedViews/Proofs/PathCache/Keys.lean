import CachedViews.Proofs.PathCache.Runs
import CachedViews.Proofs.Path.Canonical
import CachedViews.Proofs.Task.Alike
import CachedViews.Proofs.Task.Keys

/-
# The keys of a path cache

Whatever happens to a cache of paths, it holds every key once, and each of them is a canonical
path (`PathCache.nodup_keys_after`, `PathCache.canonical_keys_after`): only requests with
caching and `populate` bring keys in, and both resolve them first.

All operations work on the entry of the resolved key (`PathCache.Addresses`). So it makes no
difference how a key is spelled: a run whose actions are given other spellings of their keys
leads to the same entries, the same journal and the same outcomes
(`PathCache.alike_after`).

Key definitions: `PathCache.Addresses`, `PathCache.SamePath`, `PathCache.Action.Respelled`.
Key theorems: `PathCache.nodup_keys_after`, `PathCache.canonical_keys_after`,
`PathCache.addresses`, `PathCache.alike_after`.
-/

namespace CachedViews.PathCache

variable {ρ : Type} {cwd k : String} {key key' : Value} {b b' : Cache ρ} {t : TaskId}
  {w : World (signature ρ)} {task : Task (signature ρ)}

/-! ### Keys come in resolved -/

/-- A task that stores a key was asked for a path that resolves to it. -/
theorem key_of_storing {p : Program (signature ρ) ρ} {c : Unit} {job : Job ρ}
    {next : ρ → Program (signature ρ) ρ} (hs : Standing task.job task.phase)
    (hp : Board.GoesOn (program cwd) w b task p) (h : Board.halt w b p = .storing c k job next) :
    ∃ key, keyOf cwd key = .ok k := by
  have hcourse : ∀ course : Course ρ, Board.halt w b course.program ≠ .storing c k job next := by
    rintro (_ | _) <;> nofun
  obtain ⟨own, place, phase, asked⟩ := task
  simp only at hs
  cases hp with
  | first =>
    match own with
    | .shared compute => exact absurd h (hcourse compute.course)
    | .request key compute false => exact absurd h (hcourse compute.course)
    | .request key compute true =>
      refine ⟨key, ?_⟩
      cases hk : keyOf cwd key with
      | error f =>
        rw [program_request_error hk] at h
        cases h
      | ok k' =>
        rw [halt_request hk] at h
        split at h
        · cases h
          rfl
        · split at h <;> cases h
  | answered hph =>
    obtain rfl : phase = _ := hph
    cases hs with
    | waiting _ op next' hj => exact absurd h (hcourse (next' _))
  | joined hph ho =>
    obtain rfl : phase = _ := hph
    cases hs with
    | joined key compute s => cases h
  | joinFailed hph ho => cases h
  | gathered hph hr =>
    obtain rfl : phase = _ := hph
    cases hs
  | gatherFailed hph hf => cases h

/-- What a cache holds was asked for, by a path that resolves to its key. -/
def Resolved (cwd : String) (b : Cache ρ) : Prop :=
  ∀ place ∈ b.entries.map Entry.place, ∃ key, keyOf cwd key = .ok place.2

theorem Resolved.of_sublist (hb : Resolved cwd b) (h : b'.entries.Sublist b.entries) :
    Resolved cwd b' := fun place hp => hb place ((h.map _).subset hp)

theorem Resolved.of_store (hb : Resolved cwd b) (hk : keyOf cwd key = .ok k) {c : Unit}
    (h : b'.entries = Board.store (σ := signature ρ) c k t b.entries) : Resolved cwd b' := by
  intro place hp
  rw [h] at hp
  obtain ⟨e, he, rfl⟩ := List.mem_map.1 hp
  rcases Board.place_of_mem_store he with hold | hnew
  · exact hb _ hold
  · exact ⟨key, by rw [hk, hnew]⟩

theorem Resolved.move (hb : Resolved cwd b) (hs : Standings b)
    (h : Board.Move (program cwd) w t b b') : Resolved cwd b' := by
  rcases h.entries_cases with hsub | ⟨task, p, c, k, job, next, ht, hp, hh, he⟩
  · exact hb.of_sublist hsub
  · obtain ⟨key, hk⟩ := key_of_storing (hs t task ht) hp hh
    exact hb.of_store hk he

theorem Resolved.act (hb : Resolved cwd b) (hs : Standings b) (a : Action ρ) :
    Resolved cwd (a.act cwd b) := by
  cases a with
  | get key compute cached => exact hb
  | populate key compute =>
    simp only [Action.act, PathCache.populate]
    cases hk : keyOf cwd key with
    | error f => exact hb
    | ok k => exact hb.of_store hk rfl
  | invalidate key =>
    simp only [Action.act, PathCache.invalidate]
    cases keyOf cwd key with
    | error f => exact hb
    | ok k => exact hb.of_sublist List.filter_sublist
  | clear => exact hb.of_sublist List.filter_sublist
  | cancel t =>
    simp only [Action.act, Board.cancel]
    split
    · exact hb
    · exact hb
  | resume t => exact hb.move hs (Board.move_resume _ _ t b)
  | openGate outcome t => exact hb.move hs (Board.move_complete _ _ t b)

theorem resolved_after (hb : Resolved cwd b) (hs : Standings b) (as : List (Action ρ)) :
    Resolved cwd (after cwd b as) := by
  induction as generalizing b with
  | nil => exact hb
  | cons a as ih => exact ih (hb.act hs a) (standings_after cwd hs [a])

/-- **No key is held twice**, whatever happened to the cache. -/
theorem nodup_keys_after (cwd : String) (as : List (Action ρ)) :
    (keys (after cwd {} as)).Nodup := by
  have hd : Board.Distinct (after cwd ({} : Cache ρ) as) :=
    keeps_after (fun _ _ hs h => h.step hs) Board.distinct_empty as
  exact hd.nodup_keys ()

/-- **All keys are resolved paths**, whatever happened to the cache. -/
theorem keys_after_resolved (as : List (Action ρ)) (h : k ∈ keys (after cwd {} as)) :
    ∃ path, k = Path.absolute cwd path := by
  have hr : Resolved cwd (after cwd ({} : Cache ρ) as) :=
    resolved_after (fun _ hp => by simp at hp) standings_empty as
  obtain ⟨key, hk⟩ := hr _ (Board.mem_keys.1 h)
  unfold keyOf at hk
  cases hp : key.asPath with
  | error f => simp [hp, Except.map] at hk
  | ok path => exact ⟨path, by simpa [hp, Except.map, eq_comm] using hk⟩

theorem canonical_keys_after (hcwd : Path.isAbsolute cwd = true) (as : List (Action ρ))
    (h : k ∈ keys (after cwd {} as)) : Path.IsCanonical k := by
  obtain ⟨path, rfl⟩ := keys_after_resolved as h
  exact Path.isCanonical_absolute hcwd path

/-! ### Spellings of a key -/

/-- Every operation on a cache that is given the key works on the entry of the path `k`. -/
structure Addresses (ρ : Type) (cwd : String) (key : Value) (k : String) : Prop where
  get : ∀ compute : Compute ρ, program cwd (.request key compute true) =
    .lookup paths k (.shared compute) fun r => .done (.ok r)
  populate : ∀ (compute : Compute ρ) (b : Cache ρ), PathCache.populate cwd key compute b =
    .ok (Board.populate (σ := signature ρ) paths k (.shared compute) b)
  invalidate : ∀ b : Cache ρ, PathCache.invalidate cwd key b =
    .ok (Board.invalidate (σ := signature ρ) paths k b)
  peek : ∀ b : Cache ρ, PathCache.peek cwd key b = .ok (b.stored? paths k)
  contains : ∀ b : Cache ρ, PathCache.contains cwd key b = .ok ((keys b).contains k)

theorem addresses (ρ : Type) (h : keyOf cwd key = .ok k) : Addresses ρ cwd key k where
  get compute := program_request h compute
  populate compute b := by
    unfold PathCache.populate
    rw [h]
    rfl
  invalidate b := by
    unfold PathCache.invalidate
    rw [h]
    rfl
  peek b := by
    unfold PathCache.peek
    rw [h]
    rfl
  contains b := by
    unfold PathCache.contains
    rw [h]
    rfl

/-- Two keys are spellings of one path. -/
def SamePath (key key' : Value) : Prop :=
  ∃ path path', key.path? = some path ∧ key'.path? = some path' ∧ Path.Spelled path path'

theorem SamePath.exists_keyOf (h : SamePath key key') (cwd : String) :
    ∃ path, keyOf cwd key = .ok (Path.absolute cwd path) ∧
      keyOf cwd key' = .ok (Path.absolute cwd path) := by
  obtain ⟨path, path', hp, hp', hs⟩ := h
  have hkey : ∀ {v : Value} {p : String}, v.path? = some p →
      keyOf cwd v = .ok (Path.absolute cwd p) := fun hv => by
    simp [keyOf, Value.asPath, hv, Except.map]
  exact ⟨path, hkey hp, by rw [hkey hp', Path.absolute_spelled hs]⟩

/-- The second action is the first one, or has its key spelled differently. -/
inductive Action.Respelled : Action ρ → Action ρ → Prop
  | same (a : Action ρ) : Respelled a a
  | get {v v' : Value} (h : SamePath v v') (compute : Compute ρ) (cached : Bool) :
      Respelled (.get v compute cached) (.get v' compute cached)
  | populate {v v' : Value} (h : SamePath v v') (compute : Compute ρ) :
      Respelled (.populate v compute) (.populate v' compute)
  | invalidate {v v' : Value} (h : SamePath v v') : Respelled (.invalidate v) (.invalidate v')

/-- Requests for two spellings of a path have one program. -/
theorem SamePath.program_eq (h : SamePath key key') (cwd : String) (compute : Compute ρ)
    (cached : Bool) :
    program cwd (.request key' compute cached) = program cwd (.request key compute cached) := by
  cases cached with
  | false => rfl
  | true =>
    obtain ⟨path, hk, hk'⟩ := h.exists_keyOf cwd
    rw [program_request hk, program_request hk']

theorem alike_act (h : Board.Alike (program cwd) b b') {a a' : Action ρ} (ha : a.Respelled a') :
    Board.Alike (program cwd) (a.act cwd b) (a'.act cwd b') := by
  cases ha with
  | get hsame compute cached => exact h.spawn (hsame.program_eq cwd compute cached)
  | populate hsame compute =>
    obtain ⟨path, hk, hk'⟩ := hsame.exists_keyOf cwd
    simp only [Action.act, (addresses ρ hk).populate, (addresses ρ hk').populate]
    exact h.populate _ _ _
  | invalidate hsame =>
    obtain ⟨path, hk, hk'⟩ := hsame.exists_keyOf cwd
    simp only [Action.act, (addresses ρ hk).invalidate, (addresses ρ hk').invalidate]
    exact h.invalidate _ _
  | same =>
    cases a with
    | get key compute cached => exact h.spawn rfl
    | populate key compute =>
      simp only [Action.act, PathCache.populate]
      cases keyOf cwd key with
      | error f => exact h
      | ok k => exact h.populate _ _ _
    | invalidate key =>
      simp only [Action.act, PathCache.invalidate]
      cases keyOf cwd key with
      | error f => exact h
      | ok k => exact h.invalidate _ _
    | clear => exact h.clear _
    | cancel t => exact h.cancel t
    | resume t => exact h.resume _ t
    | openGate outcome t => exact h.complete _ t

/-- **How keys are spelled makes no difference**: the entries, the journal and all outcomes are
the same. -/
theorem alike_after (h : Board.Alike (program cwd) b b') {as as' : List (Action ρ)}
    (ha : List.Forall₂ Action.Respelled as as') :
    Board.Alike (program cwd) (after cwd b as) (after cwd b' as') := by
  induction ha generalizing b b' with
  | nil => exact h
  | cons ha _ ih => exact ih (alike_act h ha)

end CachedViews.PathCache
