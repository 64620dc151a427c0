import CachedViews.Proofs.Path.Below
import Mathlib.Logic.Relation

/-
# Canonical paths

A path is canonical (`Path.IsCanonical`) if it is one or two slashes and then plain components
with single slashes between them: no component is empty, a single dot or two dots. Resolving a
path gives a canonical one, and leaves exactly the canonical ones as they are
(`Path.isCanonical_iff`).

A path has many spellings. What leads nowhere (`Path.Idle`) can stand behind a path or between
two of its slashes (`Path.Respelled`); as long as the slashes at the start are left alone, the
resolved form does not change, whatever the working directory is (`Path.absolute_spelled`).
It is enough that two spellings have the same root and work any stack of components off alike
(`Components.absolute_congr`).

Key definitions: `Path.IsCanonical`, `Path.Idle`, `Path.Respelled`, `Path.Spelled`.
Key theorems: `Components.absolute_congr`, `Path.isCanonical_absolute`, `Path.isCanonical_iff`,
`Path.absolute_spelled`.
-/

namespace CachedViews

open CachedViews.Text

namespace Components

variable {a b c cwd p q s : List Char} {stack : List (List Char)}

/-! ### The root of a path -/

theorem isAbsolute_iff_root (p : List Char) : isAbsolute p = true ↔ root p ≠ [] := by
  rcases root_cases p with ⟨hr, ha⟩ | ⟨hr | hr, ha⟩ <;> simp [hr, ha]

/-- Behind something that is no slash, nothing counts for the root. -/
theorem root_append_of_mem (h : ∃ d ∈ a, d ≠ '/') (s : List Char) : root (a ++ s) = root a := by
  obtain ⟨d, hd, hne⟩ := h
  match a with
  | [] => cases hd
  | [x] =>
    obtain rfl := List.mem_singleton.1 hd
    simp [root, hne]
  | [x, y] =>
    by_cases hx : x = '/'
    · have hy : y ≠ '/' := by
        rintro rfl
        simp_all
      simp [root, hx, hy]
    · simp [root, hx]
  | x :: y :: z :: a =>
    by_cases hx : x = '/' <;> by_cases hy : y = '/' <;> by_cases hz : z = '/' <;>
      simp [root, hx, hy, hz]

/-- A path that is not absolute has the root of the working directory. -/
theorem root_join (h : isAbsolute p = false) (cwd : List Char) : root (join cwd p) = root cwd := by
  rw [join, if_neg (by simp [h])]
  by_cases hslash : ∃ d ∈ cwd, d ≠ '/'
  · split <;> exact root_append_of_mem hslash _
  · -- nothing but slashes: then none is put in between
    have hall : ∀ d ∈ cwd, d = '/' := fun d hd => by
      by_contra hne
      exact hslash ⟨d, hd, hne⟩
    have hend : cwd = [] ∨ cwd.getLast? = some '/' := by
      cases hlast : cwd.getLast? with
      | none => exact .inl (List.getLast?_eq_none_iff.1 hlast)
      | some d => exact .inr (by rw [hall d (List.mem_of_getLast? hlast)])
    rw [if_pos hend]
    rcases cwd with - | ⟨x, - | ⟨y, - | ⟨z, cwd⟩⟩⟩
    · rcases root_cases p with ⟨hr, -⟩ | ⟨-, ha⟩
      · exact hr
      · rw [ha] at h
        cases h
    · obtain rfl := hall x List.mem_cons_self
      exact root_append h ['/']
    · obtain rfl := hall x List.mem_cons_self
      obtain rfl := hall y (by simp)
      exact root_append h ['/', '/']
    · obtain rfl := hall x List.mem_cons_self
      obtain rfl := hall y (by simp)
      obtain rfl := hall z (by simp)
      rfl

/-! ### Spellings -/

/-- Two paths with the same root that work every stack off alike have the same resolved form. -/
theorem absolute_congr (hroot : root p = root q) (hw : ∀ stack, worked stack p = worked stack q)
    (cwd : List Char) : absolute cwd p = absolute cwd q := by
  have habs : isAbsolute p = isAbsolute q := by
    rw [Bool.eq_iff_iff, isAbsolute_iff_root, isAbsolute_iff_root, hroot]
  have hfull : root (join cwd p) = root (join cwd q) ∧
      worked [] (join cwd p) = worked [] (join cwd q) := by
    cases hp : isAbsolute p with
    | true =>
      rw [join, if_pos hp, join, if_pos (habs ▸ hp)]
      exact ⟨hroot, hw []⟩
    | false =>
      have hq := habs ▸ hp
      rw [root_join hp, root_join hq, worked_join hp, worked_join hq]
      exact ⟨rfl, hw _⟩
  rw [absolute, absolute, hfull.1, parts_eq, parts_eq, hfull.2]

theorem not_slash_of_isPlain (h : isPlain c = true) : '/' ∉ c := by
  simp only [isPlain, Bool.and_eq_true] at h
  simpa using h.2

/-- Plain components with slashes between them are put on the stack in their order. -/
theorem worked_joinWith {cs : List (List Char)} (h : ∀ x ∈ cs, isPlain x = true)
    (stack : List (List Char)) : worked stack (joinWith ['/'] cs) = cs.reverse ++ stack := by
  by_cases hnil : cs = []
  · rw [hnil]
    rfl
  · rw [worked, splitOn_joinWith (fun x hx => not_slash_of_isPlain (h x hx)) hnil,
      foldl_push_of_plain cs stack h]

/-- A plain component and two dots behind it lead nowhere. -/
theorem worked_detour (h : isPlain c = true) (stack : List (List Char)) :
    worked stack (c ++ ['/', '.', '.']) = stack := by
  have hin : worked stack c = c :: stack := by
    rw [worked, splitOn_of_not_mem (not_slash_of_isPlain h), List.foldl_cons, List.foldl_nil,
      push_of_plain h]
  rw [worked_slash, hin]
  rfl

end Components

namespace Path

/-! ### Canonical paths -/

/-- One or two slashes and then plain components with single slashes between them. -/
def IsCanonical (path : String) : Prop :=
  ∃ (root : String) (names : List String), (root = "/" ∨ root = "//") ∧
    (∀ x ∈ names, Components.isPlain x.toList = true) ∧
      path = root ++ "/".intercalate names

/-- What leads nowhere behind a slash: nothing, a dot, or a way into a directory and back. -/
inductive Idle : String → Prop
  | nothing : Idle ""
  | dot : Idle "."
  | detour (x : String) (h : Components.isPlain x.toList = true) : Idle (x ++ "/..")

/-- The second path is the first one with something idle in it: behind its end, unless it ends
with a slash, or at one of its slashes, unless it starts with it. -/
inductive Respelled : String → String → Prop
  | behind {path idle : String} (h : ∃ d, path.toList.getLast? = some d ∧ d ≠ '/')
      (hi : Idle idle) : Respelled path (path ++ "/" ++ idle)
  | within {front rest idle : String} (h : ∃ d ∈ front.toList, d ≠ '/') (hi : Idle idle) :
      Respelled (front ++ "/" ++ rest) (front ++ "/" ++ idle ++ "/" ++ rest)

/-- The one path can be made of the other by respelling it again and again, in both
directions. -/
def Spelled : String → String → Prop := Relation.EqvGen Respelled

variable {cwd path path' idle : String}

theorem toList_intercalate_slash (names : List String) :
    ("/".intercalate names).toList = joinWith ['/'] (names.map String.toList) := by
  induction names with
  | nil => rfl
  | cons x names ih =>
    cases names with
    | nil => simp [joinWith]
    | cons y names =>
      rw [String.intercalate_cons_cons, String.toList_append, String.toList_append, ih]
      rfl

/-- **Resolved paths are canonical.** -/
theorem isCanonical_absolute (h : isAbsolute cwd = true) (path : String) :
    IsCanonical (absolute cwd path) := by
  have hfull := Components.isAbsolute_join_left h path.toList
  have hplain := Components.parts_plain (Components.join cwd.toList path.toList)
  refine ⟨String.ofList (Components.root (Components.join cwd.toList path.toList)),
    (Components.parts (Components.join cwd.toList path.toList)).map String.ofList, ?_, ?_, ?_⟩
  · rcases Components.root_cases (Components.join cwd.toList path.toList) with
      ⟨-, hno⟩ | ⟨hr | hr, -⟩
    · rw [hfull] at hno
      cases hno
    · exact .inl (by rw [hr])
    · exact .inr (by rw [hr])
  · intro x hx
    obtain ⟨c, hc, rfl⟩ := List.mem_map.1 hx
    rw [String.toList_ofList]
    exact hplain c hc
  · refine String.toList_injective ?_
    rw [String.toList_append, toList_intercalate_slash, String.toList_ofList, List.map_map,
      absolute, String.toList_ofList]
    have hid : String.toList ∘ String.ofList = id := funext fun _ => String.toList_ofList
    rw [hid, List.map_id]
    rfl

theorem IsCanonical.isAbsolute (h : IsCanonical path) : isAbsolute path = true := by
  obtain ⟨root, names, rfl | rfl, -, rfl⟩ := h <;> simp [Path.isAbsolute, Components.isAbsolute]

/-- Whatever the working directory is, resolving a canonical path leaves it as it is. -/
theorem IsCanonical.absolute_eq (h : IsCanonical path) (cwd : String) :
    absolute cwd path = path := by
  obtain ⟨root, names, hroot, hplain, rfl⟩ := h
  have hcs : ∀ x ∈ names.map String.toList, Components.isPlain x = true := by simpa using hplain
  have hbody := Components.not_isAbsolute_joinWith hcs
  refine String.toList_injective ?_
  rw [absolute, String.toList_ofList, String.toList_append, toList_intercalate_slash]
  have hfront : Components.isAbsolute (root.toList ++ joinWith ['/'] (names.map String.toList)) =
      true := by
    rcases hroot with rfl | rfl <;> rfl
  have hstart : Components.root (root.toList ++ joinWith ['/'] (names.map String.toList)) =
      root.toList := by
    rcases hroot with rfl | rfl
    · exact Components.root_append hbody ['/']
    · exact Components.root_append hbody ['/', '/']
  have hwork : Components.worked [] (root.toList ++ joinWith ['/'] (names.map String.toList)) =
      Components.worked [] (joinWith ['/'] (names.map String.toList)) := by
    rcases hroot with rfl | rfl
    · exact Components.worked_slash [] [] _
    · exact Components.worked_slash [] ['/'] _
  rw [Components.absolute, Components.join, if_pos hfront, hstart, Components.parts_eq, hwork,
    Components.worked_joinWith hcs, List.append_nil, List.reverse_reverse]

/-- **Canonical paths are those that resolving leaves as they are.** -/
theorem isCanonical_iff (h : isAbsolute cwd = true) :
    IsCanonical path ↔ absolute cwd path = path :=
  ⟨fun hp => hp.absolute_eq cwd, fun he => he ▸ isCanonical_absolute h path⟩

/-! ### Spellings of one path -/

theorem Idle.worked (h : Idle idle) (stack : List (List Char)) :
    Components.worked stack idle.toList = stack := by
  cases h with
  | nothing => rfl
  | dot => rfl
  | detour x hx =>
    rw [String.toList_append]
    exact Components.worked_detour hx stack

theorem Respelled.absolute_eq (h : Respelled path path') (cwd : String) :
    absolute cwd path = absolute cwd path' := by
  refine congrArg String.ofList ?_
  cases h with
  | behind hend hi =>
    obtain ⟨d, hd, hne⟩ := hend
    simp only [String.toList_append, List.append_assoc]
    refine Components.absolute_congr
      (Components.root_append_of_mem ⟨d, List.mem_of_getLast? hd, hne⟩ _).symm
      (fun stack => ?_) _
    exact ((Components.worked_slash stack _ _).trans (hi.worked _)).symm
  | within hfront hi =>
    simp only [String.toList_append, List.append_assoc]
    refine Components.absolute_congr ?_ (fun stack => ?_) _
    · rw [Components.root_append_of_mem hfront, Components.root_append_of_mem hfront]
    · refine (Components.worked_slash stack _ _).trans ?_
      refine Eq.symm ((Components.worked_slash stack _ _).trans ?_)
      exact (Components.worked_slash _ _ _).trans (by rw [hi.worked])

/-- **All spellings of a path have one resolved form**, whatever the working directory is. -/
theorem absolute_spelled (h : Spelled path path') (cwd : String) :
    absolute cwd path = absolute cwd path' := by
  induction h with
  | rel _ _ h => exact h.absolute_eq cwd
  | refl => rfl
  | symm _ _ _ ih => exact ih.symm
  | trans _ _ _ _ _ ih ih' => exact ih.trans ih'

end Path

end CachedViews
