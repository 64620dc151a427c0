import CachedViews.Path
import Mathlib.Data.List.Basic

/-
# Paths below a directory

Resolving a path goes through its pieces from left to right, so the pieces of a path that is put
behind a directory are worked off on top of those of the directory
(`Components.worked_join`). The components of the resolved path are what is left
(`Path.components_absolute`); so whether a file lies below a directory (`Path.Below`) can be
told from the pieces of its name. A path that was resolved is its own resolved form
(`Path.absolute_absolute`).

Key definitions: `Components.worked`, `Path.Below`.
Key theorems: `Components.worked_join`, `Path.components_absolute`, `Path.absolute_absolute`.
-/

namespace CachedViews

open CachedViews.Text

namespace Components

/-- The stack of components after the pieces of a path, the last one first. -/
def worked (stack : List (List Char)) (path : List Char) : List (List Char) :=
  (splitOn '/' path).foldl push stack

variable {a b c s : List Char} {stack : List (List Char)}

theorem splitOn_of_not_mem {sep : Char} (h : sep ∉ s) : splitOn sep s = [s] := by
  induction s with
  | nil => rfl
  | cons d s ih =>
    have hd : d ≠ sep := fun he => h (he ▸ List.mem_cons_self)
    have hs := ih fun hmem => h (List.mem_cons_of_mem _ hmem)
    simp [splitOn, hd, hs]

/-- The pieces have no characters but those of the text. -/
theorem mem_of_mem_splitOn {sep d : Char} {w : List Char} (hw : w ∈ splitOn sep s) (hd : d ∈ w) :
    d ∈ s := by
  induction s generalizing w with
  | nil =>
    obtain rfl := List.mem_singleton.1 hw
    cases hd
  | cons e s ih =>
    unfold splitOn at hw
    split at hw
    · rcases List.mem_cons.1 hw with rfl | hw
      · cases hd
      · exact List.mem_cons_of_mem _ (ih hw hd)
    · split at hw
      · next hs => exact absurd hs (splitOn_ne_nil sep s)
      · next v vs hs =>
        rcases List.mem_cons.1 hw with rfl | hw
        · rcases List.mem_cons.1 hd with rfl | hd
          · exact List.mem_cons_self
          · exact List.mem_cons_of_mem _ (ih (by rw [hs]; exact List.mem_cons_self) hd)
        · exact List.mem_cons_of_mem _ (ih (by rw [hs]; exact List.mem_cons_of_mem _ hw) hd)

/-- A text with a separator in it is cut there. -/
theorem splitOn_append (sep : Char) (a b : List Char) :
    splitOn sep (a ++ sep :: b) = splitOn sep a ++ splitOn sep b := by
  induction a with
  | nil => simp [splitOn]
  | cons d a ih =>
    by_cases hd : d = sep
    · simp [splitOn, hd, ih]
    · cases ha : splitOn sep a with
      | nil => exact absurd ha (splitOn_ne_nil sep a)
      | cons w ws => simp [splitOn, hd, ih, ha]

/-- What is put behind a text without a separator belongs to its last piece. -/
theorem splitOn_append_of_not_mem {sep : Char} (h : sep ∉ b) (a : List Char) :
    ∃ ws w, splitOn sep a = ws ++ [w] ∧ splitOn sep (a ++ b) = ws ++ [w ++ b] := by
  induction a with
  | nil => exact ⟨[], [], rfl, by simpa using splitOn_of_not_mem h⟩
  | cons d a ih =>
    obtain ⟨ws, w, ha, hab⟩ := ih
    by_cases hd : d = sep
    · exact ⟨[] :: ws, w, by simp [splitOn, hd, ha], by simp [splitOn, hd, hab]⟩
    · cases ws with
      | nil => exact ⟨[], d :: w, by simp_all [splitOn], by simp_all [splitOn]⟩
      | cons v ws => exact ⟨(d :: v) :: ws, w, by simp_all [splitOn], by simp_all [splitOn]⟩

@[simp] theorem push_nil (stack : List (List Char)) : push stack [] = stack := rfl

@[simp] theorem worked_nil (stack : List (List Char)) : worked stack [] = stack := rfl

theorem worked_slash (stack : List (List Char)) (a b : List Char) :
    worked stack (a ++ '/' :: b) = worked (worked stack a) b := by
  rw [worked, splitOn_append, List.foldl_append]
  rfl

/-- A path that is not absolute is worked off on top of the directory it is put behind. -/
theorem worked_join (h : isAbsolute b = false) (stack : List (List Char)) (a : List Char) :
    worked stack (join a b) = worked (worked stack a) b := by
  rw [join, if_neg (by simp [h])]
  split
  · next ha =>
    rcases ha with rfl | ha
    · rfl
    · -- the directory ends with a slash already
      obtain ⟨d, rfl⟩ := List.getLast?_eq_some_iff.1 ha
      rw [List.append_assoc, List.singleton_append, worked_slash, worked_slash, worked_nil]
  · exact worked_slash stack a b

theorem isAbsolute_cons (d : Char) (a : List Char) :
    isAbsolute (d :: a) = decide (d = '/') := by
  by_cases hd : d = '/' <;> simp [isAbsolute, hd]

/-- What is put behind a directory is absolute if the directory is. -/
theorem isAbsolute_join (hb : isAbsolute b = false) (ha : a ≠ []) :
    isAbsolute (join a b) = isAbsolute a := by
  rw [join, if_neg (by simp [hb])]
  cases a with
  | nil => exact absurd rfl ha
  | cons d a => split <;> simp [isAbsolute_cons]

/-- A path behind a directory behind the working directory. -/
theorem worked_join_join (h : isAbsolute c = false) (a b : List Char) :
    worked [] (join a (join b c)) = worked (worked [] (join a b)) c := by
  by_cases hbc : isAbsolute (join b c) = true
  · have hb : isAbsolute b = true := by
      by_contra hb
      by_cases hnil : b = []
      · simp [hnil, join, h] at hbc
      · rw [isAbsolute_join h hnil] at hbc
        exact hb hbc
    rw [join.eq_1 a (join b c), if_pos hbc, worked_join h, join.eq_1 a b, if_pos hb]
  · have hbc : isAbsolute (join b c) = false := by simpa using hbc
    have hb : isAbsolute b = false := by
      by_cases hnil : b = []
      · rw [hnil]
        rfl
      · rwa [isAbsolute_join h hnil] at hbc
    rw [worked_join hbc, worked_join h, worked_join hb]

theorem parts_eq (path : List Char) : parts path = (worked [] path).reverse := rfl

theorem parts_plain (path : List Char) : ∀ x ∈ parts path, isPlain x = true :=
  resolve_plain fun w hw => not_mem_of_mem_splitOn '/' path w hw

theorem push_of_plain {x : List Char} (h : isPlain x = true) (stack : List (List Char)) :
    push stack x = x :: stack := by
  simp_all [push, isPlain]

/-- Pieces that stay are pushed in their order, and empty ones are passed over. -/
theorem foldl_push_of_clean {cs : List (List Char)}
    (h : ∀ x ∈ cs, x = [] ∨ isPlain x = true) (stack : List (List Char)) :
    cs.foldl push stack = (cs.filter (· ≠ [])).reverse ++ stack := by
  induction cs generalizing stack with
  | nil => rfl
  | cons x cs ih =>
    have hcs := ih fun y hy => h y (List.mem_cons_of_mem _ hy)
    rcases h x List.mem_cons_self with rfl | hx
    · simpa using hcs stack
    · have hne : x ≠ [] := by
        rintro rfl
        simp [isPlain] at hx
      simp [push_of_plain hx, hcs, hne]

/-- A text that is put together from pieces without separators is cut into them. -/
theorem splitOn_joinWith {sep : Char} {cs : List (List Char)} (h : ∀ x ∈ cs, sep ∉ x)
    (hne : cs ≠ []) : splitOn sep (joinWith [sep] cs) = cs := by
  induction cs with
  | nil => exact absurd rfl hne
  | cons x cs ih =>
    have hx := h x List.mem_cons_self
    cases cs with
    | nil => exact splitOn_of_not_mem hx
    | cons y cs =>
      have hrest := ih (fun z hz => h z (List.mem_cons_of_mem _ hz)) (List.cons_ne_nil _ _)
      have hj : joinWith [sep] (x :: y :: cs) = x ++ sep :: joinWith [sep] (y :: cs) := by
        simp [joinWith]
      rw [hj, splitOn_append, splitOn_of_not_mem hx, hrest]
      rfl

/-- The slashes that a path starts with are cut into empty pieces. -/
theorem filter_splitOn_root (path s : List Char) :
    (splitOn '/' (root path ++ s)).filter (· ≠ []) = (splitOn '/' s).filter (· ≠ []) := by
  have hslash : ∀ r, (splitOn '/' ('/' :: r)).filter (· ≠ []) =
      (splitOn '/' r).filter (· ≠ []) := fun r => by simp [splitOn]
  unfold root
  split
  · exact hslash s
  · exact (hslash _).trans (hslash s)
  · exact hslash s
  · rfl

/-- The components of a resolved path are those that are left. -/
theorem filter_splitOn_absolute (cwd path : List Char) :
    (splitOn '/' (absolute cwd path)).filter (· ≠ []) = parts (join cwd path) := by
  rw [absolute, filter_splitOn_root]
  have hplain := parts_plain (join cwd path)
  generalize parts (join cwd path) = cs at hplain ⊢
  have hne : ∀ x ∈ cs, x ≠ [] ∧ '/' ∉ x := fun x hx => by
    have := hplain x hx
    simp_all [isPlain]
  by_cases hcs : cs = []
  · simp [hcs, joinWith, splitOn]
  · rw [splitOn_joinWith (fun x hx => (hne x hx).2) hcs]
    exact List.filter_eq_self.2 fun x hx => by simpa using (hne x hx).1

/-! ### Resolving again -/

theorem isAbsolute_join_left (h : isAbsolute a = true) (b : List Char) :
    isAbsolute (join a b) = true := by
  cases hb : isAbsolute b with
  | true => rwa [join, if_pos hb]
  | false =>
    rw [isAbsolute_join hb (by rintro rfl; cases h)]
    exact h

/-- Plain components with slashes between them start with no slash. -/
theorem not_isAbsolute_joinWith {cs : List (List Char)} (h : ∀ x ∈ cs, isPlain x = true) :
    isAbsolute (joinWith ['/'] cs) = false := by
  cases cs with
  | nil => rfl
  | cons x cs =>
    have hx := h x List.mem_cons_self
    cases x with
    | nil => simp [isPlain] at hx
    | cons d x =>
      have hd : d ≠ '/' := by
        rintro rfl
        simp [isPlain] at hx
      cases cs <;> simp [joinWith, isAbsolute_cons, hd]

theorem root_cases (path : List Char) :
    root path = [] ∧ isAbsolute path = false ∨
      (root path = ['/'] ∨ root path = ['/', '/']) ∧ isAbsolute path = true := by
  unfold root
  split
  · exact .inr ⟨.inl rfl, rfl⟩
  · exact .inr ⟨.inr rfl, rfl⟩
  · exact .inr ⟨.inl rfl, rfl⟩
  · next h =>
    refine .inl ⟨rfl, ?_⟩
    cases path with
    | nil => rfl
    | cons d r => simpa [isAbsolute_cons] using fun hd : d = '/' => h r (by rw [hd])

/-- The slashes in front of what starts with no slash are told from it. -/
theorem root_append (h : isAbsolute s = false) (path : List Char) :
    root (root path ++ s) = root path := by
  rcases root_cases path with ⟨hr, -⟩ | ⟨hr | hr, -⟩ <;> rw [hr] <;> cases s with
  | nil => rfl
  | cons d t =>
    have hd : d ≠ '/' := by simpa [isAbsolute_cons] using h
    simp [root, hd]

theorem isAbsolute_absolute (h : isAbsolute a = true) (b : List Char) :
    isAbsolute (absolute a b) = true := by
  rcases root_cases (join a b) with ⟨-, hno⟩ | ⟨hr | hr, -⟩
  · rw [isAbsolute_join_left h b] at hno
    cases hno
  all_goals
    rw [absolute, hr]
    rfl

/-- **What was resolved is not changed by resolving it again**, be it against another directory. -/
theorem absolute_absolute (h : isAbsolute a = true) (a' b : List Char) :
    absolute a' (absolute a b) = absolute a b := by
  have hplain := parts_plain (join a b)
  have hroot : root (absolute a b) = root (join a b) :=
    root_append (not_isAbsolute_joinWith hplain) _
  have hparts : parts (absolute a b) = parts (join a b) := by
    have hfilter := filter_splitOn_absolute a b
    have hclean : ∀ x ∈ splitOn '/' (absolute a b), x = [] ∨ isPlain x = true := fun x hx => by
      by_cases hnil : x = []
      · exact .inl hnil
      · exact .inr (hplain x (hfilter ▸ List.mem_filter.2 ⟨hx, by simpa using hnil⟩))
    rw [parts_eq, worked, foldl_push_of_clean hclean, hfilter, List.append_nil,
      List.reverse_reverse]
  have hjoin : join a' (absolute a b) = absolute a b := if_pos (isAbsolute_absolute h b)
  rw [absolute, hjoin, hroot, hparts]
  rfl

end Components

namespace Path

/-- One resolved path is that of something strictly below the directory of the other: it has the
components of the directory, and more of them. -/
def Below (directory path : String) : Prop :=
  ∃ more, more ≠ [] ∧ components path = components directory ++ more

theorem components_absolute (cwd path : String) :
    components (absolute cwd path) =
      (Components.parts (Components.join cwd.toList path.toList)).map String.ofList := by
  unfold components absolute
  rw [String.toList_ofList, Components.filter_splitOn_absolute]

theorem isAbsolute_absolute {cwd : String} (h : isAbsolute cwd = true) (path : String) :
    isAbsolute (absolute cwd path) = true := by
  unfold isAbsolute absolute
  rw [String.toList_ofList]
  exact Components.isAbsolute_absolute h _

/-- A resolved path is its own resolved form. -/
theorem absolute_absolute {cwd : String} (h : isAbsolute cwd = true) (path : String) :
    absolute cwd (absolute cwd path) = absolute cwd path := by
  unfold absolute
  rw [String.toList_ofList, Components.absolute_absolute h]

theorem below_iff {cwd dir path : String} {ds ps : List (List Char)}
    (hd : Components.parts (Components.join cwd.toList dir.toList) = ds)
    (hp : Components.parts (Components.join cwd.toList path.toList) = ps) :
    Below (absolute cwd dir) (absolute cwd path) ↔ ∃ more, more ≠ [] ∧ ps = ds ++ more := by
  have hinj : Function.Injective String.ofList := fun a b h => String.ofList_injective h
  unfold Below
  rw [components_absolute, components_absolute, hd, hp]
  refine ⟨fun ⟨more, hne, he⟩ => ?_, fun ⟨more, hne, he⟩ => ?_⟩
  · obtain ⟨l, r, rfl, hl, hr⟩ := List.map_eq_append_iff.1 he
    obtain rfl := hinj.list_map hl
    exact ⟨r, fun hnil => hne (by rw [← hr, hnil]; rfl), rfl⟩
  · exact ⟨more.map String.ofList, by simpa using hne, by rw [he, List.map_append]⟩

end Path

end CachedViews
