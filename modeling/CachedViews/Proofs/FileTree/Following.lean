import CachedViews.FileTree
import CachedViews.Proofs.Fields
import CachedViews.Proofs.Path.Below
import Mathlib.Algebra.GroupWithZero.Nat
import Mathlib.Data.List.Induction
import Mathlib.Data.List.Nodup

/-
# Following paths

Following names is following the first ones and then the rest from what is found there, with
the links that are left (`FileTree.follow_append`). With more links, no less is found
(`FileTree.follow_of_le`), and what is found stands at its real path (`FileTree.at?_follow`).
A name of a directory leads to the entry of that name (`FileTree.follow_entry`).

Key definitions: `FileTree.jump`, `FileTree.nodeAt`, `FileNode.isWellFormed`,
`FileTree.WellFormed`.
Key theorems: `FileTree.follow_append`, `FileTree.follow_of_le`, `FileTree.at?_follow`,
`FileTree.follow_entry`.
-/

namespace CachedViews

open CachedViews.Text

/-! ### Trees that are well formed -/

/-- Can a name stand in a directory? -/
def isEntryName (name : String) : Bool :=
  name ≠ "" && name ≠ "." && name ≠ ".." && !name.toList.contains '/'

theorem not_slash_of_isEntryName {c : String} (h : isEntryName c = true) : '/' ∉ c.toList := by
  simp only [isEntryName, Bool.and_eq_true, Bool.not_eq_true'] at h
  simpa using h.2

namespace FileNode

mutual

/-- In every directory below a node, the names are distinct and are names of entries. -/
def isWellFormed : FileNode → Bool
  | directory es => decide (es.map (·.1)).Nodup && areWellFormed es
  | _ => true

/-- Are entries named and well formed? -/
def areWellFormed : List (String × FileNode) → Bool
  | [] => true
  | (name, n) :: es => isEntryName name && isWellFormed n && areWellFormed es

end

theorem areWellFormed_iff {es : List (String × FileNode)} :
    areWellFormed es = true ↔ ∀ e ∈ es, isEntryName e.1 = true ∧ e.2.isWellFormed = true := by
  induction es with
  | nil => simp [areWellFormed]
  | cons e es ih => simp [areWellFormed, ih, and_assoc]

theorem isWellFormed_directory {es : List (String × FileNode)} :
    (directory es).isWellFormed = true ↔ (es.map (·.1)).Nodup ∧
      ∀ e ∈ es, isEntryName e.1 = true ∧ e.2.isWellFormed = true := by
  simp [isWellFormed, areWellFormed_iff]

theorem isWellFormed_at? {n m : FileNode} {names : List String} (hn : n.isWellFormed = true)
    (h : n.at? names = some m) : m.isWellFormed = true := by
  induction names generalizing n with
  | nil => exact Option.some.inj h ▸ hn
  | cons name more ih =>
    rw [at?] at h
    split at h
    · rename_i child hc
      cases n with
      | directory es => exact ih ((isWellFormed_directory.1 hn).2 _ (mem_of_lookup hc)).2 h
      | file content => simp [entries] at hc
      | link target => simp [entries] at hc
    · nomatch h

theorem at?_append (n : FileNode) (names more : List String) :
    n.at? (names ++ more) = (n.at? names).bind fun m => m.at? more := by
  induction names generalizing n with
  | nil => rfl
  | cons name names ih =>
    rw [List.cons_append, at?, at?]
    split
    · exact ih _
    · rfl

end FileNode

namespace FileTree

/-- In every directory of the tree the names are distinct and can stand in a directory. -/
def WellFormed (tree : FileTree) : Prop := tree.root.isWellFormed = true

instance (tree : FileTree) : Decidable tree.WellFormed :=
  inferInstanceAs (Decidable (tree.root.isWellFormed = true))

variable {tree : FileTree} {real ns ms : List String} {node : FileNode} {f f' : Found}
  {es : List (String × FileNode)} {c : String}

/-! ### Following in parts -/

/-- How the way goes on at a link when `n` more links may be replaced. -/
def jump (tree : FileTree) : Nat → List String → List String → Except FileProblem Found
  | 0 => fun _ _ => .error .tooManyLinks
  | n + 1 => tree.followFrom n

/-- What stands at a real path. -/
def nodeAt (tree : FileTree) (real : List String) : FileNode := (tree.root.at? real).getD tree.root

theorem followFrom_eq (tree : FileTree) (n : Nat) (real ns : List String) :
    tree.followFrom n real ns = tree.follow (tree.jump n) real (tree.nodeAt real) ns := by
  cases n <;> rfl

/-- **Following goes on from what the beginning leads to.** Some of the links are left. -/
theorem follow_append (tree : FileTree) (n : Nat) (real : List String) (node : FileNode)
    (ns : List String) : ∃ k ≤ n, ∀ ms, tree.follow (tree.jump n) real node (ns ++ ms) =
      (tree.follow (tree.jump n) real node ns).bind fun f =>
        tree.follow (tree.jump k) f.real f.node ms := by
  induction n using Nat.strongRecOn generalizing real node ns with
  | ind n ihn =>
    -- what is left of the path at a link is followed from there, with fewer links
    have hjump : ∀ at' names more, ∃ k ≤ n, ∀ ms, tree.jump n at' (names ++ (more ++ ms)) =
        (tree.jump n at' (names ++ more)).bind fun f =>
          tree.follow (tree.jump k) f.real f.node ms := by
      intro at' names more
      cases n with
      | zero => exact ⟨0, Nat.le_refl 0, fun _ => rfl⟩
      | succ n =>
        obtain ⟨k, hle, hk⟩ := ihn n (Nat.lt_succ_self n) at' (tree.nodeAt at') (names ++ more)
        refine ⟨k, Nat.le_succ_of_le hle, fun ms => ?_⟩
        rw [jump, ← List.append_assoc, followFrom_eq, followFrom_eq, hk]
    induction ns generalizing real node with
    | nil => exact ⟨n, Nat.le_refl n, fun _ => rfl⟩
    | cons name more ih =>
      cases node with
      | file content => exact ⟨n, Nat.le_refl n, fun _ => rfl⟩
      | link target => exact ⟨n, Nat.le_refl n, fun _ => rfl⟩
      | directory es =>
        simp only [List.cons_append, follow]
        split
        · exact ih real _
        · split
          · exact ih _ _
          · split
            · exact ⟨n, Nat.le_refl n, fun _ => rfl⟩
            · cases hl : es.lookup name with
              | none => exact ⟨n, Nat.le_refl n, fun _ => rfl⟩
              | some child =>
                cases child with
                | link target =>
                  simp only
                  split
                  · exact hjump _ _ _
                  · exact hjump _ _ _
                | file content => exact ih _ _
                | directory es' => exact ih _ _

/-- What is found with some links is found with more of them. -/
theorem follow_of_le {k n : Nat} (hle : k ≤ n)
    (h : tree.follow (tree.jump k) real node ns = .ok f) :
    tree.follow (tree.jump n) real node ns = .ok f := by
  induction k using Nat.strongRecOn generalizing n real node ns with
  | ind k ihk =>
    have hjump : ∀ at' names, tree.jump k at' names = .ok f → tree.jump n at' names = .ok f := by
      intro at' names hf
      cases k with
      | zero => nomatch hf
      | succ k =>
        obtain ⟨n, rfl⟩ : ∃ m, n = m + 1 := ⟨n - 1, by omega⟩
        rw [jump, followFrom_eq] at hf ⊢
        exact ihk k (Nat.lt_succ_self k) (Nat.le_of_succ_le_succ hle) hf
    induction ns generalizing real node with
    | nil => exact h
    | cons name more ih =>
      cases node with
      | file content => nomatch h
      | link target => nomatch h
      | directory es =>
        simp only [follow] at h ⊢
        split
        · rw [if_pos ‹_›] at h
          exact ih h
        · rw [if_neg ‹_›] at h
          split
          · rw [if_pos ‹_›] at h
            exact ih h
          · rw [if_neg ‹_›] at h
            split
            · rw [if_pos ‹_›] at h
              nomatch h
            · rw [if_neg ‹_›] at h
              cases hl : es.lookup name with
              | none => rw [hl] at h; nomatch h
              | some child =>
                rw [hl] at h
                cases child with
                | link target =>
                  simp only at h ⊢
                  split
                  · rw [if_pos ‹_›] at h
                    exact hjump _ _ h
                  · rw [if_neg ‹_›] at h
                    exact hjump _ _ h
                | file content => exact ih h
                | directory es' => exact ih h

/-! ### Real paths -/

theorem at?_dropLast {n : FileNode} (h : n.at? real = some node) :
    ∃ m, n.at? real.dropLast = some m := by
  rcases List.eq_nil_or_concat real with rfl | ⟨up, name, rfl⟩
  · exact ⟨n, rfl⟩
  · rw [List.concat_eq_append, FileNode.at?_append] at h
    obtain ⟨m, hm, -⟩ := Option.bind_eq_some_iff.1 h
    exact ⟨m, by simpa using hm⟩

theorem at?_snoc {n : FileNode} (h : n.at? real = some (.directory es))
    (hc : es.lookup c = some node) : n.at? (real ++ [c]) = some node := by
  rw [FileNode.at?_append, h]
  simp [FileNode.at?, FileNode.entries, hc]

/-- What is found stands at its real path. -/
theorem at?_follow (n : Nat) (hr : tree.root.at? real = some node)
    (h : tree.follow (tree.jump n) real node ns = .ok f) :
    tree.root.at? f.real = some f.node := by
  induction n using Nat.strongRecOn generalizing real node ns with
  | ind n ihn =>
    have hjump : ∀ at' names, (∃ m, tree.root.at? at' = some m) →
        tree.jump n at' names = .ok f → tree.root.at? f.real = some f.node := by
      intro at' names ⟨m, hm⟩ hf
      cases n with
      | zero => nomatch hf
      | succ n =>
        rw [jump, followFrom_eq] at hf
        exact ihn n (Nat.lt_succ_self n) (by rw [nodeAt, hm]; rfl) hf
    induction ns generalizing real node with
    | nil =>
      cases h
      exact hr
    | cons name more ih =>
      cases node with
      | file content => nomatch h
      | link target => nomatch h
      | directory es =>
        rw [follow] at h
        split at h
        · exact ih hr h
        · split at h
          · obtain ⟨m, hm⟩ := at?_dropLast hr
            exact ih (by rw [hm]; rfl) h
          · split at h
            · nomatch h
            · split at h
              · nomatch h
              · simp only at h
                split at h
                · exact hjump _ _ ⟨_, rfl⟩ h
                · exact hjump _ _ ⟨_, hr⟩ h
              · exact ih (at?_snoc hr ‹_›) h

theorem locateNames_eq (tree : FileTree) (ns : List String) :
    tree.locateNames ns = tree.follow (tree.jump linkLimit) [] tree.root ns := by
  rw [locateNames, followFrom_eq]
  rfl

/-! ### One name -/

/-- What a name of a directory leads to. -/
theorem follow_entry (k : Nat) (hc : isEntryName c = true) :
    tree.follow (tree.jump k) real (.directory es) [c] =
      if nameLimit < c.utf8ByteSize then .error .nameTooLong
      else match es.lookup c with
        | none => .error .noSuchFile
        | some (.link target) =>
          tree.jump k (if Path.isAbsolute target then [] else real)
            ((splitOn '/' target.toList).map String.ofList)
        | some child => .ok ⟨real ++ [c], child⟩ := by
  simp only [isEntryName, Bool.and_eq_true, decide_eq_true_eq] at hc
  rw [follow, if_neg (by simp [hc]), if_neg (by simp [hc])]
  split
  · rfl
  · cases es.lookup c with
    | none => rfl
    | some child =>
      cases child with
      | link target => simp only [List.append_nil]; split <;> rfl
      | file content => rfl
      | directory es' => rfl

/-- The empty name leads from a directory back to it, and from anything else nowhere. -/
theorem follow_blank {k : Nat} (h : tree.follow (tree.jump k) real node [""] = .ok f) :
    f = ⟨real, node⟩ ∧ ∃ es, node = .directory es := by
  cases node with
  | directory es =>
    rw [follow, if_pos (.inl rfl)] at h
    exact ⟨(Except.ok.inj h).symm, es, rfl⟩
  | file content => nomatch h
  | link target => nomatch h

/-- Names lead on only from a directory. -/
theorem follow_eq_notDirectory {k : Nat} (hns : ns ≠ []) (hnode : ∀ es, node ≠ .directory es) :
    tree.follow (tree.jump k) real node ns = .error .notDirectory := by
  obtain ⟨c, more, rfl⟩ := List.exists_cons_of_ne_nil hns
  cases node with
  | directory es => exact absurd rfl (hnode es)
  | file content => rfl
  | link target => rfl

end FileTree

end CachedViews
