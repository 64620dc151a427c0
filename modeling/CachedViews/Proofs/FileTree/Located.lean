import CachedViews.Proofs.Path.Along

/-
# What a path leads to

The operating system is handed a path as it is written, and no path that is too long. What a path
behind a directory leads to is found from what the directory itself leads to
(`FileTree.locate_behind`); so a name behind the path of a directory leads to its entry, and
an entry that is no link is found where it stands, unless the path is too long
(`FileTree.locate_entry`). Names that lead from a directory back to it can be left out of a path
(`FileTree.locate_of_detour`).

Key theorems: `FileTree.names_join`, `FileTree.locate_behind`, `FileTree.locate_entry`,
`FileTree.locate_of_detour`.
-/

namespace CachedViews.FileTree

open CachedViews.Text

variable {tree : FileTree} {cwd path c : String} {names more : List String} {f f' : Found}
  {real : List String} {es : List (String × FileNode)} {node : FileNode}

/-! ### Paths that are found -/

theorem locate_eq (hne : path ≠ "") (h : path.utf8ByteSize ≤ pathLimit) :
    tree.locate cwd path =
      tree.follow (tree.jump linkLimit) [] tree.root (FileTree.names cwd path) := by
  rw [locate, if_neg hne, if_neg (Nat.not_lt.2 h), locateNames_eq]

theorem fits_of_locate (h : tree.locate cwd path = .ok f) :
    path ≠ "" ∧ path.utf8ByteSize ≤ pathLimit := by
  rw [locate] at h
  split at h
  · nomatch h
  · split at h
    · nomatch h
    · exact ⟨‹_›, Nat.le_of_not_lt ‹_›⟩

/-- What is found at a path stands at its real path. -/
theorem at?_of_locate (h : tree.locate cwd path = .ok f) : tree.root.at? f.real = some f.node := by
  obtain ⟨hne, hfits⟩ := fits_of_locate h
  rw [locate_eq hne hfits] at h
  exact at?_follow linkLimit rfl h

/-! ### Behind a path -/

/-- The names of a path behind a directory are those of the directory, without the empty one that
a slash at its end leaves, and its own. -/
theorem names_join (cwd : String) (hne : path ≠ "") : ∃ ns,
    (FileTree.names cwd path = ns ∨ FileTree.names cwd path = ns ++ [""]) ∧
      ∀ b, Path.isAbsolute b = false →
        FileTree.names cwd (Path.join path b) = ns ++ (splitOn '/' b.toList).map String.ofList := by
  have hpath : path.toList ≠ [] := fun h => hne (String.toList_eq_nil_iff.1 h)
  have hfull : Components.join cwd.toList path.toList ≠ [] := by
    obtain ⟨before, hbefore⟩ := suffix_join cwd.toList path.toList
    rw [← hbefore]
    exact List.append_ne_nil_of_right_ne_nil _ hpath
  obtain ⟨ps, -, hcut, hjoin⟩ := Components.splitOn_join hfull
  refine ⟨ps.map String.ofList, ?_, fun b hb => ?_⟩
  · rw [FileTree.names, Path.join, String.toList_ofList]
    rcases hcut with hcut | hcut <;> simp [hcut]
  · rw [FileTree.names, Path.join, Path.join, String.toList_ofList, String.toList_ofList,
      Components.join_join hb hpath, hjoin _ hb, List.map_append]

/-- **A path behind a directory is followed from what the directory leads to**, with the links that
are left there, unless it is too long. -/
theorem locate_behind (tree : FileTree) (cwd : String) (hne : path ≠ "") : ∃ k,
    ∀ b, Path.isAbsolute b = false → tree.locate cwd (Path.join path b) =
      if pathLimit < (Path.join path b).utf8ByteSize then .error .nameTooLong
      else (tree.locate cwd path).bind fun f =>
        tree.follow (tree.jump k) f.real f.node ((splitOn '/' b.toList).map String.ofList) := by
  obtain ⟨ns, hnames, hjoin⟩ := names_join cwd hne
  obtain ⟨k, -, hk⟩ := tree.follow_append linkLimit [] tree.root ns
  refine ⟨k, fun b hb => ?_⟩
  rw [locate, if_neg (join_ne hne b)]
  split
  · rfl
  · rename_i hfits
    have hshort := Nat.le_trans (size_le_join hb path) (Nat.le_of_not_lt hfits)
    rw [locateNames_eq, hjoin b hb, hk, locate_eq hne hshort]
    rcases hnames with hnames | hnames
    · rw [hnames]
    · -- the slash at the end of the directory asks for a directory, as does a path behind it
      rw [hnames, hk]
      cases tree.follow (tree.jump linkLimit) [] tree.root ns with
      | error problem => rfl
      | ok f =>
        have hpieces : (splitOn '/' b.toList).map String.ofList ≠ [] := by
          simpa using splitOn_ne_nil '/' b.toList
        simp only [Except.bind]
        cases hnode : f.node with
        | directory es =>
          rw [follow.eq_def _ _ _ (.directory es) [""]]
          simp [follow]
        | file content => rw [follow_eq_notDirectory hpieces (by simp)]; rfl
        | link target => rw [follow_eq_notDirectory hpieces (by simp)]; rfl

/-- A name behind a path is followed from what is found at the path. -/
theorem locate_join (tree : FileTree) (cwd : String) (hne : path ≠ "") : ∃ k,
    ∀ c, '/' ∉ c.toList → tree.locate cwd (Path.join path c) =
      if pathLimit < (Path.join path c).utf8ByteSize then .error .nameTooLong
      else (tree.locate cwd path).bind fun f => tree.follow (tree.jump k) f.real f.node [c] := by
  obtain ⟨k, hk⟩ := tree.locate_behind cwd hne
  refine ⟨k, fun c hc => ?_⟩
  rw [hk c (relative_of_not_slash hc), Components.splitOn_of_not_mem hc]
  simp

/-- So are names behind it. -/
theorem locate_along (tree : FileTree) (cwd : String) (hne : path ≠ "") : ∃ k,
    ∀ names, names ≠ [] → (∀ c ∈ names, isEntryName c = true) →
      tree.locate cwd (Path.along path names) =
        if pathLimit < (Path.along path names).utf8ByteSize then .error .nameTooLong
        else (tree.locate cwd path).bind fun f => tree.follow (tree.jump k) f.real f.node names := by
  obtain ⟨k, hk⟩ := tree.locate_behind cwd hne
  refine ⟨k, fun names hnil hnames => ?_⟩
  rw [along_eq_join hnil hnames, hk _ (relative_intercalate hnil hnames).2,
    splitOn_intercalate (fun c hc => not_slash_of_isEntryName (hnames c hc)) hnil]
  simp

/-! ### One name more -/

/-- A name of a directory leads somewhere only if it is that of an entry. -/
theorem entry_of_locate (hf : tree.locate cwd path = .ok ⟨real, .directory es⟩)
    (hc : isEntryName c = true) (h : tree.locate cwd (Path.join path c) = .ok f') :
    ∃ node, es.lookup c = some node := by
  obtain ⟨k, hk⟩ := tree.locate_join cwd (fits_of_locate hf).1
  rw [hk c (not_slash_of_isEntryName hc), hf] at h
  simp only [Except.bind] at h
  rw [follow_entry k hc] at h
  split at h
  · nomatch h
  · split at h
    · nomatch h
    · split at h
      · nomatch h
      · exact ⟨_, ‹_›⟩
      · exact ⟨_, ‹_›⟩

/-- **An entry that is no link is found where it stands**, unless its path or its name is too
long. -/
theorem locate_entry (hf : tree.locate cwd path = .ok ⟨real, .directory es⟩)
    (hc : isEntryName c = true) (hl : es.lookup c = some node)
    (hnode : ∀ target, node ≠ .link target) : tree.locate cwd (Path.join path c) =
      if pathLimit < (Path.join path c).utf8ByteSize ∨ nameLimit < c.utf8ByteSize then
        .error .nameTooLong
      else .ok ⟨real ++ [c], node⟩ := by
  obtain ⟨k, hk⟩ := tree.locate_join cwd (fits_of_locate hf).1
  rw [hk c (not_slash_of_isEntryName hc), hf]
  simp only [Except.bind]
  rw [follow_entry k hc, hl]
  by_cases hpath : pathLimit < (Path.join path c).utf8ByteSize
  · rw [if_pos hpath, if_pos (.inl hpath)]
  · rw [if_neg hpath]
    by_cases hname : nameLimit < c.utf8ByteSize
    · rw [if_pos hname, if_pos (.inr hname)]
    · rw [if_neg hname, if_neg (not_or.2 ⟨hpath, hname⟩)]
      cases node with
      | link target => exact absurd rfl (hnode target)
      | file content => rfl
      | directory es' => rfl

/-- The empty name leads nowhere else. -/
theorem locate_blank (hne : path ≠ "") (h : tree.locate cwd (Path.join path "") = .ok f) :
    tree.locate cwd path = .ok f ∧ ∃ es, f.node = .directory es := by
  obtain ⟨k, hk⟩ := tree.locate_join cwd hne
  rw [hk "" List.not_mem_nil] at h
  split at h
  · nomatch h
  · cases hf : tree.locate cwd path with
    | error p => rw [hf] at h; nomatch h
    | ok g =>
      rw [hf] at h
      obtain ⟨rfl, es, hes⟩ := follow_blank h
      exact ⟨rfl, es, hes⟩

/-! ### Detours -/

/-- Names lead on only from a directory. -/
theorem directory_of_along (hne : path ≠ "") (hm : ∀ c ∈ more, isEntryName c = true)
    (hmore : more ≠ []) (h : tree.locate cwd (Path.along path more) = .ok f) :
    ∃ real es, tree.locate cwd path = .ok ⟨real, .directory es⟩ := by
  obtain ⟨k, hk⟩ := tree.locate_along cwd hne
  rw [hk more hmore hm] at h
  split at h
  · nomatch h
  · cases hf : tree.locate cwd path with
    | error problem => rw [hf] at h; nomatch h
    | ok g =>
      obtain ⟨real, node⟩ := g
      by_cases hdir : ∃ es, node = .directory es
      · obtain ⟨es, rfl⟩ := hdir
        exact ⟨real, es, rfl⟩
      · rw [hf] at h
        simp only [Except.bind] at h
        rw [follow_eq_notDirectory hmore (not_exists.1 hdir)] at h
        nomatch h

/-- **A detour can be left out.** Where names lead back to what they start from, those behind them
lead on from there as well: the path is no longer, and no fewer links are left. -/
theorem locate_of_detour (hn : ∀ c ∈ names, isEntryName c = true)
    (hm : ∀ c ∈ more, isEntryName c = true) (hnames : names ≠ []) (hmore : more ≠ [])
    (hf : tree.locate cwd path = .ok f)
    (hback : tree.locate cwd (Path.along path names) = .ok f)
    (h : tree.locate cwd (Path.along path (names ++ more)) = .ok f') :
    tree.locate cwd (Path.along path more) = .ok f' := by
  obtain ⟨k, hk⟩ := tree.locate_along cwd (fits_of_locate hf).1
  have hboth : ∀ c ∈ names ++ more, isEntryName c = true := fun c hc =>
    (List.mem_append.1 hc).elim (hn c) (hm c)
  have hlong := (fits_of_locate h).2
  have hshort := (fits_of_locate hback).2
  have hround : tree.follow (tree.jump k) f.real f.node names = .ok f := by
    rw [hk names hnames hn, if_neg (Nat.not_lt.2 hshort), hf] at hback
    exact hback
  have hon : tree.follow (tree.jump k) f.real f.node (names ++ more) = .ok f' := by
    rw [hk _ (List.append_ne_nil_of_left_ne_nil hnames more) hboth,
      if_neg (Nat.not_lt.2 hlong), hf] at h
    exact h
  obtain ⟨j, hjk, hj⟩ := tree.follow_append k f.real f.node names
  rw [hj, hround] at hon
  rw [hk more hmore hm, if_neg (Nat.not_lt.2
    (Nat.le_trans (size_along_append hn hm hmore path) hlong)), hf]
  exact follow_of_le hjk hon

end CachedViews.FileTree
