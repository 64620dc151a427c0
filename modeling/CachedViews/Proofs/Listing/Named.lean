import CachedViews.Proofs.Listing.Listed
import CachedViews.Proofs.Web.Naming

/-
# Listed files under their names

A listing gives the paths of files from the resolved directory, and whoever asks for one of them
puts it behind the directory as it was given. Both lead to the same file: putting a path of plain
pieces behind a directory and resolving the whole is the same as resolving the directory and
putting the path behind it (`Path.absolute_join`).

The name of a listed file as a partial is its path without the extension. As no piece of the path
is hidden and the extension starts with a dot, something is left of the last piece; as the
extension can be put back, different files have different names.

Key definitions: `IsListedPath`, `namespaced`.
Key theorems: `Path.absolute_join`, `listed_of_walk`, `namespaced_partialName`,
`nodup_partialNames`.
-/

namespace CachedViews

open CachedViews.Text

/-! ### Resolving a directory with a path behind it -/

namespace Components

variable {cwd dir name : List Char}

theorem joinWith_append {sep : List Char} {as bs : List (List Char)} (ha : as ≠ []) (hb : bs ≠ []) :
    joinWith sep (as ++ bs) = joinWith sep as ++ sep ++ joinWith sep bs := by
  induction as with
  | nil => exact absurd rfl ha
  | cons a as ih =>
    cases as with
    | nil =>
      obtain ⟨b, bs, rfl⟩ := List.exists_cons_of_ne_nil hb
      rfl
    | cons a' as =>
      have hrest := ih (List.cons_ne_nil _ _)
      simp only [List.cons_append, joinWith] at hrest ⊢
      rw [hrest]
      simp only [List.append_assoc]

/-- Plain components with slashes between them end with no slash. -/
theorem getLast?_joinWith {cs : List (List Char)} (h : ∀ x ∈ cs, isPlain x = true) (hne : cs ≠ []) :
    (joinWith ['/'] cs).getLast? ≠ some '/' := by
  intro hlast
  obtain ⟨s, hs⟩ := List.getLast?_eq_some_iff.1 hlast
  have hcut : cs = splitOn '/' s ++ [[]] := by
    rw [← splitOn_joinWith (fun x hx => not_slash_of_isPlain (h x hx)) hne, hs]
    exact splitOn_append '/' s []
  have hblank := h [] (by rw [hcut]; simp)
  simp [isPlain] at hblank

/-- A path of plain pieces behind a directory has the root of the directory. -/
theorem root_join_join (h : isAbsolute name = false) (cwd dir : List Char) :
    root (join cwd (join dir name)) = root (join cwd dir) := by
  cases hdir : isAbsolute dir with
  | true =>
    rw [join.eq_1 cwd (join dir name), if_pos (isAbsolute_join_left hdir name),
      join.eq_1 cwd dir, if_pos hdir, root_join h]
  | false =>
    have hjoin : isAbsolute (join dir name) = false := by
      by_cases hnil : dir = []
      · rw [hnil]
        simp [join, h]
      · rw [isAbsolute_join h hnil, hdir]
    rw [root_join hjoin, root_join hdir]

/-- **Resolving goes past what is put behind a directory**, if all its pieces are plain. -/
theorem absolute_join (h : ∀ x ∈ splitOn '/' name, isPlain x = true) (cwd dir : List Char) :
    absolute cwd (join dir name) = join (absolute cwd dir) name := by
  have hrel := not_isAbsolute_of_plain h
  have hplain := parts_plain (join cwd dir)
  have hname : joinWith ['/'] (splitOn '/' name) = name := joinWith_splitOn '/' name
  rw [absolute, root_join_join hrel, parts_join h, join.eq_1 (absolute cwd dir), hrel,
    if_neg (by decide), absolute]
  generalize parts (join cwd dir) = ds at hplain ⊢
  by_cases hds : ds = []
  · -- the directory is the root: it ends with a slash, or is not there
    rw [hds, List.nil_append, hname]
    have hend : root (join cwd dir) ++ joinWith ['/'] [] = [] ∨
        (root (join cwd dir) ++ joinWith ['/'] []).getLast? = some '/' := by
      rcases root_cases (join cwd dir) with ⟨hr, -⟩ | ⟨hr | hr, -⟩ <;> simp [hr, joinWith]
    rw [if_pos hend]
    simp [joinWith]
  · have hbody : joinWith ['/'] ds ≠ [] := fun hnil => by
      have := splitOn_joinWith (fun x hx => not_slash_of_isPlain (hplain x hx)) hds
      rw [hnil] at this
      have hblank := hplain [] (by rw [← this]; simp [splitOn])
      simp [isPlain] at hblank
    have hend : ¬(root (join cwd dir) ++ joinWith ['/'] ds = [] ∨
        (root (join cwd dir) ++ joinWith ['/'] ds).getLast? = some '/') := by
      rw [List.getLast?_append_of_ne_nil _ hbody]
      simp [hbody, getLast?_joinWith hplain hds]
    rw [if_neg hend, joinWith_append hds (splitOn_ne_nil '/' name), hname]
    simp

end Components

theorem Path.absolute_join {name : String}
    (h : ∀ x ∈ splitOn '/' name.toList, Components.isPlain x = true) (cwd dir : String) :
    Path.absolute cwd (Path.join dir name) = Path.join (Path.absolute cwd dir) name := by
  unfold Path.absolute Path.join
  rw [String.toList_ofList, String.toList_ofList, Components.absolute_join h]

/-! ### Listed paths -/

/-- What a walk may list: a path none of whose pieces is empty, one dot or two dots, and that has
something in front of the extension. -/
structure IsListedPath (extname path : String) : Prop where
  plain : ∀ x ∈ splitOn '/' path.toList, Components.isPlain x = true
  stem : ∃ s, s ≠ "" ∧ path = s ++ extname

variable {tree : FileTree} {cwd dir extname path : String} {names : List String} {l : Listing}
  {namesp : Option String}

theorem isPlain_of_isEntryName {c : String} (h : isEntryName c = true) :
    Components.isPlain c.toList = true := by
  have hchars : ∀ d : String, c ≠ d → c.toList ≠ d.toList := fun d => mt String.toList_inj.1
  simp only [isEntryName, Bool.and_eq_true, decide_eq_true_eq, ne_eq] at h
  obtain ⟨⟨⟨hempty, hdot⟩, hdots⟩, hslash⟩ := h
  simp only [Components.isPlain, Bool.and_eq_true, decide_eq_true_eq, ne_eq]
  exact ⟨⟨⟨hchars _ hempty, hchars _ hdot⟩, hchars _ hdots⟩, hslash⟩

/-- A name that ends in the extension and is not hidden has something in front of it. -/
theorem stem_of_visible {c : String} (hext : extname.toList.head? = some '.')
    (hend : extname.toList <:+ c.toList) (hvisible : isHidden c = false) :
    ∃ s, s ≠ "" ∧ c = s ++ extname := by
  obtain ⟨s, hs⟩ := hend
  have hc : c = String.ofList s ++ extname := by
    rw [← String.toList_inj, String.toList_append, String.toList_ofList, hs]
  refine ⟨String.ofList s, fun hnil => ?_, hc⟩
  rw [hnil, String.empty_append] at hc
  rw [isHidden, hc, hext] at hvisible
  exact absurd hvisible (by decide)

/-- Names that are to be listed make a path that may be listed. -/
theorem Listed.isListedPath (h : Listed tree cwd dir extname names)
    (hext : extname.toList.head? = some '.') (hentry : ∀ c ∈ names, isEntryName c = true) :
    IsListedPath extname (String.intercalate "/" names) := by
  obtain ⟨c, hlast, hend⟩ := h.extension
  obtain ⟨up, rfl⟩ := List.getLast?_eq_some_iff.1 hlast
  obtain ⟨s, hs, hc⟩ := stem_of_visible hext hend (h.visible c (by simp))
  refine ⟨?_, ?_⟩
  · rw [splitOn_intercalate (fun d hd => not_slash_of_isEntryName (hentry d hd)) (by simp)]
    intro x hx
    obtain ⟨d, hd, rfl⟩ := List.mem_map.1 hx
    exact isPlain_of_isEntryName (hentry d hd)
  · by_cases hup : up = []
    · exact ⟨s, hs, by rw [hup]; simpa using hc⟩
    · refine ⟨String.intercalate "/" up ++ "/" ++ s, fun hnil => hs ?_, ?_⟩
      · exact (String.append_eq_empty_iff.1 hnil).2
      · rw [String.intercalate_append_of_ne_nil hup (List.cons_ne_nil _ _)]
        simp [hc, String.append_assoc]

/-! ### Listed files -/

/-- **What a walk lists**: no path twice, and each leads from the directory to a file. -/
theorem listed_of_walk (hwf : tree.WellFormed) (hext : extname.toList.head? = some '.')
    (h : walk tree cwd dir extname = .ok l) : l.paths.Nodup ∧
      ∀ f ∈ l.paths, IsListedPath extname f ∧ tree.isFile cwd (Path.join dir f) = true := by
  have hdir : tree.isDirectory cwd dir = true := by
    by_contra hno
    rw [walk, if_neg hno] at h
    cases h
  obtain ⟨real, es, hloc⟩ := located_of_isDirectory hdir
  rw [walk_eq hdir hloc] at h
  cases hd : descend tree extname cwd dir (tree.root.directoryCount + 1) [real] [] with
  | error f =>
    rw [hd] at h
    cases h
  | ok sights =>
    rw [hd] at h
    obtain rfl := Except.ok.inj h
    refine ⟨(increasing_of_descend hwf hloc hd).imp fun h => ne_of_lt h, fun f hf => ?_⟩
    obtain ⟨names, hmem, rfl⟩ := mem_templatePaths.1 hf
    obtain ⟨hnames, hentry, hlisted⟩ := listed_of_sight hwf hloc hd hmem
    refine ⟨hlisted.isListedPath hext hentry, ?_⟩
    rw [← along_eq_join hnames hentry]
    exact hlisted.file

/-! ### Names of partials -/

/-- A path below a namespace, if there is one. -/
def namespaced (namesp : Option String) (path : String) : String :=
  match namesp with
  | none | some "" => path
  | some n => n ++ "/" ++ path

/-- The name of a listed path is what is in front of the extension, below the namespace. -/
theorem partialName_stem (hext : extname ≠ "") (s : String) :
    partialName (s ++ extname) namesp extname = namespaced namesp s := by
  unfold partialName
  rw [if_neg hext, String.toList_append, dropSuffix?_append]
  simp only [String.ofList_toList]
  rfl

/-- With the extension behind it, the name of a listed path is the path below the namespace. -/
theorem namespaced_partialName (hext : extname ≠ "") (h : IsListedPath extname path) :
    partialName path namesp extname ++ extname = namespaced namesp path := by
  obtain ⟨s, -, rfl⟩ := h.stem
  rw [partialName_stem hext]
  unfold namespaced
  split <;> simp [String.append_assoc]

theorem partialName_ne (hext : extname ≠ "") (h : IsListedPath extname path) :
    partialName path namesp extname ≠ "" := by
  obtain ⟨s, hs, rfl⟩ := h.stem
  rw [partialName_stem hext]
  unfold namespaced
  split
  · exact hs
  · exact hs
  · exact fun hnil => hs (String.append_eq_empty_iff.1 hnil).2

theorem namespaced_injective (namesp : Option String) :
    Function.Injective (namespaced namesp) := by
  intro a b h
  unfold namespaced at h
  split at h
  · exact h
  · exact h
  · exact String.append_right_inj _ |>.1 h

/-- **Different listed paths have different names.** -/
theorem nodup_partialNames (hext : extname ≠ "") {paths : List String} (hn : paths.Nodup)
    (h : ∀ f ∈ paths, IsListedPath extname f) (namesp : Option String) :
    (paths.map fun f => partialName f namesp extname).Nodup := by
  refine hn.map_on fun a ha b hb hab => namespaced_injective namesp ?_
  rw [← namespaced_partialName hext (h a ha), ← namespaced_partialName hext (h b hb), hab]

end CachedViews
