import CachedViews.Proofs.Listing.Listed

/-
# No template is lost with a cycle

A path may lead round links back to a directory that it has come through before, any number of
times. The names between two visits of one directory can be left out: what is behind them is found
from the first visit as well. Going on like this comes to a chain of names on which no directory
is met twice (`exists_passable`), and such chains are what a walk lists. So whatever template a
path leads to, round however many cycles, the walk lists a path with the same last name that
leads to the same file (`walk_keeps_templates`).

Key theorems: `exists_passable`, `exists_walk_iff`, `walk_keeps_templates`.
-/

namespace CachedViews

open CachedViews.FileTree

variable {tree : FileTree} {cwd dir extname : String} {names : List String} {f : Found}
  {n : Nat}

/-! ### Files at paths -/

namespace FileTree

/-- The real path of the file at a path, if there is one. -/
def realFile? (tree : FileTree) (cwd path : String) : Option (List String) :=
  match tree.locate cwd path with
  | .ok ⟨real, .file _⟩ => some real
  | _ => none

theorem realFile?_eq_some {path : String} {real : List String} :
    tree.realFile? cwd path = some real ↔
      ∃ content, tree.locate cwd path = .ok ⟨real, .file content⟩ := by
  unfold realFile?
  constructor
  · intro h
    split at h
    · rename_i r content hl
      cases h
      exact ⟨content, hl⟩
    · nomatch h
  · rintro ⟨content, h⟩
    rw [h]

end FileTree

/-! ### Leaving out detours -/

/-- Where a directory is met again along names, the names between can be left out. -/
theorem exists_shorter (hn : ∀ c ∈ names, isEntryName c = true)
    (h : tree.locate cwd (Path.along dir names) = .ok f) (hdir : dir ≠ "")
    (hp : ¬Passable tree cwd dir names) :
    ∃ start between rest, names = start ++ between ++ rest ∧ between ≠ [] ∧ rest ≠ [] ∧
      tree.locate cwd (Path.along dir (start ++ rest)) = .ok f := by
  simp only [Passable] at hp
  push Not at hp
  obtain ⟨p, ⟨rest, rfl⟩, -, hproper, hagain⟩ := hp
  have hrest : rest ≠ [] := by
    rintro rfl
    exact hproper (List.append_nil p).symm
  have hp : ∀ c ∈ p, isEntryName c = true := fun c hc => hn c (List.mem_append_left _ hc)
  have hr : ∀ c ∈ rest, isEntryName c = true := fun c hc => hn c (List.mem_append_right _ hc)
  -- `p` leads to a directory, as names lead on from it
  rw [along_append] at h
  obtain ⟨real, es, hdirectory⟩ := directory_of_along (along_ne hdir p) hr hrest h
  obtain ⟨q, ⟨between, rfl⟩, hqp, hsame⟩ := hagain real (realDirectory?_eq_some.2 ⟨es, hdirectory⟩)
  obtain ⟨es', hfirst⟩ := realDirectory?_eq_some.1 hsame
  -- the directory at `q` is the one at `p`, as both stand at the same real path
  have hes : FileNode.directory es' = .directory es :=
    Option.some.inj ((at?_of_locate hfirst).symm.trans (at?_of_locate hdirectory))
  rw [hes] at hfirst
  have hbetween : between ≠ [] := by
    rintro rfl
    exact hqp (List.append_nil q).symm
  refine ⟨q, between, rest, rfl, hbetween, hrest, ?_⟩
  rw [along_append] at hdirectory
  rw [along_append, ← along_append] at h
  rw [along_append]
  exact locate_of_detour (fun c hc => hp c (List.mem_append_right _ hc)) hr hbetween hrest hfirst
    hdirectory h

/-- **All detours can be left out.** What names lead to is at the end of some of them, the last one
included, along which no directory is met twice. -/
theorem exists_passable (hn : ∀ c ∈ names, isEntryName c = true)
    (h : tree.locate cwd (Path.along dir names) = .ok f) (hdir : dir ≠ "") :
    ∃ cut, cut.Sublist names ∧ cut.getLast? = names.getLast? ∧ Passable tree cwd dir cut ∧
      tree.locate cwd (Path.along dir cut) = .ok f := by
  induction hlen : names.length using Nat.strongRecOn generalizing names with
  | ind n ih =>
    by_cases hp : Passable tree cwd dir names
    · exact ⟨names, List.Sublist.refl _, rfl, hp, h⟩
    · obtain ⟨start, between, rest, rfl, hbetween, hrest, hshort⟩ := exists_shorter hn h hdir hp
      have hsub : (start ++ rest).Sublist (start ++ between ++ rest) :=
        (List.sublist_append_left start between).append (List.Sublist.refl rest)
      have hlt : (start ++ rest).length < n := by
        have hpos := List.length_pos_iff.2 hbetween
        simp only [List.length_append] at hlen ⊢
        omega
      obtain ⟨cut, hcut, hlast, hpass, hfound⟩ :=
        ih _ hlt (fun c hc => hn c (hsub.subset hc)) hshort rfl
      refine ⟨cut, hcut.trans hsub, ?_, hpass, hfound⟩
      rw [hlast, List.getLast?_append_of_ne_nil _ hrest, List.getLast?_append_of_ne_nil _ hrest]

/-! ### What a walk keeps -/

/-- A walk of a directory comes to a list unless it has to open a directory whose path is too
long. -/
theorem exists_walk_iff (hwf : tree.WellFormed) (hdir : tree.isDirectory cwd dir = true) :
    (∃ l, walk tree cwd dir extname = .ok l) ↔ ∀ names, ¬Overlong tree cwd dir names := by
  obtain ⟨real, es, hloc⟩ := located_of_isDirectory hdir
  rw [walk_eq hdir hloc]
  cases hd : descend tree extname cwd dir (tree.root.directoryCount + 1) [real] [] with
  | error f =>
    obtain ⟨names, hlong, -⟩ := overlong_of_descend hwf hloc hd
    exact iff_of_false (fun ⟨l, hl⟩ => nomatch hl) fun h => h names hlong
  | ok sights =>
    exact iff_of_true ⟨_, rfl⟩ fun names => not_overlong_of_descend hwf hloc hd

/-- **No template is lost with a cycle.** Along names that are not hidden a path may lead from
a directory to a file with the extension, round links and back as often as it will. If the walk of
the directory comes to a list, that has a path with the same last name which leads to the same
file, by some of the names. The walk comes to a list unless it has to open a directory whose path
is too long. -/
theorem walk_keeps_templates (hwf : tree.WellFormed) (hdir : tree.isDirectory cwd dir = true)
    (extname : String) :
    (∀ l, walk tree cwd dir extname = .ok l → ∀ up name real,
      (∀ c ∈ up ++ [name], '/' ∉ c.toList ∧ isHidden c = false) →
      extname.toList <:+ name.toList →
      tree.realFile? cwd (Path.along dir (up ++ [name])) = some real →
      ∃ cut, cut.Sublist up ∧ String.intercalate "/" (cut ++ [name]) ∈ l.paths ∧
        tree.realFile? cwd (Path.along dir (cut ++ [name])) = some real) ∧
    ((∃ l, walk tree cwd dir extname = .ok l) ↔ ∀ names, ¬Overlong tree cwd dir names) := by
  refine ⟨fun l hl up name real hnames hext hfile => ?_, exists_walk_iff hwf hdir⟩
  obtain ⟨content, hfile⟩ := realFile?_eq_some.1 hfile
  obtain ⟨root, es, hloc⟩ := located_of_isDirectory hdir
  have hne := (fits_of_locate hloc).1
  have hlast : name ≠ "" := by
    rintro rfl
    exact not_isFile_blank (along_ne hne up)
      (along_concat dir up "" ▸ isFile_iff.2 ⟨real, content, hfile⟩)
  rw [← along_filter (fun c hc => (hnames c (List.mem_append_left _ hc)).1)
    (hnames name (by simp)).1] at hfile
  have hentry : ∀ c ∈ up.filter (· ≠ "") ++ [name], isEntryName c = true := by
    intro c hc
    have hmem : c ∈ up ++ [name] := (List.filter_sublist.append_right [name]).subset hc
    refine isEntryName_of_visible ?_ (hnames c hmem).1 (hnames c hmem).2
    rcases List.mem_append.1 hc with hc | hc
    · simpa using (List.mem_filter.1 hc).2
    · rwa [List.mem_singleton.1 hc]
  obtain ⟨cut, hsub, hend, hpass, hfound⟩ := exists_passable hentry hfile hne
  obtain ⟨cut, rfl⟩ := List.getLast?_eq_some_iff.1 (hend.trans (List.getLast?_concat ..))
  have hsub : cut.Sublist up :=
    ((List.append_sublist_append_right _).1 hsub).trans List.filter_sublist
  have hcut : ∀ c ∈ cut ++ [name], '/' ∉ c.toList ∧ isHidden c = false := fun c hc =>
    hnames c ((hsub.append_right [name]).subset hc)
  have hlisted : Listed tree cwd dir extname (cut ++ [name]) := {
    visible := fun c hc => (hcut c hc).2
    extension := ⟨name, List.getLast?_concat .., hext⟩
    file := isFile_iff.2 ⟨real, content, hfound⟩
    passable := hpass }
  rw [walk_eq hdir hloc] at hl
  cases hd : descend tree extname cwd dir (tree.root.directoryCount + 1) [root] [] with
  | error f => rw [hd] at hl; nomatch hl
  | ok sights =>
    rw [hd] at hl
    cases hl
    exact ⟨cut, hsub, (mem_paths_iff hwf hloc hd fun c hc => (hcut c hc).1).2 hlisted,
      realFile?_eq_some.2 ⟨content, hfound⟩⟩

/-- Round the cycles of `loopedTree`, through the link in `d` and twice through the one in `s`, a
path leads to the file that is listed under a shorter one. -/
theorem walk_keeps_templates_looped : ∃ l cut, walk loopedTree "/" "d" ".html" = .ok l ∧
    loopedTree.realFile? "/" (Path.along "d" ["l", "s", "l", "l", "a.html"]) =
      some ["d", "b.html"] ∧
    cut.Sublist ["l", "s", "l", "l"] ∧ String.intercalate "/" (cut ++ ["a.html"]) ∈ l.paths ∧
    loopedTree.realFile? "/" (Path.along "d" (cut ++ ["a.html"])) = some ["d", "b.html"] := by
  obtain ⟨l, hl⟩ := exists_walk_looped
  have hround : loopedTree.realFile? "/" (Path.along "d" ["l", "s", "l", "l", "a.html"]) =
      some ["d", "b.html"] := by decide +kernel
  obtain ⟨cut, hcut, hmem, hfile⟩ :=
    (walk_keeps_templates (by decide +kernel) (by decide +kernel) ".html").1 l hl
      ["l", "s", "l", "l"] "a.html" _ (by decide) (by decide) hround
  exact ⟨l, cut, hl, hround, hcut, hmem, hfile⟩

/-! ### A walk that comes to no list -/

/-- A directory with a file in it, and with another directory that has a long name. -/
def clutteredTree : FileTree where
  root := .directory [("d", .directory [("b.html", .file []), (longName, .directory [])])]

theorem realFile?_cluttered (h : n + 8 ≤ pathLimit) :
    clutteredTree.realFile? "/" (Path.along (spelled (n + 1)) ["b.html"]) = some ["d", "b.html"] := by
  have hname : "b.html".utf8ByteSize = 6 := by decide +kernel
  have hentry : isEntryName "b.html" = true := by decide +kernel
  have hloc : clutteredTree.locate "/" (spelled (n + 1)) = .ok ⟨["d"], _⟩ :=
    locate_slashed rfl (by omega)
  have hfound := locate_entry hloc hentry List.lookup_cons_self (by simp)
  have hpath := along_spelled n (not_slash_of_isEntryName hentry)
  rw [Path.along, List.foldl_cons, List.foldl_nil] at hpath
  have hfits : ¬(pathLimit < (Path.join (spelled (n + 1)) "b.html").utf8ByteSize ∨
      nameLimit < "b.html".utf8ByteSize) := by
    rw [hpath, String.utf8ByteSize_append, size_spelled, hname]
    simp only [nameLimit]
    omega
  rw [if_neg hfits] at hfound
  exact realFile?_eq_some.2 ⟨[], hfound⟩

/-- A file that is there need not be listed: with thousands of slashes behind the path of
its directory, the path to the directory beside it is too long, and there is no list at all. -/
theorem walk_loses_spelled : clutteredTree.WellFormed ∧
    clutteredTree.isDirectory "/" (spelled 4050) = true ∧
    clutteredTree.realFile? "/" (Path.along (spelled 4050) ["b.html"]) = some ["d", "b.html"] ∧
    ¬∃ l, walk clutteredTree "/" (spelled 4050) ".html" = .ok l := by
  have hfits : 4050 + 1 ≤ pathLimit := by decide
  have hwf : clutteredTree.WellFormed := by decide +kernel
  have hdir : clutteredTree.isDirectory "/" (spelled 4050) = true := isDirectory_slashed rfl hfits
  have hlong : TooLongAt clutteredTree "/" (spelled 4050) [["d"]] [] longName :=
    tooLongAt_slashed rfl (by rw [lookup_field, if_neg (by decide +kernel), List.lookup_cons_self])
      hfits (by decide)
  refine ⟨hwf, hdir, realFile?_cluttered (by decide), fun h => ?_⟩
  exact (exists_walk_iff hwf hdir).1 h _
    ((Visited.start (locate_slashed rfl hfits)).overlong hlong)

end CachedViews
