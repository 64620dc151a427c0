import CachedViews.Proofs.Listing.Descent
import Mathlib.Data.List.Infix

/-
# What a walk lists

A chain of names below a directory is listed if none of them is hidden, the last one has the
extension, the chain leads to a file, and every directory on the way is there and is another
one than all directories before it, by their real paths (`Listed`). The walk of a directory
lists these chains and no others, in the order of code points, each once; and it comes to a
list unless a directory that it has to open has too long a path (`Overlong`): the path that the
operating system is handed, which is the names joined to the path the walk was given
(`walk_lists`).

Key definitions: `FileTree.realDirectory?`, `Passable`, `Listed`, `Overlong`.
Key theorems: `Visited.passed`, `exists_visited`, `walk_lists`.
-/

namespace CachedViews

open CachedViews.FileTree CachedViews.Text

variable {tree : FileTree} {cwd dir extname name path : String} {below names up : List String}
  {chain : List (List String)} {real : List String}

/-! ### Chains of directories -/

namespace FileTree

/-- The real path of the directory at a path, if there is one. -/
def realDirectory? (tree : FileTree) (cwd path : String) : Option (List String) :=
  match tree.locate cwd path with
  | .ok ⟨real, .directory _⟩ => some real
  | _ => none

/-- Does a path lead to a file? -/
def isFile (tree : FileTree) (cwd path : String) : Bool :=
  match tree.locate cwd path with
  | .ok found => found.node.isFile
  | .error _ => false

theorem isFile_iff : tree.isFile cwd path = true ↔
    ∃ real content, tree.locate cwd path = .ok ⟨real, .file content⟩ := by
  unfold isFile
  constructor
  · intro h
    split at h
    · rename_i found hf
      obtain ⟨real, node⟩ := found
      cases node with
      | file content => exact ⟨real, content, hf⟩
      | directory es => nomatch h
      | link target => nomatch h
    · nomatch h
  · rintro ⟨real, content, h⟩
    rw [h]
    rfl

theorem realDirectory?_eq_some : tree.realDirectory? cwd path = some real ↔
    ∃ es, tree.locate cwd path = .ok ⟨real, .directory es⟩ := by
  unfold realDirectory?
  constructor
  · intro h
    split at h
    · rename_i r es hl
      cases h
      exact ⟨es, hl⟩
    · nomatch h
  · rintro ⟨es, h⟩
    rw [h]

/-- Behind the empty name there is no other directory. -/
theorem realDirectory?_blank (hne : path ≠ "")
    (h : tree.realDirectory? cwd (Path.join path "") = some real) :
    tree.realDirectory? cwd path = some real := by
  obtain ⟨es, hes⟩ := realDirectory?_eq_some.1 h
  exact realDirectory?_eq_some.2 ⟨es, (locate_blank hne hes).1⟩

/-- Behind the empty name there is no file. -/
theorem not_isFile_blank (hne : path ≠ "") : tree.isFile cwd (Path.join path "") ≠ true := by
  intro h
  obtain ⟨r, content, hfile⟩ := isFile_iff.1 h
  obtain ⟨-, es, hes⟩ := locate_blank hne hfile
  nomatch hes

end FileTree

/-- Along names, every directory on the way is there and is another one than the directory it
starts from and all that come before. -/
def Passable (tree : FileTree) (cwd dir : String) (names : List String) : Prop :=
  ∀ p, p <+: names → p ≠ [] → p ≠ names → ∃ real,
    tree.realDirectory? cwd (Path.along dir p) = some real ∧
      ∀ q, q <+: p → q ≠ p → tree.realDirectory? cwd (Path.along dir q) ≠ some real

/-- What is said of the chains of names that a walk of `dir` lists. -/
structure Listed (tree : FileTree) (cwd dir extname : String) (names : List String) : Prop where
  visible : ∀ c ∈ names, isHidden c = false
  extension : ∃ c, names.getLast? = some c ∧ extname.toList <:+ c.toList
  file : tree.isFile cwd (Path.along dir names) = true
  passable : Passable tree cwd dir names

/-- What is said of the chains of names at which a walk of `dir` has to open a directory that is
another one than all before, but whose path is too long, or whose name is. -/
structure Overlong (tree : FileTree) (cwd dir : String) (names : List String) : Prop where
  pieces : ∀ c ∈ names, '/' ∉ c.toList
  visible : ∀ c ∈ names, isHidden c = false
  passable : Passable tree cwd dir names
  entry : ∃ up name real es es', names = up ++ [name] ∧
    tree.locate cwd (Path.along dir up) = .ok ⟨real, .directory es⟩ ∧
    es.lookup name = some (.directory es') ∧
    ∀ q, q <+: up → tree.realDirectory? cwd (Path.along dir q) ≠ some (real ++ [name])
  long : pathLimit < (Path.along dir names).utf8ByteSize ∨
    ∃ c, names.getLast? = some c ∧ nameLimit < c.utf8ByteSize

namespace Visited

/-- The names on a way are those of entries, and not hidden. -/
theorem names_spec (h : Visited tree cwd dir below chain) :
    ∀ c ∈ below, isEntryName c = true ∧ isHidden c = false := by
  induction h with
  | start h => exact fun _ hc => nomatch hc
  | down hv hname hvisible h hnew ih =>
    intro c hc
    rcases List.mem_append.1 hc with hc | hc
    · exact ih c hc
    · obtain rfl := List.mem_singleton.1 hc
      exact ⟨hname, hvisible⟩

/-- The chain of a way holds the real paths of its beginnings. -/
theorem mem_chain (h : Visited tree cwd dir below chain) :
    real ∈ chain ↔ ∃ q, q <+: below ∧ tree.realDirectory? cwd (Path.along dir q) = some real := by
  induction h with
  | @start r es h =>
    rw [List.mem_singleton]
    constructor
    · rintro rfl
      exact ⟨[], List.prefix_rfl, realDirectory?_eq_some.2 ⟨es, h⟩⟩
    · rintro ⟨q, hq, hr⟩
      obtain rfl := List.prefix_nil.1 hq
      obtain ⟨es', h'⟩ := realDirectory?_eq_some.1 hr
      cases h.symm.trans h'
      rfl
  | @down below chain name r es hv hname hvisible h hnew ih =>
    have hlast : tree.realDirectory? cwd (Path.along dir (below ++ [name])) = some r :=
      realDirectory?_eq_some.2 ⟨es, h⟩
    rw [List.mem_cons, ih]
    constructor
    · rintro (rfl | ⟨q, hq, hr⟩)
      · exact ⟨_, List.prefix_rfl, hlast⟩
      · exact ⟨q, hq.trans (List.prefix_append _ _), hr⟩
    · rintro ⟨q, hq, hr⟩
      rcases List.prefix_concat_iff.1 hq with rfl | hq
      · exact .inl (Option.some.inj (hr.symm.trans hlast))
      · exact .inr ⟨q, hq, hr⟩

/-- Every directory on a way is there and is another one than all before. -/
theorem passed (h : Visited tree cwd dir below chain) {p : List String} (hp : p <+: below)
    (hne : p ≠ []) : ∃ real, tree.realDirectory? cwd (Path.along dir p) = some real ∧
      ∀ q, q <+: p → q ≠ p → tree.realDirectory? cwd (Path.along dir q) ≠ some real := by
  induction h with
  | start h => exact absurd (List.prefix_nil.1 hp) hne
  | @down below chain name r es hv hname hvisible h hnew ih =>
    rcases List.prefix_concat_iff.1 hp with rfl | hp
    · refine ⟨r, realDirectory?_eq_some.2 ⟨es, h⟩, fun q hq hqp hr => ?_⟩
      rcases List.prefix_concat_iff.1 hq with rfl | hq
      · exact hqp rfl
      · exact hnew (hv.mem_chain.2 ⟨q, hq, hr⟩)
    · exact ih hp

end Visited

/-- A walk goes every way on which each directory is there and is another one than all
before. -/
theorem exists_visited (hroot : tree.realDirectory? cwd dir ≠ none)
    (hnames : ∀ c ∈ below, isEntryName c = true ∧ isHidden c = false)
    (h : ∀ p, p <+: below → p ≠ [] → ∃ real,
      tree.realDirectory? cwd (Path.along dir p) = some real ∧
        ∀ q, q <+: p → q ≠ p → tree.realDirectory? cwd (Path.along dir q) ≠ some real) :
    ∃ chain, Visited tree cwd dir below chain := by
  induction below using List.reverseRecOn with
  | nil =>
    obtain ⟨real, hr⟩ := Option.ne_none_iff_exists'.1 hroot
    obtain ⟨es, hes⟩ := realDirectory?_eq_some.1 hr
    exact ⟨[real], .start hes⟩
  | append_singleton below name ih =>
    obtain ⟨chain, hv⟩ := ih (fun c hc => hnames c (List.mem_append_left _ hc))
      fun p hp => h p (hp.trans (List.prefix_append _ _))
    obtain ⟨hname, hvisible⟩ := hnames name (List.mem_append_right _ List.mem_cons_self)
    obtain ⟨real, hr, hnew⟩ := h _ List.prefix_rfl (by simp)
    obtain ⟨es, hes⟩ := realDirectory?_eq_some.1 hr
    refine ⟨real :: chain, hv.down hname hvisible hes ?_⟩
    intro hmem
    obtain ⟨q, hq, hqr⟩ := hv.mem_chain.1 hmem
    refine hnew q (hq.trans (List.prefix_append _ _)) (fun he => ?_) hqr
    have := hq.length_le
    rw [he] at this
    simp at this

/-- A name without a slash that is neither hidden nor empty can be that of an entry. -/
theorem isEntryName_of_visible {c : String} (hne : c ≠ "") (hs : '/' ∉ c.toList)
    (hvisible : isHidden c = false) : isEntryName c = true := by
  have hdot : c ≠ "." := by rintro rfl; exact absurd hvisible (by decide)
  have hdots : c ≠ ".." := by rintro rfl; exact absurd hvisible (by decide)
  simp [isEntryName, hne, hdot, hdots, hs]

theorem ne_of_shorter {p : List String} (hp : p <+: up) (name : String) : p ≠ up ++ [name] := by
  rintro rfl
  have := hp.length_le
  simp at this

/-- The directories on the way of a walk can be passed. -/
theorem Visited.passable (hv : Visited tree cwd dir up chain) (name : String) :
    Passable tree cwd dir (up ++ [name]) := fun _ hp hne hlast =>
  hv.passed ((List.prefix_concat_iff.1 hp).resolve_left hlast) hne

/-- A walk goes along a chain of names whose directories can be passed. -/
theorem Passable.visited (hroot : tree.realDirectory? cwd dir ≠ none) (hdir : dir ≠ "")
    (hs : ∀ c ∈ up ++ [name], '/' ∉ c.toList) (hvisible : ∀ c ∈ up ++ [name], isHidden c = false)
    (h : Passable tree cwd dir (up ++ [name])) : ∃ chain, Visited tree cwd dir up chain := by
  have hpass : ∀ p, p <+: up → p ≠ [] → ∃ real,
      tree.realDirectory? cwd (Path.along dir p) = some real ∧
        ∀ q, q <+: p → q ≠ p → tree.realDirectory? cwd (Path.along dir q) ≠ some real :=
    fun p hp hne => h p (hp.trans (List.prefix_append _ _)) hne (ne_of_shorter hp name)
  refine exists_visited hroot (fun c hc => ?_) hpass
  have hvis := hvisible c (List.mem_append_left _ hc)
  refine ⟨isEntryName_of_visible ?_ (hs c (List.mem_append_left _ hc)) hvis, hvis⟩
  -- behind an empty name stands the same directory as before it
  rintro rfl
  obtain ⟨a, b, rfl⟩ := List.append_of_mem hc
  obtain ⟨real, hr, hnew⟩ := hpass (a ++ [""]) (by simp) (by simp)
  rw [along_concat] at hr
  exact hnew a (List.prefix_append _ _) (by simp) (realDirectory?_blank (along_ne hdir a) hr)

/-! ### What is seen and what is listed -/

/-- The names up to what is seen in a directory that a walk enters are those of entries. -/
theorem Visited.entryNames (hv : Visited tree cwd dir up chain) (hname : isEntryName name = true) :
    ∀ c ∈ up ++ [name], isEntryName c = true := by
  intro c hc
  rcases List.mem_append.1 hc with hc | hc
  · exact (hv.names_spec c hc).1
  · obtain rfl := List.mem_singleton.1 hc
    exact hname

theorem Visited.visible (hv : Visited tree cwd dir up chain) (hvisible : isHidden name = false) :
    ∀ c ∈ up ++ [name], isHidden c = false := by
  intro c hc
  rcases List.mem_append.1 hc with hc | hc
  · exact (hv.names_spec c hc).2
  · obtain rfl := List.mem_singleton.1 hc
    exact hvisible

theorem Visited.listed (hv : Visited tree cwd dir up chain)
    (ht : TemplateAt tree cwd dir extname up name) : Listed tree cwd dir extname (up ++ [name]) :=
  ⟨hv.visible ht.visible, ⟨name, by simp, ht.extension⟩, isFile_iff.2 ht.file, hv.passable name⟩

theorem Listed.templateAt (hroot : tree.realDirectory? cwd dir ≠ none) (hdir : dir ≠ "")
    (hs : ∀ c ∈ names, '/' ∉ c.toList) (h : Listed tree cwd dir extname names) :
    ∃ up name chain, names = up ++ [name] ∧ Visited tree cwd dir up chain ∧
      TemplateAt tree cwd dir extname up name := by
  obtain ⟨name, hlast, hext⟩ := h.extension
  obtain ⟨up, rfl⟩ := List.getLast?_eq_some_iff.1 hlast
  obtain ⟨chain, hv⟩ := h.passable.visited hroot hdir hs h.visible
  have hmem : name ∈ up ++ [name] := List.mem_append_right _ List.mem_cons_self
  refine ⟨up, name, chain, rfl, hv, ⟨?_, h.visible name hmem, hext, isFile_iff.1 h.file⟩⟩
  refine isEntryName_of_visible ?_ (hs name hmem) (h.visible name hmem)
  rintro rfl
  exact not_isFile_blank (along_ne hdir up) (along_concat dir up "" ▸ h.file)

/-- The path of an entry is too long exactly if it has too many octets, or its name has. -/
theorem tooLong_iff {es es' : List (String × FileNode)}
    (hd : tree.locate cwd (Path.along dir up) = .ok ⟨real, .directory es⟩)
    (hname : isEntryName name = true) (hl : es.lookup name = some (.directory es')) :
    tree.locate cwd (Path.along dir (up ++ [name])) = .error .nameTooLong ↔
      pathLimit < (Path.along dir (up ++ [name])).utf8ByteSize ∨
        ∃ c, (up ++ [name]).getLast? = some c ∧ nameLimit < c.utf8ByteSize := by
  rw [along_concat, locate_entry hd hname hl (by simp), List.getLast?_concat]
  split
  · rename_i h
    exact iff_of_true rfl (h.imp_right fun h => ⟨name, rfl, h⟩)
  · rename_i h
    refine iff_of_false (fun h => nomatch h) fun hlong => h (hlong.imp_right ?_)
    rintro ⟨c, hc, hlong⟩
    exact Option.some.inj hc ▸ hlong

theorem Visited.overlong (hv : Visited tree cwd dir up chain)
    (ht : TooLongAt tree cwd dir chain up name) : Overlong tree cwd dir (up ++ [name]) := by
  obtain ⟨real, es, es', hd, hl, hnew⟩ := ht.entry
  refine ⟨fun c hc => not_slash_of_isEntryName (hv.entryNames ht.isName c hc),
    hv.visible ht.visible, hv.passable name, ⟨up, name, real, es, es', rfl, hd, hl, ?_⟩,
    (tooLong_iff hd ht.isName hl).1 ht.long⟩
  exact fun q hq hr => hnew (hv.mem_chain.2 ⟨q, hq, hr⟩)

theorem Overlong.tooLongAt (hwf : tree.WellFormed) (hroot : tree.realDirectory? cwd dir ≠ none)
    (hdir : dir ≠ "") (h : Overlong tree cwd dir names) :
    ∃ up name chain, names = up ++ [name] ∧ Visited tree cwd dir up chain ∧
      TooLongAt tree cwd dir chain up name := by
  obtain ⟨up, name, real, es, es', rfl, hd, hl, hnew⟩ := h.entry
  obtain ⟨chain, hv⟩ := h.passable.visited hroot hdir h.pieces h.visible
  have hname := (entries_of_located hwf hd).2 _ (mem_of_lookup hl)
  refine ⟨up, name, chain, rfl, hv, hname, h.visible name (by simp),
    ⟨real, es, es', hd, hl, fun hmem => ?_⟩, (tooLong_iff hd hname hl).2 h.long⟩
  obtain ⟨q, hq, hr⟩ := hv.mem_chain.1 hmem
  exact hnew q hq hr

/-! ### Lists of paths -/

theorem templatePaths_eq (sights : List Sight) : templatePaths sights =
    ((templatesOf sights).map (String.intercalate "/")).mergeSort fun a b => !(b < a) := by
  rw [templatePaths, templatesOf, List.map_filterMap]
  congr 2
  funext s
  cases s <;> rfl

theorem mem_templatePaths {sights : List Sight} {path : String} :
    path ∈ templatePaths sights ↔ ∃ names, .template names ∈ sights ∧
      String.intercalate "/" names = path := by
  rw [templatePaths_eq, (List.mergeSort_perm _ _).mem_iff, List.mem_map]
  simp

theorem sorted_mergeSort {α : Type} (key : α → String) (l : List α) :
    ((l.mergeSort fun a b => !(key b < key a)).map key).Pairwise fun a b =>
      (!decide (b < a)) = true := by
  rw [List.pairwise_map]
  refine List.pairwise_mergeSort (fun a b c hab hbc => ?_) (fun a b => ?_) _
  · simp only [Bool.not_eq_true', decide_eq_false_iff_not, not_lt] at *
    exact hab.trans hbc
  · simp only [Bool.or_eq_true, Bool.not_eq_true', decide_eq_false_iff_not, not_lt]
    exact le_total (key a) (key b)

/-- What is sorted by distinct keys has increasing keys. -/
theorem increasing_mergeSort {α : Type} (key : α → String) {l : List α} (h : (l.map key).Nodup) :
    ((l.mergeSort fun a b => !(key b < key a)).map key).Pairwise (· < ·) := by
  have hnodup : ((l.mergeSort fun a b => !(key b < key a)).map key).Nodup :=
    ((List.mergeSort_perm l _).map key).nodup_iff.2 h
  refine List.Pairwise.imp₂ (fun a b hle hne => ?_) (sorted_mergeSort key l) hnodup
  have hle : ¬b < a := by simpa only [Bool.not_eq_true', decide_eq_false_iff_not] using hle
  exact lt_of_le_of_ne (not_lt.1 hle) hne

theorem sorted_templatePaths (sights : List Sight) :
    (templatePaths sights).Pairwise fun a b => (!decide (b < a)) = true := by
  have hpaths := sorted_mergeSort id ((templatesOf sights).map (String.intercalate "/"))
  rw [List.map_id] at hpaths
  rw [templatePaths_eq]
  exact hpaths

/-- Paths that are sorted and distinct increase. -/
theorem increasing_templatePaths {sights : List Sight}
    (h : ((templatesOf sights).map (String.intercalate "/")).Nodup) :
    (templatePaths sights).Pairwise (· < ·) := by
  have hpaths := increasing_mergeSort id (l := (templatesOf sights).map (String.intercalate "/"))
    (by rwa [List.map_id])
  rw [List.map_id] at hpaths
  rw [templatePaths_eq]
  exact hpaths

/-! ### The walk of a directory -/

theorem located_of_isDirectory (h : tree.isDirectory cwd dir = true) :
    ∃ real es, tree.locate cwd dir = .ok ⟨real, .directory es⟩ := by
  unfold isDirectory at h
  split at h
  · rename_i found hfound
    obtain ⟨real, node⟩ := found
    cases node with
    | directory es => exact ⟨real, es, hfound⟩
    | file content => simp [FileNode.isDirectory] at h
    | link target => simp [FileNode.isDirectory] at h
  · cases h

theorem walk_eq (h : tree.isDirectory cwd dir = true) {es : List (String × FileNode)}
    (hloc : tree.locate cwd dir = .ok ⟨real, .directory es⟩) :
    walk tree cwd dir extname =
      (descend tree extname cwd dir (tree.root.directoryCount + 1) [real] []).map fun sights =>
        ⟨templatePaths sights, cyclePaths dir sights⟩ := by
  rw [walk, if_pos h]
  simp only [hloc]
  cases descend tree extname cwd dir (tree.root.directoryCount + 1) [real] [] <;> rfl

section

variable {es : List (String × FileNode)} (hwf : tree.WellFormed)
  (hloc : tree.locate cwd dir = .ok ⟨real, .directory es⟩)

include hloc

theorem realDirectory?_ne_none : tree.realDirectory? cwd dir ≠ none := by
  rw [realDirectory?_eq_some.2 ⟨es, hloc⟩]
  exact Option.some_ne_none _

include hwf

/-- The fault of a walk is that of a directory whose path is too long. -/
theorem overlong_of_descend {f : FileFault}
    (h : descend tree extname cwd dir (tree.root.directoryCount + 1) [real] [] = .error f) :
    ∃ names, Overlong tree cwd dir names ∧ f = tooLong dir names := by
  obtain ⟨up, chain, name, rfl, hv, ht⟩ :=
    ((Visited.start hloc).descend_spec hwf (Nat.add_right_comm _ 1 1)).2 f h
  exact ⟨_, hv.overlong ht, rfl⟩

variable {sights : List Sight}
  (hd : descend tree extname cwd dir (tree.root.directoryCount + 1) [real] [] = .ok sights)

include hd

/-- What a walk sees are chains of names of entries that are to be listed. -/
theorem listed_of_sight (hmem : .template names ∈ sights) :
    names ≠ [] ∧ (∀ c ∈ names, isEntryName c = true) ∧ Listed tree cwd dir extname names := by
  obtain ⟨up, chain, name, rfl, hv, ht⟩ :=
    ((Visited.start hloc).descend_spec hwf (Nat.add_right_comm _ 1 1)).1 sights hd names hmem
  exact ⟨by simp, hv.entryNames ht.isName, hv.listed ht⟩

theorem pieces_of_sight (hmem : .template names ∈ sights) : ∀ c ∈ names, '/' ∉ c.toList :=
  fun c hc => not_slash_of_isEntryName ((listed_of_sight hwf hloc hd hmem).2.1 c hc)

theorem increasing_of_descend : (templatePaths sights).Pairwise (· < ·) := by
  refine increasing_templatePaths ((tidy_descend hwf hd).nodup.map_on fun a ha b hb hab => ?_)
  have ha := mem_templatesOf.1 ha
  have hb := mem_templatesOf.1 hb
  exact intercalate_inj (pieces_of_sight hwf hloc hd ha) (pieces_of_sight hwf hloc hd hb)
    (listed_of_sight hwf hloc hd ha).1 (listed_of_sight hwf hloc hd hb).1 hab

/-- A chain of names is in the list exactly if it is to be listed. -/
theorem mem_paths_iff (hs : ∀ c ∈ names, '/' ∉ c.toList) :
    String.intercalate "/" names ∈ templatePaths sights ↔ Listed tree cwd dir extname names := by
  rw [mem_templatePaths]
  constructor
  · rintro ⟨names', hmem, he⟩
    obtain ⟨hne', hentry, hl⟩ := listed_of_sight hwf hloc hd hmem
    have hpieces := pieces_of_sight hwf hloc hd hmem
    by_cases hnil : names = []
    · -- the empty path is that of no names, or of the empty name
      have hblank : names' = [""] := intercalate_inj hpieces (by simp) hne'
        (List.cons_ne_nil _ _) (by rw [he, hnil]; rfl)
      have := hentry "" (by rw [hblank]; exact List.mem_cons_self)
      exact absurd this (by decide)
    · rw [← intercalate_inj hpieces hs hne' hnil he]
      exact hl
  · intro h
    obtain ⟨up, name, chain, rfl, hv, ht⟩ :=
      h.templateAt (realDirectory?_ne_none hloc) (fits_of_locate hloc).1 hs
    exact ⟨_, hv.sight_of_template hloc hd ht, rfl⟩

/-- A walk that ends well had no directory to open whose path is too long. -/
theorem not_overlong_of_descend : ¬Overlong tree cwd dir names := by
  intro h
  obtain ⟨up, name, chain, rfl, hv, ht⟩ :=
    h.tooLongAt hwf (realDirectory?_ne_none hloc) (fits_of_locate hloc).1
  exact hv.not_tooLong hloc hd ht

end

/-- **What a walk lists.** The walk of a directory of any tree, with any links, comes to a list
unless there is a chain of names along which it has to open a directory whose path is too long,
as the names are joined to the path of the walk; then it has the fault of such a directory. Its
list is strictly increasing, and a chain of names is in it exactly if none of the names is hidden,
the last one has the extension, the chain leads to a file, and each name before leads to a
directory that is another one than all before. -/
theorem walk_lists (hwf : tree.WellFormed) (hdir : tree.isDirectory cwd dir = true)
    (extname : String) :
    (∀ l, walk tree cwd dir extname = .ok l → l.paths.Pairwise (· < ·) ∧
      (∀ path ∈ l.paths, ∃ names, (∀ c ∈ names, '/' ∉ c.toList) ∧
        path = String.intercalate "/" names) ∧
      ∀ names, (∀ c ∈ names, '/' ∉ c.toList) →
        (String.intercalate "/" names ∈ l.paths ↔ Listed tree cwd dir extname names)) ∧
    ((∃ l, walk tree cwd dir extname = .ok l) ↔ ∀ names, ¬Overlong tree cwd dir names) ∧
    ∀ f, walk tree cwd dir extname = .error f →
      ∃ names, Overlong tree cwd dir names ∧ f = ⟨.nameTooLong, Path.along dir names⟩ := by
  obtain ⟨real, es, hloc⟩ := located_of_isDirectory hdir
  rw [walk_eq hdir hloc]
  cases hd : descend tree extname cwd dir (tree.root.directoryCount + 1) [real] [] with
  | error f =>
    obtain ⟨names, hlong, hf⟩ := overlong_of_descend hwf hloc hd
    refine ⟨fun l hl => (nomatch hl),
      ⟨fun ⟨l, hl⟩ => (nomatch hl), fun h => absurd hlong (h names)⟩, fun g hg => ?_⟩
    cases hg
    exact ⟨names, hlong, hf⟩
  | ok sights =>
    refine ⟨fun l hl => ?_, ⟨fun _ names => not_overlong_of_descend hwf hloc hd,
      fun _ => ⟨_, rfl⟩⟩, fun f hf => nomatch hf⟩
    cases hl
    refine ⟨increasing_of_descend hwf hloc hd, fun path hpath => ?_,
      fun names hs => mem_paths_iff hwf hloc hd hs⟩
    obtain ⟨names, hmem, rfl⟩ := mem_templatePaths.1 hpath
    exact ⟨names, pieces_of_sight hwf hloc hd hmem, rfl⟩

/-- A directory with two links, to itself and to the directory in it from there, and with files
that are hidden, linked and plain. -/
def loopedTree : FileTree where
  root := .directory [("d", .directory [("b.html", .file []), (".h.html", .file []),
    ("l", .link "."), ("s", .directory [("a.html", .link "../b.html"), ("l", .link "../l/s")])])]

/-- Its walk comes to a list. -/
theorem exists_walk_looped : ∃ l, walk loopedTree "/" "d" ".html" = .ok l := by
  cases h : walk loopedTree "/" "d" ".html" with
  | ok l => exact ⟨l, rfl⟩
  | error f =>
    have hok : (walk loopedTree "/" "d" ".html").toOption.isSome = true := by decide +kernel
    rw [h] at hok
    nomatch hok

/-- A linked file is listed, and nothing behind a link to a directory on the way. -/
theorem walk_lists_looped : ∃ l, walk loopedTree "/" "d" ".html" = .ok l ∧
    l.paths.Pairwise (· < ·) ∧ "s/a.html" ∈ l.paths ∧ "l/b.html" ∉ l.paths := by
  obtain ⟨l, hl⟩ := exists_walk_looped
  obtain ⟨hsorted, -, hiff⟩ := (walk_lists (by decide +kernel) (by decide +kernel) ".html").1 l hl
  refine ⟨l, hl, hsorted, (hiff ["s", "a.html"] (by decide)).2 ?_, fun hmem => ?_⟩
  · refine ⟨by decide, ⟨"a.html", rfl, by decide⟩, by decide +kernel, fun p hp hne hlast => ?_⟩
    have hp : p = [] ∨ p = ["s"] ∨ p = ["s", "a.html"] := by
      simpa using (List.mem_inits p ["s", "a.html"]).2 hp
    obtain rfl := (hp.resolve_left hne).resolve_right hlast
    refine ⟨["d", "s"], by decide +kernel, fun q hq hqp => ?_⟩
    have hq : q = [] ∨ q = ["s"] := by simpa using (List.mem_inits q ["s"]).2 hq
    obtain rfl := hq.resolve_right hqp
    decide +kernel
  · obtain ⟨real, hr, hnew⟩ := ((hiff ["l", "b.html"] (by decide)).1 hmem).passable ["l"]
      (by decide) (by decide) (by decide)
    have hself : loopedTree.realDirectory? "/" (Path.along "d" ["l"]) =
        loopedTree.realDirectory? "/" (Path.along "d" []) := by decide +kernel
    exact hnew [] (by decide) (by decide) (hself.symm.trans hr)

/-! ### A directory with a long name for itself

Slashes behind the path of a directory lead nowhere else, but with thousands of them the path to
a directory in it is too long. -/

theorem splitOn_slashes (n : Nat) :
    splitOn '/' (List.replicate n '/') = List.replicate (n + 1) [] := by
  induction n with
  | zero => rfl
  | succ n ih => rw [List.replicate_succ, splitOn, if_pos rfl, ih]; rfl

theorem follow_blanks (tree : FileTree) (k n : Nat) (real : List String)
    (es : List (String × FileNode)) :
    tree.follow (tree.jump k) real (.directory es) (List.replicate n "") =
      .ok ⟨real, .directory es⟩ := by
  induction n with
  | zero => rfl
  | succ n ih => rw [List.replicate_succ, follow, if_pos (.inl rfl), ih]

/-- A name of a hundred letters. -/
def longName : String := String.ofList (List.replicate 100 'a')

/-- A directory with another one in it. -/
def crampedTree : FileTree where
  root := .directory [("d", .directory [(longName, .directory [])])]

/-- The path of the outer directory with slashes behind it. -/
def spelled (slashes : Nat) : String := String.ofList ('d' :: List.replicate slashes '/')

variable {n : Nat}

theorem names_spelled (n : Nat) :
    FileTree.names "/" (spelled n) = "" :: "d" :: List.replicate n "" := by
  have hd : splitOn '/' ('d' :: List.replicate n '/') = ['d'] :: List.replicate n [] := by
    rw [splitOn, if_neg (by decide), splitOn_slashes, List.replicate_succ]
  have hjoin : Components.join ['/'] ('d' :: List.replicate n '/') =
      '/' :: 'd' :: List.replicate n '/' := by
    simp [Components.join, Components.isAbsolute]
  have hroot : "/".toList = ['/'] := rfl
  rw [FileTree.names, Path.join, spelled, hroot, String.toList_ofList, String.toList_ofList, hjoin,
    splitOn, if_pos rfl, hd]
  simp

theorem size_spelled (n : Nat) : (spelled n).utf8ByteSize = n + 1 := by
  have hd : "d".utf8ByteSize = 1 := by decide
  have hchars : (String.ofList (List.replicate n '/')).utf8ByteSize = n := by
    induction n with
    | zero => rfl
    | succ n ih =>
      rw [List.replicate_succ, ← List.singleton_append, String.ofList_append]
      simp only [String.utf8ByteSize_append, ih]
      exact Nat.add_comm 1 n
  rw [spelled, ← List.singleton_append, String.ofList_append]
  simp only [String.utf8ByteSize_append, hchars]
  exact Nat.add_comm 1 n

theorem spelled_ne (n : Nat) : spelled n ≠ "" := fun h => by
  have := congrArg String.toList h
  simp [spelled] at this

/-- With a slash behind its path, a directory gets none when a name is joined to it. -/
theorem along_spelled (n : Nat) {c : String} (hc : '/' ∉ c.toList) :
    Path.along (spelled (n + 1)) [c] = spelled (n + 1) ++ c := by
  have hlast : ('d' :: List.replicate (n + 1) '/').getLast? = some '/' := by
    rw [List.replicate_succ', ← List.cons_append, List.getLast?_concat]
  have habs := relative_of_not_slash hc
  rw [Path.isAbsolute] at habs
  simp [Path.along, Path.join, spelled, Components.join, habs, hlast, String.append_assoc]

section

variable {tree : FileTree} {es : List (String × FileNode)}
  (hroot : tree.root = .directory [("d", .directory es)])

include hroot

/-- With slashes behind its path, a directory is found all the same. -/
theorem locate_slashed (h : n + 1 ≤ pathLimit) :
    tree.locate "/" (spelled n) = .ok ⟨["d"], .directory es⟩ := by
  rw [locate_eq (spelled_ne n) (by rw [size_spelled]; exact h), names_spelled, hroot]
  exact follow_blanks tree linkLimit n ["d"] _

theorem isDirectory_slashed (h : n + 1 ≤ pathLimit) : tree.isDirectory "/" (spelled n) = true := by
  rw [isDirectory, locate_slashed hroot h]
  simp [FileNode.isDirectory, spelled]

/-- A directory of a long name in it is not. -/
theorem tooLongAt_slashed (hl : es.lookup longName = some (.directory []))
    (h : n + 2 ≤ pathLimit) (hlong : pathLimit < n + 102) :
    TooLongAt tree "/" (spelled (n + 1)) [["d"]] [] longName := by
  have hname : longName.utf8ByteSize = 100 := by decide +kernel
  have hentry : isEntryName longName = true := by decide +kernel
  have hd := locate_slashed hroot h
  refine ⟨hentry, by decide +kernel, ⟨["d"], es, [], hd, hl, by decide⟩, ?_⟩
  rw [List.nil_append, along_spelled n (not_slash_of_isEntryName hentry), locate, if_neg, if_pos]
  · rw [String.utf8ByteSize_append, size_spelled, hname]
    omega
  · intro hnil
    exact spelled_ne (n + 1) (String.append_eq_empty_iff.1 hnil).1

end

/-- A directory that is there need not have a list: with four thousand slashes behind its path, the
path to the directory in it is too long. -/
theorem walk_fails_spelled : crampedTree.WellFormed ∧
    crampedTree.isDirectory "/" (spelled 4050) = true ∧
    ¬∃ l, walk crampedTree "/" (spelled 4050) ".html" = .ok l := by
  have hfits : 4050 + 1 ≤ pathLimit := by decide
  have hloc : crampedTree.locate "/" (spelled 4050) = .ok ⟨["d"], _⟩ := locate_slashed rfl hfits
  have hdir : crampedTree.isDirectory "/" (spelled 4050) = true := isDirectory_slashed rfl hfits
  refine ⟨by decide +kernel, hdir, fun ⟨l, hl⟩ => ?_⟩
  rw [walk_eq hdir hloc] at hl
  cases hd : descend crampedTree ".html" "/" (spelled 4050)
      (crampedTree.root.directoryCount + 1) [["d"]] [] with
  | error f => rw [hd] at hl; nomatch hl
  | ok seen =>
    exact (Visited.start hloc).not_tooLong hloc hd
      (tooLongAt_slashed rfl List.lookup_cons_self hfits (by decide))

end CachedViews
