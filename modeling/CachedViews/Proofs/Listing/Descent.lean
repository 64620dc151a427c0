import CachedViews.Listing
import CachedViews.Proofs.FileTree.Located
import Mathlib.Data.List.Perm.Subperm

/-
# Where a walk comes

A walk enters a directory at names that are not hidden, each of which leads to a directory
whose real path is new on the way (`Visited`). The real paths on a way are distinct and are
those of directories of the tree, so the bound on its length is never reached
(`Visited.length_le`). What a walk sees are the templates of the directories that it enters,
and its one fault is that a directory that it comes upon has too long a path to be opened
(`Visited.descend_spec`). It sees all of these templates (`Visited.sight_of_template`), each of
them once (`tidy_descend`), and it has the fault whenever there is such a directory
(`Visited.not_tooLong`).

Key definitions: `Visited`, `TemplateAt`, `TooLongAt`, `Tidy`.
Key theorems: `Visited.length_le`, `Visited.descend_spec`, `Visited.sight_of_template`,
`Visited.not_tooLong`, `tidy_descend`.
-/

namespace CachedViews

open CachedViews.FileTree

/-! ### The directories of a tree -/

namespace FileNode

mutual

/-- The real paths of the directories below a node, seen from the node. -/
def directories : FileNode → List (List String)
  | directory es => [] :: directoriesOf es
  | _ => []

/-- The real paths of the directories below entries. -/
def directoriesOf : List (String × FileNode) → List (List String)
  | [] => []
  | (name, n) :: es => (directories n).map (name :: ·) ++ directoriesOf es

end

mutual

theorem length_directories : (n : FileNode) → n.directories.length = n.directoryCount
  | directory es => by simp [directories, directoryCount, length_directoriesOf es]
  | file _ => rfl
  | link _ => rfl

theorem length_directoriesOf : (es : List (String × FileNode)) →
    (directoriesOf es).length = directoryCounts es
  | [] => rfl
  | (name, n) :: es => by
    simp [directoriesOf, directoryCounts, length_directories n, length_directoriesOf es]

end

theorem mem_directoriesOf {es : List (String × FileNode)} {name : String} {n : FileNode}
    {real : List String} (hn : (name, n) ∈ es) (hr : real ∈ n.directories) :
    name :: real ∈ directoriesOf es := by
  induction es with
  | nil => cases hn
  | cons e es ih =>
    rcases List.mem_cons.1 hn with rfl | hn
    · exact List.mem_append_left _ (List.mem_map_of_mem hr)
    · exact List.mem_append_right _ (ih hn)

theorem mem_directories {n : FileNode} {real : List String} {es : List (String × FileNode)}
    (h : n.at? real = some (.directory es)) : real ∈ n.directories := by
  induction real generalizing n with
  | nil =>
    cases h
    exact List.mem_cons_self
  | cons name more ih =>
    rw [at?] at h
    split at h
    · rename_i child hc
      cases n with
      | directory es' => exact List.mem_cons_of_mem _ (mem_directoriesOf (mem_of_lookup hc) (ih h))
      | file content => cases hc
      | link target => cases hc
    · cases h

end FileNode

/-! ### Ways of a walk -/

variable {tree : FileTree} {cwd dir extname path : String} {below real names : List String}
  {chain : List (List String)} {es : List (String × FileNode)} {name : String} {node : FileNode}

/-- A walk of `dir` enters the directory at the names `below`. The chain holds the real paths of
the directories on the way, the last one first. -/
inductive Visited (tree : FileTree) (cwd dir : String) :
    List String → List (List String) → Prop
  | start {real : List String} {es : List (String × FileNode)}
      (h : tree.locate cwd dir = .ok ⟨real, .directory es⟩) : Visited tree cwd dir [] [real]
  | down {below : List String} {chain : List (List String)} {name : String} {real : List String}
      {es : List (String × FileNode)} (hv : Visited tree cwd dir below chain)
      (hname : isEntryName name = true) (hvisible : isHidden name = false)
      (h : tree.locate cwd (Path.along dir (below ++ [name])) = .ok ⟨real, .directory es⟩)
      (hnew : real ∉ chain) : Visited tree cwd dir (below ++ [name]) (real :: chain)

/-- A name in the directory at the names `below` leads to a template. -/
structure TemplateAt (tree : FileTree) (cwd dir extname : String) (below : List String)
    (name : String) : Prop where
  isName : isEntryName name = true
  visible : isHidden name = false
  extension : extname.toList <:+ name.toList
  file : ∃ real content,
    tree.locate cwd (Path.along dir (below ++ [name])) = .ok ⟨real, .file content⟩

/-- A name in the directory at the names `below` is that of a directory which has not been on the
way, and whose path is too long. -/
structure TooLongAt (tree : FileTree) (cwd dir : String) (chain : List (List String))
    (below : List String) (name : String) : Prop where
  isName : isEntryName name = true
  visible : isHidden name = false
  entry : ∃ real es es', tree.locate cwd (Path.along dir below) = .ok ⟨real, .directory es⟩ ∧
    es.lookup name = some (.directory es') ∧ real ++ [name] ∉ chain
  long : tree.locate cwd (Path.along dir (below ++ [name])) = .error .nameTooLong

namespace Visited

/-- A directory that a walk enters is there, and its real path is the last of the chain. -/
theorem located (h : Visited tree cwd dir below chain) : ∃ real es,
    tree.locate cwd (Path.along dir below) = .ok ⟨real, .directory es⟩ ∧ real ∈ chain := by
  cases h with
  | start h => exact ⟨_, _, h, List.mem_cons_self⟩
  | down hv hname hvisible h hnew =>
    exact ⟨_, _, h, List.mem_cons_self⟩

/-- The real paths on a way are distinct, and are those of directories. -/
theorem chain_spec (h : Visited tree cwd dir below chain) :
    chain.Nodup ∧ ∀ real ∈ chain, real ∈ tree.root.directories := by
  induction h with
  | start h =>
    refine ⟨List.nodup_singleton _, fun real hr => ?_⟩
    obtain rfl := List.mem_singleton.1 hr
    exact FileNode.mem_directories (at?_of_locate h)
  | down hv hname hvisible h hnew ih =>
    refine ⟨List.nodup_cons.2 ⟨hnew, ih.1⟩, fun real hr => ?_⟩
    rcases List.mem_cons.1 hr with rfl | hr
    · exact FileNode.mem_directories (at?_of_locate h)
    · exact ih.2 real hr

/-- **No way is longer than the number of directories.** -/
theorem length_le (h : Visited tree cwd dir below chain) :
    chain.length ≤ tree.root.directoryCount := by
  rw [← FileNode.length_directories]
  exact (h.chain_spec.1.subperm h.chain_spec.2).length_le

end Visited

/-! ### What an entry leads to -/

theorem Lead.of_eq_directory {x : Except FileProblem Found} {r : List String} :
    Lead.of x = .directory r ↔ ∃ es, x = .ok ⟨r, .directory es⟩ := by
  constructor
  · intro h
    match x, h with
    | .ok ⟨_, .directory es⟩, h => exact ⟨es, by cases h; rfl⟩
  · rintro ⟨es, rfl⟩
    rfl

theorem Lead.of_eq_file {x : Except FileProblem Found} :
    Lead.of x = .file ↔ ∃ r content, x = .ok ⟨r, .file content⟩ := by
  constructor
  · intro h
    match x, h with
    | .ok ⟨r, .file content⟩, _ => exact ⟨r, content, rfl⟩
  · rintro ⟨r, content, rfl⟩
    rfl

/-- An entry leads where its path leads, unless it is a directory whose path is too long. -/
theorem leadOf_cases (hdir : tree.locate cwd (Path.along dir below) = .ok ⟨real, .directory es⟩)
    (hname : isEntryName name = true) (hl : es.lookup name = some node) :
    leadOf tree cwd (Path.along dir below) real (name, node) =
        .of (tree.locate cwd (Path.along dir (below ++ [name]))) ∨
      (∃ es', node = .directory es') ∧
        tree.locate cwd (Path.along dir (below ++ [name])) = .error .nameTooLong ∧
        leadOf tree cwd (Path.along dir below) real (name, node) = .directory (real ++ [name]) := by
  rw [along_concat]
  cases node with
  | file content => exact .inl rfl
  | link target => exact .inl rfl
  | directory es' =>
    rw [locate_entry hdir hname hl (by simp)]
    split
    · exact .inr ⟨⟨es', rfl⟩, rfl, rfl⟩
    · exact .inl rfl

/-! ### What is seen at entries -/

theorem sightsAt_ok {look : String × FileNode → Except FileFault (List Sight)}
    {seen : List Sight} (h : sightsAt look es = .ok seen) :
    (∀ s ∈ seen, ∃ e ∈ es, ∃ part, look e = .ok part ∧ s ∈ part) ∧
      ∀ e ∈ es, ∃ part, look e = .ok part ∧ ∀ s ∈ part, s ∈ seen := by
  induction es generalizing seen with
  | nil =>
    cases h
    exact ⟨fun _ hs => (nomatch hs), fun _ he => nomatch he⟩
  | cons e es ih =>
    rw [sightsAt] at h
    cases he : look e with
    | error f => rw [he] at h; nomatch h
    | ok part =>
      cases hes : sightsAt look es with
      | error f => rw [he, hes] at h; nomatch h
      | ok rest =>
        rw [he, hes] at h
        obtain rfl : part ++ rest = seen := Except.ok.inj h
        obtain ⟨hfrom, hall⟩ := ih hes
        refine ⟨fun s hs => ?_, fun e' he' => ?_⟩
        · rcases List.mem_append.1 hs with hs | hs
          · exact ⟨e, List.mem_cons_self, part, he, hs⟩
          · obtain ⟨e', he', part', hp⟩ := hfrom s hs
            exact ⟨e', List.mem_cons_of_mem _ he', part', hp⟩
        · rcases List.mem_cons.1 he' with rfl | he'
          · exact ⟨part, he, fun s hs => List.mem_append_left _ hs⟩
          · obtain ⟨part', hp, hsub⟩ := hall e' he'
            exact ⟨part', hp, fun s hs => List.mem_append_right _ (hsub s hs)⟩

theorem sightsAt_error {look : String × FileNode → Except FileFault (List Sight)} {f : FileFault}
    (h : sightsAt look es = .error f) : ∃ e ∈ es, look e = .error f := by
  induction es with
  | nil => nomatch h
  | cons e es ih =>
    rw [sightsAt] at h
    cases he : look e with
    | error g =>
      rw [he] at h
      cases h
      exact ⟨e, List.mem_cons_self, he⟩
    | ok part =>
      cases hes : sightsAt look es with
      | ok rest => rw [he, hes] at h; nomatch h
      | error g =>
        rw [he, hes] at h
        cases h
        obtain ⟨e', he', hg⟩ := ih hes
        exact ⟨e', List.mem_cons_of_mem _ he', hg⟩

/-- What is seen at an entry of a directory that a walk has entered. -/
inductive Outlook (tree : FileTree) (cwd dir extname : String)
    (down : List (List String) → List String → Except FileFault (List Sight))
    (chain : List (List String)) (below : List String) (name : String) :
    Except FileFault (List Sight) → Prop
  /-- The walk goes on below. -/
  | down {real : List String} (hv : Visited tree cwd dir (below ++ [name]) (real :: chain)) :
      Outlook tree cwd dir extname down chain below name (down (real :: chain) (below ++ [name]))
  /-- The walk tries to open a directory whose path is too long. -/
  | stuck {real : List String} (h : TooLongAt tree cwd dir chain below name) :
      Outlook tree cwd dir extname down chain below name (down (real :: chain) (below ++ [name]))
  | template (h : TemplateAt tree cwd dir extname below name) :
      Outlook tree cwd dir extname down chain below name (.ok [.template (below ++ [name])])
  /-- Nothing is seen, or a directory that has been on the way. -/
  | other {seen : List Sight} (h : ∀ s ∈ seen, ∃ names, s = .cycle names) :
      Outlook tree cwd dir extname down chain below name (.ok seen)

section

variable {down : List (List String) → List String → Except FileFault (List Sight)}
  (hdir : tree.locate cwd (Path.along dir below) = .ok ⟨real, .directory es⟩)
  (hname : isEntryName name = true) (hl : es.lookup name = some node)

include hdir hname hl

theorem outlook_look (hv : Visited tree cwd dir below chain) (hvisible : isHidden name = false) :
    Outlook tree cwd dir extname down chain below name
    (look tree extname cwd dir down chain below real (name, node)) := by
  have hother : ∀ names, ∀ s ∈ [Sight.cycle names], ∃ names, s = .cycle names :=
    fun names s hs => ⟨names, List.mem_singleton.1 hs⟩
  have hcases := leadOf_cases hdir hname hl
  simp only [look]
  split
  · rename_i r hr
    split
    · exact .other (hother _)
    · rename_i hnew
      have hnew : r ∉ chain := by simpa using hnew
      rcases hcases with h | ⟨⟨es', rfl⟩, hlong, h⟩
      · obtain ⟨es', hes'⟩ := Lead.of_eq_directory.1 (h.symm.trans hr)
        exact .down (hv.down hname hvisible hes' hnew)
      · obtain rfl := Lead.directory.inj (h.symm.trans hr)
        exact .stuck ⟨hname, hvisible, ⟨real, es, es', hdir, hl, hnew⟩, hlong⟩
  · rename_i hr
    split
    · rename_i hext
      rcases hcases with h | ⟨-, -, h⟩
      · exact .template ⟨hname, hvisible, List.isSuffixOf_iff_suffix.1 hext,
          Lead.of_eq_file.1 (h.symm.trans hr)⟩
      · nomatch h.symm.trans hr
    · exact .other fun _ hs => nomatch hs
  · exact .other fun _ hs => nomatch hs

/-- The walk goes on below every directory that is new on the way. -/
theorem look_of_directory {r : List String} {es' : List (String × FileNode)}
    (h : tree.locate cwd (Path.along dir (below ++ [name])) = .ok ⟨r, .directory es'⟩)
    (hnew : r ∉ chain) :
    look tree extname cwd dir down chain below real (name, node) =
      down (r :: chain) (below ++ [name]) := by
  rcases leadOf_cases hdir hname hl with hc | hc
  · have hlead := hc.trans (Lead.of_eq_directory.2 ⟨es', h⟩)
    simp [look, hlead, hnew]
  · cases h.symm.trans hc.2.1

/-- Every template is seen. -/
theorem look_of_template (h : TemplateAt tree cwd dir extname below name) :
    look tree extname cwd dir down chain below real (name, node) =
      .ok [.template (below ++ [name])] := by
  obtain ⟨r, content, hfile⟩ := h.file
  rcases leadOf_cases hdir hname hl with hc | hc
  · have hlead := hc.trans (Lead.of_eq_file.2 ⟨r, content, hfile⟩)
    simp [look, hlead, h.extension]
  · cases hfile.symm.trans hc.2.1

end

/-! ### What a walk sees -/

theorem entries_of_located (hwf : tree.WellFormed)
    (hdir : tree.locate cwd path = .ok ⟨real, .directory es⟩) :
    (es.map (·.1)).Nodup ∧ ∀ e ∈ es, isEntryName e.1 = true := by
  obtain ⟨hn, he⟩ := FileNode.isWellFormed_directory.1
    (FileNode.isWellFormed_at? hwf (at?_of_locate hdir))
  exact ⟨hn, fun e hmem => (he e hmem).1⟩

theorem descend_of_located (fuel : Nat) (chain : List (List String))
    (hdir : tree.locate cwd (Path.along dir below) = .ok ⟨real, .directory es⟩) :
    descend tree extname cwd dir (fuel + 1) chain below =
      sightsAt (look tree extname cwd dir (descend tree extname cwd dir fuel) chain below real)
        (es.filter fun entry => !isHidden entry.1) := by
  simp [descend, hdir, FileNode.entries]

/-- What is seen at an entry is part of what is seen from its directory. -/
theorem ok_look {k : Nat} {part : List Sight}
    (hdir : tree.locate cwd (Path.along dir below) = .ok ⟨real, .directory es⟩)
    (hl : es.lookup name = some node) (hvisible : isHidden name = false)
    (h : descend tree extname cwd dir (k + 1) chain below = .ok part) :
    ∃ part', look tree extname cwd dir (descend tree extname cwd dir k) chain below real
      (name, node) = .ok part' ∧ ∀ s ∈ part', s ∈ part := by
  rw [descend_of_located k chain hdir] at h
  exact (sightsAt_ok h).2 (name, node)
    (List.mem_filter.2 ⟨mem_of_lookup hl, by simpa using hvisible⟩)

/-- The fault of a directory whose path is too long. -/
def tooLong (directory : String) (names : List String) : FileFault :=
  ⟨.nameTooLong, Path.along directory names⟩

theorem descend_of_tooLong (fuel : Nat) (chain' : List (List String))
    (h : TooLongAt tree cwd dir chain below name) :
    descend tree extname cwd dir (fuel + 1) chain' (below ++ [name]) =
      .error (tooLong dir (below ++ [name])) := by
  simp [descend, h.long, tooLong]

namespace Visited

/-- The bound is not reached, neither at a directory that is entered nor one below. -/
theorem two_le (hv : Visited tree cwd dir below chain) {fuel : Nat}
    (hf : fuel + chain.length = tree.root.directoryCount + 2) : 2 ≤ fuel := by
  have := hv.length_le
  omega

/-- **A walk sees nothing but templates of directories that it enters**, and its fault is that
of a directory whose path is too long. -/
theorem descend_spec (hwf : tree.WellFormed) {fuel : Nat}
    (hv : Visited tree cwd dir below chain)
    (hf : fuel + chain.length = tree.root.directoryCount + 2) :
    (∀ seen, descend tree extname cwd dir fuel chain below = .ok seen →
      ∀ names, .template names ∈ seen → ∃ below' chain' name, names = below' ++ [name] ∧
        Visited tree cwd dir below' chain' ∧ TemplateAt tree cwd dir extname below' name) ∧
    ∀ f, descend tree extname cwd dir fuel chain below = .error f →
      ∃ below' chain' name, f = tooLong dir (below' ++ [name]) ∧
        Visited tree cwd dir below' chain' ∧ TooLongAt tree cwd dir chain' below' name := by
  induction fuel generalizing below chain with
  | zero => exact absurd (hv.two_le hf) (by omega)
  | succ fuel ih =>
    have hfuel := hv.two_le hf
    obtain ⟨real, es, hdir, -⟩ := hv.located
    obtain ⟨hnodup, hnames⟩ := entries_of_located hwf hdir
    rw [descend_of_located fuel chain hdir]
    have houtlook : ∀ e ∈ es.filter fun entry => !isHidden entry.1, Outlook tree cwd dir extname
        (descend tree extname cwd dir fuel) chain below e.1
        (look tree extname cwd dir (descend tree extname cwd dir fuel) chain below real e) := by
      intro e he
      obtain ⟨he, hvisible⟩ := List.mem_filter.1 he
      exact outlook_look hdir (hnames e he) (lookup_of_mem hnodup he) hv
        (by simpa using hvisible)
    have hstuck : ∀ {e : String × FileNode} {r : List String},
        TooLongAt tree cwd dir chain below e.1 →
        descend tree extname cwd dir fuel (r :: chain) (below ++ [e.1]) =
          .error (tooLong dir (below ++ [e.1])) := by
      intro e r h
      obtain ⟨k, rfl⟩ : ∃ k, fuel = k + 1 := ⟨fuel - 1, by omega⟩
      exact descend_of_tooLong k (r :: chain) h
    have hlen : ∀ r : List String,
        fuel + (r :: chain).length = tree.root.directoryCount + 2 := fun r => by
      rw [List.length_cons]
      omega
    refine ⟨fun seen hseen names hmem => ?_, fun f hfault => ?_⟩
    · obtain ⟨e, he, part, hpart, hmem⟩ := (sightsAt_ok hseen).1 _ hmem
      have ho := houtlook e he
      rw [hpart] at ho
      generalize hx : (Except.ok part : Except FileFault (List Sight)) = x at ho
      cases ho with
      | @down r hv' => exact (ih hv' (hlen r)).1 part hx.symm names hmem
      | stuck h => exact nomatch hx.trans (hstuck h)
      | template h =>
        cases hx
        obtain rfl := Sight.template.inj (List.mem_singleton.1 hmem)
        exact ⟨below, chain, e.1, rfl, hv, h⟩
      | other h =>
        cases hx
        obtain ⟨names', hc⟩ := h _ hmem
        nomatch hc
    · obtain ⟨e, he, hf'⟩ := sightsAt_error hfault
      have ho := houtlook e he
      rw [hf'] at ho
      generalize hx : (Except.error f : Except FileFault (List Sight)) = x at ho
      cases ho with
      | @down r hv' => exact (ih hv' (hlen r)).2 f hx.symm
      | stuck h =>
        exact ⟨below, chain, e.1, Except.error.inj (hx.trans (hstuck h)), hv, h⟩
      | template h => nomatch hx
      | other h => nomatch hx

/-! ### What a walk cannot miss -/

variable {real₀ : List String} {es₀ : List (String × FileNode)} {seen : List Sight}

/-- What is seen from a directory that a walk enters is part of what the walk sees. -/
theorem part (hdir : tree.locate cwd dir = .ok ⟨real₀, .directory es₀⟩)
    (h : descend tree extname cwd dir (tree.root.directoryCount + 1) [real₀] [] = .ok seen)
    (hv : Visited tree cwd dir below chain) :
    ∃ k part, k + 1 + chain.length = tree.root.directoryCount + 2 ∧
      descend tree extname cwd dir (k + 1) chain below = .ok part ∧
      ∀ s ∈ part, s ∈ seen := by
  induction hv with
  | start h' =>
    cases hdir.symm.trans h'
    exact ⟨_, seen, rfl, h, fun _ hs => hs⟩
  | @down below chain name r es' hv hname hvisible h' hnew ih =>
    obtain ⟨fuel, part, hf, hpart, hsub⟩ := ih
    obtain ⟨k, rfl⟩ : ∃ k, fuel = k + 1 := ⟨fuel - 1, by have := hv.two_le hf; omega⟩
    obtain ⟨real, es, hd, -⟩ := hv.located
    obtain ⟨node, hl⟩ := entry_of_locate hd hname (by rw [← along_concat]; exact h')
    obtain ⟨part', hpart', hsub'⟩ := ok_look hd hl hvisible hpart
    rw [look_of_directory hd hname hl h' hnew] at hpart'
    exact ⟨k, part', by rw [List.length_cons]; omega, hpart', fun s hs => hsub s (hsub' s hs)⟩

/-- **A walk sees every template** of a directory that it enters. -/
theorem sight_of_template (hdir : tree.locate cwd dir = .ok ⟨real₀, .directory es₀⟩)
    (h : descend tree extname cwd dir (tree.root.directoryCount + 1) [real₀] [] = .ok seen)
    (hv : Visited tree cwd dir below chain) (ht : TemplateAt tree cwd dir extname below name) :
    .template (below ++ [name]) ∈ seen := by
  obtain ⟨k, part, -, hpart, hsub⟩ := hv.part hdir h
  obtain ⟨real, es, hd, -⟩ := hv.located
  obtain ⟨r, content, hfile⟩ := ht.file
  obtain ⟨node, hl⟩ := entry_of_locate hd ht.isName (by rw [← along_concat]; exact hfile)
  obtain ⟨part', hpart', hsub'⟩ := ok_look hd hl ht.visible hpart
  rw [look_of_template hd ht.isName hl ht] at hpart'
  cases hpart'
  exact hsub _ (hsub' _ List.mem_cons_self)

/-- **A walk that ends well has opened every directory** that it came upon. -/
theorem not_tooLong (hdir : tree.locate cwd dir = .ok ⟨real₀, .directory es₀⟩)
    (h : descend tree extname cwd dir (tree.root.directoryCount + 1) [real₀] [] = .ok seen)
    (hv : Visited tree cwd dir below chain) : ¬TooLongAt tree cwd dir chain below name := by
  intro ht
  obtain ⟨k, part, hf, hpart, -⟩ := hv.part hdir h
  obtain ⟨k, rfl⟩ : ∃ j, k = j + 1 := ⟨k - 1, by have := hv.two_le hf; omega⟩
  obtain ⟨real, es, es', hd, hl, hnew⟩ := ht.entry
  obtain ⟨part', hpart', -⟩ := ok_look hd hl ht.visible hpart
  have hlook : look tree extname cwd dir (descend tree extname cwd dir (k + 1)) chain below real
      (name, .directory es') = descend tree extname cwd dir (k + 1)
        ((real ++ [name]) :: chain) (below ++ [name]) := by
    simp [look, leadOf, hnew]
  rw [hlook, descend_of_tooLong k _ ht] at hpart'
  nomatch hpart'

end Visited

/-! ### Nothing is seen twice -/

/-- The templates among what a walk came upon. -/
def templatesOf (seen : List Sight) : List (List String) :=
  seen.filterMap fun
    | .template names => some names
    | .cycle _ => none

theorem templatesOf_append (seen seen' : List Sight) :
    templatesOf (seen ++ seen') = templatesOf seen ++ templatesOf seen' :=
  List.filterMap_append

@[simp] theorem mem_templatesOf {seen : List Sight} : names ∈ templatesOf seen ↔
    .template names ∈ seen := by
  simp only [templatesOf, List.mem_filterMap]
  constructor
  · rintro ⟨s, hs, h⟩
    cases s with
    | template names' => cases h; exact hs
    | cycle names' => nomatch h
  · exact fun h => ⟨_, h, rfl⟩

/-- Templates are seen once each, all of them below some names. -/
structure Tidy (below : List String) (seen : List Sight) : Prop where
  nodup : (templatesOf seen).Nodup
  below : ∀ names ∈ templatesOf seen, below <+: names

/-- What is seen at different entries is different. -/
theorem tidy_sightsAt {look : String × FileNode → Except FileFault (List Sight)}
    {seen : List Sight} (hn : (es.map (·.1)).Nodup)
    (hlook : ∀ e ∈ es, ∀ part, look e = .ok part → Tidy (below ++ [e.1]) part)
    (h : sightsAt look es = .ok seen) :
    (templatesOf seen).Nodup ∧
      ∀ names ∈ templatesOf seen, ∃ e ∈ es, below ++ [e.1] <+: names := by
  induction es generalizing seen with
  | nil =>
    cases h
    exact ⟨List.nodup_nil, fun _ hm => nomatch hm⟩
  | cons e es ih =>
    rw [sightsAt] at h
    cases he : look e with
    | error f => rw [he] at h; nomatch h
    | ok part =>
      cases hes : sightsAt look es with
      | error f => rw [he, hes] at h; nomatch h
      | ok rest =>
        rw [he, hes] at h
        obtain rfl : part ++ rest = seen := Except.ok.inj h
        obtain ⟨hnew, hn⟩ := List.nodup_cons.1 hn
        have hpart := hlook e List.mem_cons_self part he
        obtain ⟨hrest, hbelow⟩ := ih hn (fun e' he' => hlook e' (List.mem_cons_of_mem _ he')) hes
        rw [templatesOf_append]
        refine ⟨List.nodup_append.2 ⟨hpart.nodup, hrest, fun a ha b hb hab => ?_⟩,
          fun names hm => ?_⟩
        · -- the entry that a template was seen at can be told from its names
          subst hab
          obtain ⟨e', he', hpre⟩ := hbelow a hb
          have hlen : (below ++ [e.1]).length ≤ (below ++ [e'.1]).length := by simp
          have heq := (List.prefix_of_prefix_length_le (hpart.below a ha) hpre hlen).eq_of_length
            (by simp)
          have hname : e.1 = e'.1 := by simpa using heq
          exact hnew (List.mem_map.2 ⟨e', he', hname.symm⟩)
        · rcases List.mem_append.1 hm with hm | hm
          · exact ⟨e, List.mem_cons_self, hpart.below names hm⟩
          · obtain ⟨e', he', hpre⟩ := hbelow names hm
            exact ⟨e', List.mem_cons_of_mem _ he', hpre⟩

theorem tidy_look {down : List (List String) → List String → Except FileFault (List Sight)}
    {part : List Sight} {e : String × FileNode}
    (hdown : ∀ chain' part, down chain' (below ++ [e.1]) = .ok part → Tidy (below ++ [e.1]) part)
    (h : look tree extname cwd dir down chain below real e = .ok part) :
    Tidy (below ++ [e.1]) part := by
  have hnone : Tidy (below ++ [e.1]) [] := ⟨List.nodup_nil, fun _ hm => nomatch hm⟩
  simp only [look] at h
  split at h
  · split at h
    · cases h
      exact ⟨List.nodup_nil, fun _ hm => nomatch hm⟩
    · exact hdown _ part h
  · split at h
    · cases h
      exact ⟨List.nodup_singleton _, fun names hm => by
        obtain rfl : names = below ++ [e.1] := by simpa using hm
        exact List.prefix_rfl⟩
    · cases h
      exact hnone
  · cases h
    exact hnone

/-- **A walk sees every template once.** -/
theorem tidy_descend (hwf : tree.WellFormed) {fuel : Nat} {seen : List Sight}
    (h : descend tree extname cwd dir fuel chain below = .ok seen) : Tidy below seen := by
  induction fuel generalizing chain below seen with
  | zero =>
    cases h
    exact ⟨List.nodup_nil, fun _ hm => nomatch hm⟩
  | succ fuel ih =>
    rw [descend] at h
    split at h
    · nomatch h
    · rename_i found hfound
      have hnames : (found.node.entries.map (·.1)).Nodup := by
        obtain ⟨r, node⟩ := found
        cases node with
        | directory es => exact (entries_of_located hwf hfound).1
        | file content => exact List.nodup_nil
        | link target => exact List.nodup_nil
      obtain ⟨hnodup, hbelow⟩ := tidy_sightsAt (hnames.sublist (List.filter_sublist.map _))
        (fun e _ part hpart =>
          (tidy_look (fun _ _ hd => ih hd) hpart : Tidy (below ++ [e.1]) part)) h
      refine ⟨hnodup, fun names hm => ?_⟩
      obtain ⟨e, -, hpre⟩ := hbelow names hm
      exact (List.prefix_append below [e.1]).trans hpre

end CachedViews
