import CachedViews.Proofs.Listing.Listed

/-
# A walk turn by turn

A walk keeps a list of directories that are still to be visited, and under the path of each of
them the real paths of the directories on the way to it. In a turn it visits the first one, takes
its chain from the record, notes the templates in it and the links back to the chain, and records
a longer chain for every directory in it that is new on the way (`Tour.turn`).

No directory that is to be visited lies behind another one, and each has in the record the chain
that it is due with (`Charted`). A turn keeps that, so a chain is in the record whenever one is
taken from it (`Charted.after`).

Key definitions: `Tour`, `Tour.turn`, `Tour.after`, `Due`, `Charted`.
Key theorems: `Due.chain_spec`, `Due.way`, `Charted.turn_cases`, `Charted.visit`, `Charted.after`.
-/

namespace CachedViews

open CachedViews.FileTree

/-! ### Turns -/

/-- A walk between two turns. A directory that is still to be visited is given by the names that
lead to it from the start, the next one first. The record holds the real paths of the directories
on the way to it, itself included, under its path. -/
structure Tour where
  pending : List (List String)
  ancestors : List (String × List (List String))
  sights : List Sight := []

/-- Why a turn cannot be taken. -/
inductive TourFault where
  | unopened (f : FileFault)
  /-- There is no chain in the record. -/
  | unrecorded (path : String)

/-- A directory that is visited: its names from the start, its real path, and the chain of
the real paths on the way. -/
structure Stop where
  below : List String
  real : List String
  chain : List (List String)

namespace Stop

variable (tree : FileTree) (extname cwd directory : String) (s : Stop)
  (entry : String × FileNode)

/-- An entry that is to be visited with its chain: a directory that is new on the way. -/
def entered? : Option (List String × List (List String)) :=
  match leadOf tree cwd (Path.along directory s.below) s.real entry with
  | .directory real =>
    if s.chain.contains real then none else some (s.below ++ [entry.1], real :: s.chain)
  | _ => none

/-- An entry that leads back to a directory on the way. -/
def cycle? : Option Sight :=
  match leadOf tree cwd (Path.along directory s.below) s.real entry with
  | .directory real => if s.chain.contains real then some (.cycle (s.below ++ [entry.1])) else none
  | _ => none

/-- An entry that is a template. -/
def template? : Option Sight :=
  match leadOf tree cwd (Path.along directory s.below) s.real entry with
  | .file =>
    if extname.toList.isSuffixOf entry.1.toList then some (.template (s.below ++ [entry.1]))
    else none
  | _ => none

/-- What is seen at the entries of a directory itself. -/
def seen (entries : List (String × FileNode)) : List Sight :=
  entries.filterMap (s.cycle? tree cwd directory) ++
    entries.filterMap (s.template? tree extname cwd directory)

end Stop

namespace Tour

variable (tree : FileTree) (extname cwd directory : String)

/-- A walk that visits a directory with these entries, before `rest`. The chain of the directory is
taken from the record, and those of the directories in it are put in. -/
def visit (t : Tour) (rest : List (List String)) (s : Stop)
    (entries : List (String × FileNode)) : Tour :=
  let entered := entries.filterMap (s.entered? tree cwd directory)
  { pending := entered.map (·.1) ++ rest
    ancestors := Value.overlay
      (t.ancestors.filter fun recorded => recorded.1 ≠ Path.along directory s.below)
      (entered.map fun d => (Path.along directory d.1, d.2))
    sights := t.sights ++ s.seen tree extname cwd directory entries }

/-- The next turn of a walk, if there is anything left to visit. -/
def turn (t : Tour) : Except TourFault Tour :=
  match t.pending with
  | [] => .ok t
  | below :: rest =>
    let path := Path.along directory below
    match tree.locate cwd path with
    | .error problem => .error (.unopened ⟨problem, path⟩)
    | .ok found =>
      match t.ancestors.lookup path with
      | none => .error (.unrecorded path)
      | some chain => .ok (t.visit tree extname cwd directory rest ⟨below, found.real, chain⟩
          (found.node.entries.filter fun entry => !isHidden entry.1))

/-- A walk after a number of turns. -/
def after : Nat → Tour → Except TourFault Tour
  | 0, t => .ok t
  | n + 1, t => (turn tree extname cwd directory t).bind (after n)

/-- A walk before its first turn, at a directory with the real path. -/
def start (real : List String) : Tour where
  pending := [[]]
  ancestors := [(directory, [real])]

end Tour

variable {tree : FileTree} {cwd dir extname name : String} {below real : List String}
  {chain : List (List String)} {es : List (String × FileNode)} {node : FileNode} {t t' : Tour}
  {rest : List (List String)}

/-! ### Directories that are due -/

/-- The directory at the names `below` is due to be visited with a chain: it is one that a walk
enters, or it is new on the way but its path is too long. -/
inductive Due (tree : FileTree) (cwd dir : String) : List String → List (List String) → Prop
  | visited {below : List String} {chain : List (List String)}
      (hv : Visited tree cwd dir below chain) : Due tree cwd dir below chain
  | tooLong {up : List String} {chain : List (List String)} {name : String} {real : List String}
      {es es' : List (String × FileNode)} (hv : Visited tree cwd dir up chain)
      (h : TooLongAt tree cwd dir chain up name)
      (hdir : tree.locate cwd (Path.along dir up) = .ok ⟨real, .directory es⟩)
      (hl : es.lookup name = some (.directory es')) (hnew : real ++ [name] ∉ chain) :
      Due tree cwd dir (up ++ [name]) ((real ++ [name]) :: chain)

namespace Due

theorem names_spec (h : Due tree cwd dir below chain) :
    ∀ c ∈ below, isEntryName c = true ∧ isHidden c = false := by
  cases h with
  | visited hv => exact hv.names_spec
  | tooLong hv h hdir hl hnew =>
    intro c hc
    rcases List.mem_append.1 hc with hc | hc
    · exact hv.names_spec c hc
    · obtain rfl := List.mem_singleton.1 hc
      exact ⟨h.isName, h.visible⟩

/-- **The real paths of a chain are distinct, and are those of directories of the tree.** -/
theorem chain_spec (h : Due tree cwd dir below chain) :
    chain.Nodup ∧ ∀ real ∈ chain, real ∈ tree.root.directories := by
  cases h with
  | visited hv => exact hv.chain_spec
  | tooLong hv h hdir hl hnew =>
    obtain ⟨hnodup, hdirs⟩ := hv.chain_spec
    refine ⟨List.nodup_cons.2 ⟨hnew, hnodup⟩, fun real hr => ?_⟩
    rcases List.mem_cons.1 hr with rfl | hr
    · exact FileNode.mem_directories (at?_snoc (at?_of_locate hdir) hl)
    · exact hdirs real hr

theorem length_le (h : Due tree cwd dir below chain) : chain.length ≤ tree.root.directoryCount := by
  rw [← FileNode.length_directories]
  exact (h.chain_spec.1.subperm h.chain_spec.2).length_le

theorem length_visited (h : Visited tree cwd dir below chain) : chain.length = below.length + 1 := by
  induction h with
  | start h => rfl
  | down hv hname hvisible h hnew ih => simp [ih]

/-- A chain has one real path for each directory on the way. -/
theorem length_eq (h : Due tree cwd dir below chain) : chain.length = below.length + 1 := by
  cases h with
  | visited hv => exact length_visited hv
  | tooLong hv h hdir hl hnew => simp [length_visited hv]

theorem way_visited (h : Visited tree cwd dir below chain) {q : List String} (hq : q <+: below) :
    ∃ r, tree.realDirectory? cwd (Path.along dir q) = some r ∧ chain.reverse[q.length]? = some r := by
  induction h with
  | @start r es h =>
    obtain rfl := List.prefix_nil.1 hq
    exact ⟨r, realDirectory?_eq_some.2 ⟨es, h⟩, rfl⟩
  | @down below chain name r es hv hname hvisible h hnew ih =>
    have hlen := length_visited hv
    rw [List.reverse_cons]
    rcases List.prefix_concat_iff.1 hq with rfl | hq
    · refine ⟨r, realDirectory?_eq_some.2 ⟨es, h⟩, ?_⟩
      rw [List.getElem?_append_right (by simp [hlen])]
      simp [hlen]
    · obtain ⟨r', hr', hat⟩ := ih hq
      refine ⟨r', hr', ?_⟩
      rw [List.getElem?_append_left (by
        rw [List.length_reverse, hlen]
        exact Nat.lt_succ_of_le hq.length_le)]
      exact hat

/-- **A chain has the real path of each directory on the way**, from its end on. The last one is
there unless its path is too long. -/
theorem way (h : Due tree cwd dir below chain) {q : List String} (hq : q <+: below) :
    (∃ r, tree.realDirectory? cwd (Path.along dir q) = some r ∧ chain.reverse[q.length]? = some r) ∨
      q = below ∧ tree.locate cwd (Path.along dir below) = .error .nameTooLong := by
  cases h with
  | visited hv => exact .inl (way_visited hv hq)
  | tooLong hv h hdir hl hnew =>
    rcases List.prefix_concat_iff.1 hq with rfl | hq
    · exact .inr ⟨rfl, h.long⟩
    · obtain ⟨r, hr, hat⟩ := way_visited hv hq
      refine .inl ⟨r, hr, ?_⟩
      rw [List.reverse_cons, List.getElem?_append_left (by
        rw [List.length_reverse, length_visited hv]
        exact Nat.lt_succ_of_le hq.length_le)]
      exact hat

/-- A directory that is due is entered, unless its path is too long. -/
theorem located (h : Due tree cwd dir below chain) :
    (∃ real es, Visited tree cwd dir below chain ∧
      tree.locate cwd (Path.along dir below) = .ok ⟨real, .directory es⟩) ∨
    tree.locate cwd (Path.along dir below) = .error .nameTooLong := by
  cases h with
  | visited hv =>
    obtain ⟨real, es, hdir, -⟩ := hv.located
    exact .inl ⟨real, es, hv, hdir⟩
  | tooLong hv h hdir hl hnew =>
    exact .inr h.long

end Due

/-! ### A visit -/

/-- What a walk sees at an entry is what is seen below it if it is to be visited, and what is seen
of it otherwise. -/
theorem look_eq (tree : FileTree) (extname cwd dir : String)
    (down : List (List String) → List String → Except FileFault (List Sight)) (s : Stop)
    (entry : String × FileNode) :
    look tree extname cwd dir down s.chain s.below s.real entry =
      match s.entered? tree cwd dir entry with
      | some d => down d.2 d.1
      | none => .ok ((s.cycle? tree cwd dir entry).toList ++
          (s.template? tree extname cwd dir entry).toList) := by
  unfold look Stop.entered? Stop.cycle? Stop.template?
  cases leadOf tree cwd (Path.along dir s.below) s.real entry with
  | directory r => by_cases h : r ∈ s.chain <;> simp [h]
  | file => by_cases h : extname.toList.isSuffixOf entry.1.toList <;> simp [h]
  | nothing => rfl

theorem entered?_eq_some {s : Stop} {entry : String × FileNode}
    {d : List String × List (List String)} (h : s.entered? tree cwd dir entry = some d) :
    ∃ r, leadOf tree cwd (Path.along dir s.below) s.real entry = .directory r ∧ r ∉ s.chain ∧
      d = (s.below ++ [entry.1], r :: s.chain) := by
  unfold Stop.entered? at h
  split at h
  · rename_i r hr
    split at h
    · cases h
    · rename_i hnew
      cases h
      exact ⟨r, hr, by simpa using hnew, rfl⟩
  · cases h

/-- Of an entry that is to be visited, nothing is seen before. -/
theorem unseen_of_entered (extname : String) {s : Stop} {entry : String × FileNode}
    {d : List String × List (List String)} (h : s.entered? tree cwd dir entry = some d) :
    s.cycle? tree cwd dir entry = none ∧ s.template? tree extname cwd dir entry = none := by
  obtain ⟨r, hr, hnew, -⟩ := entered?_eq_some h
  unfold Stop.cycle? Stop.template?
  simp [hr, hnew]

/-- The entries to be visited are named after the directory and themselves. -/
theorem entered_sublist (tree : FileTree) (cwd dir : String) (s : Stop)
    (es : List (String × FileNode)) : ((es.filterMap (s.entered? tree cwd dir)).map (·.1)).Sublist
      (es.map fun e => s.below ++ [e.1]) := by
  induction es with
  | nil => exact List.Sublist.slnil
  | cons e es ih =>
    rw [List.filterMap_cons, List.map_cons]
    split
    · exact ih.cons _
    · rename_i d hd
      obtain ⟨r, -, -, rfl⟩ := entered?_eq_some hd
      exact ih.cons_cons _

/-- An entry that is to be visited is due. -/
theorem due_of_entered {s : Stop} (hv : Visited tree cwd dir s.below s.chain)
    (hdir : tree.locate cwd (Path.along dir s.below) = .ok ⟨s.real, .directory es⟩)
    (hname : isEntryName name = true) (hvisible : isHidden name = false)
    (hl : es.lookup name = some node) {d : List String × List (List String)}
    (h : s.entered? tree cwd dir (name, node) = some d) : Due tree cwd dir d.1 d.2 := by
  obtain ⟨r, hr, hnew, rfl⟩ := entered?_eq_some h
  rcases leadOf_cases hdir hname hl with
    hlead | ⟨⟨es', rfl⟩, hlong, hlead⟩
  · obtain ⟨es', hes'⟩ := Lead.of_eq_directory.1 (hlead.symm.trans hr)
    exact .visited (hv.down hname hvisible hes' hnew)
  · obtain rfl := Lead.directory.inj (hlead.symm.trans hr)
    exact .tooLong hv ⟨hname, hvisible, ⟨s.real, es, es', hdir, hl, hnew⟩, hlong⟩ hdir hl hnew

/-! ### What is kept from turn to turn -/

/-- Neither of two directories that are due lies behind the other. -/
def Apart (a b : List String) : Prop := ¬a <+: b ∧ ¬b <+: a

/-- **What every turn keeps.** No directory that is still to be visited lies behind another one, and
for each of them the record holds the chain that it is due with. -/
structure Charted (tree : FileTree) (cwd dir : String) (t : Tour) :
    Prop where
  apart : t.pending.Pairwise Apart
  recorded : ∀ below ∈ t.pending, ∃ chain,
    t.ancestors.lookup (Path.along dir below) = some chain ∧ Due tree cwd dir below chain

section

variable {s : Stop} (hrest : ∀ b ∈ rest, Apart s.below b)
  (hnames : ∀ c ∈ s.below, isEntryName c = true)
  (hlater : ∀ b ∈ rest, ∀ c ∈ b, isEntryName c = true) (hn : (es.map (·.1)).Nodup)
  (hentries : ∀ e ∈ es, isEntryName e.1 = true)

include hn in
theorem nodup_entered : ((es.filterMap (s.entered? tree cwd dir)).map (·.1)).Nodup := by
  refine List.Nodup.sublist (entered_sublist tree cwd dir s es) ?_
  have hmap : es.map (fun e => s.below ++ [e.1]) = (es.map (·.1)).map fun c => s.below ++ [c] := by
    rw [List.map_map]
    rfl
  rw [hmap]
  exact hn.map fun a b h => by simpa using h

theorem below_of_entered {d : List String × List (List String)}
    (hd : d ∈ es.filterMap (s.entered? tree cwd dir)) : ∃ e ∈ es, d.1 = s.below ++ [e.1] := by
  obtain ⟨e, he, h⟩ := List.mem_filterMap.1 hd
  obtain ⟨r, -, -, rfl⟩ := entered?_eq_some h
  exact ⟨e, he, rfl⟩

include hnames hentries in
theorem names_of_entered {d : List String × List (List String)}
    (hd : d ∈ es.filterMap (s.entered? tree cwd dir)) : ∀ c ∈ d.1, isEntryName c = true := by
  obtain ⟨e, he, hbelow⟩ := below_of_entered hd
  intro c hc
  rw [hbelow] at hc
  rcases List.mem_append.1 hc with hc | hc
  · exact hnames c hc
  · obtain rfl := List.mem_singleton.1 hc
    exact hentries e he

/-- What lies in a directory is apart from what was apart from it. -/
theorem apart_of_entered {d : List String × List (List String)} {b : List String}
    (hd : d ∈ es.filterMap (s.entered? tree cwd dir)) (hb : Apart s.below b) : Apart d.1 b := by
  obtain ⟨e, -, hbelow⟩ := below_of_entered hd
  rw [hbelow]
  refine ⟨fun h => hb.1 ((List.prefix_append _ _).trans h), fun h => ?_⟩
  rcases List.prefix_concat_iff.1 h with rfl | h
  · exact hb.1 (List.prefix_append _ _)
  · exact hb.2 h

include hn in
theorem pairwise_entered :
    ((es.filterMap (s.entered? tree cwd dir)).map (·.1)).Pairwise Apart := by
  have hlen : ∀ b ∈ (es.filterMap (s.entered? tree cwd dir)).map (·.1),
      b.length = s.below.length + 1 := by
    intro b hb
    obtain ⟨d, hd, rfl⟩ := List.mem_map.1 hb
    obtain ⟨e, -, hbelow⟩ := below_of_entered hd
    simp [hbelow]
  refine List.Pairwise.imp_of_mem (fun ha hb hne => ?_) (nodup_entered hn)
  have hsame := (hlen _ ha).trans (hlen _ hb).symm
  exact ⟨fun h => hne (h.eq_of_length hsame), fun h => hne (h.eq_of_length hsame.symm).symm⟩

include hnames hn hentries in
theorem nodup_paths : (((es.filterMap (s.entered? tree cwd dir)).map
    fun d => (Path.along dir d.1, d.2)).map Prod.fst).Nodup := by
  rw [List.map_map]
  have hmap : (es.filterMap (s.entered? tree cwd dir)).map
      (Prod.fst ∘ fun d => (Path.along dir d.1, d.2)) =
      ((es.filterMap (s.entered? tree cwd dir)).map (·.1)).map (Path.along dir) := by
    rw [List.map_map]
    rfl
  rw [hmap]
  refine (nodup_entered hn).map_on fun a ha b hb h => ?_
  obtain ⟨d, hd, rfl⟩ := List.mem_map.1 ha
  obtain ⟨d', hd', rfl⟩ := List.mem_map.1 hb
  exact along_inj (names_of_entered hnames hentries hd) (names_of_entered hnames hentries hd') h

include hnames hn hentries in
/-- The record has the chains of what is to be visited in the directory. -/
theorem lookup_entered {d : List String × List (List String)}
    (hd : d ∈ es.filterMap (s.entered? tree cwd dir)) :
    (t.visit tree extname cwd dir rest s es).ancestors.lookup (Path.along dir d.1) =
      some d.2 := by
  rw [Tour.visit, lookup_overlay (nodup_paths hnames hn hentries)]
  rw [lookup_of_mem (nodup_paths hnames hn hentries)
    (List.mem_map_of_mem (f := fun d => (Path.along dir d.1, d.2)) hd)]
  rfl

include hrest hnames hlater hn hentries in
/-- The record of what is visited later is left alone. -/
theorem lookup_later {b : List String} (hb : b ∈ rest) :
    (t.visit tree extname cwd dir rest s es).ancestors.lookup (Path.along dir b) =
      t.ancestors.lookup (Path.along dir b) := by
  have hself : Path.along dir b ≠ Path.along dir s.below := fun h =>
    (hrest b hb).1 (along_inj (hlater b hb) hnames h ▸ List.prefix_rfl)
  have hnone : ((es.filterMap (s.entered? tree cwd dir)).map
      fun d => (Path.along dir d.1, d.2)).lookup (Path.along dir b) = none := by
    refine lookup_eq_none_of_not_mem fun f hf he => ?_
    obtain ⟨d, hd, rfl⟩ := List.mem_map.1 hf
    have hbelow := along_inj (names_of_entered hnames hentries hd) (hlater b hb) he
    exact (apart_of_entered hd (hrest b hb)).1 (hbelow ▸ List.prefix_rfl)
  rw [Tour.visit, lookup_overlay (nodup_paths hnames hn hentries), hnone,
    lookup_filter (fun p => p ≠ Path.along dir s.below) (by simpa using hself)]
  rfl

end

/-! ### Turn after turn -/

/-- The visible entries of a directory are named, and looked up under their names. -/
theorem visible_entries (hwf : tree.WellFormed) {path : String}
    (hdir : tree.locate cwd path = .ok ⟨real, .directory es⟩) :
    ((es.filter fun entry => !isHidden entry.1).map (·.1)).Nodup ∧
      ∀ e ∈ es.filter fun entry => !isHidden entry.1,
        isEntryName e.1 = true ∧ isHidden e.1 = false ∧ es.lookup e.1 = some e.2 := by
  obtain ⟨hn, hnames⟩ := entries_of_located hwf hdir
  refine ⟨hn.sublist (List.filter_sublist.map _), fun e he => ?_⟩
  obtain ⟨he, hvisible⟩ := List.mem_filter.1 he
  exact ⟨hnames e he, by simpa using hvisible, lookup_of_mem hn he⟩

namespace Charted

/-- **A turn takes the chain of a directory from the record**, and the directory is visited with it,
unless its path is too long. -/
theorem turn_cases (extname : String) (h : Charted tree cwd dir t)
    (hp : t.pending = below :: rest) :
    ∃ chain, t.ancestors.lookup (Path.along dir below) = some chain ∧
      Due tree cwd dir below chain ∧
      ((∃ real es, Visited tree cwd dir below chain ∧
        tree.locate cwd (Path.along dir below) = .ok ⟨real, .directory es⟩ ∧
        Tour.turn tree extname cwd dir t = .ok (t.visit tree extname cwd dir rest
          ⟨below, real, chain⟩ (es.filter fun entry => !isHidden entry.1))) ∨
      (tree.locate cwd (Path.along dir below) = .error .nameTooLong ∧
        Tour.turn tree extname cwd dir t = .error (.unopened (tooLong dir below)))) := by
  obtain ⟨chain, hl, hdue⟩ := h.recorded below (by rw [hp]; exact List.mem_cons_self)
  refine ⟨chain, hl, hdue, ?_⟩
  rcases hdue.located with ⟨real, es, hv, hdir⟩ | hlong
  · exact .inl ⟨real, es, hv, hdir, by simp [Tour.turn, hp, hdir, hl, FileNode.entries]⟩
  · exact .inr ⟨hlong, by simp [Tour.turn, hp, hlong, tooLong]⟩

/-- What is visited later is apart from what is visited now, and found under its own path. -/
theorem later (h : Charted tree cwd dir t) (hp : t.pending = below :: rest) :
    (∀ b ∈ rest, Apart below b) ∧ rest.Pairwise Apart ∧
      ∀ b ∈ rest, ∀ c ∈ b, isEntryName c = true := by
  have hapart := h.apart
  rw [hp, List.pairwise_cons] at hapart
  refine ⟨hapart.1, hapart.2, fun b hb c hc => ?_⟩
  obtain ⟨chain', -, hdue⟩ := h.recorded b (by rw [hp]; exact List.mem_cons_of_mem _ hb)
  exact (hdue.names_spec c hc).1

section

variable {s : Stop} (hwf : tree.WellFormed) (h : Charted tree cwd dir t)
  (hp : t.pending = s.below :: rest) (hv : Visited tree cwd dir s.below s.chain)
  (hdir : tree.locate cwd (Path.along dir s.below) = .ok ⟨s.real, .directory es⟩)

include hwf hv hdir

/-- The record of a visit has the chains of what is to be visited in the directory. -/
theorem lookup_visit {d : List String × List (List String)}
    (hd : d ∈ (es.filter fun entry => !isHidden entry.1).filterMap (s.entered? tree cwd dir)) :
    (t.visit tree extname cwd dir rest s
      (es.filter fun entry => !isHidden entry.1)).ancestors.lookup (Path.along dir d.1) =
        some d.2 := by
  obtain ⟨hn, hentries⟩ := visible_entries hwf hdir
  exact lookup_entered (fun c hc => (hv.names_spec c hc).1) hn (fun e he => (hentries e he).1) hd

include h hp

/-- The record of a visit has the chains of what is visited later as before. -/
theorem lookup_visit_later {b : List String} (hb : b ∈ rest) :
    (t.visit tree extname cwd dir rest s
      (es.filter fun entry => !isHidden entry.1)).ancestors.lookup (Path.along dir b) =
        t.ancestors.lookup (Path.along dir b) := by
  obtain ⟨hn, hentries⟩ := visible_entries hwf hdir
  obtain ⟨hapart, -, hlater⟩ := h.later hp
  exact lookup_later hapart (fun c hc => (hv.names_spec c hc).1) hlater hn
    (fun e he => (hentries e he).1) hb

/-- **A visit keeps the chart.** What is to be visited in the directory is due with the chains that
are put into the record, and the chains of what is visited later are left there. -/
theorem visit (extname : String) : Charted tree cwd dir
    (t.visit tree extname cwd dir rest s (es.filter fun entry => !isHidden entry.1)) := by
  obtain ⟨hn, hentries⟩ := visible_entries hwf hdir
  obtain ⟨hapart, hrest, -⟩ := h.later hp
  constructor
  · refine List.pairwise_append.2 ⟨pairwise_entered hn, hrest, fun a ha b hb => ?_⟩
    obtain ⟨d, hd, rfl⟩ := List.mem_map.1 ha
    exact apart_of_entered hd (hapart b hb)
  · intro b hb
    rcases List.mem_append.1 hb with hb | hb
    · obtain ⟨d, hd, rfl⟩ := List.mem_map.1 hb
      refine ⟨d.2, lookup_visit hwf hv hdir hd, ?_⟩
      obtain ⟨e, he, hd⟩ := List.mem_filterMap.1 hd
      obtain ⟨hname, hvisible, hl⟩ := hentries e he
      exact due_of_entered hv hdir hname hvisible hl hd
    · obtain ⟨chain', hl, hdue⟩ := h.recorded b (by rw [hp]; exact List.mem_cons_of_mem _ hb)
      exact ⟨chain', (lookup_visit_later hwf h hp hv hdir hb).trans hl, hdue⟩

end

/-- **A turn keeps the chart**, and a chain that it needs is in the record. -/
theorem turn (hwf : tree.WellFormed) (extname : String)
    (h : Charted tree cwd dir t) :
    (∀ t', Tour.turn tree extname cwd dir t = .ok t' → Charted tree cwd dir t') ∧
      ∀ path, Tour.turn tree extname cwd dir t ≠ .error (.unrecorded path) := by
  cases hp : t.pending with
  | nil =>
    have hturn : Tour.turn tree extname cwd dir t = .ok t := by rw [Tour.turn, hp]
    rw [hturn]
    exact ⟨fun t' ht => Except.ok.inj ht ▸ h, fun path hf => nomatch hf⟩
  | cons below rest =>
    obtain ⟨chain, -, -, ⟨real, es, hv, hdir, hturn⟩ | ⟨-, hturn⟩⟩ :=
      h.turn_cases extname hp
    · rw [hturn]
      have hnext := visit (s := ⟨below, real, chain⟩) hwf h hp hv hdir extname
      exact ⟨fun t' ht => Except.ok.inj ht ▸ hnext, fun path hf => nomatch hf⟩
    · rw [hturn]
      exact ⟨fun t' ht => (nomatch ht), fun path hf => nomatch hf⟩

/-- **What every turn keeps, all turns keep.** -/
theorem after (hwf : tree.WellFormed) (extname : String)
    (h : Charted tree cwd dir t) (n : Nat) :
    (∀ t', Tour.after tree extname cwd dir n t = .ok t' → Charted tree cwd dir t') ∧
      ∀ path, Tour.after tree extname cwd dir n t ≠ .error (.unrecorded path) := by
  induction n generalizing t with
  | zero => exact ⟨fun t' ht => Except.ok.inj ht ▸ h, fun path hf => nomatch hf⟩
  | succ n ih =>
    obtain ⟨hok, herror⟩ := h.turn hwf extname
    rw [Tour.after]
    cases hturn : Tour.turn tree extname cwd dir t with
    | ok t' => exact ih (hok t' hturn)
    | error f =>
      refine ⟨fun t' ht => (nomatch ht), fun path hf => herror path ?_⟩
      rw [hturn]
      exact hf

end Charted

end CachedViews
