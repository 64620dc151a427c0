import CachedViews.Proofs.Listing.Tour

/-
# The turns of a walk come to an end

A directory may be visited under many names, so the measure of a walk is not how many directories
have been seen. It is how many are not yet on the chain: the real paths of a chain are distinct,
and those of directories of the tree. So what is to be visited below a directory is visited in
finitely many turns, and it is what is seen when the directory is descended into
(`Charted.ends`). When nothing is left to visit, what was seen is what `walk` lists
(`walk_terminates`).

Key definitions: `Tour.Ends`, `Ancestry`.
Key theorems: `Charted.ends_sightsAt`, `Charted.ends`, `walk_terminates`.
-/

namespace CachedViews

open CachedViews.FileTree

variable {tree : FileTree} {cwd dir extname : String} {below : List String}
  {chain : List (List String)} {es : List (String × FileNode)} {t t' : Tour}
  {rest : List (List String)} {noted seen : List Sight} {n : Nat}

/-! ### Turns until the rest -/

theorem after_add (n m : Nat) (t : Tour) : Tour.after tree extname cwd dir (n + m) t =
    (Tour.after tree extname cwd dir n t).bind (Tour.after tree extname cwd dir m) := by
  induction n generalizing t with
  | zero => rw [Nat.zero_add]; rfl
  | succ n ih =>
    rw [Nat.add_right_comm, Tour.after, Tour.after]
    cases Tour.turn tree extname cwd dir t with
    | error f => rfl
    | ok t' => exact ih t'

/-- Some turns from a tour come to where `rest` is still to be visited, with its chains in the
record as before, or to the fault. What is seen has been noted then, some of it before. -/
inductive Tour.Ends (tree : FileTree) (extname cwd dir : String) (t : Tour)
    (rest : List (List String)) (noted : List Sight) : Except FileFault (List Sight) → Prop
  | done {n : Nat} {t' : Tour} {seen : List Sight}
      (h : Tour.after tree extname cwd dir n t = .ok t') (hrest : t'.pending = rest)
      (hkept : ∀ b ∈ rest, t'.ancestors.lookup (Path.along dir b) =
        t.ancestors.lookup (Path.along dir b))
      (hseen : (t'.sights ++ noted).Perm (t.sights ++ seen)) : Ends tree extname cwd dir t rest
        noted (.ok seen)
  | stuck {n : Nat} {f : FileFault}
      (h : Tour.after tree extname cwd dir n t = .error (.unopened f)) :
      Ends tree extname cwd dir t rest noted (.error f)

/-- What is seen of a first entry is noted with what is seen of the others. -/
theorem seen_cons (tree : FileTree) (extname cwd dir : String) (s : Stop)
    (e : String × FileNode) (es : List (String × FileNode)) :
    (s.seen tree extname cwd dir (e :: es)).Perm
      ((s.cycle? tree cwd dir e).toList ++ (s.template? tree extname cwd dir e).toList ++
        s.seen tree extname cwd dir es) := by
  have hcons : ∀ f : String × FileNode → Option Sight,
      (e :: es).filterMap f = (f e).toList ++ es.filterMap f := by
    intro f
    rw [List.filterMap_cons]
    cases f e <;> rfl
  rw [Stop.seen, Stop.seen, hcons, hcons]
  simp only [List.append_assoc]
  exact (List.perm_append_comm_assoc ..).append_left _

namespace Charted

/-- Below the entries of a directory, turn after turn comes to what is seen at them. -/
theorem ends_sightsAt (hwf : tree.WellFormed) {s : Stop}
    {down : List (List String) → List String → Except FileFault (List Sight)}
    (hdown : ∀ t below chain rest, Charted tree cwd dir t → t.pending = below :: rest →
      t.ancestors.lookup (Path.along dir below) = some chain →
      chain.length = s.chain.length + 1 →
      Tour.Ends tree extname cwd dir t rest [] (down chain below))
    (h : Charted tree cwd dir t)
    (hp : t.pending = (es.filterMap (s.entered? tree cwd dir)).map (·.1) ++ rest)
    (hl : ∀ d ∈ es.filterMap (s.entered? tree cwd dir),
      t.ancestors.lookup (Path.along dir d.1) = some d.2) :
    Tour.Ends tree extname cwd dir t rest (s.seen tree extname cwd dir es)
      (sightsAt (look tree extname cwd dir down s.chain s.below s.real) es) := by
  induction es generalizing t with
  | nil => exact .done (n := 0) rfl hp (fun _ _ => rfl) (List.Perm.refl _)
  | cons e es ih =>
    rw [sightsAt, look_eq]
    cases he : s.entered? tree cwd dir e with
    | none =>
      rw [List.filterMap_cons_none he] at hp hl
      have hes := ih h hp hl
      generalize sightsAt _ es = result at hes
      cases hes with
      | stuck hn => exact .stuck hn
      | done hn hrest hkept hseen =>
        refine .done hn hrest hkept (((seen_cons tree extname cwd dir s e es).append_left _).trans ?_)
        exact (List.perm_append_comm_assoc ..).trans
          ((hseen.append_left _).trans (List.perm_append_comm_assoc ..))
    | some d =>
      obtain ⟨hcycle, htemplate⟩ := unseen_of_entered extname he
      rw [List.filterMap_cons_some he] at hp hl
      obtain ⟨r, -, -, rfl⟩ := entered?_eq_some he
      have hfirst := hdown t _ _ _ h hp (hl _ List.mem_cons_self) (List.length_cons ..)
      simp only
      generalize down (r :: s.chain) (s.below ++ [e.1]) = first at hfirst
      cases hfirst with
      | stuck hn => exact .stuck hn
      | @done n t₁ part hn hrest hkept hseen =>
        have hes := ih ((h.after hwf extname n).1 t₁ hn) hrest fun d hd =>
          (hkept _ (List.mem_append_left _ (List.mem_map_of_mem hd))).trans
            (hl d (List.mem_cons_of_mem _ hd))
        generalize sightsAt _ es = result at hes
        cases hes with
        | @stuck m f hm => exact .stuck (n := n + m) (by rw [after_add, hn]; exact hm)
        | @done m t₂ others hm hrest' hkept' hseen' =>
          refine .done (n := n + m) (by rw [after_add, hn]; exact hm) hrest' (fun b hb => ?_) ?_
          · exact (hkept' b hb).trans (hkept b (List.mem_append_right _ hb))
          · have hnone := seen_cons tree extname cwd dir s e es
            rw [hcycle, htemplate] at hnone
            rw [List.append_nil] at hseen
            refine (hnone.append_left _).trans (hseen'.trans ?_)
            rw [← List.append_assoc]
            exact hseen.append_right _

/-- **Turn after turn comes to what is seen below a directory.** The induction is on how many
directories of the tree are not on the chain. -/
theorem ends (hwf : tree.WellFormed) {fuel : Nat}
    (h : Charted tree cwd dir t) (hp : t.pending = below :: rest)
    (hl : t.ancestors.lookup (Path.along dir below) = some chain)
    (hf : fuel + chain.length = tree.root.directoryCount + 2) :
    Tour.Ends tree extname cwd dir t rest [] (descend tree extname cwd dir fuel chain below) := by
  induction fuel generalizing t below chain rest with
  | zero =>
    obtain ⟨chain', hl', hdue, -⟩ := h.turn_cases extname hp
    obtain rfl := Option.some.inj (hl.symm.trans hl')
    have := hdue.length_le
    omega
  | succ fuel ih =>
    obtain ⟨chain', hl', hdue, hcases⟩ := h.turn_cases extname hp
    obtain rfl := Option.some.inj (hl.symm.trans hl')
    rcases hcases with ⟨real, es, hv, hdir, hturn⟩ | ⟨hlong, hturn⟩
    · let s : Stop := ⟨below, real, chain⟩
      rw [descend_of_located fuel chain hdir]
      have hends := ends_sightsAt (s := s) hwf
        (fun t' below' chain' rest' h' hp' hl' hlen => ih h' hp' hl' (by
          have hlen : chain'.length = chain.length + 1 := hlen
          omega)) (visit (s := s) hwf h hp hv hdir extname) rfl
        fun d hd => lookup_visit (s := s) hwf hv hdir hd
      generalize sightsAt _ _ = result at hends
      cases hends with
      | @stuck n f hn' => exact .stuck (n := n + 1) (by rw [Tour.after, hturn]; exact hn')
      | @done n t' seen hn' hrest hkept hseen =>
        refine .done (n := n + 1) (by rw [Tour.after, hturn]; exact hn') hrest (fun b hb => ?_) ?_
        · exact (hkept b hb).trans (lookup_visit_later (s := s) hwf h hp hv hdir hb)
        · rw [List.append_nil]
          refine (List.perm_append_right_iff _).1 (hseen.trans ?_)
          simp only [Tour.visit, List.append_assoc]
          exact (List.perm_append_comm).append_left _
    · have hdescend : descend tree extname cwd dir (fuel + 1) chain below =
          .error (tooLong dir below) := by simp [descend, hlong, tooLong]
      rw [hdescend]
      exact .stuck (n := 1) (by rw [Tour.after, hturn]; rfl)

end Charted

/-! ### What is listed in the end -/

/-- The order in which things are seen is not that of the list. -/
theorem templatePaths_of_perm {sights sights' : List Sight} (h : sights.Perm sights') :
    templatePaths sights = templatePaths sights' := by
  refine List.Perm.eq_of_pairwise (fun a b _ _ hab hba => ?_) (sorted_templatePaths sights)
    (sorted_templatePaths sights') ?_
  · simp only [Bool.not_eq_true', decide_eq_false_iff_not, not_lt] at hab hba
    exact le_antisymm hab hba
  · rw [templatePaths_eq, templatePaths_eq]
    exact (List.mergeSort_perm _ _).trans
      (((h.filterMap _).map _).trans (List.mergeSort_perm _ _).symm)

/-- **The chain of a directory.** It has a real path for each directory on the way to the names
below `dir`, in order from its end, all of them distinct and those of directories of the tree. So
it is no longer than there are directories. The last one on the way may have too long a path. -/
structure Ancestry (tree : FileTree) (cwd dir : String) (below : List String)
    (chain : List (List String)) : Prop where
  distinct : chain.Nodup
  directories : ∀ real ∈ chain, real ∈ tree.root.directories
  bounded : chain.length ≤ tree.root.directoryCount
  length : chain.length = below.length + 1
  way : ∀ q, q <+: below →
    (∃ real, tree.realDirectory? cwd (Path.along dir q) = some real ∧
      chain.reverse[q.length]? = some real) ∨
    q = below ∧ tree.locate cwd (Path.along dir below) = .error .nameTooLong

theorem Due.ancestry (h : Due tree cwd dir below chain) : Ancestry tree cwd dir below chain where
  distinct := h.chain_spec.1
  directories := h.chain_spec.2
  bounded := h.length_le
  length := h.length_eq
  way := fun _ hq => h.way hq

/-- **A walk terminates.** In any tree with any links, a walk of a directory takes finitely many
turns. Whenever a directory is to be visited there is a chain for it in the record, with distinct
real paths, and no longer than there are directories in the tree. In the end nothing is left to
visit and the templates and links that were noted are those of the listing, or a directory has
too long a path to be opened. -/
theorem walk_terminates (hwf : tree.WellFormed) (hdir : tree.isDirectory cwd dir = true)
    (extname : String) : ∃ real, tree.realDirectory? cwd dir = some real ∧
    let turns := fun n => Tour.after tree extname cwd dir n (Tour.start dir real)
    (∀ n t, turns n = .ok t → ∀ below ∈ t.pending, ∃ chain,
      t.ancestors.lookup (Path.along dir below) = some chain ∧
        Ancestry tree cwd dir below chain) ∧
    (∀ n path, turns n ≠ .error (.unrecorded path)) ∧
    ∃ n, (∃ t l, turns n = .ok t ∧ t.pending = [] ∧ walk tree cwd dir extname = .ok l ∧
        l.paths = templatePaths t.sights ∧ l.cycles.Perm (cyclePaths dir t.sights)) ∨
      ∃ f, turns n = .error (.unopened f) ∧ walk tree cwd dir extname = .error f := by
  obtain ⟨real, es, hloc⟩ := located_of_isDirectory hdir
  have hstart : Charted tree cwd dir (Tour.start dir real) := {
    apart := List.pairwise_singleton _ _
    recorded := fun below hb => by
      obtain rfl := List.mem_singleton.1 hb
      exact ⟨[real], List.lookup_cons_self, .visited (.start hloc)⟩ }
  refine ⟨real, realDirectory?_eq_some.2 ⟨es, hloc⟩, fun n t ht below hb => ?_,
    fun n => (hstart.after hwf extname n).2, ?_⟩
  · obtain ⟨chain, hl, hdue⟩ := ((hstart.after hwf extname n).1 t ht).recorded below hb
    exact ⟨chain, hl, hdue.ancestry⟩
  · have hends : Tour.Ends tree extname cwd dir (Tour.start dir real) [] []
        (descend tree extname cwd dir (tree.root.directoryCount + 1) [real] []) :=
      hstart.ends hwf rfl List.lookup_cons_self rfl
    rw [walk_eq hdir hloc]
    generalize descend tree extname cwd dir _ _ _ = result at hends
    cases hends with
    | @stuck n f hn => exact ⟨n, .inr ⟨f, hn, rfl⟩⟩
    | @done n t seen hn hrest hkept hseen =>
      rw [List.append_nil, Tour.start, List.nil_append] at hseen
      exact ⟨n, .inl ⟨t, _, hn, hrest, rfl, templatePaths_of_perm hseen.symm,
        hseen.symm.filterMap _⟩⟩

/-- In `loopedTree` the directory `s` is visited below `d`, and not again behind its links. -/
theorem walk_terminates_looped : ∃ real, loopedTree.realDirectory? "/" "d" = some real ∧
    ∃ n t l, Tour.after loopedTree ".html" "/" "d" n (Tour.start "d" real) = .ok t ∧
      t.pending = [] ∧ walk loopedTree "/" "d" ".html" = .ok l ∧
      l.paths = templatePaths t.sights := by
  have hwf : loopedTree.WellFormed := by decide +kernel
  have hdir : loopedTree.isDirectory "/" "d" = true := by decide +kernel
  obtain ⟨real, hreal, -, -, n, ⟨t, l, hn, hp, hl, hpaths, -⟩ | ⟨f, -, hf⟩⟩ :=
    walk_terminates hwf hdir ".html"
  · exact ⟨real, hreal, n, t, l, hn, hp, hl, hpaths⟩
  · obtain ⟨l, hl⟩ := exists_walk_looped
    cases hl.symm.trans hf

end CachedViews
