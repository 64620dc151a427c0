import CachedViews.Proofs.FileTree.Following
import CachedViews.Proofs.Path.Canonical
import Mathlib.Data.String.Basic

/-
# Paths along names

A walk makes the path of a directory that it comes upon from the path of the directory it is in,
joined with the name. From one start, different names make different paths (`along_inj`), so what
is kept for each directory can be kept under its path. Cut at its slashes, a path behind a
directory gives the pieces of the directory and then its own (`Components.splitOn_join`).

Key definitions: `Components.slashed`.
Key theorems: `along_eq_join`, `along_inj`, `Components.splitOn_join`, `size_along_append`.
-/

namespace CachedViews

open CachedViews.Text

variable {dir : String} {names more : List String}

theorem along_concat (dir : String) (names : List String) (name : String) :
    Path.along dir (names ++ [name]) = Path.join (Path.along dir names) name :=
  List.foldl_concat ..

theorem along_append (dir : String) (names more : List String) :
    Path.along dir (names ++ more) = Path.along (Path.along dir names) more :=
  List.foldl_append

/-! ### Joining -/

/-- What is joined is at the end. -/
theorem suffix_join (a b : List Char) : b <:+ Components.join a b := by
  unfold Components.join
  split
  · exact List.suffix_rfl
  · split
    · exact List.suffix_append a b
    · exact (List.suffix_cons '/' b).trans (List.suffix_append a _)

namespace Components

variable {a b c : List Char}

/-- A directory with a slash at its end. -/
def slashed (a : List Char) : List Char :=
  if a = [] ∨ a.getLast? = some '/' then a else a ++ ['/']

theorem join_eq_slashed (hb : isAbsolute b = false) (a : List Char) :
    join a b = slashed a ++ b := by
  rw [join, if_neg (by simp [hb]), slashed]
  split <;> simp

theorem slashed_append (hb : b ≠ []) (a : List Char) : slashed (a ++ b) = a ++ slashed b := by
  have hlast : (a ++ b).getLast? = b.getLast? := List.getLast?_append_of_ne_nil a hb
  unfold slashed
  rw [hlast]
  split <;> simp_all

@[simp] theorem slashed_slashed (a : List Char) : slashed (slashed a) = slashed a := by
  unfold slashed
  split
  · rfl
  · simp

/-- What is behind a directory behind another one is behind both. -/
theorem join_join (hc : isAbsolute c = false) (hb : b ≠ []) (a : List Char) :
    join a (join b c) = join (join a b) c := by
  cases hdir : isAbsolute b with
  | true =>
    rw [join.eq_1 a (join b c), if_pos (isAbsolute_join_left hdir c), join.eq_1 a b, if_pos hdir]
  | false =>
    have hbc : isAbsolute (join b c) = false := by rw [isAbsolute_join hc hb, hdir]
    rw [join_eq_slashed hbc, join_eq_slashed hc, join_eq_slashed hc, join_eq_slashed hdir,
      slashed_append hb, List.append_assoc]

/-- The pieces of a path behind a directory are those of the directory, without the empty one
that a slash at its end leaves, and those of the path. -/
theorem splitOn_join (ha : a ≠ []) :
    ∃ ps, ps ≠ [] ∧ (splitOn '/' a = ps ∨ splitOn '/' a = ps ++ [[]]) ∧
      ∀ b, isAbsolute b = false → splitOn '/' (join a b) = ps ++ splitOn '/' b := by
  by_cases hlast : a.getLast? = some '/'
  · obtain ⟨s, rfl⟩ := List.getLast?_eq_some_iff.1 hlast
    refine ⟨splitOn '/' s, splitOn_ne_nil '/' s, .inr (splitOn_append ..), fun b hb => ?_⟩
    rw [join, if_neg (by simp [hb]), if_pos (.inr hlast), List.append_assoc,
      List.singleton_append, splitOn_append]
  · refine ⟨splitOn '/' a, splitOn_ne_nil '/' a, .inl rfl, fun b hb => ?_⟩
    rw [join, if_neg (by simp [hb]), if_neg (not_or.2 ⟨ha, hlast⟩), splitOn_append]

end Components

/-- Behind one directory, different paths that start at no root make different paths. -/
theorem join_inj {a b c : List Char} (hb : Components.isAbsolute b = false)
    (hc : Components.isAbsolute c = false) (h : Components.join a b = Components.join a c) :
    b = c := by
  rw [Components.join_eq_slashed hb, Components.join_eq_slashed hc] at h
  exact List.append_cancel_left h

theorem length_lt_join {a b : List Char} (hnil : b ≠ []) (hb : Components.isAbsolute b = false) :
    a.length < (Components.join a b).length := by
  have hpos := List.length_pos_iff.2 hnil
  simp only [Components.join, hb, Bool.false_eq_true, if_false]
  split
  · rw [List.length_append]
    omega
  · rw [List.length_append, List.length_cons]
    omega

theorem join_ne (hdir : dir ≠ "") (b : String) : Path.join dir b ≠ "" := by
  intro h
  have hnil : Components.join dir.toList b.toList = [] := by
    rw [← String.toList_ofList (l := Components.join dir.toList b.toList)]
    exact congrArg String.toList h
  rw [Components.join] at hnil
  split at hnil
  · rename_i habs
    rw [hnil] at habs
    exact absurd habs (by decide)
  · split at hnil
    · exact hdir (String.toList_eq_nil_iff.1 (List.append_eq_nil_iff.1 hnil).1)
    · exact absurd (List.append_eq_nil_iff.1 hnil).2 (List.cons_ne_nil _ _)

theorem along_ne (hdir : dir ≠ "") (names : List String) : Path.along dir names ≠ "" := by
  induction names using List.reverseRecOn with
  | nil => exact hdir
  | append_singleton names name ih => rw [along_concat]; exact join_ne ih name

/-- A path behind a directory is the directory with a slash at its end, and the path. -/
theorem join_eq_append {b : String} (hb : Path.isAbsolute b = false) (a : String) :
    Path.join a b = String.ofList (Components.slashed a.toList) ++ b := by
  rw [Path.join, Components.join_eq_slashed hb]
  simp

/-- A path behind a directory is no shorter than the directory. -/
theorem size_le_join {b : String} (hb : Path.isAbsolute b = false) (a : String) :
    a.utf8ByteSize ≤ (Path.join a b).utf8ByteSize := by
  have hle : ∃ s, Components.slashed a.toList = a.toList ++ s := by
    unfold Components.slashed
    split
    · exact ⟨[], (List.append_nil _).symm⟩
    · exact ⟨['/'], rfl⟩
  obtain ⟨s, hs⟩ := hle
  rw [join_eq_append hb, hs]
  simp only [String.utf8ByteSize_append, String.ofList_append, String.ofList_toList]
  omega

/-! ### Names with slashes between them -/

theorem relative_of_not_slash {c : String} (h : '/' ∉ c.toList) : Path.isAbsolute c = false := by
  rw [Path.isAbsolute]
  cases hc : c.toList with
  | nil => rfl
  | cons d cs =>
    rw [hc] at h
    rw [Components.isAbsolute_cons, decide_eq_false_iff_not]
    rintro rfl
    exact h List.mem_cons_self

theorem relative_of_isEntryName {c : String} (h : isEntryName c = true) :
    c.toList ≠ [] ∧ Components.isAbsolute c.toList = false := by
  have hne : c ≠ "" := by
    rintro rfl
    exact absurd h (by decide)
  exact ⟨fun hn => hne (String.toList_eq_nil_iff.1 hn),
    relative_of_not_slash (not_slash_of_isEntryName h)⟩

/-- Names with slashes between them make a path that starts at no root. -/
theorem relative_intercalate (hne : names ≠ []) (hn : ∀ c ∈ names, isEntryName c = true) :
    (String.intercalate "/" names).toList ≠ [] ∧
      Components.isAbsolute (String.intercalate "/" names).toList = false := by
  cases names with
  | nil => exact absurd rfl hne
  | cons c names =>
    obtain ⟨hnil, habs⟩ := relative_of_isEntryName (hn c List.mem_cons_self)
    cases names with
    | nil =>
      rw [String.intercalate_singleton]
      exact ⟨hnil, habs⟩
    | cons d names =>
      rw [String.intercalate_cons_cons]
      simp only [String.toList_append, List.append_assoc]
      cases hc : c.toList with
      | nil => exact absurd hc hnil
      | cons x cs =>
        rw [hc] at habs
        refine ⟨List.cons_ne_nil _ _, ?_⟩
        rwa [List.cons_append, Components.isAbsolute_cons, ← Components.isAbsolute_cons x cs]

/-- They do not end with a slash either. -/
theorem getLast?_intercalate (hne : names ≠ []) (hn : ∀ c ∈ names, isEntryName c = true) :
    (String.intercalate "/" names).toList.getLast? ≠ some '/' := by
  obtain ⟨up, c, rfl⟩ := (List.eq_nil_or_concat names).resolve_left hne
  rw [List.concat_eq_append] at hn ⊢
  have hc := hn c (List.mem_append_right _ List.mem_cons_self)
  have hend : c.toList <:+ (String.intercalate "/" (up ++ [c])).toList := by
    by_cases hup : up = []
    · simp [hup]
    · rw [String.intercalate_append_of_ne_nil hup (List.cons_ne_nil _ _)]
      simp only [String.toList_append, String.intercalate_singleton]
      exact List.suffix_append _ _
  obtain ⟨before, hbefore⟩ := hend
  rw [← hbefore, List.getLast?_append_of_ne_nil _ (relative_of_isEntryName hc).1]
  exact fun h => not_slash_of_isEntryName hc (List.mem_of_getLast? h)

/-- The pieces of names with slashes between them are the names. -/
theorem splitOn_intercalate (hs : ∀ c ∈ names, '/' ∉ c.toList) (hne : names ≠ []) :
    splitOn '/' (String.intercalate "/" names).toList = names.map String.toList := by
  rw [Path.toList_intercalate_slash,
    Components.splitOn_joinWith (by simpa using hs) (by simpa using hne)]

theorem intercalate_inj {a b : List String} (ha : ∀ c ∈ a, '/' ∉ c.toList)
    (hb : ∀ c ∈ b, '/' ∉ c.toList) (hane : a ≠ []) (hbne : b ≠ [])
    (h : String.intercalate "/" a = String.intercalate "/" b) : a = b := by
  have hsplit : ∀ l : List String, (∀ c ∈ l, '/' ∉ c.toList) → l ≠ [] →
      (((String.intercalate "/" l).split '/').toList).map (·.copy) = l := fun l hl hne =>
    (String.toList_split_intercalate hl).trans (if_neg hne)
  rw [← hsplit a ha hane, h, hsplit b hb hbne]

/-! ### Along names -/

/-- A path along names is the start joined with all of them at once. -/
theorem along_eq_join (hne : names ≠ []) (hn : ∀ c ∈ names, isEntryName c = true) :
    Path.along dir names = Path.join dir (String.intercalate "/" names) := by
  induction names using List.reverseRecOn with
  | nil => exact absurd rfl hne
  | append_singleton up c ih =>
    rw [along_concat]
    have hup : ∀ d ∈ up, isEntryName d = true := fun d hd => hn d (List.mem_append_left _ hd)
    have hc := hn c (List.mem_append_right _ List.mem_cons_self)
    by_cases hnil : up = []
    · subst hnil
      simp [Path.along]
    · obtain ⟨hx, hrel⟩ := relative_intercalate hnil hup
      have hlast := getLast?_intercalate hnil hup
      rw [ih hnil hup, Path.join, Path.join, Path.join, String.toList_ofList,
        ← Components.join_join (relative_of_isEntryName hc).2 hx,
        String.intercalate_append_of_ne_nil hnil (List.cons_ne_nil _ _)]
      congr 2
      rw [Components.join, (relative_of_isEntryName hc).2, if_neg (by decide),
        if_neg (not_or.2 ⟨hx, hlast⟩)]
      simp

/-- Empty names before the last one make no other path. -/
theorem along_filter (hs : ∀ c ∈ names, '/' ∉ c.toList) {name : String}
    (hname : '/' ∉ name.toList) (dir : String) :
    Path.along dir (names.filter (· ≠ "") ++ [name]) = Path.along dir (names ++ [name]) := by
  have hblank : ∀ (dir d : String) (more : List String), '/' ∉ d.toList →
      Path.along (Path.join dir "") (d :: more) = Path.along dir (d :: more) := by
    intro dir d more hd
    have hempty : Path.isAbsolute "" = false := rfl
    rw [Path.along, List.foldl_cons, join_eq_append (relative_of_not_slash hd),
      join_eq_append hempty, Path.along, List.foldl_cons, join_eq_append (relative_of_not_slash hd)]
    simp
  induction names generalizing dir with
  | nil => rfl
  | cons c names ih =>
    have ih := ih fun d hd => hs d (List.mem_cons_of_mem c hd)
    by_cases hc : c = ""
    · subst hc
      rw [List.filter_cons_of_neg (by simp), ih]
      cases names with
      | nil => exact (hblank dir name [] hname).symm
      | cons d names => exact (hblank dir d (names ++ [name]) (hs d (by simp))).symm
    · rw [List.filter_cons_of_pos (by simpa using hc)]
      exact ih (Path.join dir c)

/-- Names behind names make a path no longer than with others between them. -/
theorem size_along_append (hn : ∀ c ∈ names, isEntryName c = true)
    (hm : ∀ c ∈ more, isEntryName c = true) (hne : more ≠ []) (dir : String) :
    (Path.along dir more).utf8ByteSize ≤ (Path.along dir (names ++ more)).utf8ByteSize := by
  by_cases hnil : names = []
  · rw [hnil, List.nil_append]
  · have hboth : ∀ c ∈ names ++ more, isEntryName c = true := fun c hc =>
      (List.mem_append.1 hc).elim (hn c) (hm c)
    have hne' : names ++ more ≠ [] := List.append_ne_nil_of_left_ne_nil hnil more
    rw [along_eq_join hne hm, along_eq_join hne' hboth,
      join_eq_append (relative_intercalate hne hm).2,
      join_eq_append (relative_intercalate hne' hboth).2,
      String.intercalate_append_of_ne_nil hnil hne]
    simp only [String.utf8ByteSize_append]
    omega

/-- **Different names make different paths.** -/
theorem along_inj (hn : ∀ c ∈ names, isEntryName c = true) (hm : ∀ c ∈ more, isEntryName c = true)
    (h : Path.along dir names = Path.along dir more) : names = more := by
  have hlonger : ∀ ns : List String, ns ≠ [] → (∀ c ∈ ns, isEntryName c = true) →
      dir ≠ Path.along dir ns := by
    intro ns hne hns he
    obtain ⟨hnil, habs⟩ := relative_intercalate hne hns
    rw [along_eq_join hne hns, Path.join] at he
    have hlt := length_lt_join (a := dir.toList) hnil habs
    have hlen := congrArg (fun s => s.toList.length) he
    rw [String.toList_ofList] at hlen
    omega
  by_cases hnames : names = []
  · subst hnames
    by_cases hmore : more = []
    · exact hmore.symm
    · exact absurd h (hlonger more hmore hm)
  · by_cases hmore : more = []
    · subst hmore
      exact absurd h.symm (hlonger names hnames hn)
    · rw [along_eq_join hnames hn, along_eq_join hmore hm, Path.join, Path.join,
        String.ofList_inj] at h
      exact intercalate_inj (fun c hc => not_slash_of_isEntryName (hn c hc))
        (fun c hc => not_slash_of_isEntryName (hm c hc)) hnames hmore (String.toList_injective
          (join_inj (relative_intercalate hnames hn).2 (relative_intercalate hmore hm).2 h))

end CachedViews
