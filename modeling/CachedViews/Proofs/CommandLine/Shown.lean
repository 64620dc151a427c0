import CachedViews.Proofs.CommandLine.Escaping

/-
# What is shown of tables

The cells of a table are marked-up texts. A plain cell, in which no bracket opens, is shown as it is
(`Console.Plain.shown_eq`). In any other one there may be a tag that closes nothing, or one with
parameters that cannot be read, and what fails then fails with a fault of the markup
(`Console.kind_of_shown`). A table is shown exactly if all of its cells can be
(`CommandLine.Table.shown_succeeds_iff`).

Not covered: the width of a console, which cuts or wraps what is wider. Names between colons, which
stand for pictures, are not plain.

Key definitions: `Console.Showable`, `Console.Plain`.
Key theorems: `Console.Plain.shown_eq`, `Console.kind_of_shown`,
`CommandLine.Table.shown_succeeds_iff`, `CommandLine.Table.shown_plain`.
-/

namespace CachedViews

namespace Console

variable {look : Look} {f : Fault}

/-- A marked-up text can be shown. -/
def Showable (look : Look) (s : String) : Prop := ∃ seen, shown look s = .ok seen

/-- In a text no bracket opens and no colon stands, and nothing moves the position on the
console. -/
def Plain (s : String) : Prop :=
  ∀ c ∈ s.toList, c ∉ ['[', ':', '\t', '\n'] ∧ isControl c = false

instance (s : String) : Decidable (Plain s) :=
  decidable_of_iff (s.toList.all fun c => c ∉ ['[', ':', '\t', '\n'] && !isControl c)
    (by simp [Plain])

/-! ### Faults of the markup -/

theorem kind_of_closed {tag : OpenTag} (h : closed look tag = .error f) :
    f.kind = "MarkupError" := by
  unfold closed at h
  split at h
  · cases h
  · split at h
    · obtain rfl := Except.error.inj h
      rfl
    · cases h

theorem kind_of_closed_bind {tag : OpenTag} {next : Except Fault (List Char)}
    (hnext : next = .error f → f.kind = "MarkupError")
    (h : (closed look tag >>= fun _ => next) = .error f) : f.kind = "MarkupError" := by
  cases hc : closed look tag with
  | ok u =>
    rw [hc] at h
    exact hnext h
  | error g =>
    rw [hc] at h
    obtain rfl := Except.error.inj h
    exact kind_of_closed hc

/-- What parts cannot be shown for is a fault of the markup, whatever tags are open. -/
theorem kind_of_visibleParts {ps : List Part} {tags : List OpenTag}
    (h : visibleParts look tags ps = .error f) : f.kind = "MarkupError" := by
  induction ps generalizing tags with
  | nil => cases h
  | cons p ps ih =>
    cases p with
    | text s =>
      rw [visibleParts] at h
      cases hrest : visibleParts look tags ps with
      | ok seen =>
        rw [hrest] at h
        cases h
      | error g =>
        rw [hrest] at h
        obtain rfl := Except.error.inj h
        exact ih hrest
    | tag position body =>
      unfold visibleParts at h
      split at h
      · split at h
        · obtain rfl := Except.error.inj h
          rfl
        · exact kind_of_closed_bind ih h
        · split at h
          · exact kind_of_closed_bind ih h
          · obtain rfl := Except.error.inj h
            rfl
      · exact ih h

/-- **What a text cannot be shown for** is a fault of its markup. -/
theorem kind_of_shown {s : String} (h : shown look s = .error f) : f.kind = "MarkupError" := by
  unfold shown at h
  cases hv : visible look s.toList with
  | ok seen =>
    rw [hv] at h
    cases h
  | error g =>
    rw [hv] at h
    obtain rfl := Except.error.inj h
    exact kind_of_visibleParts hv

/-- A cell with a closing tag that closes nothing cannot be shown. -/
example : shown look "[/b]" = .error (.unmatchedTag "/b" 0) := rfl

/-! ### Texts without brackets -/

theorem visibleParts_partsFrom (look : Look) (n i : Nat) (s : List Char) (h : s.length < n)
    (hs : '[' ∉ s) : visibleParts look [] (partsFrom n i s) = .ok s := by
  induction n generalizing i s with
  | zero => omega
  | succ n ih =>
    obtain ⟨k, r, rfl, hr⟩ := exists_slashes s
    cases r with
    | nil =>
      rw [List.append_nil, partsFrom_slashes]
      simp [visibleParts, Except.map]
    | cons c r =>
      rw [List.length_append, List.length_replicate, List.length_cons] at h
      have hmem : '[' ≠ c ∧ '[' ∉ r := by simpa using hs
      rw [partsFrom_char n i k (fun he => hr r (by rw [he])) hmem.1.symm, visibleParts,
        ih _ r (by omega) hmem.2]
      simp [Except.map]

/-- **A plain text** is shown as it is. -/
theorem Plain.shown_eq {s : String} (h : Plain s) (look : Look) : shown look s = .ok s := by
  have hkept : (s.toList.filter fun c => !isControl c) = s.toList :=
    List.filter_eq_self.2 fun c hm => by rw [(h c hm).2]; rfl
  have hbracket : '[' ∉ s.toList := fun hm => (h _ hm).1 List.mem_cons_self
  unfold shown visible parts
  rw [visibleParts_partsFrom look _ 0 s.toList (Nat.lt_succ_self _) hbracket]
  change Except.ok (String.ofList (s.toList.filter fun c => !isControl c)) = _
  rw [hkept, String.ofList_toList]

end Console

namespace CommandLine

open Console (Showable Plain)

variable {look : Console.Look} {t : Table} {f : Fault}

/-! ### Tables -/

theorem bind_succeeds_iff {ε α β : Type} {x : Except ε α} {next : α → Except ε β} :
    (∃ b, (x >>= next) = .ok b) ↔ ∃ a, x = .ok a ∧ ∃ b, next a = .ok b := by
  cases x with
  | ok a => exact ⟨fun h => ⟨a, rfl, h⟩, fun ⟨a', ha, h⟩ => Except.ok.inj ha ▸ h⟩
  | error e => exact iff_of_false (fun ⟨_, h⟩ => nomatch h) fun ⟨_, h, _⟩ => nomatch h

theorem bind_fails {ε α β : Type} {x : Except ε α} {next : α → Except ε β} {e : ε}
    (h : (x >>= next) = .error e) : x = .error e ∨ ∃ a, x = .ok a ∧ next a = .error e := by
  cases x with
  | ok a => exact .inr ⟨a, rfl, h⟩
  | error e' => exact .inl (congrArg _ (Except.error.inj h))

theorem mapM_succeeds_iff {ε α β : Type} {step : α → Except ε β} {as : List α} :
    (∃ bs, as.mapM step = .ok bs) ↔ ∀ a ∈ as, ∃ b, step a = .ok b := by
  induction as with
  | nil => exact iff_of_true ⟨[], rfl⟩ nofun
  | cons a as ih =>
    rw [List.mapM_cons, bind_succeeds_iff, List.forall_mem_cons]
    constructor
    · rintro ⟨b, hb, hrest⟩
      obtain ⟨bs, hbs, -⟩ := bind_succeeds_iff.1 hrest
      exact ⟨⟨b, hb⟩, ih.1 ⟨bs, hbs⟩⟩
    · rintro ⟨⟨b, hb⟩, hrest⟩
      obtain ⟨bs, hbs⟩ := ih.2 hrest
      exact ⟨b, hb, bind_succeeds_iff.2 ⟨bs, hbs, _, rfl⟩⟩

theorem mapM_fails {ε α β : Type} {step : α → Except ε β} {as : List α} {e : ε}
    (h : as.mapM step = .error e) : ∃ a ∈ as, step a = .error e := by
  induction as with
  | nil => cases h
  | cons a as ih =>
    rw [List.mapM_cons] at h
    rcases bind_fails h with ha | ⟨b, -, hrest⟩
    · exact ⟨a, List.mem_cons_self, ha⟩
    · rcases bind_fails hrest with has | ⟨bs, -, hnone⟩
      · obtain ⟨x, hx, hstep⟩ := ih has
        exact ⟨x, List.mem_cons_of_mem a hx, hstep⟩
      · cases hnone

/-- **A table is shown exactly if all of its cells can be.** -/
theorem Table.shown_succeeds_iff : (∃ seen, t.shown look = .ok seen) ↔
    (Showable look t.title ∧ Showable look t.headings.1 ∧ Showable look t.headings.2) ∧
      ∀ row ∈ t.rows, Showable look row.1 ∧ Showable look row.2 := by
  unfold Table.shown
  simp only [bind_succeeds_iff]
  constructor
  · rintro ⟨first, hfirst, names, hnames, second, hsecond, files, hfiles, title, htitle, -⟩
    have hleft := mapM_succeeds_iff.1 ⟨names, hnames⟩
    have hright := mapM_succeeds_iff.1 ⟨files, hfiles⟩
    exact ⟨⟨⟨title, htitle⟩, ⟨first, hfirst⟩, ⟨second, hsecond⟩⟩, fun row hrow =>
      ⟨hleft _ (List.mem_map_of_mem hrow), hright _ (List.mem_map_of_mem hrow)⟩⟩
  · rintro ⟨⟨⟨title, htitle⟩, ⟨first, hfirst⟩, ⟨second, hsecond⟩⟩, hrows⟩
    obtain ⟨names, hnames⟩ := mapM_succeeds_iff.2 (List.forall_mem_map.2 fun row hrow =>
      (hrows row hrow).1)
    obtain ⟨files, hfiles⟩ := mapM_succeeds_iff.2 (List.forall_mem_map.2 fun row hrow =>
      (hrows row hrow).2)
    exact ⟨first, hfirst, names, hnames, second, hsecond, files, hfiles, title, htitle, _, rfl⟩

/-- What a table cannot be shown for is a fault of the markup of a cell. -/
theorem Table.kind_of_shown (h : t.shown look = .error f) : f.kind = "MarkupError" := by
  have hcells : ∀ {cells : List String}, cells.mapM (Console.shown look) = .error f →
      f.kind = "MarkupError" := fun h =>
    let ⟨_, _, hcell⟩ := mapM_fails h
    Console.kind_of_shown hcell
  unfold Table.shown at h
  rcases bind_fails h with h | ⟨first, -, h⟩
  · exact Console.kind_of_shown h
  rcases bind_fails h with h | ⟨names, -, h⟩
  · exact hcells h
  rcases bind_fails h with h | ⟨second, -, h⟩
  · exact Console.kind_of_shown h
  rcases bind_fails h with h | ⟨files, -, h⟩
  · exact hcells h
  rcases bind_fails h with h | ⟨title, -, h⟩
  · exact Console.kind_of_shown h
  · cases h

/-- **A table of plain texts** is shown as it is. -/
theorem Table.shown_plain (look : Console.Look) (ht : Plain t.title)
    (hh : Plain t.headings.1 ∧ Plain t.headings.2)
    (hrows : ∀ row ∈ t.rows, Plain row.1 ∧ Plain row.2) : t.shown look = .ok t := by
  have hcells : ∀ {cells : List String}, (∀ cell ∈ cells, Plain cell) →
      cells.mapM (Console.shown look) = .ok cells := by
    intro cells hall
    induction cells with
    | nil => rfl
    | cons cell cells ih =>
      obtain ⟨hfirst, hrest⟩ := List.forall_mem_cons.1 hall
      rw [List.mapM_cons, hfirst.shown_eq, ih hrest]
      rfl
  obtain ⟨title, ⟨first, second⟩, rows⟩ := t
  have hnames := hcells (List.forall_mem_map.2 fun row hrow => (hrows row hrow).1)
  have hfiles := hcells (List.forall_mem_map.2 fun row hrow => (hrows row hrow).2)
  have hzip : (rows.map Prod.fst).zip (rows.map Prod.snd) = rows :=
    List.zip_map'.trans (List.map_id rows)
  unfold Table.shown
  dsimp only at hnames hfiles ⊢
  rw [hnames, hfiles, hh.1.shown_eq, hh.2.shown_eq, ht.shown_eq]
  change Except.ok (Table.mk title (first, second) ((rows.map Prod.fst).zip (rows.map Prod.snd))) = _
  rw [hzip]

end CommandLine

end CachedViews
