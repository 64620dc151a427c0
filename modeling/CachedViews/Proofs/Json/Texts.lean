import CachedViews.Json.Reader
import Mathlib.Data.Nat.Digits.Defs

/-
# Texts in JSON

A text in JSON consists of printable characters of ASCII alone (`Json.plain_quoteChars`), and is
read back from between its quotes, whatever follows (`Json.readString_quoteChars`). What stands
for a character is read as its code point, or as two halves (`Json.readUnits_quoteChar`). Halves
come in pairs only, so two of them in a row make one character again
(`Json.joinHalves_unitsOf`).

Key definitions: `Json.isPlain`, `Json.unitsOf`.
Key theorems: `Json.readUnits_quoteChar`, `Json.joinHalves_unitsOf`,
`Json.readString_quoteChars`, `Json.plain_quoteChars`.
-/

namespace CachedViews.Json

open CachedViews.Text

/-- A printable character of ASCII, or a blank. -/
def isPlain (c : Char) : Bool := 0x20 ≤ c.toNat && c.toNat < 0x7f

variable {c : Char} {s : List Char} {n : Nat}

/-! ### Characters -/

/-- A character has the code point of no half. -/
theorem toNat_cases (c : Char) :
    c.toNat < 0xd800 ∨ 0xdfff < c.toNat ∧ c.toNat < 0x110000 :=
  c.valid

/-- The code points that a character is written by: its own, or those of two halves. -/
def unitsOf (c : Char) : List Nat :=
  if c.toNat < 0x10000 then [c.toNat]
  else [0xd800 + (c.toNat - 0x10000) / 0x400, 0xdc00 + (c.toNat - 0x10000) % 0x400]

theorem digitValue?_hexDigit : ∀ d : Fin 16, digitValue? (hexDigit d) = some d.val := by decide

/-- Four digits have the value that they were written for. -/
theorem unit?_hexFixed (h : n < 0x10000) :
    ∃ a b c d, hexFixed 4 n = [a, b, c, d] ∧ unit? a b c d = some n := by
  have hdigit : ∀ m : Nat, digitValue? (hexDigit (m % 16)) = some (m % 16) := fun m =>
    digitValue?_hexDigit ⟨m % 16, Nat.mod_lt m (by decide)⟩
  refine ⟨_, _, _, _, rfl, ?_⟩
  rw [unit?, hdigit, hdigit, hdigit, hdigit]
  simp only [Option.some.injEq]
  omega

theorem readUnits_escapeUnit (opening : Nat) (h : n < 0x10000) (hs : s ≠ []) :
    readUnits opening (escapeUnit n ++ s) = consRead n (readUnits opening s) := by
  obtain ⟨a, b, c, d, hfixed, hunit⟩ := unit?_hexFixed h
  rw [escapeUnit, hfixed]
  simp only [List.cons_append, List.nil_append]
  rw [readUnits, if_neg (by simpa using hs), hunit]

/-- A character that stands for itself is read as itself. -/
theorem readUnits_cons (opening : Nat) (hquote : c ≠ '"') (hslash : c ≠ '\\')
    (hc : ¬c.toNat < 0x20) (s : List Char) :
    readUnits opening (c :: s) = consRead c.toNat (readUnits opening s) := by
  rw [readUnits.eq_def]
  split <;> simp_all

/-- A letter behind a backslash is read as the character that it stands for. -/
theorem readUnits_escape (opening : Nat) {d : Char} (hd : d ≠ 'u')
    (he : simpleEscape? d = some c) (s : List Char) :
    readUnits opening ('\\' :: d :: s) = consRead c.toNat (readUnits opening s) := by
  rw [readUnits, if_neg hd, he]
  exact fun _ _ _ _ _ hu => absurd hu hd

/-- What stands for a character is read as its code points. -/
theorem readUnits_quoteChar (opening : Nat) (c : Char) (hs : s ≠ []) :
    readUnits opening (quoteChar c ++ s) =
      (unitsOf c).foldr consRead (readUnits opening s) := by
  have hlimit := toNat_cases c
  have hescaped : ∀ {e d : Char}, e.toNat < 0x10000 → d ≠ 'u' → simpleEscape? d = some e →
      readUnits opening (['\\', d] ++ s) = (unitsOf e).foldr consRead (readUnits opening s) := by
    intro e d hshort hd he
    rw [unitsOf, if_pos hshort]
    exact readUnits_escape opening hd he s
  unfold quoteChar
  split_ifs with hquote hslash hn hr ht hb hf hplain hshort
  · rw [hquote]
    exact hescaped (by decide) (by decide) rfl
  · rw [hslash]
    exact hescaped (by decide) (by decide) rfl
  · rw [hn]
    exact hescaped (by decide) (by decide) rfl
  · rw [hr]
    exact hescaped (by decide) (by decide) rfl
  · rw [ht]
    exact hescaped (by decide) (by decide) rfl
  · rw [hb]
    exact hescaped (by decide) (by decide) rfl
  · rw [hf]
    exact hescaped (by decide) (by decide) rfl
  · rw [unitsOf, if_pos (by omega)]
    exact readUnits_cons opening hquote hslash (by omega) s
  · rw [unitsOf, if_pos hshort]
    exact readUnits_escapeUnit opening hshort hs
  · -- two halves, one behind the other
    rw [unitsOf, if_neg hshort, List.append_assoc, readUnits_escapeUnit opening (by omega)
      (by simp [escapeUnit]), readUnits_escapeUnit opening (by omega) hs]
    rfl

/-! ### Texts -/

theorem joinHalves_cons (h : isHighHalf n = false) (ns : List Nat) :
    joinHalves (n :: ns) = charOfUnit n :: joinHalves ns := by
  cases ns with
  | nil => rfl
  | cons m ns => simp [joinHalves, h]

theorem not_half (c : Char) : isHighHalf c.toNat = false ∧ isLowHalf c.toNat = false := by
  have hlimit := toNat_cases c
  simp only [isHighHalf, isLowHalf, Bool.and_eq_false_iff, decide_eq_false_iff_not]
  omega

/-- **The code points of characters make the characters again**, as halves stand next to each
other only where they belong together. -/
theorem joinHalves_unitsOf (s : List Char) : joinHalves (s.flatMap unitsOf) = s := by
  induction s with
  | nil => rfl
  | cons c s ih =>
    obtain ⟨hhigh, hlow⟩ := not_half c
    rw [List.flatMap_cons, unitsOf]
    split_ifs with hshort
    · rw [List.singleton_append, joinHalves_cons hhigh, ih, charOfUnit, hhigh, hlow,
        if_neg (by decide), Char.ofNat_toNat]
    · have hlimit := toNat_cases c
      have hfirst : isHighHalf (0xd800 + (c.toNat - 0x10000) / 0x400) = true := by
        simp only [isHighHalf, Bool.and_eq_true, decide_eq_true_eq]
        omega
      have hsecond : isLowHalf (0xdc00 + (c.toNat - 0x10000) % 0x400) = true := by
        simp only [isLowHalf, Bool.and_eq_true, decide_eq_true_eq]
        omega
      have hsum : 0x10000 + (0xd800 + (c.toNat - 0x10000) / 0x400 - 0xd800) * 0x400 +
          (0xdc00 + (c.toNat - 0x10000) % 0x400 - 0xdc00) = c.toNat := by omega
      simp only [List.cons_append, List.nil_append, joinHalves, hfirst, hsecond, Bool.and_true,
        if_true, hsum, Char.ofNat_toNat, ih]

theorem readUnits_flatMap (opening : Nat) (s rest : List Char) :
    readUnits opening (s.flatMap quoteChar ++ '"' :: rest) = .ok (s.flatMap unitsOf, rest) := by
  have hread : ∀ (ns ms : List Nat), ns.foldr consRead (.ok (ms, rest)) = .ok (ns ++ ms, rest) := by
    intro ns ms
    induction ns with
    | nil => rfl
    | cons n ns ih => rw [List.foldr_cons, ih, consRead, List.cons_append]
  induction s with
  | nil => simp [readUnits]
  | cons c s ih =>
    rw [List.flatMap_cons, List.append_assoc, readUnits_quoteChar opening c (by simp), ih, hread,
      List.flatMap_cons]

/-- **A text is read back from between its quotes**, whatever follows. -/
theorem readString_quoteChars (opening : Nat) (s rest : List Char) :
    readString opening (s.flatMap quoteChar ++ '"' :: rest) = .ok (s, rest) := by
  rw [readString, readUnits_flatMap]
  simp only [Except.map, joinHalves_unitsOf]

/-! ### Plain characters -/

theorem plain_escapeUnit (n : Nat) : ∀ c ∈ escapeUnit n, isPlain c = true := by
  have hdigit : ∀ d : Fin 16, isPlain (hexDigit d) = true := by decide
  have hfixed : ∀ width n, ∀ c ∈ hexFixed width n, isPlain c = true := by
    intro width
    induction width with
    | zero => exact fun n c hc => nomatch hc
    | succ width ih =>
      intro n c hc
      rcases List.mem_append.1 hc with hc | hc
      · exact ih _ c hc
      · rw [List.mem_singleton.1 hc]
        exact hdigit ⟨n % 16, Nat.mod_lt n (by decide)⟩
  rw [escapeUnit, List.forall_mem_cons, List.forall_mem_cons]
  exact ⟨rfl, rfl, hfixed 4 n⟩

/-- What stands for a character is plain. -/
theorem plain_quoteChar (c : Char) : ∀ d ∈ quoteChar c, isPlain d = true := by
  unfold quoteChar
  split_ifs with hquote hslash hn hr ht hb hf hplain hshort
  any_goals exact List.all_eq_true.1 rfl
  · simpa [isPlain] using hplain
  · exact plain_escapeUnit _
  · exact List.forall_mem_append.2 ⟨plain_escapeUnit _, plain_escapeUnit _⟩

theorem plain_quoteChars (s : List Char) : ∀ c ∈ quoteChars s, isPlain c = true := by
  rw [quoteChars, List.forall_mem_append, List.forall_mem_cons]
  refine ⟨⟨rfl, fun d hd => ?_⟩, List.all_eq_true.1 rfl⟩
  obtain ⟨c, -, hc⟩ := List.mem_flatMap.1 hd
  exact plain_quoteChar c d hc

theorem toList_quote (s : String) : (quote s).toList = quoteChars s.toList := by
  rw [quote, String.toList_ofList]

end CachedViews.Json
