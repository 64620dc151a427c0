import CachedViews.Value
import Mathlib

/-
# Shown forms can be read back

A quoted text ends where its quote ends, whatever follows: each character is written by a word
that can be read off the front (`Text.readQuoted_append`), and none of these words begins with the
quote in use. So a quoted text tells the text and what is behind it (`Text.quoted_append_inj`).

The same holds for the shown forms of values that consist of nothing, truth values, integers,
texts and lists of them (`Value.Literal`), in front of a comma, a closing bracket or the end
(`Value.told_of_literal`). So different ones have different shown forms (`Value.shown_inj`).

Key definitions: `Text.readQuoted`, `Value.Literal`, `Value.Told`.
Key theorems: `Text.quoted_append_inj`, `Value.told_of_literal`, `Value.shown_inj`.
-/

namespace CachedViews

namespace Text

variable {c d quote : Char} {r r' s t : List Char}

/-- Read one character off the front of quoted text. -/
def readQuoted : List Char → Option (Char × List Char)
  | '\\' :: 'n' :: r => some ('\n', r)
  | '\\' :: 'r' :: r => some ('\r', r)
  | '\\' :: 't' :: r => some ('\t', r)
  | '\\' :: 'x' :: r => some (Char.ofNat (hexValue (r.take 2)), r.drop 2)
  | '\\' :: 'u' :: r => some (Char.ofNat (hexValue (r.take 4)), r.drop 4)
  | '\\' :: 'U' :: r => some (Char.ofNat (hexValue (r.take 8)), r.drop 8)
  | '\\' :: c :: r => some (c, r)
  | c :: r => some (c, r)
  | [] => none

/-! ### One character -/

/-- Digits of a fixed width give back the character whose code point they are. -/
theorem ofNat_hexValue_take (width : Nat) (h : c.toNat < 16 ^ width) (r : List Char) :
    Char.ofNat (hexValue ((hexFixed width c.toNat ++ r).take width)) = c ∧
      (hexFixed width c.toNat ++ r).drop width = r := by
  have hlen := hexFixed_length width c.toNat
  have hvalue : hexValue (hexFixed width c.toNat) = c.toNat := by
    rw [hexValue_hexFixed]
    exact Nat.mod_eq_of_lt h
  rw [List.take_left' hlen, List.drop_left' hlen, hvalue, Char.ofNat_toNat]
  exact ⟨rfl, rfl⟩

theorem readQuoted_codePointEscape (c : Char) (r : List Char) :
    readQuoted (codePointEscape c.toNat ++ r) = some (c, r) := by
  have hlimit : c.toNat < 16 ^ 8 := c.val.toNat_lt
  unfold codePointEscape
  split
  · next h =>
    obtain ⟨hc, hr⟩ := ofNat_hexValue_take 2 h r
    simp only [List.cons_append, readQuoted, hc, hr]
  · split
    · next h =>
      obtain ⟨hc, hr⟩ := ofNat_hexValue_take 4 h r
      simp only [List.cons_append, readQuoted, hc, hr]
    · obtain ⟨hc, hr⟩ := ofNat_hexValue_take 8 hlimit r
      simp only [List.cons_append, readQuoted, hc, hr]

/-- A character shown as itself is read as itself. -/
theorem readQuoted_cons (h : c ≠ '\\') (r : List Char) : readQuoted (c :: r) = some (c, r) := by
  unfold readQuoted
  split <;> simp_all

/-- What stands for a character can be read off the front, whatever follows. -/
theorem readQuoted_append (hq : quote = '\'' ∨ quote = '"') (c : Char) (r : List Char) :
    readQuoted (quotedChar quote c ++ r) = some (c, r) := by
  unfold quotedChar
  split
  · next hc =>
    -- the quote and the backslash are no letters of other escapes
    rcases hc with rfl | rfl
    · rcases hq with rfl | rfl <;> rfl
    · rfl
  · next hc =>
    rw [not_or] at hc
    split
    · next hn => rw [hn]; rfl
    · split
      · next hr => rw [hr]; rfl
      · split
        · next ht => rw [ht]; rfl
        · split
          · exact readQuoted_cons hc.2 r
          · exact readQuoted_codePointEscape c r

/-- What stands for a character does not begin with the quote. -/
theorem head?_quotedChar (hq : quote = '\'' ∨ quote = '"') (c : Char) :
    ∃ d r, quotedChar quote c = d :: r ∧ d ≠ quote := by
  have hslash : '\\' ≠ quote := by
    rcases hq with rfl | rfl <;> decide
  unfold quotedChar codePointEscape
  split
  · exact ⟨_, _, rfl, hslash⟩
  · next hc =>
    rw [not_or] at hc
    split_ifs
    · exact ⟨_, _, rfl, hslash⟩
    · exact ⟨_, _, rfl, hslash⟩
    · exact ⟨_, _, rfl, hslash⟩
    · exact ⟨_, _, rfl, hc.1⟩
    · exact ⟨_, _, rfl, hslash⟩
    · exact ⟨_, _, rfl, hslash⟩
    · exact ⟨_, _, rfl, hslash⟩

/-! ### Quoted texts -/

theorem quoteFor_cases (s : List Char) : quoteFor s = '\'' ∨ quoteFor s = '"' := by
  unfold quoteFor
  split
  · exact .inr rfl
  · exact .inl rfl

theorem flatMap_quotedChar_inj (hq : quote = '\'' ∨ quote = '"')
    (h : s.flatMap (quotedChar quote) ++ quote :: r =
      t.flatMap (quotedChar quote) ++ quote :: r') : s = t ∧ r = r' := by
  induction s generalizing t with
  | nil =>
    cases t with
    | nil => exact ⟨rfl, (List.cons.inj h).2⟩
    | cons d t =>
      obtain ⟨d', rest, hd, hne⟩ := head?_quotedChar hq d
      rw [List.flatMap_cons, hd] at h
      exact absurd (List.cons.inj h).1.symm hne
  | cons c s ih =>
    cases t with
    | nil =>
      obtain ⟨c', rest, hc, hne⟩ := head?_quotedChar hq c
      rw [List.flatMap_cons, hc] at h
      exact absurd (List.cons.inj h).1 hne
    | cons d t =>
      rw [List.flatMap_cons, List.flatMap_cons, List.append_assoc, List.append_assoc] at h
      have hread := congrArg readQuoted h
      rw [readQuoted_append hq, readQuoted_append hq, Option.some_inj, Prod.mk.injEq] at hread
      obtain ⟨hcd, hrest⟩ := hread
      obtain ⟨hst, hr⟩ := ih hrest
      exact ⟨by rw [hcd, hst], hr⟩

theorem quoted_append (s r : List Char) :
    quoted s ++ r = quoteFor s :: (s.flatMap (quotedChar (quoteFor s)) ++ quoteFor s :: r) := by
  simp [quoted]

/-- **A quoted text tells the text and what follows it.** -/
theorem quoted_append_inj (h : quoted s ++ r = quoted t ++ r') : s = t ∧ r = r' := by
  rw [quoted_append, quoted_append] at h
  obtain ⟨hquote, hrest⟩ := List.cons.inj h
  rw [← hquote] at hrest
  exact flatMap_quotedChar_inj (quoteFor_cases s) hrest

end Text

namespace Value

open Text

variable {v w : Value} {xs ys : List Value} {r r' : List Char}

/-- A value that consists of nothing, truth values, integers, texts and lists of such values. -/
inductive Literal : Value → Prop
  | null : Literal .null
  | bool (b : Bool) : Literal (.bool b)
  | int (n : Int) : Literal (.int n)
  | str (s : String) : Literal (.str s)
  | list {xs : List Value} (h : ∀ x ∈ xs, Literal x) : Literal (.list xs)

/-! ### Integers -/

/-- A character that an integer is written with. -/
def isIntChar (c : Char) : Bool := c.isDigit || c = '-'

theorem isIntChar_repr (n : Int) : ∀ c ∈ n.repr.toList, isIntChar c = true := by
  have hdigits : ∀ m : Nat, ∀ c ∈ m.repr.toList, isIntChar c = true := by
    intro m c hc
    rw [Nat.toList_repr] at hc
    have hd := Nat.isDigit_of_mem_toDigits (by decide) (by decide) hc
    simp [isIntChar, hd]
  intro c hc
  cases n with
  | ofNat m => exact hdigits m c hc
  | negSucc m =>
    have hsign : (Int.negSucc m).repr.toList = '-' :: (m + 1).repr.toList :=
      String.toList_append
    rw [hsign] at hc
    rcases List.mem_cons.1 hc with rfl | hc
    · rfl
    · exact hdigits (m + 1) c hc

theorem toList_repr_ne_nil (n : Int) : n.repr.toList ≠ [] := by
  cases n with
  | ofNat m =>
    have h := Nat.toDigits_ne_nil (n := m) (b := 10)
    rwa [← Nat.toList_repr] at h
  | negSucc m =>
    have hsign : (Int.negSucc m).repr.toList = '-' :: (m + 1).repr.toList :=
      String.toList_append
    rw [hsign]
    exact List.cons_ne_nil _ _

/-- What follows a shown form in a list, or nothing. -/
def Ends (r : List Char) : Prop := ∀ c ∈ r.head?, c = ',' ∨ c = ']'

theorem takeWhile_of_ends (h : Ends r) : r.takeWhile isIntChar = [] := by
  cases r with
  | nil => rfl
  | cons c r =>
    have hc : isIntChar c = false := by
      rcases h c rfl with rfl | rfl <;> rfl
    simp [hc]

theorem repr_append_inj {n m : Int} (hr : Ends r) (hr' : Ends r')
    (h : n.repr.toList ++ r = m.repr.toList ++ r') : n = m ∧ r = r' := by
  have hdigits := congrArg (List.takeWhile isIntChar) h
  rw [List.takeWhile_append_of_pos (isIntChar_repr n), takeWhile_of_ends hr,
    List.takeWhile_append_of_pos (isIntChar_repr m), takeWhile_of_ends hr', List.append_nil,
    List.append_nil] at hdigits
  rw [hdigits] at h
  exact ⟨Int.repr_inj.1 (String.toList_injective hdigits), List.append_cancel_left h⟩

/-! ### The first character -/

/-- What the first character of a shown form tells about its value. -/
inductive Opening where
  | null | true | false | int | str | list
  deriving DecidableEq

/-- The shown forms that a character begins. -/
def Opening.ofChar (c : Char) : Opening :=
  if c = 'N' then .null
  else if c = 'T' then .true
  else if c = 'F' then .false
  else if c = '\'' ∨ c = '"' then .str
  else if c = '[' then .list
  else .int

/-- How the shown form of a literal value begins. -/
def Opening.of : Value → Opening
  | .null => .null
  | .bool b => if b then .true else .false
  | .str _ => .str
  | .list _ => .list
  | _ => .int

theorem shown_list (xs : List Value) :
    (Value.list xs).shown.toList = '[' :: ((commaList (shownItems xs)).toList ++ [']']) := by
  have h : (Value.list xs).shown = "[" ++ commaList (shownItems xs) ++ "]" := rfl
  simp [h]

theorem shown_str (s : String) : (Value.str s).shown.toList = quoted s.toList := by
  have h : (Value.str s).shown = quotedString s := rfl
  rw [h, quotedString, String.toList_ofList]

theorem shown_int (n : Int) : (Value.int n).shown = n.repr := Int.toString_eq_repr

/-- The first character of a shown form tells what kind it is, and is no closing bracket. -/
theorem shown_cons (h : Literal v) :
    ∃ c s, v.shown.toList = c :: s ∧ Opening.ofChar c = Opening.of v ∧ c ≠ ']' := by
  cases h with
  | null => exact ⟨'N', _, rfl, rfl, by decide⟩
  | bool b =>
    cases b with
    | true => exact ⟨'T', _, rfl, rfl, by decide⟩
    | false => exact ⟨'F', _, rfl, rfl, by decide⟩
  | int n =>
    rw [shown_int]
    cases hn : n.repr.toList with
    | nil => exact absurd hn (toList_repr_ne_nil n)
    | cons c s =>
      have hc := isIntChar_repr n c (by rw [hn]; exact List.mem_cons_self)
      have hother : ∀ d, isIntChar d = false → c ≠ d := by
        rintro d hd rfl
        rw [hc] at hd
        cases hd
      refine ⟨c, s, rfl, ?_, hother ']' rfl⟩
      simp [Opening.ofChar, Opening.of, hother 'N' rfl, hother 'T' rfl, hother 'F' rfl,
        hother '\'' rfl, hother '"' rfl, hother '[' rfl]
  | str s =>
    rw [shown_str]
    refine ⟨quoteFor s.toList, _, rfl, ?_, ?_⟩
    · rcases quoteFor_cases s.toList with h | h <;> rw [h] <;> rfl
    · rcases quoteFor_cases s.toList with h | h <;> rw [h] <;> decide
  | list hxs =>
    rw [shown_list]
    exact ⟨'[', _, rfl, rfl, by decide⟩

/-! ### Lists -/

/-- What follows the first item of a list. -/
def shownTail : List Value → List Char
  | [] => []
  | x :: xs => ',' :: ' ' :: (x.shown.toList ++ shownTail xs)

theorem commaList_cons (x : Value) (xs : List Value) :
    (commaList (shownItems (x :: xs))).toList = x.shown.toList ++ shownTail xs := by
  induction xs generalizing x with
  | nil => simp [commaList, shownItems, shownTail]
  | cons y ys ih =>
    have hy := ih y
    unfold commaList at hy ⊢
    simp only [shownItems] at hy ⊢
    rw [String.intercalate_cons_cons, String.toList_append, String.toList_append, hy]
    simp [shownTail]

theorem ends_shownTail (xs : List Value) (r : List Char) : Ends (shownTail xs ++ ']' :: r) := by
  intro c hc
  cases xs with
  | nil => exact .inr (Option.some_inj.1 hc).symm
  | cons x xs => exact .inl (Option.some_inj.1 hc).symm

/-- In front of the end of an item, the shown form tells the value and what follows it. -/
def Told (v : Value) : Prop :=
  ∀ w r r', Literal w → Ends r → Ends r' →
    v.shown.toList ++ r = w.shown.toList ++ r' → v = w ∧ r = r'

/-- If the items of a list are told, so is what follows its first item. -/
theorem shownTail_inj (hxs : ∀ x ∈ xs, Told x) (hys : ∀ y ∈ ys, Literal y)
    (h : shownTail xs ++ ']' :: r = shownTail ys ++ ']' :: r') : xs = ys ∧ r = r' := by
  induction xs generalizing ys with
  | nil =>
    cases ys with
    | nil => exact ⟨rfl, (List.cons.inj h).2⟩
    | cons y ys => exact absurd (List.cons.inj h).1 (by decide)
  | cons x xs ih =>
    cases ys with
    | nil => exact absurd (List.cons.inj h).1 (by decide)
    | cons y ys =>
      simp only [shownTail, List.cons_append, List.append_assoc, List.cons.injEq, true_and] at h
      obtain ⟨hxy, hrest⟩ := hxs x List.mem_cons_self y _ _ (hys y List.mem_cons_self)
        (ends_shownTail xs r) (ends_shownTail ys r') h
      obtain ⟨hlists, hr⟩ := ih (fun x hx => hxs x (List.mem_cons_of_mem _ hx))
        (fun y hy => hys y (List.mem_cons_of_mem _ hy)) hrest
      exact ⟨by rw [hxy, hlists], hr⟩

/-- A list with items does not begin like one without. -/
theorem commaList_cons_ne {x : Value} (hx : Literal x) (xs : List Value) (r r' : List Char) :
    (commaList (shownItems (x :: xs))).toList ++ r ≠ ']' :: r' := by
  intro h
  obtain ⟨c, s, hs, -, hc⟩ := shown_cons hx
  rw [commaList_cons, hs] at h
  exact hc (List.cons.inj h).1

theorem shown_list_inj (hxs : ∀ x ∈ xs, Literal x) (htold : ∀ x ∈ xs, Told x)
    (hys : ∀ y ∈ ys, Literal y)
    (h : (Value.list xs).shown.toList ++ r = (Value.list ys).shown.toList ++ r') :
    xs = ys ∧ r = r' := by
  rw [shown_list, shown_list] at h
  simp only [List.cons_append, List.append_assoc, List.nil_append, List.cons.injEq,
    true_and] at h
  cases xs with
  | nil =>
    cases ys with
    | nil => exact ⟨rfl, (List.cons.inj h).2⟩
    | cons y ys => exact absurd h.symm (commaList_cons_ne (hys y List.mem_cons_self) ys _ _)
  | cons x xs =>
    cases ys with
    | nil => exact absurd h (commaList_cons_ne (hxs x List.mem_cons_self) xs _ _)
    | cons y ys =>
      refine shownTail_inj htold hys ?_
      rw [commaList_cons, commaList_cons, List.append_assoc, List.append_assoc] at h
      simp only [shownTail, List.cons_append, List.append_assoc, h]

/-- The first character tells apart all literal values but integers, texts and lists among
themselves. -/
theorem kind_of_opening (hv : Literal v) (hw : Literal w) (h : Opening.of v = Opening.of w) :
    v = w ∨ (∃ n m, v = .int n ∧ w = .int m) ∨ (∃ s t, v = .str s ∧ w = .str t) ∨
      ∃ xs ys, v = .list xs ∧ w = .list ys := by
  cases hv <;> cases hw <;> simp_all [Opening.of] <;> split_ifs at h <;> simp_all

theorem opening_eq (hv : Literal v) (hw : Literal w)
    (h : v.shown.toList ++ r = w.shown.toList ++ r') : Opening.of v = Opening.of w := by
  obtain ⟨c, s, hs, hc, -⟩ := shown_cons hv
  obtain ⟨d, t, ht, hd, -⟩ := shown_cons hw
  rw [hs, ht] at h
  rw [← hc, ← hd, (List.cons.inj h).1]

/-- A literal value is told, if it is no list of values that are not. -/
theorem told_of_items (hv : Literal v) (hitems : ∀ xs, v = .list xs → ∀ x ∈ xs, Told x) :
    Told v := by
  intro w r r' hw hr hr' h
  rcases kind_of_opening hv hw (opening_eq hv hw h) with
    rfl | ⟨n, m, rfl, rfl⟩ | ⟨s, t, rfl, rfl⟩ | ⟨xs, ys, rfl, rfl⟩
  · exact ⟨rfl, List.append_cancel_left h⟩
  · rw [shown_int, shown_int] at h
    obtain ⟨hn, hrest⟩ := repr_append_inj hr hr' h
    exact ⟨by rw [hn], hrest⟩
  · rw [shown_str, shown_str] at h
    obtain ⟨hs, hrest⟩ := quoted_append_inj h
    exact ⟨by rw [String.toList_injective hs], hrest⟩
  · cases hv with
    | list hxs =>
      cases hw with
      | list hys =>
        obtain ⟨hlists, hrest⟩ := shown_list_inj hxs (hitems xs rfl) hys h
        exact ⟨by rw [hlists], hrest⟩

theorem told_of_literal (hv : Literal v) : Told v := by
  induction hv with
  | null => exact told_of_items .null nofun
  | bool b => exact told_of_items (.bool b) nofun
  | int n => exact told_of_items (.int n) nofun
  | str s => exact told_of_items (.str s) nofun
  | list hxs ih =>
    exact told_of_items (.list hxs) fun ys he => Value.list.inj he ▸ ih

/-- **Different literal values have different shown forms.** -/
theorem shown_inj (hv : Literal v) (hw : Literal w) : v.shown = w.shown ↔ v = w := by
  refine ⟨fun h => ?_, fun h => by rw [h]⟩
  have hnothing : Ends [] := nofun
  exact (told_of_literal hv w [] [] hw hnothing hnothing (by rw [h])).1

end Value

end CachedViews
