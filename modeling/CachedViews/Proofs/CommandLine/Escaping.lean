import CachedViews.CommandLine.Run
import Mathlib.Data.List.TakeWhile

/-
# Escaped text is shown as text

Faults are reported in a line of marked-up text. The text of a fault may hold anything, also what
looks like a tag, so it is escaped first. What `Console.escape` writes follows the text piece by
piece (`Console.Escaped`). In front of a tag it puts one backslash more than twice those that are
there, so that their number is odd; and what is no tag in the text is none in what is written
(`Console.Escaped.tag?_eq_none`). So all of it is shown as text (`Console.Escaped.onlyText`), and a
fault of the library can always be reported (`CommandLine.reported_iff`).

Key definitions: `Console.Escaped`, `Console.OnlyText`.
Key theorems: `Console.escaped_escape`, `Console.Escaped.onlyText`, `CommandLine.reported_iff`.
-/

namespace CachedViews

namespace Console

/-- A text and what is written for it. Backslashes at its end may get more of them. -/
inductive Escaped : List Char → List Char → Prop
  | slashes (k j : Nat) : Escaped (List.replicate k '\\') (List.replicate j '\\')
  | char (k : Nat) {c : Char} {r w : List Char} (hs : c ≠ '\\') (hb : c ≠ '[') (h : Escaped r w) :
      Escaped (List.replicate k '\\' ++ c :: r) (List.replicate k '\\' ++ c :: w)
  | bracket (k : Nat) {r w : List Char} (ht : tag? r = none) (h : Escaped r w) :
      Escaped (List.replicate k '\\' ++ '[' :: r) (List.replicate k '\\' ++ '[' :: w)
  | tag (k : Nat) {r body rest w : List Char} (ht : tag? r = some (body, rest))
      (h : Escaped rest w) : Escaped (List.replicate k '\\' ++ '[' :: r)
        (List.replicate (2 * k + 1) '\\' ++ '[' :: (body ++ ']' :: w))

/-- Nothing is taken for a tag. -/
def OnlyText (ps : List Part) : Prop := ∀ p ∈ ps, ∃ shown, p = .text shown

variable {s w r rest body : List Char} {c : Char}

/-! ### Backslashes -/

/-- A text is its backslashes, and what stands behind them. -/
theorem exists_slashes (s : List Char) :
    ∃ k r, s = List.replicate k '\\' ++ r ∧ ∀ r', r ≠ '\\' :: r' := by
  induction s with
  | nil => exact ⟨0, [], rfl, nofun⟩
  | cons c s ih =>
    by_cases hc : c = '\\'
    · obtain ⟨k, r, rfl, hr⟩ := ih
      exact ⟨k + 1, r, by rw [hc]; rfl, hr⟩
    · exact ⟨0, c :: s, rfl, fun r' h => hc (List.cons.inj h).1⟩

theorem takeWhile_slashes (k : Nat) (hr : ∀ r', r ≠ '\\' :: r') :
    (List.replicate k '\\' ++ r).takeWhile (· = '\\') = List.replicate k '\\' := by
  have htail : r.takeWhile (· = '\\') = [] := by
    cases r with
    | nil => rfl
    | cons c r => exact List.takeWhile_cons_of_neg fun h => hr r (by rw [of_decide_eq_true h])
  rw [List.takeWhile_append_of_pos (by simp), htail, List.append_nil]

theorem takeWhile_only_slashes (k : Nat) :
    (List.replicate k '\\').takeWhile (· = '\\') = List.replicate k '\\' := by
  have h := takeWhile_slashes k (r := []) nofun
  rwa [List.append_nil] at h

theorem drop_slashes (k : Nat) (r : List Char) : (List.replicate k '\\' ++ r).drop k = r :=
  List.drop_left' List.length_replicate

/-! ### Tags -/

/-- A character that ends the text of a tag. -/
def isBracket (c : Char) : Bool := c = '[' || c = ']'

/-- What is found as a tag begins as tags do, and goes on to the first bracket, which closes it. -/
theorem tag?_eq_some (h : tag? s = some (body, rest)) :
    s = body ++ ']' :: rest ∧ ∃ c more, body = c :: more ∧ isTagStart c = true ∧
      ∀ x ∈ more, x ≠ '[' ∧ x ≠ ']' := by
  cases s with
  | nil => cases h
  | cons c r =>
    unfold tag? at h
    dsimp only at h
    split at h
    · next hc hdrop =>
      obtain ⟨rfl, rfl⟩ := Prod.mk.inj (Option.some.inj h)
      refine ⟨?_, c, _, rfl, hc, fun x hx => by simpa using List.mem_takeWhile_imp hx⟩
      have hprefix := List.prefix_iff_eq_take.1
        (List.takeWhile_prefix (fun c => decide (c ≠ '[') && decide (c ≠ ']')) (l := r))
      rw [List.cons_append, ← hdrop]
      exact congrArg (c :: ·) ((List.take_append_drop _ r).symm.trans
        (congrArg (· ++ r.drop _) hprefix.symm))
    · cases h

theorem tag?_append {more : List Char} (hc : isTagStart c = true)
    (hm : ∀ x ∈ more, x ≠ '[' ∧ x ≠ ']') (rest : List Char) :
    tag? (c :: more ++ ']' :: rest) = some (c :: more, rest) := by
  have htake : (more ++ ']' :: rest).takeWhile (fun c => c ≠ '[' && c ≠ ']') = more := by
    rw [List.takeWhile_append_of_pos (by simpa using hm)]
    simp
  rw [List.cons_append]
  unfold tag?
  dsimp only
  rw [htake, List.drop_left, hc]
  rfl

theorem not_bracket_of_isTagStart (h : isTagStart c = true) : c ≠ '[' ∧ c ≠ ']' := by
  constructor
  · rintro rfl
    exact absurd h (by decide)
  · rintro rfl
    exact absurd h (by decide)

/-- There is a tag exactly if the text begins as tags do and its first bracket closes it. -/
theorem tag?_ne_none_iff (s : List Char) : tag? s ≠ none ↔
    (∃ c ∈ s.head?, isTagStart c = true) ∧ s.find? isBracket = some ']' := by
  constructor
  · intro h
    obtain ⟨⟨body, rest⟩, ht⟩ := Option.ne_none_iff_exists'.1 h
    obtain ⟨rfl, c, more, rfl, hc, hm⟩ := tag?_eq_some ht
    have hplain : ∀ x ∈ c :: more, (!isBracket x) = true := by
      intro x hx
      have hx : x ≠ '[' ∧ x ≠ ']' := (List.mem_cons.1 hx).elim
        (fun he => he ▸ not_bracket_of_isTagStart hc) (hm x)
      simp [isBracket, hx.1, hx.2]
    exact ⟨⟨c, rfl, hc⟩, List.find?_eq_some_iff_append.2 ⟨rfl, c :: more, rest, rfl, hplain⟩⟩
  · rintro ⟨⟨c, hhead, hc⟩, hfind⟩
    obtain ⟨-, before, rest, rfl, hplain⟩ := List.find?_eq_some_iff_append.1 hfind
    cases before with
    | nil =>
      obtain rfl : ']' = c := Option.some.inj hhead
      exact absurd hc (by decide)
    | cons x more =>
      obtain rfl : x = c := Option.some.inj hhead
      have hm : ∀ y ∈ more, y ≠ '[' ∧ y ≠ ']' := by
        intro y hy
        simpa [isBracket] using hplain y (List.mem_cons_of_mem x hy)
      rw [tag?_append hc hm rest]
      nofun

/-! ### What is written -/

theorem escapeFrom_slashes (n k : Nat) :
    escapeFrom (n + 1) (List.replicate k '\\') = List.replicate k '\\' := by
  rw [escapeFrom]
  simp only [takeWhile_only_slashes, List.length_replicate, List.drop_replicate, Nat.sub_self,
    List.replicate_zero]

theorem escapeFrom_char (n k : Nat) (hs : c ≠ '\\') (hb : c ≠ '[') (r : List Char) :
    escapeFrom (n + 1) (List.replicate k '\\' ++ c :: r) =
      List.replicate k '\\' ++ c :: escapeFrom n r := by
  rw [escapeFrom]
  simp only [takeWhile_slashes k fun r' h => hs (List.cons.inj h).1, List.length_replicate,
    drop_slashes]

theorem escapeFrom_bracket (n k : Nat) (ht : tag? r = none) :
    escapeFrom (n + 1) (List.replicate k '\\' ++ '[' :: r) =
      List.replicate k '\\' ++ '[' :: escapeFrom n r := by
  have htake := takeWhile_slashes k (r := '[' :: r) nofun
  rw [escapeFrom]
  simp only [htake, List.length_replicate, drop_slashes, ht]

theorem escapeFrom_tag (n k : Nat) (ht : tag? r = some (body, rest)) :
    escapeFrom (n + 1) (List.replicate k '\\' ++ '[' :: r) =
      List.replicate (2 * k + 1) '\\' ++ '[' :: (body ++ ']' :: escapeFrom n rest) := by
  have htake := takeWhile_slashes k (r := '[' :: r) nofun
  have htwice : List.replicate (2 * k + 1) '\\' =
      List.replicate k '\\' ++ List.replicate k '\\' ++ ['\\'] := by
    rw [List.replicate_append_replicate, ← List.replicate_succ', Nat.two_mul]
  rw [escapeFrom, htwice]
  simp only [htake, List.length_replicate, drop_slashes, ht, List.append_assoc,
    List.cons_append, List.nil_append]

/-- What is written with enough steps. -/
theorem escaped_escapeFrom (n : Nat) (s : List Char) (h : s.length < n) :
    Escaped s (escapeFrom n s) := by
  induction n generalizing s with
  | zero => omega
  | succ n ih =>
    obtain ⟨k, r, rfl, hr⟩ := exists_slashes s
    rw [List.length_append, List.length_replicate] at h
    cases r with
    | nil =>
      rw [List.append_nil, escapeFrom_slashes]
      exact .slashes k k
    | cons c r =>
      rw [List.length_cons] at h
      by_cases hc : c = '['
      · subst hc
        cases ht : tag? r with
        | none =>
          rw [escapeFrom_bracket n k ht]
          exact .bracket k ht (ih r (by omega))
        | some found =>
          obtain ⟨body, rest⟩ := found
          have hlen := congrArg List.length (tag?_eq_some ht).1
          rw [List.length_append, List.length_cons] at hlen
          rw [escapeFrom_tag n k ht]
          exact .tag k ht (ih rest (by omega))
      · have hslash : c ≠ '\\' := fun he => hr r (by rw [he])
        rw [escapeFrom_char n k hslash hc]
        exact .char k hslash hc (ih r (by omega))

/-- Backslashes at the end change nothing. -/
theorem Escaped.append (h : Escaped s w) (j : Nat) :
    Escaped s (w ++ List.replicate j '\\') := by
  induction h with
  | slashes k i =>
    rw [List.replicate_append_replicate]
    exact .slashes k (i + j)
  | char k hs hb h ih =>
    rw [List.append_assoc]
    exact .char k hs hb ih
  | bracket k ht h ih =>
    rw [List.append_assoc]
    exact .bracket k ht ih
  | tag k ht h ih =>
    rw [List.append_assoc, List.cons_append, List.append_assoc]
    exact .tag k ht ih

/-- **What is written for a text is the text, escaped.** -/
theorem escaped_escape (s : List Char) : Escaped s (escape s) := by
  have h := escaped_escapeFrom (s.length + 1) s (Nat.lt_succ_self _)
  unfold escape
  dsimp only
  split
  · exact h.append 1
  · exact h

/-! ### What is shown -/

theorem find?_slashes (k : Nat) (r : List Char) :
    (List.replicate k '\\' ++ r).find? isBracket = r.find? isBracket := by
  have hnone : (List.replicate k '\\').find? isBracket = none := by
    refine List.find?_eq_none.2 fun c hc => ?_
    rw [List.eq_of_mem_replicate hc]
    decide
  rw [List.find?_append, hnone, Option.none_or]

/-- The first bracket in what is written is that of the text. -/
theorem Escaped.find?_eq (h : Escaped s w) : w.find? isBracket = s.find? isBracket := by
  induction h with
  | slashes k j => rw [← List.append_nil (List.replicate j _), ← List.append_nil (List.replicate k _),
      find?_slashes, find?_slashes]
  | @char k c r w hs hb h ih =>
    rw [find?_slashes, find?_slashes, List.find?_cons, List.find?_cons, ih]
  | bracket k ht h ih =>
    rw [find?_slashes, find?_slashes]
    rfl
  | tag k ht h ih =>
    rw [find?_slashes, find?_slashes]
    rfl

/-- What is written begins as tags do only if the text does. -/
theorem Escaped.head (h : Escaped s w) (hw : ∃ c ∈ w.head?, isTagStart c = true) :
    ∃ c ∈ s.head?, isTagStart c = true := by
  have hnot : ∀ {c : Char} {r : List Char}, isTagStart c = false →
      ¬∃ x ∈ (c :: r).head?, isTagStart x = true := by
    rintro c r hc ⟨x, hx, ht⟩
    obtain rfl : c = x := Option.some.inj hx
    rw [hc] at ht
    cases ht
  cases h with
  | slashes k j =>
    cases j with
    | zero =>
      obtain ⟨x, hx, -⟩ := hw
      cases hx
    | succ j => exact absurd hw (hnot (by decide))
  | char k hs hb h =>
    cases k with
    | zero => exact hw
    | succ k => exact absurd hw (hnot (by decide))
  | bracket k ht h =>
    cases k with
    | zero => exact hw
    | succ k => exact absurd hw (hnot (by decide))
  | tag k ht h => exact absurd hw (hnot (by decide))

/-- What is no tag in the text is none in what is written. -/
theorem Escaped.tag?_eq_none (h : Escaped s w) (hs : tag? s = none) : tag? w = none := by
  by_contra hw
  obtain ⟨hhead, hfind⟩ := (tag?_ne_none_iff w).1 hw
  exact (tag?_ne_none_iff s).2 ⟨h.head hhead, h.find?_eq ▸ hfind⟩ hs

theorem partsFrom_slashes (n i k : Nat) :
    partsFrom (n + 1) i (List.replicate k '\\') = [.text (List.replicate k '\\')] := by
  rw [partsFrom]
  simp only [takeWhile_only_slashes, List.length_replicate, List.drop_replicate, Nat.sub_self,
    List.replicate_zero]

theorem partsFrom_char (n i k : Nat) (hs : c ≠ '\\') (hb : c ≠ '[') (r : List Char) :
    partsFrom (n + 1) i (List.replicate k '\\' ++ c :: r) =
      .text (List.replicate k '\\' ++ [c]) :: partsFrom n (i + k + 1) r := by
  rw [partsFrom]
  simp only [takeWhile_slashes k fun r' h => hs (List.cons.inj h).1, List.length_replicate,
    drop_slashes]

theorem partsFrom_bracket (n i k : Nat) (ht : tag? r = none) :
    partsFrom (n + 1) i (List.replicate k '\\' ++ '[' :: r) =
      .text ((List.replicate k '\\').drop 1 ++ ['[']) :: partsFrom n (i + k + 1) r := by
  have htake := takeWhile_slashes k (r := '[' :: r) nofun
  rw [partsFrom]
  simp only [htake, List.length_replicate, drop_slashes, ht]

theorem partsFrom_tag (n i k : Nat) (hk : k % 2 = 1) (ht : tag? r = some (body, rest)) :
    partsFrom (n + 1) i (List.replicate k '\\' ++ '[' :: r) =
      .text (List.replicate (k / 2) '\\' ++ '[' :: body ++ [']']) ::
        partsFrom n (i + k + body.length + 2) rest := by
  have htake := takeWhile_slashes k (r := '[' :: r) nofun
  rw [partsFrom]
  simp only [htake, List.length_replicate, drop_slashes, ht, if_pos hk]

/-- **All of an escaped text is shown as text**, wherever it stands. -/
theorem Escaped.onlyText (h : Escaped s w) (n i : Nat) : OnlyText (partsFrom n i w) := by
  have hcons : ∀ {shown : List Char} {ps : List Part}, OnlyText ps →
      OnlyText (.text shown :: ps) := by
    intro shown ps hps p hp
    rcases List.mem_cons.1 hp with rfl | hp
    · exact ⟨shown, rfl⟩
    · exact hps p hp
  induction h generalizing n i with
  | slashes k j =>
    cases n with
    | zero => nofun
    | succ n =>
      rw [partsFrom_slashes]
      exact hcons nofun
  | char k hs hb h ih =>
    cases n with
    | zero => nofun
    | succ n =>
      rw [partsFrom_char n i k hs hb]
      exact hcons (ih _ _)
  | bracket k ht h ih =>
    cases n with
    | zero => nofun
    | succ n =>
      rw [partsFrom_bracket n i k (h.tag?_eq_none ht)]
      exact hcons (ih _ _)
  | @tag k r body rest w ht h ih =>
    cases n with
    | zero => nofun
    | succ n =>
      obtain ⟨-, c, more, rfl, hc, hm⟩ := tag?_eq_some ht
      rw [partsFrom_tag n i (2 * k + 1) (by omega) (tag?_append hc hm w)]
      exact hcons (ih _ _)

theorem visibleParts_of_onlyText {ps : List Part} (h : OnlyText ps) (look : Look)
    (tags : List OpenTag) : ∃ shown, visibleParts look tags ps = .ok shown := by
  induction ps with
  | nil => exact ⟨[], rfl⟩
  | cons p ps ih =>
    obtain ⟨x, rfl⟩ := h p List.mem_cons_self
    obtain ⟨shown, hshown⟩ := ih fun q hq => h q (List.mem_cons_of_mem _ hq)
    exact ⟨x ++ shown, by rw [visibleParts, hshown]; rfl⟩

/-! ### The line of a fault -/

/-- A tag without backslashes in front of it. -/
theorem partsFrom_open (n i : Nat) (ht : tag? r = some (body, rest)) :
    partsFrom (n + 1) i ('[' :: r) =
      .text [] :: .tag i body :: partsFrom n (i + body.length + 2) rest := by
  rw [partsFrom]
  simp only [List.takeWhile_cons_of_neg (p := (· = '\\')) (a := '[') (l := r) (by decide),
    List.length_nil, List.drop_zero, ht]
  rfl

/-- Characters that begin nothing. -/
theorem partsFrom_plain (n i : Nat) (cs : List Char) (h : ∀ c ∈ cs, c ≠ '\\' ∧ c ≠ '[')
    (r : List Char) : partsFrom (n + cs.length) i (cs ++ r) =
      (cs.map fun c => .text [c]) ++ partsFrom n (i + cs.length) r := by
  induction cs generalizing i with
  | nil => rfl
  | cons c cs ih =>
    obtain ⟨hs, hb⟩ := h c List.mem_cons_self
    have hchar := partsFrom_char (n + cs.length) i 0 hs hb (cs ++ r)
    have hrest := ih (i + 1) fun x hx => h x (List.mem_cons_of_mem c hx)
    have hi : i + 1 + cs.length = i + (cs.length + 1) := by omega
    rw [hi] at hrest
    exact hchar.trans (congrArg (.text [c] :: ·) hrest)

/-- What stands in front of a fault that is reported: a word in a style, and a blank. -/
def errorMark : List Char :=
  '[' :: (['r', 'e', 'd'] ++ ']' :: (['E', 'r', 'r', 'o', 'r', ':'] ++
    '[' :: (['/', 'r', 'e', 'd'] ++ ']' :: [' '])))

theorem parts_errorMark (w : List Char) : parts (errorMark ++ w) =
    .text [] :: .tag 0 ['r', 'e', 'd'] ::
      ((['E', 'r', 'r', 'o', 'r', ':'].map fun c => .text [c]) ++
        .text [] :: .tag 11 ['/', 'r', 'e', 'd'] :: .text [' '] ::
          partsFrom (w.length + 10) 18 w) := by
  have hred : ∀ rest, tag? (['r', 'e', 'd'] ++ ']' :: rest) = some (['r', 'e', 'd'], rest) :=
    tag?_append (by decide) (by simp)
  have hclose : ∀ rest, tag? (['/', 'r', 'e', 'd'] ++ ']' :: rest) =
      some (['/', 'r', 'e', 'd'], rest) := tag?_append (by decide) (by simp)
  have hlen : (errorMark ++ w).length + 1 = w.length + 10 + 1 + 1 + 6 + 1 := by
    simp [errorMark]
  rw [parts, hlen]
  refine (partsFrom_open _ 0 (hred _)).trans ?_
  refine congrArg (fun ps => Part.text [] :: .tag 0 ['r', 'e', 'd'] :: ps) ?_
  refine (partsFrom_plain _ 5 ['E', 'r', 'r', 'o', 'r', ':'] (by simp) _).trans ?_
  refine congrArg (_ ++ ·) ((partsFrom_open _ 11 (hclose _)).trans ?_)
  refine congrArg (fun ps => Part.text [] :: .tag 11 ['/', 'r', 'e', 'd'] :: ps) ?_
  exact partsFrom_plain _ 17 [' '] (by simp) w

/-- The style of the mark is set and reset under one name, whatever the console makes of it. -/
theorem visible_errorMark (look : Look) {w shown : List Char}
    (h : visibleParts look [] (partsFrom (w.length + 10) 18 w) = .ok shown) :
    visible look (errorMark ++ w) = .ok (['E', 'r', 'r', 'o', 'r', ':', ' '] ++ shown) := by
  have hopened : opened look ['r', 'e', 'd'] = ⟨look.style ['r', 'e', 'd'], []⟩ := by
    have hname : nameOf ['r', 'e', 'd'] = ['r', 'e', 'd'] := by decide
    unfold opened
    rw [hname]
    rfl
  have hclosing : strip (nameOf ['r', 'e', 'd']) = ['r', 'e', 'd'] := by decide +kernel
  unfold visible
  rw [parts_errorMark]
  simp only [List.map_cons, List.map_nil, List.cons_append, List.nil_append, visibleParts, hopened,
    hclosing]
  simp [h, closed, Except.map, bind, Except.bind]

theorem line_escaped (look : Look) (s : String) :
    ∃ l, line look ("[red]Error:[/red] " ++ String.ofList (escape s.toList)) = .ok l := by
  obtain ⟨more, hmore⟩ := visibleParts_of_onlyText
    ((escaped_escape s.toList).onlyText ((escape s.toList).length + 10) 18) look []
  have hmark : ("[red]Error:[/red] " ++ String.ofList (escape s.toList)).toList =
      errorMark ++ escape s.toList := by
    rw [String.toList_append, String.toList_ofList, String.toList_ofList]
    rfl
  unfold line shown
  rw [hmark, visible_errorMark look hmore]
  exact ⟨_, rfl⟩

end Console

namespace CommandLine

/-- **A fault is reported in a line exactly if it is one of the library.** -/
theorem reported_iff (look : Console.Look) (f : Fault) :
    (∃ line, Outcome.reporting look (.error f) = .reported line) ↔ ∃ v, f = .view v := by
  constructor
  · rintro ⟨line, h⟩
    cases f with
    | view v => exact ⟨v, rfl⟩
    | _ => cases h
  · rintro ⟨v, rfl⟩
    obtain ⟨line, hline⟩ := Console.line_escaped look v.report.text
    refine ⟨line, ?_⟩
    unfold Outcome.reporting
    simp only [hline]

end CommandLine

end CachedViews
