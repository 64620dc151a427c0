import CachedViews.Proofs.Template.Expansion
import CachedViews.Template.Parser

/-
# How a template is cut

Pieces have a plain spelling (`sourceOf`): literals as they are, names between the signs that
open and close a print, and calls with quoted texts and names for arguments. A literal that opens
nothing, and names that are names and are not given twice in a call, can be spelt so (`isSpelled`).
Such a source is cut into the tokens of its pieces, whatever line it stands on (`cut_source`).

The bound on the steps of cutting is more than the number of characters that are left; `Cut` says
what a text is cut into from a place in the middle, and there is one lemma for each step.

Key definitions: `Piece.source`, `isSpelled`, `Piece.kinds`, `Cut`.
Key theorems: `unescape_escaped`, `Cut.token`, `Cut.print`, `cut_source`.
-/

namespace CachedViews.Template

open CachedViews.Text

/-! ### Spelling -/

/-- The inside of a quoted text. -/
def escapedChars (s : List Char) : List Char :=
  s.flatMap fun c => if c = '"' ∨ c = '\\' then ['\\', c] else [c]

/-- How an operand is spelt. -/
def Operand.source : Operand → List Char
  | .quoted s => '"' :: (escapedChars s.toList ++ ['"'])
  | .named x => x.toList

/-- How a further variable is spelt. -/
def extraSource (k : String × Operand) : List Char :=
  ',' :: ' ' :: (k.1.toList ++ '=' :: k.2.source)

/-- How a piece is spelt. -/
def Piece.source : Piece → List Char
  | .literal s => s.toList
  | .output x => '{' :: '{' :: ' ' :: (x.toList ++ [' ', '}', '}'])
  | .call name extras =>
    '{' :: '{' :: ' ' :: ("partial".toList ++ '(' :: (name.source ++
      (extras.flatMap extraSource ++ [')', ' ', '}', '}'])))

/-- How pieces are spelt. -/
def sourceOf (ps : List Piece) : List Char := ps.flatMap Piece.source

/-- A literal opens nothing, neither by itself nor with a sign behind it. -/
def isQuiet : List Char → Bool
  | [] => true
  | [c] => c != '{'
  | c :: d :: r => !(c == '{' && (d == '{' || d == '%' || d == '#')) && isQuiet (d :: r)

/-- The characters of a name. -/
def isName : List Char → Bool
  | [] => false
  | c :: r => !isDigit c && !isBlank c && (c :: r).all isWord

/-- The words that have a meaning of their own at the beginning of an expression. -/
def reservedWords : List String := ["true", "True", "false", "False", "none", "None", "not"]

/-- The name can be spelt as a variable. -/
def isVariable (x : String) : Bool := isName x.toList && !reservedWords.contains x

/-- The operand can be spelt. -/
def Operand.isSpelled : Operand → Bool
  | .quoted _ => true
  | .named x => isVariable x

/-- The piece can be spelt. -/
def Piece.isSpelled : Piece → Bool
  | .literal s => s != "" && isQuiet s.toList
  | .output x => isVariable x
  | .call name extras =>
    name.isSpelled && (extras.all fun k => isName k.1.toList && k.2.isSpelled) &&
      (extras.map Prod.fst).Nodup

/-- Is the piece a literal? -/
def Piece.isLiteral : Piece → Bool
  | .literal _ => true
  | _ => false

/-- The pieces can be spelt: each by itself, and no literal stands next to another one. -/
def isSpelled : List Piece → Bool
  | [] => true
  | p :: ps => p.isSpelled && !(p.isLiteral && ps.head?.any Piece.isLiteral) && isSpelled ps

theorem all_isSpelled {ps : List Piece} (hps : isSpelled ps = true) :
    ∀ p ∈ ps, p.isSpelled = true := by
  induction ps with
  | nil => exact fun _ hp => nomatch hp
  | cons p ps ih =>
    simp only [isSpelled, Bool.and_eq_true] at hps
    exact List.forall_mem_cons.2 ⟨hps.1.1, ih hps.2⟩

theorem isName_cons {c : Char} {x : List Char} (h : isName (c :: x) = true) :
    isDigit c = false ∧ isBlank c = false ∧ isWord c = true ∧ (c :: x).all isWord = true := by
  obtain ⟨⟨hdigit, hblank⟩, hwords⟩ : (isDigit c = false ∧ isBlank c = false) ∧
      (c :: x).all isWord = true := by simpa [isName] using h
  exact ⟨hdigit, hblank, (List.all_eq_true.1 hwords) c List.mem_cons_self, hwords⟩

theorem isName_of_isVariable {x : String} (h : isVariable x = true) : isName x.toList = true := by
  simp only [isVariable, Bool.and_eq_true] at h
  exact h.1

/-! ### Tokens of pieces -/

/-- The token of an operand. -/
def Operand.kind : Operand → TokenKind
  | .quoted s => .text s
  | .named x => .name x

/-- The tokens of a further variable. -/
def extraKinds (k : String × Operand) : List TokenKind :=
  [.op ",", .name k.1, .op "=", k.2.kind]

/-- The tokens of a piece. -/
def Piece.kinds : Piece → List TokenKind
  | .literal s => [.data s]
  | .output x => [.beginPrint, .name x, .endPrint]
  | .call name extras =>
    .beginPrint :: .name "partial" :: .op "(" :: name.kind ::
      (extras.flatMap extraKinds ++ [.op ")", .endPrint])

/-- The tokens of pieces. -/
def kindsOf (ps : List Piece) : List TokenKind := ps.flatMap Piece.kinds

/-- What a text is cut into from a place in the middle, on whatever line. -/
def Cut (mode : Mode) (s : List Char) (kinds : List TokenKind) : Prop :=
  ∀ total fuel line tokenLine lineStart last, s.length < fuel →
    (tokensFrom {} total fuel mode line tokenLine lineStart last s).map Token.kind = kinds

/-! ### What stands between signs -/

variable {open_ : List String} {last : Char} {total : Nat} {s rest : List Char}
  {kinds : List TokenKind}

theorem takeFloat?_cons {c : Char} (hc : isDigit c = false) (r : List Char) :
    takeFloat? (c :: r) = none := by
  simp [takeFloat?, takeDigits?, hc]

theorem takeInt?_cons {c : Char} (hc : isDigit c = false) (r : List Char) :
    takeInt? (c :: r) = none := by
  have hzero : c ≠ '0' := by
    rintro rfl
    cases hc
  unfold takeInt?
  split
  · rename_i h
    exact absurd (List.cons.inj h).1 hzero
  · rename_i h
    exact absurd (List.cons.inj h).1 hzero
  · simp [takeDigits?, hc]

theorem isWord_not_closing {c : Char} (hc : isWord c = true) (r : List Char) :
    closePrint? (c :: r) = none := by
  have hdash : c ≠ '-' := by
    rintro rfl
    cases hc
  have hbrace : c ≠ '}' := by
    rintro rfl
    cases hc
  unfold closePrint?
  split
  · rename_i h
    exact absurd (List.cons.inj h).1 hdash
  · rename_i h
    exact absurd (List.cons.inj h).1 hbrace
  · rfl

theorem takeWhile_word {x : List Char} (hx : x.all isWord = true)
    (hrest : rest.head?.all (fun c => !isWord c) = true) :
    (x ++ rest).takeWhile isWord = x ∧ (x ++ rest).dropWhile isWord = rest := by
  induction x with
  | nil =>
    cases rest with
    | nil => exact ⟨rfl, rfl⟩
    | cons c r =>
      have hc : isWord c = false := by simpa using hrest
      simp [hc]
  | cons c x ih =>
    obtain ⟨hc, hx⟩ : isWord c = true ∧ x.all isWord = true := by simpa using hx
    obtain ⟨htake, hdrop⟩ := ih hx
    simp [hc, htake, hdrop]

/-- A name up to a character that belongs to none. -/
theorem inner_name {x : List Char} (hx : isName x = true)
    (hrest : rest.head?.all (fun c => !isWord c) = true) :
    inner {} true open_ last total (x ++ rest) = .token (.name (String.ofList x)) rest := by
  cases x with
  | nil => cases hx
  | cons c x =>
    obtain ⟨hdigit, hblank, hword, hwords⟩ := isName_cons hx
    have hfloat : (if last = '.' then none else takeFloat? (c :: (x ++ rest))) = none := by
      rw [takeFloat?_cons hdigit, ite_self]
    obtain ⟨htake, hdrop⟩ := takeWhile_word hwords hrest
    rw [List.cons_append] at htake hdrop ⊢
    simp [inner, isWord_not_closing hword, hblank, hfloat, takeInt?_cons hdigit, hword, htake,
      hdrop]

/-- The operators of calls. -/
def callSigns : List Char := ['(', ')', ',', '=']

theorem takeOperator?_sign {c : Char} (hc : c ∈ callSigns) (hrest : rest.head? ≠ some '=') :
    takeOperator? (c :: rest) = some (c.toString, rest) := by
  simp only [callSigns, List.mem_cons, List.not_mem_nil, or_false] at hc
  rcases hc with rfl | rfl | rfl | rfl
  · rfl
  · rfl
  · rfl
  · cases rest with
    | nil => rfl
    | cons d r =>
      have hd : d ≠ '=' := fun he => hrest (he ▸ rfl)
      simp [takeOperator?, hd]

/-- A character that is an operator by itself. -/
theorem inner_op {c : Char} (hc : c ∈ callSigns) (hrest : rest.head? ≠ some '=') :
    inner {} true open_ last total (c :: rest) = .token (.op c.toString) rest := by
  obtain ⟨hdigit, hblank, hword, hquote, hclose⟩ : isDigit c = false ∧ isBlank c = false ∧
      isWord c = false ∧ ¬(c = '\'' ∨ c = '"') ∧ closePrint? (c :: rest) = none := by
    simp only [callSigns, List.mem_cons, List.not_mem_nil, or_false] at hc
    rcases hc with rfl | rfl | rfl | rfl <;> exact ⟨rfl, rfl, rfl, by decide, rfl⟩
  have hfloat : (if last = '.' then none else takeFloat? (c :: rest)) = none := by
    rw [takeFloat?_cons hdigit, ite_self]
  simp [inner, hclose, hblank, hfloat, takeInt?_cons hdigit, hword, hquote,
    takeOperator?_sign hc hrest]

/-! ### Quoted texts -/

theorem escapedChars_special {c : Char} (hc : c = '"' ∨ c = '\\') (s : List Char) :
    escapedChars (c :: s) = '\\' :: c :: escapedChars s := by
  simp [escapedChars, hc]

theorem escapedChars_plain {c : Char} (hc : ¬(c = '"' ∨ c = '\\')) (s : List Char) :
    escapedChars (c :: s) = c :: escapedChars s := by
  simp [escapedChars, hc]

theorem takeQuoted?_escaped (s : List Char) :
    takeQuoted? '"' (escapedChars s ++ '"' :: rest) = some (escapedChars s, rest) := by
  induction s with
  | nil => rfl
  | cons c s ih =>
    by_cases hc : c = '"' ∨ c = '\\'
    · rw [escapedChars_special hc, List.cons_append, List.cons_append, takeQuoted?, ih]
      rfl
    · obtain ⟨hquote, hslash⟩ := not_or.1 hc
      rw [escapedChars_plain hc, List.cons_append]
      unfold takeQuoted?
      split
      · rename_i h
        cases h
      · rename_i h
        exact absurd (List.cons.inj h).1 hslash
      · rename_i h
        obtain ⟨rfl, rfl⟩ := List.cons.inj h
        rw [if_neg hquote, if_neg hslash, ih]
        rfl

/-- Escapes are worked off again. -/
theorem unescape_escaped {fuel : Nat} {s : List Char} (hfuel : (escapedChars s).length < fuel) :
    unescape fuel (escapedChars s) = .ok s := by
  induction s generalizing fuel with
  | nil =>
    cases fuel <;> rfl
  | cons c s ih =>
    obtain ⟨fuel, rfl⟩ := Nat.exists_eq_succ_of_ne_zero (Nat.ne_zero_of_lt hfuel)
    by_cases hc : c = '"' ∨ c = '\\'
    · rw [escapedChars_special hc] at hfuel ⊢
      simp only [List.length_cons] at hfuel
      have hrest := ih (show (escapedChars s).length < fuel by omega)
      rcases hc with rfl | rfl <;> simp [unescape, hrest, Except.map]
    · rw [escapedChars_plain hc] at hfuel ⊢
      simp only [List.length_cons] at hfuel
      have hrest := ih (show (escapedChars s).length < fuel by omega)
      obtain ⟨-, hslash⟩ := not_or.1 hc
      simp [unescape, hslash, hrest, Except.map]

/-- A quoted text. -/
theorem inner_quoted (s : String) :
    inner {} true open_ last total ((Operand.quoted s).source ++ rest) =
      .token (.text s) rest := by
  have hsource : (Operand.quoted s).source ++ rest =
      '"' :: (escapedChars s.toList ++ '"' :: rest) := by simp [Operand.source]
  have hclose : closePrint? ('"' :: (escapedChars s.toList ++ '"' :: rest)) = none := rfl
  have hplain : isDigit '"' = false ∧ isBlank '"' = false ∧ isWord '"' = false := by decide
  have hfloat : (if last = '.' then none else
      takeFloat? ('"' :: (escapedChars s.toList ++ '"' :: rest))) = none := by
    rw [takeFloat?_cons hplain.1, ite_self]
  have hunescape : unescape ((escapedChars s.toList).length + 1) (escapedChars s.toList) =
      .ok s.toList := unescape_escaped (Nat.lt_succ_self _)
  rw [hsource]
  simp [inner, hclose, hfloat, takeInt?_cons hplain.1, hplain.2, takeQuoted?_escaped, hunescape]

/-- A blank before something that is none. -/
theorem inner_blank {c : Char} (hc : isBlank c = false) :
    inner {} true open_ last total (' ' :: c :: rest) = .skip (c :: rest) := by
  have hclose : closePrint? (' ' :: c :: rest) = none := rfl
  have hblank : isBlank ' ' = true := by decide
  simp [inner, hclose, skipBlanks, hblank, hc]

theorem inner_close : inner {} true [] last total ('}' :: '}' :: rest) = .close rest := rfl

/-! ### Steps of cutting -/

/-- A token between signs that is no operator. -/
theorem Cut.token {k : TokenKind} (hk : ∀ o, k ≠ .op o)
    (hinner : ∀ last total, inner {} true open_ last total s = .token k rest)
    (hlt : rest.length < s.length) (h : Cut (.inside true open_) rest kinds) :
    Cut (.inside true open_) s (k :: kinds) := by
  intro total fuel line tokenLine lineStart last hfuel
  obtain ⟨fuel, rfl⟩ := Nat.exists_eq_succ_of_ne_zero (Nat.ne_zero_of_lt hfuel)
  rw [tokensFrom]
  dsimp only
  rw [hinner]
  dsimp only
  split
  · exact absurd rfl (hk _)
  · rw [List.map_cons, h _ _ _ _ _ _ (by omega)]

/-- An operator between signs. -/
theorem Cut.op {o : String} {open' : List String} (hbalance : balance open_ o = .ok open')
    (hinner : ∀ last total, inner {} true open_ last total s = .token (.op o) rest)
    (hlt : rest.length < s.length) (h : Cut (.inside true open') rest kinds) :
    Cut (.inside true open_) s (.op o :: kinds) := by
  intro total fuel line tokenLine lineStart last hfuel
  obtain ⟨fuel, rfl⟩ := Nat.exists_eq_succ_of_ne_zero (Nat.ne_zero_of_lt hfuel)
  rw [tokensFrom]
  dsimp only
  rw [hinner]
  dsimp only
  rw [hbalance]
  dsimp only
  rw [List.map_cons, h _ _ _ _ _ _ (by omega)]

/-- A blank between signs. -/
theorem Cut.blank (hs : s.head?.any (fun c => !isBlank c) = true)
    (h : Cut (.inside true open_) s kinds) : Cut (.inside true open_) (' ' :: s) kinds := by
  intro total fuel line tokenLine lineStart last hfuel
  obtain ⟨fuel, rfl⟩ := Nat.exists_eq_succ_of_ne_zero (Nat.ne_zero_of_lt hfuel)
  rw [List.length_cons] at hfuel
  obtain ⟨c, rest, rfl⟩ : ∃ c rest, s = c :: rest := by
    cases s with
    | nil => cases hs
    | cons c rest => exact ⟨c, rest, rfl⟩
  rw [tokensFrom]
  dsimp only
  rw [inner_blank (by simpa using hs)]
  exact h _ _ _ _ _ _ (by omega)

/-- The sign that closes a print. -/
theorem Cut.close (h : Cut .root rest kinds) :
    Cut (.inside true []) (' ' :: '}' :: '}' :: rest) (.endPrint :: kinds) := by
  refine Cut.blank rfl fun total fuel line tokenLine lineStart last hfuel => ?_
  obtain ⟨fuel, rfl⟩ := Nat.exists_eq_succ_of_ne_zero (Nat.ne_zero_of_lt hfuel)
  simp only [List.length_cons] at hfuel
  rw [tokensFrom]
  dsimp only
  rw [inner_close]
  dsimp only
  rw [List.map_cons, h _ _ _ _ _ _ (by omega)]
  rfl

/-- The tokens of text outside of signs. -/
def dataKinds (t : List Char) : List TokenKind :=
  if t.isEmpty then [] else [.data (String.ofList t)]

/-- Nothing opens in a quiet text. -/
theorem opening?_quiet {c d : Char} {r : List Char}
    (h : (c == '{' && (d == '{' || d == '%' || d == '#')) = false) :
    opening? (c :: d :: r) = none := by
  unfold opening?
  split <;> simp_all

theorem isQuiet_cons {c d : Char} {r : List Char} (h : isQuiet (c :: d :: r) = true) :
    (c == '{' && (d == '{' || d == '%' || d == '#')) = false ∧ isQuiet (d :: r) = true := by
  simpa only [isQuiet, Bool.and_eq_true, Bool.not_eq_true'] using h

theorem splitAt?_quiet {t : List Char} (ht : isQuiet t = true) :
    splitAt? opening? t = (t, none) := by
  induction t using isQuiet.induct with
  | case1 => rfl
  | case2 c => simp [splitAt?, opening?]
  | case3 c d r ih =>
    obtain ⟨hcd, hr⟩ := isQuiet_cons ht
    rw [splitAt?, opening?_quiet hcd, ih hr]

theorem splitAt?_print {t : List Char} (ht : isQuiet t = true) (r : List Char) :
    splitAt? opening? (t ++ '{' :: '{' :: ' ' :: r) = (t, some (.print none, ' ' :: r)) := by
  induction t using isQuiet.induct with
  | case1 => rfl
  | case2 c =>
    have hc : (c == '{') = false := by simpa [isQuiet] using ht
    have hcd : (c == '{' && ('{' == '{' || '{' == '%' || '{' == '#')) = false := by simp [hc]
    rw [List.cons_append, List.nil_append, splitAt?, opening?_quiet hcd]
    rfl
  | case3 c d s ih =>
    obtain ⟨hcd, hs⟩ := isQuiet_cons ht
    rw [List.cons_append, List.cons_append, splitAt?, opening?_quiet hcd]
    rw [List.cons_append] at ih
    rw [ih hs]

/-- Text outside of signs, up to the end. -/
theorem Cut.finish {t : List Char} (ht : isQuiet t = true) :
    Cut .root t (dataKinds t ++ [.finish]) := by
  intro total fuel line tokenLine lineStart last hfuel
  obtain ⟨fuel, rfl⟩ := Nat.exists_eq_succ_of_ne_zero (Nat.ne_zero_of_lt hfuel)
  rw [tokensFrom, splitAt?_quiet ht]
  unfold dataKinds
  dsimp only
  split <;> rfl

/-- Text outside of signs, up to a print. -/
theorem Cut.print {t : List Char} (ht : isQuiet t = true)
    (h : Cut (.inside true []) (' ' :: rest) kinds) :
    Cut .root (t ++ '{' :: '{' :: ' ' :: rest) (dataKinds t ++ .beginPrint :: kinds) := by
  intro total fuel line tokenLine lineStart last hfuel
  obtain ⟨fuel, rfl⟩ := Nat.exists_eq_succ_of_ne_zero (Nat.ne_zero_of_lt hfuel)
  simp only [List.length_append, List.length_cons] at hfuel
  have hstrip : stripData {} none true lineStart t = t := by simp [stripData]
  rw [tokensFrom, splitAt?_print ht]
  dsimp only [Opening.sign]
  rw [hstrip]
  have hmore : ∀ line tokenLine lineStart last,
      (tokensFrom {} total fuel (.inside true []) line tokenLine lineStart last
        (' ' :: rest)).map Token.kind = kinds := fun _ _ _ _ => h _ _ _ _ _ _ (by
          simp only [List.length_cons]
          omega)
  unfold dataKinds
  split <;> simp [hmore]

/-! ### Pieces -/

theorem head_name {x : List Char} (hx : isName x = true) (rest : List Char) :
    ∃ c r, x ++ rest = c :: r ∧ isBlank c = false ∧ c ≠ '=' := by
  cases x with
  | nil => cases hx
  | cons c x =>
    obtain ⟨-, hblank, hword, -⟩ := isName_cons hx
    refine ⟨c, x ++ rest, rfl, hblank, ?_⟩
    rintro rfl
    cases hword

theorem Cut.name {x : String} (hx : isName x.toList = true)
    (hrest : rest.head?.all (fun c => !isWord c) = true)
    (h : Cut (.inside true open_) rest kinds) :
    Cut (.inside true open_) (x.toList ++ rest) (.name x :: kinds) := by
  have hinner : ∀ last total, inner {} true open_ last total (x.toList ++ rest) =
      .token (.name x) rest := fun last total => by
    rw [inner_name hx hrest, String.ofList_toList]
  refine Cut.token nofun hinner ?_ h
  cases hl : x.toList with
  | nil =>
    rw [hl] at hx
    cases hx
  | cons c r =>
    simp only [List.length_append, List.length_cons]
    omega

theorem Cut.operand {o : Operand} (ho : o.isSpelled = true)
    (hrest : rest.head?.all (fun c => !isWord c) = true)
    (h : Cut (.inside true open_) rest kinds) :
    Cut (.inside true open_) (o.source ++ rest) (o.kind :: kinds) := by
  cases o with
  | quoted s =>
    refine Cut.token nofun (fun _ _ => inner_quoted s) ?_ h
    simp only [Operand.source, List.length_append, List.length_cons]
    omega
  | named x => exact Cut.name (isName_of_isVariable ho) hrest h

theorem head_operand {o : Operand} (ho : o.isSpelled = true) (rest : List Char) :
    (o.source ++ rest).head? ≠ some '=' := by
  cases o with
  | quoted s => simp [Operand.source]
  | named x =>
    obtain ⟨c, r, hc, -, hne⟩ := head_name (isName_of_isVariable ho) rest
    rw [Operand.source, hc, List.head?_cons]
    exact fun he => hne (Option.some.inj he)

/-- The signs in a call. -/
theorem Cut.sign {c : Char} {open' : List String} (hc : c ∈ callSigns)
    (hbalance : balance open_ c.toString = .ok open') (hrest : rest.head? ≠ some '=')
    (h : Cut (.inside true open') rest kinds) :
    Cut (.inside true open_) (c :: rest) (.op c.toString :: kinds) :=
  Cut.op hbalance (fun _ _ => inner_op hc hrest) (Nat.lt_succ_self _) h

/-- The further variables of a call, up to the bracket that closes it. -/
theorem Cut.extras {extras : List (String × Operand)}
    (hextras : ∀ k ∈ extras, isName k.1.toList = true ∧ k.2.isSpelled = true)
    (h : Cut (.inside true [")"]) (')' :: rest) kinds) :
    Cut (.inside true [")"]) (extras.flatMap extraSource ++ ')' :: rest)
      (extras.flatMap extraKinds ++ kinds) := by
  induction extras with
  | nil => exact h
  | cons k extras ih =>
    obtain ⟨hname, hoperand⟩ := hextras k List.mem_cons_self
    have htail := ih fun k hk => hextras k (List.mem_cons_of_mem _ hk)
    -- what follows an operand is a comma or the bracket
    have hend : (extras.flatMap extraSource ++ ')' :: rest).head?.all
        (fun c => !isWord c) = true := by
      cases extras <;> rfl
    have hequals := Cut.sign (c := '=') (by decide) rfl (head_operand hoperand _)
      (Cut.operand hoperand hend htail)
    have hkey := Cut.name hname (by rfl) hequals
    obtain ⟨c, r, hc, hblank, hne⟩ := head_name hname
      ('=' :: (k.2.source ++ (extras.flatMap extraSource ++ ')' :: rest)))
    have hspace := Cut.blank (by rw [hc]; simp [hblank]) hkey
    have hcomma := Cut.sign (c := ',') (by decide) rfl (by simp) hspace
    simpa [extraSource, extraKinds] using hcomma

/-- A printed name. -/
theorem Cut.output {x : String} (hx : isVariable x = true) (h : Cut .root rest kinds) :
    Cut (.inside true []) (' ' :: (x.toList ++ ' ' :: '}' :: '}' :: rest))
      (.name x :: .endPrint :: kinds) := by
  have hname := isName_of_isVariable hx
  obtain ⟨c, r, hc, hblank, -⟩ := head_name hname (' ' :: '}' :: '}' :: rest)
  exact Cut.blank (by rw [hc]; simp [hblank]) (Cut.name hname rfl h.close)

/-- A call of a partial. -/
theorem Cut.call {name : Operand} {extras : List (String × Operand)}
    (hname : name.isSpelled = true)
    (hextras : ∀ k ∈ extras, isName k.1.toList = true ∧ k.2.isSpelled = true)
    (h : Cut .root rest kinds) :
    Cut (.inside true []) (' ' :: ("partial".toList ++ '(' :: (name.source ++
        (extras.flatMap extraSource ++ ')' :: ' ' :: '}' :: '}' :: rest))))
      (.name "partial" :: .op "(" :: name.kind ::
        (extras.flatMap extraKinds ++ .op ")" :: .endPrint :: kinds)) := by
  have hclose : Cut (.inside true [")"]) (')' :: ' ' :: '}' :: '}' :: rest)
      (.op ")" :: .endPrint :: kinds) := Cut.sign (c := ')') (by decide) rfl (by simp) h.close
  have hend : (extras.flatMap extraSource ++ ')' :: ' ' :: '}' :: '}' :: rest).head?.all
      (fun c => !isWord c) = true := by
    cases extras <;> rfl
  have harguments := Cut.operand hname hend (Cut.extras hextras hclose)
  have hopen := Cut.sign (c := '(') (by decide) rfl (head_operand hname _) harguments
  exact Cut.blank rfl (Cut.name (by decide) rfl hopen)

/-- **The source of pieces is cut into their tokens.** The text before them is a literal of its
own. -/
theorem cut_source {ps : List Piece} (hps : isSpelled ps = true) {t : List Char}
    (ht : isQuiet t = true) (hnext : t ≠ [] → ps.head?.any Piece.isLiteral = false) :
    Cut .root (t ++ sourceOf ps) (dataKinds t ++ (kindsOf ps ++ [.finish])) := by
  induction ps generalizing t with
  | nil => simpa [sourceOf, kindsOf] using Cut.finish ht
  | cons p ps ih =>
    obtain ⟨⟨hp, hliteral⟩, hrest⟩ : (p.isSpelled = true ∧
        (p.isLiteral && ps.head?.any Piece.isLiteral) = false) ∧ isSpelled ps = true := by
      simpa only [isSpelled, Bool.and_eq_true, Bool.not_eq_true'] using hps
    have hafter : Cut .root (sourceOf ps) (kindsOf ps ++ [.finish]) := ih hrest rfl (absurd rfl)
    cases p with
    | literal s =>
      obtain rfl : t = [] := by
        by_contra hne
        exact absurd (hnext hne) (by simp [Piece.isLiteral])
      obtain ⟨hne, hquiet⟩ : s ≠ "" ∧ isQuiet s.toList = true := by
        simpa [Piece.isSpelled] using hp
      have hs : dataKinds s.toList = [.data s] := by
        simp [dataKinds, hne]
      have hwhole := ih hrest hquiet fun _ => by simpa [Piece.isLiteral] using hliteral
      rw [hs] at hwhole
      exact hwhole
    | output x =>
      have hprint := Cut.print ht (Cut.output hp hafter)
      simpa [sourceOf, kindsOf, Piece.source, Piece.kinds] using hprint
    | call name extras =>
      obtain ⟨⟨hname, hextras⟩, -⟩ : (name.isSpelled = true ∧
          ∀ k ∈ extras, isName k.1.toList = true ∧ k.2.isSpelled = true) ∧
            (extras.map Prod.fst).Nodup := by
        simpa [Piece.isSpelled] using hp
      have hprint := Cut.print ht (Cut.call hname hextras hafter)
      simpa [sourceOf, kindsOf, Piece.source, Piece.kinds] using hprint

end CachedViews.Template
