import CachedViews.Proofs.Fields
import CachedViews.Proofs.Json.Texts

/-
# What is written as JSON can be read back

Nothing, truth values, integers that are not too long, texts, lists and mappings of texts are told
by JSON exactly (`Json.Exact`). Written on one line, such a value has a text without line breaks
and in printable ASCII alone, and the text reads as the value again (`Json.read_write`).

Reading goes from left to right and stops where a value ends, whatever follows it there. So each
part is read back in front of any rest (`Json.Told`): an integer by its digits
(`Json.readNumber_toDigits`), a text from between its quotes, and items and entries one after the
other, with as many levels as the text is long.

Key definitions: `Json.Exact`, `Json.Told`.
Key theorems: `Json.readNumber_toDigits`, `Json.readItems_told`, `Json.readEntries_told`,
`Json.told_of_exact`, `Json.read_write`.
-/

namespace CachedViews.Json

open CachedViews.Text

/-- Values that JSON tells exactly. -/
inductive Exact : Value → Prop
  | null : Exact .null
  | bool (b : Bool) : Exact (.bool b)
  | int (n : Int) (h : (Nat.toDigits 10 n.natAbs).length ≤ digitLimit) : Exact (.int n)
  | str (s : String) : Exact (.str s)
  | list (xs : List Value) (h : ∀ x ∈ xs, Exact x) : Exact (.list xs)
  | fields (fs : List (String × Value)) (hn : (fs.map Prod.fst).Nodup) (h : ∀ f ∈ fs, Exact f.2) :
    Exact (Value.ofFields fs)

variable {c : Char} {s rest : List Char} {n : Nat} {v : Value}

/-! ### Integers -/

/-- Behind a value comes a comma, a closing bracket or nothing. -/
def Ends (rest : List Char) : Prop := ∀ c ∈ rest.head?, c = ',' ∨ c = ']' ∨ c = '\x7d'

theorem isDigit_of_mem_toDigits (hc : c ∈ Nat.toDigits 10 n) : isDigit c = true := by
  have hdigit := Nat.isDigit_of_mem_toDigits (by decide) (by decide) hc
  simpa [Char.isDigit, isDigit, Char.le_def] using hdigit

/-- A number does not begin with a zero, if it is not nothing else. -/
theorem head_toDigits (h : 0 < n) :
    ∃ c ds, Nat.toDigits 10 n = c :: ds ∧ '1' ≤ c ∧ c ≤ '9' := by
  induction n using Nat.strongRecOn with
  | ind n ih =>
    rw [Nat.toDigits_eq_if (by decide)]
    split_ifs with hn
    · have hdigits : ∀ d : Fin 10, 0 < d.val → '1' ≤ Nat.digitChar d ∧ Nat.digitChar d ≤ '9' := by
        decide
      exact ⟨_, _, rfl, hdigits ⟨n, hn⟩ h⟩
    · obtain ⟨c, ds, hds, hc⟩ := ih (n / 10) (by omega) (by omega)
      exact ⟨c, ds ++ [(n % 10).digitChar], by rw [hds, List.cons_append], hc⟩

theorem ofDigits_toDigits (n : Nat) : Decimal.ofDigits (Nat.toDigits 10 n) = n := by
  have hfold := Nat.ofDigitChars_ten_toDigits (n := n)
  rwa [Nat.ofDigitChars_eq_foldl] at hfold

theorem takeDigits_append (hr : Ends rest) (n : Nat) :
    takeDigits (Nat.toDigits 10 n ++ rest) = (Nat.toDigits 10 n, rest) := by
  have hdigits : ∀ c ∈ Nat.toDigits 10 n, isDigit c = true := fun c => isDigit_of_mem_toDigits
  have hrest : rest.takeWhile isDigit = [] ∧ rest.dropWhile isDigit = rest := by
    cases rest with
    | nil => exact ⟨rfl, rfl⟩
    | cons c rest => rcases hr c rfl with rfl | rfl | rfl <;> exact ⟨rfl, rfl⟩
  rw [takeDigits, List.takeWhile_append_of_pos hdigits, List.dropWhile_append_of_pos hdigits,
    hrest.1, hrest.2, List.append_nil]

/-- **An integer is read back by its digits.** -/
theorem readNumber_toDigits (hr : Ends rest) (hn : (Nat.toDigits 10 n).length ≤ digitLimit)
    (negative : Bool) (start : Nat) :
    readNumber negative (Nat.toDigits 10 n ++ rest) start =
      .ok (.int (if negative then -n else n), rest) := by
  have hfraction : takeFraction? rest = none := by
    cases rest with
    | nil => rfl
    | cons c rest => rcases hr c rfl with rfl | rfl | rfl <;> rfl
  have hexponent : takeExponent? rest = none := by
    cases rest with
    | nil => rfl
    | cons c rest => rcases hr c rfl with rfl | rfl | rfl <;> rfl
  have hvalue := ofDigits_toDigits n
  rcases Nat.eq_zero_or_pos n with rfl | hpos
  · rw [Nat.toDigits_zero] at hn hvalue ⊢
    simp [readNumber, hfraction, hexponent, hvalue, digitLimit]
  · obtain ⟨c, ds, hds, hlow, hhigh⟩ := head_toDigits hpos
    have htake := takeDigits_append hr n
    have hzero : c ≠ '0' := by
      rintro rfl
      exact absurd hlow (by decide)
    rw [hds] at hn hvalue htake ⊢
    rw [List.cons_append] at htake ⊢
    simp only [readNumber, hlow, hhigh, and_self, if_true, htake, hfraction, hexponent]
    simpa [hvalue] using hn

/-! ### Values -/

/-- A text tells a value: it begins neither with a blank nor with a closing bracket, it is plain,
and it is read as the value wherever a value may end, with as many levels as it is long. -/
structure Told (t : List Char) (v : Value) : Prop where
  begins : ∃ c s, t = c :: s ∧ isSpace c = false ∧ c ≠ ']'
  plain : ∀ c ∈ t, isPlain c = true
  reads : ∀ fuel rest, Ends rest → t.length ≤ fuel →
    readValue fuel (t ++ rest) = .ok (v, rest)

variable {t : List Char} {fuel : Nat}

theorem skip_cons (hc : isSpace c = false) (s : List Char) : skip (c :: s) = c :: s := by
  rw [skip, List.dropWhile_cons_of_neg (by simp [hc])]

theorem Told.skip (h : Told t v) (rest : List Char) : skip (t ++ rest) = t ++ rest := by
  obtain ⟨c, s, rfl, hc, -⟩ := h.begins
  exact skip_cons hc _

theorem Told.skip_blank (h : Told t v) (rest : List Char) :
    Json.skip (' ' :: (t ++ rest)) = t ++ rest := by
  rw [Json.skip, List.dropWhile_cons_of_pos rfl]
  exact h.skip rest

theorem Told.append_ne (h : Told t v) (rest r : List Char) : t ++ rest ≠ ']' :: r := by
  obtain ⟨c, s, rfl, -, hc⟩ := h.begins
  exact fun he => hc (List.cons.inj he).1

/-- A text of at least one character that is read with any level left over is told. -/
theorem told_of_reads (hbegins : ∃ c s, t = c :: s ∧ isSpace c = false ∧ c ≠ ']')
    (hplain : ∀ c ∈ t, isPlain c = true)
    (hreads : ∀ fuel rest, Ends rest → t.length ≤ fuel + 1 →
      readValue (fuel + 1) (t ++ rest) = .ok (v, rest)) : Told t v := by
  refine ⟨hbegins, hplain, fun fuel rest hr hf => ?_⟩
  cases fuel with
  | zero =>
    obtain ⟨c, s, rfl, -⟩ := hbegins
    simp at hf
  | succ fuel => exact hreads fuel rest hr hf

/-- A text that is read whatever follows it is told. -/
theorem told_word (hplain : t.all isPlain = true)
    (hbegins : ∃ c s, t = c :: s ∧ isSpace c = false ∧ c ≠ ']')
    (hreads : ∀ fuel rest, readValue (fuel + 1) (t ++ rest) = .ok (v, rest)) : Told t v :=
  told_of_reads hbegins (List.all_eq_true.1 hplain) fun fuel rest _ _ => hreads fuel rest

theorem told_null : Told "null".toList .null :=
  told_word rfl ⟨_, _, rfl, rfl, by decide⟩ fun _ _ => rfl

theorem told_bool (b : Bool) : Told (if b then "true" else "false").toList (.bool b) := by
  cases b with
  | true => exact told_word rfl ⟨_, _, rfl, rfl, by decide⟩ fun _ _ => rfl
  | false => exact told_word rfl ⟨_, _, rfl, rfl, by decide⟩ fun _ _ => rfl

/-! ### Numbers -/

theorem ne_of_isDigit (h : isDigit c = true) {d : Char} (hd : isDigit d = false) : c ≠ d := by
  rintro rfl
  rw [h] at hd
  cases hd

/-- A digit begins a number. -/
theorem readValue_digit (hc : isDigit c = true) (fuel : Nat) (s : List Char) :
    readValue (fuel + 1) (c :: s) = readNumber false (c :: s) (c :: s).length := by
  have hne : ∀ d, isDigit d = false → c ≠ d := fun _ => ne_of_isDigit hc
  have h1 := hne '"' rfl
  have h2 := hne '\x7b' rfl
  have h3 := hne '[' rfl
  have h4 := hne 'n' rfl
  have h5 := hne 't' rfl
  have h6 := hne 'f' rfl
  have h7 := hne 'N' rfl
  have h8 := hne 'I' rfl
  have h9 := hne '-' rfl
  rw [readValue.eq_def]
  simp only
  split <;> simp_all

/-- A minus and a digit begin a negative number. -/
theorem readValue_minus (hc : isDigit c = true) (fuel : Nat) (s : List Char) :
    readValue (fuel + 1) ('-' :: c :: s) =
      readNumber true (c :: s) ('-' :: c :: s).length := by
  have hI : c ≠ 'I' := ne_of_isDigit hc rfl
  rw [readValue.eq_def]
  simp only
  split <;> simp_all

theorem plain_of_isDigit (h : isDigit c = true) : isPlain c = true := by
  simp only [isDigit, Bool.and_eq_true, decide_eq_true_eq, Char.le_def] at h
  simp only [isPlain, Bool.and_eq_true, decide_eq_true_eq]
  change 0x20 ≤ c.val.toNat ∧ c.val.toNat < 0x7f
  have h0 : ('0' : Char).val.toNat = 48 := rfl
  have h9 : ('9' : Char).val.toNat = 57 := rfl
  have hlow := UInt32.le_iff_toNat_le.1 h.1
  have hhigh := UInt32.le_iff_toNat_le.1 h.2
  omega

theorem isSpace_of_isDigit (h : isDigit c = true) : isSpace c = false := by
  have hne : ∀ d, isDigit d = false → c ≠ d := fun _ => ne_of_isDigit h
  simp [isSpace, hne ' ' rfl, hne '\t' rfl, hne '\n' rfl, hne '\r' rfl]

theorem toDigits_cons (n : Nat) : ∃ c ds, Nat.toDigits 10 n = c :: ds ∧ isDigit c = true := by
  cases hn : Nat.toDigits 10 n with
  | nil => exact absurd hn Nat.toDigits_ne_nil
  | cons c ds => exact ⟨c, ds, rfl, isDigit_of_mem_toDigits (by rw [hn]; exact List.mem_cons_self)⟩

theorem told_toDigits (h : (Nat.toDigits 10 n).length ≤ digitLimit) :
    Told (Nat.toDigits 10 n) (.int n) := by
  obtain ⟨c, ds, hds, hc⟩ := toDigits_cons n
  refine told_of_reads ⟨c, ds, hds, isSpace_of_isDigit hc, ne_of_isDigit hc rfl⟩
    (fun d hd => plain_of_isDigit (isDigit_of_mem_toDigits hd)) fun fuel rest hr _ => ?_
  have hread := readNumber_toDigits hr h false (c :: (ds ++ rest)).length
  rw [hds, List.cons_append] at hread ⊢
  rw [readValue_digit hc, hread]
  rfl

theorem told_minus (h : (Nat.toDigits 10 n).length ≤ digitLimit) :
    Told ('-' :: Nat.toDigits 10 n) (.int (-n)) := by
  obtain ⟨c, ds, hds, hc⟩ := toDigits_cons n
  refine told_of_reads ⟨'-', _, rfl, rfl, by decide⟩ ?_ fun fuel rest hr _ => ?_
  · rw [List.forall_mem_cons]
    exact ⟨rfl, fun d hd => plain_of_isDigit (isDigit_of_mem_toDigits hd)⟩
  · have hread := readNumber_toDigits hr h true ('-' :: c :: (ds ++ rest)).length
    rw [hds, List.cons_append] at hread
    rw [hds, List.cons_append, List.cons_append, readValue_minus hc, hread]
    rfl

theorem told_int {n : Int} (h : (Nat.toDigits 10 n.natAbs).length ≤ digitLimit) :
    Told (toString n).toList (.int n) := by
  rw [Int.toString_eq_repr]
  cases n with
  | ofNat m =>
    have htext : (Int.ofNat m).repr.toList = Nat.toDigits 10 m := Nat.toList_repr
    rw [htext]
    exact told_toDigits h
  | negSucc m =>
    have htext : (Int.negSucc m).repr.toList = '-' :: (m + 1).repr.toList :=
      String.toList_append
    rw [htext, Nat.toList_repr]
    exact told_minus h

theorem told_str (s : String) : Told (quote s).toList (.str s) := by
  rw [toList_quote]
  refine told_of_reads ⟨_, _, rfl, rfl, by decide⟩ (plain_quoteChars _) fun fuel rest _ _ => ?_
  rw [quoteChars, List.cons_append, List.cons_append, List.append_assoc, List.singleton_append,
    readValue, readString_quoteChars]
  simp

/-! ### Lists and mappings -/

/-- Texts behind commas. -/
def behindCommas : List (List Char) → List Char
  | [] => []
  | t :: ts => ',' :: ' ' :: (t ++ behindCommas ts)

theorem toList_intercalate (t : String) (ts : List String) :
    (String.intercalate ", " (t :: ts)).toList =
      t.toList ++ behindCommas (ts.map String.toList) := by
  induction ts generalizing t with
  | nil => simp [behindCommas]
  | cons t' ts ih =>
    rw [String.intercalate_cons_cons, String.toList_append, String.toList_append, ih]
    simp [behindCommas]

theorem ends_behindCommas {c : Char} (hc : c = ']' ∨ c = '\x7d') (ts : List (List Char))
    (rest : List Char) : Ends (behindCommas ts ++ c :: rest) := by
  intro d hd
  cases ts with
  | nil =>
    obtain rfl : c = d := Option.some.inj hd
    exact .inr hc
  | cons t ts => exact .inl (Option.some.inj hd).symm

/-- Items are read one after the other. -/
theorem readItems_told {ts : List (List Char)} {xs : List Value} (hts : List.Forall₂ Told ts xs)
    (h : Told t v) (items : List Value) (hf : (t ++ behindCommas ts).length + 1 ≤ fuel) :
    readItems fuel items (t ++ (behindCommas ts ++ ']' :: rest)) =
      .ok (.list (items ++ v :: xs), rest) := by
  induction hts generalizing t v items fuel with
  | nil =>
    obtain ⟨fuel, rfl⟩ : ∃ k, fuel = k + 1 := ⟨fuel - 1, by omega⟩
    have hread := h.reads fuel (']' :: rest) (ends_behindCommas (.inl rfl) [] rest)
      (by simp [behindCommas] at hf; omega)
    rw [readItems, behindCommas, List.nil_append, hread]
    simp only [skip_cons (c := ']') rfl]
  | @cons t' x ts xs ht _ ih =>
    obtain ⟨fuel, rfl⟩ : ∃ k, fuel = k + 1 := ⟨fuel - 1, by omega⟩
    simp only [behindCommas, List.length_append, List.length_cons] at hf
    have hread := h.reads fuel (behindCommas (t' :: ts) ++ ']' :: rest)
      (ends_behindCommas (.inl rfl) _ rest) (by omega)
    have hfuel : (t' ++ behindCommas ts).length + 1 ≤ fuel := by
      rw [List.length_append]
      omega
    rw [readItems, hread]
    simp only [behindCommas, List.cons_append, List.append_assoc, skip_cons (c := ',') rfl]
    rw [ht.skip_blank, ih ht (items ++ [v]) hfuel, List.append_assoc, List.singleton_append]

/-- The text of a field: its name, and the text that tells its value. -/
def fieldText (name : String) (t : List Char) : List Char :=
  quoteChars name.toList ++ ':' :: ' ' :: t

/-- A text is that of a field. -/
def ToldField (t : List Char) (f : String × Value) : Prop :=
  ∃ u, t = fieldText f.1 u ∧ Told u f.2

theorem ToldField.skip {f : String × Value} (h : ToldField t f) (rest : List Char) :
    skip (t ++ rest) = t ++ rest := by
  obtain ⟨u, rfl, -⟩ := h
  exact skip_cons rfl _

theorem ToldField.skip_blank {f : String × Value} (h : ToldField t f) (rest : List Char) :
    Json.skip (' ' :: (t ++ rest)) = t ++ rest := by
  rw [Json.skip, List.dropWhile_cons_of_pos rfl]
  exact h.skip rest

theorem ToldField.append_ne {f : String × Value} (h : ToldField t f) (rest r : List Char) :
    t ++ rest ≠ '\x7d' :: r := by
  obtain ⟨u, rfl, -⟩ := h
  exact fun he => absurd (List.cons.inj he).1 (by decide)

/-- The entries of a mapping of texts. -/
def entriesOf (fs : List (String × Value)) : List (Value × Value) :=
  fs.map fun (k, v) => (.str k, v)

theorem insertEntry_of_not_mem {fs : List (String × Value)} {name : String}
    (h : name ∉ fs.map Prod.fst) (v : Value) :
    Value.insertEntry (.str name) v (entriesOf fs) = entriesOf (fs ++ [(name, v)]) := by
  induction fs with
  | nil => rfl
  | cons f fs ih =>
    rw [List.map_cons, List.mem_cons, not_or] at h
    have hne : ¬(Value.str name).same (.str f.1) = true := by simpa [Value.same] using h.1
    have hcons : ∀ fs, entriesOf (f :: fs) = (.str f.1, f.2) :: entriesOf fs := fun _ => rfl
    rw [List.cons_append, hcons, hcons, Value.insertEntry, if_neg hne, ih h.2]

/-- One field is read, and what comes behind it is left. -/
theorem readEntries_field {f : String × Value} (h : ToldField t f) {fs : List (String × Value)}
    (hnew : f.1 ∉ fs.map Prod.fst) (hr : Ends rest) (hf : t.length ≤ fuel + 1) :
    readEntries (fuel + 1) (entriesOf fs) (t ++ rest) =
      match skip rest with
      | '\x7d' :: rest => .ok (Value.ofFields (fs ++ [f]), rest)
      | ',' :: rest => readEntries fuel (entriesOf (fs ++ [f])) (skip rest)
      | rest => .error (.malformed .expectingComma rest.length) := by
  obtain ⟨u, rfl, hu⟩ := h
  have hlen : u.length ≤ fuel := by
    simp only [fieldText, quoteChars, List.length_append, List.length_cons] at hf
    omega
  have hread := hu.reads fuel rest hr hlen
  have hinsert := insertEntry_of_not_mem hnew f.2
  rw [fieldText, quoteChars]
  simp only [List.cons_append, List.append_assoc, List.nil_append]
  rw [readEntries, readString_quoteChars]
  simp only [skip_cons (c := ':') rfl, String.ofList_toList]
  rw [hu.skip_blank, hread]
  simp only [hinsert]
  rfl

/-- Fields with different names are read one after the other. -/
theorem readEntries_told {ts : List (List Char)} {f : String × Value} {more : List (String × Value)}
    (hts : List.Forall₂ ToldField ts more) (h : ToldField t f) (fs : List (String × Value))
    (hn : ((fs ++ f :: more).map Prod.fst).Nodup)
    (hf : (t ++ behindCommas ts).length + 1 ≤ fuel) :
    readEntries fuel (entriesOf fs) (t ++ (behindCommas ts ++ '\x7d' :: rest)) =
      .ok (Value.ofFields (fs ++ f :: more), rest) := by
  have hnew : ∀ {fs more : List (String × Value)} {f : String × Value},
      ((fs ++ f :: more).map Prod.fst).Nodup → f.1 ∉ fs.map Prod.fst := by
    intro fs more f hn hmem
    rw [List.map_append] at hn
    exact List.disjoint_of_nodup_append hn hmem (by simp)
  induction hts generalizing t f fs fuel with
  | nil =>
    obtain ⟨fuel, rfl⟩ : ∃ k, fuel = k + 1 := ⟨fuel - 1, by omega⟩
    simp only [behindCommas, List.append_nil] at hf
    rw [readEntries_field h (hnew hn) (ends_behindCommas (.inr rfl) [] rest) (by omega)]
    simp only [behindCommas, List.nil_append, skip_cons (c := '\x7d') rfl]
  | @cons t' g ts more ht _ ih =>
    obtain ⟨fuel, rfl⟩ : ∃ k, fuel = k + 1 := ⟨fuel - 1, by omega⟩
    simp only [behindCommas, List.length_append, List.length_cons] at hf
    have hfuel : (t' ++ behindCommas ts).length + 1 ≤ fuel := by
      rw [List.length_append]
      omega
    have hsplit : fs ++ f :: g :: more = fs ++ [f] ++ g :: more := by simp
    rw [readEntries_field h (hnew hn) (ends_behindCommas (.inr rfl) _ rest) (by omega)]
    rw [hsplit] at hn ⊢
    simp only [behindCommas, List.cons_append, skip_cons (c := ',') rfl]
    rw [List.append_assoc, ht.skip_blank]
    exact ih ht (fs ++ [f]) hn hfuel

/-! ### Writing -/

theorem enclose_oneLine (level : Nat) (opening closing : String) (items : List String) :
    Layout.oneLine.enclose level opening closing items =
      opening ++ String.intercalate ", " items ++ closing := by
  cases items with
  | nil => simp [Layout.enclose]
  | cons t ts => simp [Layout.enclose, Layout.oneLine, Layout.break]

theorem plain_behindCommas {α : Type} {P : List Char → α → Prop} {ts : List (List Char)}
    {xs : List α} (h : List.Forall₂ P ts xs)
    (hplain : ∀ t x, P t x → ∀ c ∈ t, isPlain c = true) :
    ∀ c ∈ behindCommas ts, isPlain c = true := by
  induction h with
  | nil => exact fun _ hc => nomatch hc
  | cons hp _ ih =>
    rw [behindCommas, List.forall_mem_cons, List.forall_mem_cons, List.forall_mem_append]
    exact ⟨rfl, rfl, hplain _ _ hp, ih⟩

theorem ToldField.plain {f : String × Value} (h : ToldField t f) : ∀ c ∈ t, isPlain c = true := by
  obtain ⟨u, rfl, hu⟩ := h
  rw [fieldText, List.forall_mem_append, List.forall_mem_cons, List.forall_mem_cons]
  exact ⟨plain_quoteChars _, rfl, rfl, hu.plain⟩

/-- A text between brackets tells a value, if it is plain and is read as it there. -/
theorem told_between {c d : Char} (hc : isSpace c = false ∧ c ≠ ']' ∧ isPlain c = true)
    (hd : isPlain d = true) (hplain : ∀ c ∈ t, isPlain c = true)
    (hreads : ∀ fuel rest, t.length + 1 ≤ fuel →
      readValue (fuel + 1) (c :: (t ++ d :: rest)) = .ok (v, rest)) :
    Told (c :: (t ++ [d])) v := by
  refine told_of_reads ⟨_, _, rfl, hc.1, hc.2.1⟩ ?_ fun fuel rest _ hf => ?_
  · rw [List.forall_mem_cons, List.forall_mem_append, List.forall_mem_singleton]
    exact ⟨hc.2.2, hplain, hd⟩
  · rw [List.cons_append, List.append_assoc]
    simp only [List.length_cons, List.length_append, List.length_nil] at hf
    exact hreads fuel rest (by omega)

theorem toList_between {opening closing : String} {c d : Char} (hc : opening.toList = [c])
    (hd : closing.toList = [d]) (text : String) :
    (opening ++ text ++ closing).toList = c :: (text.toList ++ [d]) := by
  rw [String.toList_append, String.toList_append, hc, hd]
  rfl

/-- Texts between brackets that tell items tell the list. -/
theorem told_list {ts : List String} {xs : List Value}
    (h : List.Forall₂ (fun t v => Told t.toList v) ts xs) :
    Told ("[" ++ String.intercalate ", " ts ++ "]").toList (.list xs) := by
  rw [toList_between (c := '[') (d := ']') rfl rfl]
  cases h with
  | nil =>
    refine told_between (t := []) ⟨rfl, by decide, rfl⟩ rfl nofun fun fuel rest _ => ?_
    simp [readValue, skip_cons (c := ']') rfl]
  | @cons t v ts xs ht hts =>
    have hts' : List.Forall₂ Told (ts.map String.toList) xs := List.forall₂_map_left_iff.2 hts
    rw [toList_intercalate]
    refine told_between ⟨rfl, by decide, rfl⟩ rfl
      (List.forall_mem_append.2 ⟨ht.plain, plain_behindCommas hts' fun _ _ h => h.plain⟩)
      fun fuel rest hf => ?_
    rw [List.append_assoc, readValue_items (ht.skip _) (ht.append_ne _)]
    exact readItems_told hts' ht [] hf

/-- Texts between braces that tell fields with different names tell the mapping. -/
theorem told_fields {ts : List String} {fs : List (String × Value)}
    (hn : (fs.map Prod.fst).Nodup) (h : List.Forall₂ (fun t f => ToldField t.toList f) ts fs) :
    Told ("\x7b" ++ String.intercalate ", " ts ++ "\x7d").toList (Value.ofFields fs) := by
  rw [toList_between (c := '\x7b') (d := '\x7d') rfl rfl]
  cases h with
  | nil =>
    refine told_between (t := []) ⟨rfl, by decide, rfl⟩ rfl nofun fun fuel rest _ => ?_
    simp [readValue, skip_cons (c := '\x7d') rfl, Value.ofFields]
  | @cons t f ts fs ht hts =>
    have hts' : List.Forall₂ ToldField (ts.map String.toList) fs :=
      List.forall₂_map_left_iff.2 hts
    rw [toList_intercalate]
    refine told_between ⟨rfl, by decide, rfl⟩ rfl
      (List.forall_mem_append.2 ⟨ht.plain, plain_behindCommas hts' fun _ _ h => h.plain⟩)
      fun fuel rest hf => ?_
    rw [List.append_assoc, readValue_entries (ht.skip _) (ht.append_ne _)]
    exact readEntries_told hts' ht [] hn hf

/-! ### Exact values -/

theorem writeItems_told {xs : List Value} {level : Nat}
    (h : ∀ x ∈ xs, ∃ t, writeAt .oneLine level x = .ok t ∧ Told t.toList x) :
    ∃ ts, writeItems .oneLine level xs = .ok ts ∧
      List.Forall₂ (fun t v => Told t.toList v) ts xs := by
  induction xs with
  | nil => exact ⟨[], by rw [writeItems], .nil⟩
  | cons x xs ih =>
    obtain ⟨t, ht, htold⟩ := h x List.mem_cons_self
    obtain ⟨ts, hts, hall⟩ := ih fun y hy => h y (List.mem_cons_of_mem _ hy)
    refine ⟨t :: ts, ?_, .cons htold hall⟩
    rw [writeItems, ht, hts]
    rfl

theorem writeEntries_told {fs : List (String × Value)} {level : Nat}
    (h : ∀ f ∈ fs, ∃ t, writeAt .oneLine level f.2 = .ok t ∧ Told t.toList f.2) :
    ∃ ts, writeEntries .oneLine level (entriesOf fs) = .ok ts ∧
      List.Forall₂ (fun t f => ToldField t.toList f) ts fs := by
  induction fs with
  | nil => exact ⟨[], by rw [entriesOf, List.map_nil, writeEntries], .nil⟩
  | cons f fs ih =>
    obtain ⟨t, ht, htold⟩ := h f List.mem_cons_self
    obtain ⟨ts, hts, hall⟩ := ih fun g hg => h g (List.mem_cons_of_mem _ hg)
    refine ⟨(quote f.1 ++ ": " ++ t) :: ts, ?_, .cons ⟨t.toList, ?_, htold⟩ hall⟩
    · have hcons : entriesOf (f :: fs) = (.str f.1, f.2) :: entriesOf fs := rfl
      rw [hcons, writeEntries, ht, hts]
      rfl
    · rw [String.toList_append, String.toList_append, toList_quote, List.append_assoc]
      rfl

/-- A mapping has a text only if all that it holds has one. -/
theorem exists_text_of_write {l : Layout} {fs : List (String × Value)} {text : String}
    (h : write l (Value.ofFields fs) = .ok text) :
    ∀ f ∈ fs, ∃ t, writeAt l 1 f.2 = .ok t := by
  have hentries : ∀ ts, writeEntries l 1 (entriesOf fs) = .ok ts →
      ∀ f ∈ fs, ∃ t, writeAt l 1 f.2 = .ok t := by
    clear h
    induction fs with
    | nil => exact fun _ _ _ hf => nomatch hf
    | cons f fs ih =>
      intro ts hts
      have hcons : entriesOf (f :: fs) = (.str f.1, f.2) :: entriesOf fs := rfl
      rw [hcons, writeEntries] at hts
      cases ht : writeAt l 1 f.2 with
      | error x => simp [ht, keyText, bind, Except.bind] at hts
      | ok t =>
        cases hrest : writeEntries l 1 (entriesOf fs) with
        | error x => simp [ht, hrest, keyText, bind, Except.bind] at hts
        | ok rest => exact List.forall_mem_cons.2 ⟨⟨t, ht⟩, ih rest hrest⟩
  have hfields : Value.ofFields fs = .dict (entriesOf fs) := rfl
  rw [write, hfields, writeAt] at h
  cases hts : writeEntries l (0 + 1) (entriesOf fs) with
  | error x =>
    rw [hts] at h
    cases h
  | ok ts => exact hentries ts hts

/-- **Every exact value is told by its text.** -/
theorem told_of_exact (h : Exact v) (level : Nat) :
    ∃ t, writeAt .oneLine level v = .ok t ∧ Told t.toList v := by
  induction h generalizing level with
  | null => exact ⟨_, by rw [writeAt], told_null⟩
  | bool b => exact ⟨_, by rw [writeAt], told_bool b⟩
  | int n hn => exact ⟨_, by rw [writeAt, integerText, if_neg (Nat.not_lt.2 hn)], told_int hn⟩
  | str s => exact ⟨_, by rw [writeAt], told_str s⟩
  | list xs _ ih =>
    obtain ⟨ts, hts, hall⟩ := writeItems_told fun x hx => ih x hx (level + 1)
    refine ⟨_, by rw [writeAt, hts, Except.map, enclose_oneLine], told_list hall⟩
  | fields fs hn _ ih =>
    obtain ⟨ts, hts, hall⟩ := writeEntries_told fun f hf => ih f hf (level + 1)
    have hentries : Value.ofFields fs = .dict (entriesOf fs) := rfl
    refine ⟨_, by rw [hentries, writeAt, hts, Except.map, enclose_oneLine], told_fields hn hall⟩

/-- **What is written as JSON can be read back**: an exact value has a text of one line, in plain
characters alone, and reading the text gives the value. -/
theorem read_write (h : Exact v) :
    ∃ text, write .oneLine v = .ok text ∧ (∀ c ∈ text.toList, isPlain c = true) ∧
      read text = .ok v := by
  obtain ⟨text, hwrite, htold⟩ := told_of_exact h 0
  refine ⟨text, hwrite, htold.plain, ?_⟩
  have hmark : ∀ r, text.toList ≠ '\ufeff' :: r := fun r hr =>
    absurd (htold.plain '\ufeff' (by rw [hr]; exact List.mem_cons_self)) (by decide)
  have hskip := htold.skip []
  have hread := htold.reads (2 * text.toList.length + 2) [] nofun (by omega)
  rw [List.append_nil] at hskip hread
  rw [read, readChars.eq_def]
  split
  · exact absurd ‹_› (hmark _)
  · rw [hskip, hread]
    rfl

end CachedViews.Json
