import CachedViews.Json.Writer
import CachedViews.Text.Wordlike

/-
# Reading JSON

A recursive-descent reader that keeps the entries of objects in order; a key
that comes again takes the new value in its old place. Next to the standard it
knows the words `NaN`, `Infinity` and `-Infinity`. A text that is no JSON is
refused with the first place where reading got stuck, as line, column and
character.

Reading a string is recursion on its characters: first its code points, of which
two may be the halves of one character, then the characters. Texts are sequences
of Unicode scalar values, in which half of a character has no place: one without
its other half becomes the replacement character. Values are nested, so reading
them takes a depth bound that the length of the text always meets.

Key definitions: `Json.Fault`, `Json.readUnits`, `Json.joinHalves`, `Json.readValue`, `Json.read`.
Key theorems: `Json.readValue_items`, `Json.readValue_entries`.
-/

namespace CachedViews.Json

open CachedViews.Text

/-- Why a text is no JSON. -/
inductive Reason where
  | expectingValue
  | expectingName
  | expectingColon
  | expectingComma
  | extraData
  | unterminated
  | invalidControl
  | invalidEscape
  | invalidUnicode
  | byteOrderMark
  deriving Repr, BEq, DecidableEq

/-- The wording of a reason. -/
def Reason.text : Reason → String
  | .expectingValue => "Expecting value"
  | .expectingName => "Expecting property name enclosed in double quotes"
  | .expectingColon => "Expecting ':' delimiter"
  | .expectingComma => "Expecting ',' delimiter"
  | .extraData => "Extra data"
  | .unterminated => "Unterminated string starting at"
  | .invalidControl => "Invalid control character at"
  | .invalidEscape => "Invalid \\escape"
  | .invalidUnicode => "Invalid \\uXXXX escape"
  | .byteOrderMark => "Unexpected UTF-8 BOM (decode using utf-8-sig)"

/-- Where reading stopped: the number of characters that were left. -/
inductive Stop where
  | malformed (reason : Reason) (left : Nat)
  /-- An integer has more digits than are converted. -/
  | hugeInteger (digits : Nat)
  deriving Repr, BEq, DecidableEq

/-- Why reading a text failed, with the place counted from its beginning. -/
inductive Fault where
  | malformed (reason : Reason) (line column position : Nat)
  | hugeInteger (digits : Nat)
  deriving Repr, BEq, DecidableEq

/-- The text of a fault. -/
def Fault.message : Fault → String
  | .malformed reason line column position =>
    s!"{reason.text}: line {line} column {column} (char {position})"
  | .hugeInteger digits =>
    s!"Exceeds the limit (4300 digits) for integer string conversion: value has {digits} digits; use sys.set_int_max_str_digits() to increase the limit"

/-- Blanks between the tokens. -/
def isSpace (c : Char) : Bool := c = ' ' || c = '\t' || c = '\n' || c = '\r'

/-- The text from its first character that is no blank. -/
def skip (s : List Char) : List Char := s.dropWhile isSpace

/-- The value of four digits in base sixteen. -/
def unit? (a b c d : Char) : Option Nat :=
  match digitValue? a, digitValue? b, digitValue? c, digitValue? d with
  | some a, some b, some c, some d => some (((a * 16 + b) * 16 + c) * 16 + d)
  | _, _, _, _ => none

/-- The first half of a pair that writes a character beyond U+FFFF. -/
def isHighHalf (n : Nat) : Bool := 0xd800 ≤ n && n < 0xdc00

/-- The second half of such a pair. -/
def isLowHalf (n : Nat) : Bool := 0xdc00 ≤ n && n < 0xe000

/-- The character of a code point; a half that stands alone has none and is
replaced. -/
def charOfUnit (n : Nat) : Char :=
  if isHighHalf n || isLowHalf n then '\ufffd' else Char.ofNat n

/-- The character behind a backslash that stands for one other. -/
def simpleEscape? : Char → Option Char
  | '"' => some '"'
  | '\\' => some '\\'
  | '/' => some '/'
  | 'b' => some '\x08'
  | 'f' => some '\x0c'
  | 'n' => some '\n'
  | 'r' => some '\r'
  | 't' => some '\t'
  | _ => none

/-- The characters of code points; two halves in a row that fit make one. -/
def joinHalves : List Nat → List Char
  | [] => []
  | [n] => [charOfUnit n]
  | n :: m :: r =>
    if isHighHalf n && isLowHalf m then
      Char.ofNat (0x10000 + (n - 0xd800) * 0x400 + (m - 0xdc00)) :: joinHalves r
    else charOfUnit n :: joinHalves (m :: r)

/-- Put a code point in front of what was read. -/
def consRead (n : Nat) : Except Stop (List Nat × List Char) → Except Stop (List Nat × List Char)
  | .ok (s, rest) => .ok (n :: s, rest)
  | .error e => .error e

/-- Read the code points of a string behind its opening quote. `opening` is what
was left at that quote. The second result is what is left behind the closing
quote. -/
def readUnits (opening : Nat) : List Char → Except Stop (List Nat × List Char)
  | [] => .error (.malformed .unterminated opening)
  | '"' :: r => .ok ([], r)
  | '\\' :: 'u' :: a :: b :: c :: d :: r =>
    if r.isEmpty then .error (.malformed .invalidUnicode 5)
    else match unit? a b c d with
      | none => .error (.malformed .invalidUnicode (r.length + 5))
      | some n => consRead n (readUnits opening r)
  | '\\' :: c :: r =>
    if c = 'u' then .error (.malformed .invalidUnicode (r.length + 1))
    else match simpleEscape? c with
      | some d => consRead d.toNat (readUnits opening r)
      | none => .error (.malformed .invalidEscape (r.length + 2))
  | c :: r =>
    if c = '\\' then .error (.malformed .unterminated opening)
    else if c.toNat < 0x20 then .error (.malformed .invalidControl (r.length + 1))
    else consRead c.toNat (readUnits opening r)

/-- Read a string behind its opening quote. -/
def readString (opening : Nat) (s : List Char) : Except Stop (List Char × List Char) :=
  (readUnits opening s).map fun (units, rest) => (joinHalves units, rest)

/-- The digits at the beginning of a text, and what follows. -/
def takeDigits (s : List Char) : List Char × List Char :=
  (s.takeWhile isDigit, s.dropWhile isDigit)

/-- A point and at least one digit, if the text begins so. -/
def takeFraction? : List Char → Option (List Char × List Char)
  | '.' :: r =>
    match takeDigits r with
    | ([], _) => none
    | (ds, rest) => some (ds, rest)
  | _ => none

/-- An exponent, if the text begins with one. -/
def takeExponent? : List Char → Option (Int × List Char)
  | e :: r =>
    if e = 'e' ∨ e = 'E' then
      let (negative, r) := match r with
        | '-' :: r => (true, r)
        | '+' :: r => (false, r)
        | r => (false, r)
      match takeDigits r with
      | ([], _) => none
      | (ds, rest) =>
        let n : Int := Decimal.ofDigits ds
        some (if negative then -n else n, rest)
    else none
  | [] => none

/-- Read a number, whose sign was looked at already. -/
def readNumber (negative : Bool) (s : List Char) (start : Nat) :
    Except Stop (Value × List Char) :=
  let whole? := match s with
    | '0' :: r => some (['0'], r)
    | c :: _ => if '1' ≤ c ∧ c ≤ '9' then some (takeDigits s) else none
    | [] => none
  match whole? with
  | none => .error (.malformed .expectingValue start)
  | some (whole, r) =>
    let (fraction, r') := match takeFraction? r with
      | some (ds, r') => (some ds, r')
      | none => (none, r)
    let (exponent, r'') := match takeExponent? r' with
      | some (e, r'') => (some e, r'')
      | none => (none, r')
    if fraction.isSome ∨ exponent.isSome then
      .ok (.float (Decimal.floatOfParts negative whole (fraction.getD []) (exponent.getD 0)), r'')
    else if digitLimit < whole.length then .error (.hugeInteger whole.length)
    else
      let n : Int := Decimal.ofDigits whole
      .ok (.int (if negative then -n else n), r'')

mutual

/-- Read a value at the beginning of a text. -/
def readValue : Nat → List Char → Except Stop (Value × List Char)
  | 0, s => .error (.malformed .expectingValue s.length)
  | fuel + 1, s =>
    match s with
    | [] => .error (.malformed .expectingValue 0)
    | '"' :: r =>
      match readString (r.length + 1) r with
      | .ok (t, rest) => .ok (.str (String.ofList t), rest)
      | .error e => .error e
    | '{' :: r =>
      match skip r with
      | '}' :: rest => .ok (.dict [], rest)
      | r' => readEntries fuel [] r'
    | '[' :: r =>
      match skip r with
      | ']' :: rest => .ok (.list [], rest)
      | r' => readItems fuel [] r'
    | 'n' :: 'u' :: 'l' :: 'l' :: r => .ok (.null, r)
    | 't' :: 'r' :: 'u' :: 'e' :: r => .ok (.bool true, r)
    | 'f' :: 'a' :: 'l' :: 's' :: 'e' :: r => .ok (.bool false, r)
    | 'N' :: 'a' :: 'N' :: r => .ok (.float (0.0 / 0.0), r)
    | 'I' :: 'n' :: 'f' :: 'i' :: 'n' :: 'i' :: 't' :: 'y' :: r => .ok (.float (1.0 / 0.0), r)
    | '-' :: 'I' :: 'n' :: 'f' :: 'i' :: 'n' :: 'i' :: 't' :: 'y' :: r =>
      .ok (.float (-1.0 / 0.0), r)
    | '-' :: r => readNumber true r s.length
    | s => readNumber false s s.length

/-- Read the items of an array from the beginning of one. -/
def readItems : Nat → List Value → List Char → Except Stop (Value × List Char)
  | 0, _, s => .error (.malformed .expectingValue s.length)
  | fuel + 1, items, s =>
    match readValue fuel s with
    | .error e => .error e
    | .ok (v, rest) =>
      match skip rest with
      | ']' :: rest => .ok (.list (items ++ [v]), rest)
      | ',' :: rest => readItems fuel (items ++ [v]) (skip rest)
      | rest => .error (.malformed .expectingComma rest.length)

/-- Read the entries of an object from the beginning of a key. -/
def readEntries : Nat → List (Value × Value) → List Char → Except Stop (Value × List Char)
  | 0, _, s => .error (.malformed .expectingValue s.length)
  | fuel + 1, entries, s =>
    match s with
    | '"' :: r =>
      match readString (r.length + 1) r with
      | .error e => .error e
      | .ok (k, rest) =>
        match skip rest with
        | ':' :: rest =>
          match readValue fuel (skip rest) with
          | .error e => .error e
          | .ok (v, rest) =>
            let entries := Value.insertEntry (.str (String.ofList k)) v entries
            match skip rest with
            | '}' :: rest => .ok (.dict entries, rest)
            | ',' :: rest => readEntries fuel entries (skip rest)
            | rest => .error (.malformed .expectingComma rest.length)
        | rest => .error (.malformed .expectingColon rest.length)
    | s => .error (.malformed .expectingName s.length)

end

/-- Behind an opening bracket stand items, if it is not closed at once. -/
theorem readValue_items {s rest : List Char} (hs : skip s = rest) (h : ∀ r, rest ≠ ']' :: r)
    (fuel : Nat) : readValue (fuel + 1) ('[' :: s) = readItems fuel [] rest := by
  rw [readValue, hs]
  split
  · exact absurd rfl (h _)
  · rfl

/-- Behind an opening brace stand entries, if it is not closed at once. -/
theorem readValue_entries {s rest : List Char} (hs : skip s = rest)
    (h : ∀ r, rest ≠ '\x7d' :: r) (fuel : Nat) :
    readValue (fuel + 1) ('\x7b' :: s) = readEntries fuel [] rest := by
  rw [readValue, hs]
  split
  · exact absurd rfl (h _)
  · rfl

/-- The line and the column of a position, both counted from one. -/
def place (s : List Char) (position : Nat) : Nat × Nat :=
  let before := s.take position
  (before.count '\n' + 1, (before.reverse.takeWhile (· ≠ '\n')).length + 1)

/-- A stop as a fault of the whole text. -/
def Stop.fault (s : List Char) : Stop → Fault
  | .malformed reason left =>
    let position := s.length - left
    let (line, column) := place s position
    .malformed reason line column position
  | .hugeInteger digits => .hugeInteger digits

/-- The value that a text writes. Every step of reading takes a character or
goes one level down, so twice the length bounds the depth. -/
def readChars (s : List Char) : Except Fault Value :=
  let stopped (e : Stop) : Except Fault Value := .error (e.fault s)
  match s with
  | '\ufeff' :: _ => stopped (.malformed .byteOrderMark s.length)
  | _ =>
    match readValue (2 * s.length + 2) (skip s) with
    | .error e => stopped e
    | .ok (v, rest) =>
      match skip rest with
      | [] => .ok v
      | rest => stopped (.malformed .extraData rest.length)

/-- `readChars` on strings. -/
def read (s : String) : Except Fault Value := readChars s.toList

end CachedViews.Json
