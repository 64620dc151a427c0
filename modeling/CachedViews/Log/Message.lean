import CachedViews.Fault
import CachedViews.Decimal.Fixed

/-
# Messages with places for values

A message may hold places such as `%s` or `%5.1f`, each of which is filled with
the next of the values that go with the message. A place says how its value is
written: as it prints, as it shows, or as a number, with a width, a precision and
flags. Every value must be used, and there must be one for every place. A
message that comes without values is taken as it is.

Key definitions: `Place`, `Place.fill`, `fillMessage`.
-/

namespace CachedViews.Log

open CachedViews.Text

/-- What is written in a place. -/
structure Place where
  /-- The value stands at the left of its width. -/
  left : Bool := false
  plus : Bool := false
  blank : Bool := false
  alternate : Bool := false
  zeros : Bool := false
  width : Nat := 0
  precision : Option Nat := none

/-- A text in its width. -/
def Place.pad (p : Place) (s : List Char) : List Char :=
  let gap := List.replicate (p.width - s.length) ' '
  if p.left then s ++ gap else gap ++ s

/-- The sign of a number. -/
def Place.sign (p : Place) (negative : Bool) : List Char :=
  if negative then ['-'] else if p.plus then ['+'] else if p.blank then [' '] else []

/-- The digits of a number behind its sign, in their width. -/
def Place.padNumber (p : Place) (head digits : List Char) : List Char :=
  if p.zeros ∧ ¬ p.left then
    head ++ List.replicate (p.width - (head.length + digits.length)) '0' ++ digits
  else p.pad (head ++ digits)

/-- An integer in a base, with the letters that mark the base if they are wanted. -/
def Place.integer (p : Place) (base : Nat) (mark : List Char) (upperCase : Bool) (n : Int) :
    List Char :=
  let digits := Nat.toDigits base n.natAbs
  let digits := List.replicate (p.precision.getD 0 - digits.length) '0' ++ digits
  let digits := if upperCase then digits.map Char.toUpper else digits
  p.padNumber (p.sign (n < 0) ++ if p.alternate then mark else []) digits

/-- A numeral with a point, which stands in front of the exponent if there was none. -/
def withPoint (s : List Char) : List Char :=
  if s.contains '.' then s
  else s.takeWhile (· ≠ 'e') ++ '.' :: s.dropWhile (· ≠ 'e')

/-- A floating number in one of its notations. -/
def Place.floating (p : Place) (conversion : Char) (x : Float) : List Char :=
  let places := p.precision.getD 6
  let isUpper := conversion.isUpper
  let digits :=
    if x.isNaN then "nan".toList
    else if x.isInf then "inf".toList
    else match conversion.toLower with
      | 'f' => Decimal.fixedText x places
      | 'e' => Decimal.scientificText x places
      | _ => Decimal.generalText x places p.alternate
  let digits := if p.alternate && !x.isNaN && !x.isInf then withPoint digits else digits
  let digits := if isUpper then digits.map Char.toUpper else digits
  p.padNumber (p.sign (Decimal.isNegative x && !x.isNaN)) digits

/-- The ASCII form of a shown text. -/
def asciiOnly (s : List Char) : List Char :=
  s.flatMap fun c => if c.toNat < 128 then [c] else codePointEscape c.toNat

/-- The integer that a value is or is cut to. -/
def integerOf (conversion : Char) (v : Value) : Except Fault Int :=
  match v.number? with
  | some (.int n) => .ok n
  | some (.float x) =>
    if conversion = 'd' ∨ conversion = 'i' ∨ conversion = 'u' then .ok (Decimal.truncate x)
    else .error (.type (.formatNumber conversion "an integer" v.kind))
  | none =>
    let wanted := if conversion = 'd' ∨ conversion = 'i' ∨ conversion = 'u' then "a real number"
      else "an integer"
    .error (.type (.formatNumber conversion wanted v.kind))

/-- The floating number that a value is. -/
def floatOf (v : Value) : Except Fault Float :=
  match v.number? with
  | some (.int n) => .ok (Decimal.ofInteger n)
  | some (.float x) => .ok x
  | none => .error (.type (.notReal v.kind))

/-- The character that a value is. -/
def characterOf (v : Value) : Except Fault (List Char) :=
  match v with
  | .bool b => .ok [if b then '\x01' else '\x00']
  | .int n => if 0 ≤ n ∧ n < 0x110000 then .ok [Char.ofNat n.toNat] else .error .noCodePoint
  | v =>
    match v.string?.map String.toList with
    | some [c] => .ok [c]
    | _ => .error (.type .notCharacter)

/-- Is the conversion known? -/
def conversions : List Char := "srcdiuoxXeEfFgGa".toList

/-- A value in a place. -/
def Place.fill (p : Place) (conversion : Char) (v : Value) : Except Fault (List Char) :=
  let cut (s : List Char) : List Char := p.pad (s.take (p.precision.getD s.length))
  match conversion with
  | 's' => .ok (cut v.text.toList)
  | 'r' => .ok (cut v.shown.toList)
  | 'a' => .ok (cut (asciiOnly v.shown.toList))
  | 'c' => (characterOf v).map p.pad
  | 'd' | 'i' | 'u' => (integerOf conversion v).map (p.integer 10 [] false)
  | 'o' => (integerOf conversion v).map (p.integer 8 ['0', 'o'] false)
  | 'x' => (integerOf conversion v).map (p.integer 16 ['0', 'x'] false)
  | 'X' => (integerOf conversion v).map (p.integer 16 ['0', 'X'] true)
  | conversion => (floatOf v).map (p.floating conversion)

/-- The flags at the beginning of a place. -/
def readFlags (p : Place) : List Char → Place × List Char
  | '-' :: r => readFlags { p with left := true } r
  | '+' :: r => readFlags { p with plus := true } r
  | ' ' :: r => readFlags { p with blank := true } r
  | '#' :: r => readFlags { p with alternate := true } r
  | '0' :: r => readFlags { p with zeros := true } r
  | r => (p, r)

/-- The next value, and the values behind it. -/
def nextValue : List Value → Except Fault (Value × List Value)
  | [] => .error (.type .tooFewFormatArguments)
  | v :: vs => .ok (v, vs)

/-- A bound of the counts in a place: the largest, the type that it is the largest
number of, and what a written count above it is called. -/
structure Bound where
  largest : Nat
  word : String
  fault : ValueFault

/-- The bound of widths. -/
def widthBound : Bound := ⟨Nat.pow 2 63 - 1, "ssize_t", .widthTooBig⟩

/-- The bound of precisions. -/
def precisionBound : Bound := ⟨Nat.pow 2 31 - 1, "int", .precisionTooBig⟩

/-- A count that is written in a place or, at a star, is the next value. -/
def readCount (bound : Bound) (r : List Char) (vs : List Value) :
    Except Fault (Option Int × List Char × List Value) :=
  match r with
  | '*' :: r => do
    let (v, vs) ← nextValue vs
    match v with
    | .int n =>
      if bound.largest < n.natAbs then .error (.tooLarge bound.word) else return (some n, r, vs)
    | .bool b => return (some (if b then 1 else 0), r, vs)
    | _ => .error (.type .starNotInteger)
  | r =>
    let ds := r.takeWhile isDigit
    if ds.isEmpty then .ok (none, r, vs)
    else if bound.largest < Decimal.ofDigits ds then .error (.value bound.fault)
    else .ok (some (Decimal.ofDigits ds), r.dropWhile isDigit, vs)

/-- The place behind a percent sign, up to its conversion. -/
def readPlace (r : List Char) (vs : List Value) :
    Except Fault (Place × List Char × List Value) := do
  if r.head? = some '(' then .error (.type .formatNeedsMapping)
  else
    let (p, r) := readFlags {} r
    let (width, r, vs) ← readCount widthBound r vs
    let p := match width with
      | some n => { p with width := n.natAbs, left := p.left || n < 0 }
      | none => p
    let (p, r, vs) ← match r with
      | '.' :: r => do
        let (count, r, vs) ← readCount precisionBound r vs
        pure ({ p with precision := some (count.getD 0).toNat }, r, vs)
      | r => pure (p, r, vs)
    let r := match r with
      | c :: r => if c = 'h' ∨ c = 'l' ∨ c = 'L' then r else c :: r
      | [] => []
    return (p, r, vs)

/-- The rest of a message whose length is `total`, filled with values. -/
def fillFrom (total : Nat) : Nat → List Char → List Value → Except Fault (List Char)
  | 0, _, _ => .ok []
  | _ + 1, [], vs => if vs.isEmpty then .ok [] else .error (.type .tooManyFormatArguments)
  | fuel + 1, '%' :: r, vs => do
    let (p, r, vs) ← readPlace r vs
    match r with
    | [] => .error (.value .incompleteFormat)
    | '%' :: r => return '%' :: (← fillFrom total fuel r vs)
    | c :: r =>
      let (v, vs) ← nextValue vs
      if conversions.contains c then
        let filled ← p.fill c v
        return filled ++ (← fillFrom total fuel r vs)
      else .error (.value (.unsupportedFormat c (total - r.length - 1)))
  | fuel + 1, c :: r, vs => do return c :: (← fillFrom total fuel r vs)

/-- A message with its places filled. -/
def fillMessage (message : String) (values : List Value) : Except Fault String :=
  if values.isEmpty then .ok message
  else
    let s := message.toList
    (fillFrom s.length (s.length + 1) s values).map String.ofList

end CachedViews.Log
