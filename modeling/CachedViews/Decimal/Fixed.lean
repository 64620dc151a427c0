import CachedViews.Decimal.Notation

/-
# Numbers with a fixed count of digits

A finite binary number is a fraction, so rounding it to a count of places is
exact arithmetic: the nearest point of the grid, and of two equally near points
the even one (`roundEven`).

Key definitions: `roundEven`, `fixedText`, `scientificText`, `generalText`.
-/

namespace CachedViews.Decimal

/-- The natural number nearest to `num / den`, the even one of two. -/
def roundEven (num den : Nat) : Nat :=
  let q := num / den
  let twice := 2 * (num % den)
  if twice < den then q
  else if den < twice then q + 1
  else if q % 2 = 0 then q else q + 1

/-- The magnitude of a finite number as a fraction. -/
def fractionOf (x : Float) : Nat × Nat :=
  match Binary.ofFloat? x with
  | none => (0, 1)
  | some b =>
    let (num, den) := powFraction 2 b.exponent
    (b.mantissa * num, den)

/-- The magnitude of a number in units of `10 ^ -places`, rounded. -/
def scaled (x : Float) (places : Int) : Nat :=
  let (num, den) := fractionOf x
  let (tn, td) := powFraction 10 places
  roundEven (num * tn) (den * td)

/-- The integer nearest to a number, the even one of two. -/
def nearestInteger (x : Float) : Int :=
  if isNegative x then -(scaled x 0 : Int) else scaled x 0

/-- Digits with a point before the last `places` of them. -/
def pointed (digits places : Nat) : List Char :=
  let ds := Nat.toDigits 10 digits
  let ds := List.replicate (places + 1 - ds.length) '0' ++ ds
  let whole := ds.take (ds.length - places)
  if places = 0 then whole else whole ++ '.' :: ds.drop (ds.length - places)

/-- The magnitude of a number with a count of places behind the point. -/
def fixedText (x : Float) (places : Nat) : List Char := pointed (scaled x places) places

/-- The leading digits of a magnitude, `places` behind the first one, and the power
of ten of the first. -/
def leadingDigits (x : Float) (places : Nat) : Nat × Int :=
  let (num, den) := fractionOf x
  if num = 0 then (0, 0)
  else
    let e := magnitude num den - 1
    let digits := scaled x ((places : Int) - e)
    if Nat.pow 10 (places + 1) ≤ digits then (Nat.pow 10 places, e + 1) else (digits, e)

/-- The magnitude of a number with an exponent. -/
def scientificText (x : Float) (places : Nat) : List Char :=
  let (digits, e) := leadingDigits x places
  pointed digits places ++ 'e' :: (exponentText e).toList

/-- Digits behind a point without the zeros at their end. -/
def withoutTrailingZeros (s : List Char) : List Char :=
  if s.contains '.' then
    let t := (s.reverse.dropWhile (· = '0')).reverse
    if t.getLast? = some '.' then t.dropLast else t
  else s

/-- The magnitude of a number with a count of digits, with an exponent only when it
is far from one. -/
def generalText (x : Float) (digits : Nat) (keepZeros : Bool) : List Char :=
  let digits := max digits 1
  let (ds, e) := leadingDigits x (digits - 1)
  let strip (s : List Char) : List Char := if keepZeros then s else withoutTrailingZeros s
  if e < -4 ∨ (digits : Int) ≤ e then
    strip (pointed ds (digits - 1)) ++ 'e' :: (exponentText e).toList
  else strip (fixedText x ((digits : Int) - 1 - e).toNat)

end CachedViews.Decimal
