import CachedViews.Decimal.Shortest
import CachedViews.Text.Hex

/-
# How numbers are written

A `FloatStyle` record holds every decision about the text of a floating number:
from which to which magnitude it is written without an exponent, how an
exponent is marked, and the words for infinity and for what is no number.

Key definitions: `FloatStyle`, `FloatStyle.render`, `nearestFloat`.
-/

namespace CachedViews.Decimal

/-- The decisions about the text of a floating number. -/
structure FloatStyle where
  /-- Magnitudes `10 ^ e` with `e` below this bound are written with an exponent. -/
  leastPositional : Int
  /-- Magnitudes `10 ^ e` with `e` from this bound on are written with an exponent. -/
  firstScientific : Int
  /-- Is `.0` put behind digits that have no point before an exponent? -/
  pointBeforeExponent : Bool
  infinity : String
  negativeInfinity : String
  notANumber : String

/-- The style of printed values: positional from `1e-04` to below `1e+16`, an
exponent of at least two digits with its sign, and always a sign that the number
is no integer. -/
def printedStyle : FloatStyle := ⟨-4, 16, false, "inf", "-inf", "nan"⟩

/-- The printed style with the words that JSON readers take. -/
def jsonStyle : FloatStyle := { printedStyle with
  infinity := "Infinity", negativeInfinity := "-Infinity", notANumber := "NaN" }

/-- The printed style with the words of YAML, where an exponent needs a point. -/
def yamlStyle : FloatStyle := { printedStyle with
  pointBeforeExponent := true, infinity := ".inf", negativeInfinity := "-.inf"
  notANumber := ".nan" }

/-- An exponent with its sign and at least two digits. -/
def exponentText (e : Int) : String :=
  let digits := toString e.natAbs
  (if e < 0 then "-" else "+") ++ (if digits.length < 2 then "0" ++ digits else digits)

/-- The text of `0.d₁d₂… · 10 ^ point`, where `ds` are the digits. -/
def FloatStyle.renderDigits (style : FloatStyle) (ds : List Char) (point : Int) : String :=
  let magnitude := point - 1
  if magnitude < style.leastPositional ∨ style.firstScientific ≤ magnitude then
    let tail := ds.tail
    let mantissa := match tail with
      | [] => String.ofList (ds.take 1) ++ (if style.pointBeforeExponent then ".0" else "")
      | _ => String.ofList (ds.take 1) ++ "." ++ String.ofList tail
    mantissa ++ "e" ++ exponentText magnitude
  else if point ≤ 0 then
    "0." ++ String.ofList (List.replicate (-point).toNat '0' ++ ds)
  else if ds.length ≤ point.toNat then
    String.ofList (ds ++ List.replicate (point.toNat - ds.length) '0') ++ ".0"
  else
    String.ofList (ds.take point.toNat) ++ "." ++ String.ofList (ds.drop point.toNat)

/-- The text of a floating number. -/
def FloatStyle.render (style : FloatStyle) (x : Float) : String :=
  let sign := if isNegative x then "-" else ""
  if x.isNaN then style.notANumber
  else if x.isInf then (if sign = "-" then style.negativeInfinity else style.infinity)
  else match Binary.ofFloat? x with
    | none => sign ++ "0.0"
    | some b =>
      let d := (shortest b).trim
      let ds := Nat.toDigits 10 d.digits
      sign ++ style.renderDigits ds (ds.length + d.exponent)

/-- The double nearest to `digits · 10 ^ exponent`, negated on demand. An exponent
out of every double's reach is cut off first. -/
def nearestFloat (negative : Bool) (digits : Nat) (exponent : Int) : Float :=
  let size := digitCount digits
  let magnitude : Float :=
    if digits = 0 then 0.0
    else if 400 < exponent + size then 1.0 / 0.0
    else if exponent + size < -400 then 0.0
    else if 0 ≤ exponent then Float.ofScientific digits false exponent.toNat
    else Float.ofScientific digits true (-exponent).toNat
  if negative then -magnitude else magnitude

/-- The number of a text of digits in base ten. -/
def ofDigits (ds : List Char) : Nat := ds.foldl (fun n c => 10 * n + (c.toNat - '0'.toNat)) 0

/-- Read the parts of a decimal: whole digits, digits after the point and the
exponent. -/
def floatOfParts (negative : Bool) (whole fraction : List Char) (exponent : Int) : Float :=
  nearestFloat negative (ofDigits (whole ++ fraction)) (exponent - fraction.length)

/-- Is `x` the integer `n`? -/
def isInteger (x : Float) (n : Int) : Bool :=
  match Binary.ofFloat? x with
  | none => n = 0 && !x.isNaN && !x.isInf
  | some b =>
    let (num, den) := powFraction 2 b.exponent
    decide (n < 0) == isNegative x && n.natAbs * den = b.mantissa * num

/-- The integer nearest to `x` towards zero. -/
def truncate (x : Float) : Int :=
  match Binary.ofFloat? x with
  | none => 0
  | some b =>
    let (num, den) := powFraction 2 b.exponent
    let n : Nat := b.mantissa * num / den
    if isNegative x then -(n : Int) else n

/-- The double nearest to an integer. -/
def ofInteger (n : Int) : Float := nearestFloat (n < 0) n.natAbs 0

end CachedViews.Decimal
