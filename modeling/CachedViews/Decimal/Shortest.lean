/-
# The shortest decimal that reads back

A finite binary number other than zero is `mantissa · 2 ^ exponent`. The reals
that round to it form an interval around it whose ends belong to it when the
mantissa is even. Among the decimals in that interval those with the fewest
digits are taken, and of two with equally many the nearer one. On the grid of
decimals with a given number of places, an interval around a value holds a point
as soon as it holds one of the two neighbours of the value, so two candidates
are tried for every number of digits.

Key definitions: `Binary`, `Binary.ofFloat?`, `shortest`.
-/

namespace CachedViews.Decimal

/-- A positive binary number `mantissa · 2 ^ exponent`. -/
structure Binary where
  mantissa : Nat
  exponent : Int
  deriving Repr, BEq, DecidableEq

/-- A positive decimal number `digits · 10 ^ exponent`. -/
structure Numeral where
  digits : Nat
  exponent : Int
  deriving Repr, BEq, DecidableEq

/-- The leading bit of the mantissa of a double, which is not stored. -/
def hiddenBit : Nat := Nat.pow 2 52

/-- Is the sign of the number a minus? -/
def isNegative (x : Float) : Bool := x.toBits.toNat / Nat.pow 2 63 = 1

/-- The magnitude of a double, unless it is zero, infinite or no number. -/
def Binary.ofBits? (bits : Nat) : Option Binary :=
  let fraction : Nat := bits % hiddenBit
  let biased : Nat := bits / hiddenBit % 2048
  if biased = 2047 then none
  else if biased = 0 then if fraction = 0 then none else some ⟨fraction, -1074⟩
  else some ⟨fraction + hiddenBit, (biased : Int) - 1075⟩

/-- The magnitude of a finite double other than zero. -/
def Binary.ofFloat? (x : Float) : Option Binary := Binary.ofBits? x.toBits.toNat

/-- `b ^ e` as a fraction. -/
def powFraction (b : Nat) (e : Int) : Nat × Nat :=
  if 0 ≤ e then (Nat.pow b e.toNat, 1) else (1, Nat.pow b (-e).toNat)

/-- The interval of reals that round to a binary number, in quarters of its
last place: the lower end, the upper end and whether both ends belong to it.
Below a power of two the numbers lie twice as close. -/
def roundingQuarters (x : Binary) : Nat × Nat × Bool :=
  let low := if x.mantissa = hiddenBit ∧ -1074 < x.exponent then 4 * x.mantissa - 1
    else 4 * x.mantissa - 2
  (low, 4 * x.mantissa + 2, x.mantissa % 2 = 0)

/-- How many digits a positive number has. -/
def digitCount (n : Nat) : Nat := (Nat.toDigits 10 n).length

/-- The power of ten just above `num / den`: the least `e` with
`num / den < 10 ^ e`, looked for from `e = 0` downwards for numbers below one. -/
def magnitude (num den : Nat) : Int :=
  if den ≤ num then digitCount (num / den)
  else
    let rec below : Nat → Nat → Int → Int
      | 0, _, e => e
      | fuel + 1, n, e => if den ≤ n * 10 then e else below fuel (n * 10) (e - 1)
    below 400 num 0

/-- The best decimal `d · 10 ^ e` on one grid, if one reads back. The value is
`num / den`; the interval is in quarters with the common factor `qn / qd`. -/
def onGrid? (x : Binary) (e : Int) : Option Nat :=
  let (qn, qd) := powFraction 2 (x.exponent - 2)
  let (tn, td) := powFraction 10 e
  let (low, high, closed) := roundingQuarters x
  let num := 4 * x.mantissa * qn * td
  let den := tn * qd
  let inside (d : Nat) : Bool :=
    let v := d * den
    let l := low * qn * td
    let h := high * qn * td
    if closed then l ≤ v && v ≤ h else l < v && v < h
  let d := num / den
  match inside d && 0 < d, inside (d + 1) with
  | true, true =>
    -- the nearer of the two; the even one when both are equally near
    if 2 * (num - d * den) < den then some d
    else if 2 * (num - d * den) = den then some (if d % 2 = 0 then d else d + 1)
    else some (d + 1)
  | true, false => some d
  | false, true => some (d + 1)
  | false, false => none

/-- The shortest decimal that reads back as the given number. -/
def shortest (x : Binary) : Numeral :=
  let (n, d) := powFraction 2 x.exponent
  let top := magnitude (x.mantissa * n) d
  let found := (List.range 17).findSome? fun k =>
    let e := top - (k + 1 : Nat)
    (onGrid? x e).map fun digits => Numeral.mk digits e
  found.getD ⟨x.mantissa, x.exponent⟩

/-- The decimal without zeros at the end of its digits. -/
def Numeral.trim (d : Numeral) : Numeral :=
  let rec go : Nat → Numeral → Numeral
    | 0, d => d
    | fuel + 1, d =>
      if d.digits % 10 = 0 ∧ d.digits ≠ 0 then go fuel ⟨d.digits / 10, d.exponent + 1⟩ else d
  go (digitCount d.digits) d

end CachedViews.Decimal
