/-
# Reading and writing UTF-8

`decodeUtf8` reads octets into characters or reports the first place where the
octets are no UTF-8: an octet that starts nothing, an octet that does not go on
with what was started, or an end in the middle. `encodeUtf8` writes characters.

A lead octet says how many octets follow and bounds the first of them, which
rules out overlong forms, surrogates and code points beyond the last.

Key definitions: `Utf8Error`, `decodeUtf8`, `encodeUtf8`.
-/

namespace CachedViews.Text

/-- Why octets are no UTF-8. Positions count octets from the beginning. -/
inductive Utf8Error where
  | invalidStart (octet : UInt8) (position : Nat)
  | invalidContinuation (octet : UInt8) (position : Nat) (length : Nat)
  | unexpectedEnd (octet : UInt8) (position : Nat) (length : Nat)
  deriving Repr, BEq, DecidableEq

/-- How many octets follow a lead octet, with the bounds for the first of them
and the bits that the lead octet gives. -/
def leadOctet? (b : UInt8) : Option (Nat × Nat × Nat × Nat) :=
  let n := b.toNat
  if 0xc2 ≤ n ∧ n ≤ 0xdf then some (1, 0x80, 0xbf, n - 0xc0)
  else if n = 0xe0 then some (2, 0xa0, 0xbf, 0)
  else if n = 0xed then some (2, 0x80, 0x9f, 0xd)
  else if 0xe1 ≤ n ∧ n ≤ 0xef then some (2, 0x80, 0xbf, n - 0xe0)
  else if n = 0xf0 then some (3, 0x90, 0xbf, 0)
  else if n = 0xf4 then some (3, 0x80, 0x8f, 4)
  else if 0xf1 ≤ n ∧ n ≤ 0xf3 then some (3, 0x80, 0xbf, n - 0xf0)
  else none

/-- A character under construction: its lead octet and where it stood, the
octets seen, those still owed, the bounds of the next one, and the bits so far. -/
structure PartialChar where
  lead : UInt8
  position : Nat
  seen : Nat
  owed : Nat
  low : Nat
  high : Nat
  bits : Nat

/-- Read octets from the given position, in the middle of a character or
between two. -/
def decodeFrom : Nat → Option PartialChar → List UInt8 → Except Utf8Error (List Char)
  | _, none, [] => .ok []
  | _, some p, [] => .error (.unexpectedEnd p.lead p.position p.seen)
  | i, none, b :: r =>
    if b.toNat < 0x80 then (decodeFrom (i + 1) none r).map (Char.ofNat b.toNat :: ·)
    else match leadOctet? b with
      | none => .error (.invalidStart b i)
      | some (owed, low, high, bits) => decodeFrom (i + 1) (some ⟨b, i, 1, owed, low, high, bits⟩) r
  | i, some p, b :: r =>
    if p.low ≤ b.toNat ∧ b.toNat ≤ p.high then
      let bits := p.bits * 64 + (b.toNat - 0x80)
      if p.owed ≤ 1 then (decodeFrom (i + 1) none r).map (Char.ofNat bits :: ·)
      else decodeFrom (i + 1) (some { p with seen := p.seen + 1, owed := p.owed - 1, low := 0x80, high := 0xbf, bits }) r
    else .error (.invalidContinuation p.lead p.position p.seen)

/-- The characters that the octets write. -/
def decodeUtf8 (bs : List UInt8) : Except Utf8Error (List Char) := decodeFrom 0 none bs

/-- The octets of one character. -/
def encodeChar (c : Char) : List UInt8 :=
  let n := c.toNat
  let tail (k : Nat) : UInt8 := UInt8.ofNat (0x80 + n / Nat.pow 64 k % 64)
  if n < 0x80 then [UInt8.ofNat n]
  else if n < 0x800 then [UInt8.ofNat (0xc0 + n / 64), tail 0]
  else if n < 0x10000 then [UInt8.ofNat (0xe0 + n / 4096), tail 1, tail 0]
  else [UInt8.ofNat (0xf0 + n / 262144), tail 2, tail 1, tail 0]

/-- The octets of a text. -/
def encodeUtf8 (s : List Char) : List UInt8 := s.flatMap encodeChar

end CachedViews.Text
