import CachedViews.Text.Hex
import CachedViews.Text.Printable

/-
# Quoted text

A quoted text stands between apostrophes, or between double quotes when it
holds an apostrophe and no double quote. Inside, the quote in use and the
backslash get a backslash, the three usual line characters have letters, and
any other character that is not printable is written by its code point in two,
four or eight digits.

Key definitions: `quoteFor`, `quotedChar`, `quoted`.
-/

namespace CachedViews.Text

/-- The quote that a text is put in. -/
def quoteFor (s : List Char) : Char :=
  if s.contains '\'' && !s.contains '"' then '"' else '\''

/-- A character by its code point, in the shortest of the three widths. -/
def codePointEscape (n : Nat) : List Char :=
  if n < 0x100 then '\\' :: 'x' :: hexFixed 2 n
  else if n < 0x10000 then '\\' :: 'u' :: hexFixed 4 n
  else '\\' :: 'U' :: hexFixed 8 n

/-- What stands for one character between quotes of the kind `quote`. -/
def quotedChar (quote c : Char) : List Char :=
  if c = quote ∨ c = '\\' then ['\\', c]
  else if c = '\n' then ['\\', 'n']
  else if c = '\r' then ['\\', 'r']
  else if c = '\t' then ['\\', 't']
  else if isPrintable c then [c]
  else codePointEscape c.toNat

/-- The text between quotes. -/
def quoted (s : List Char) : List Char :=
  let quote := quoteFor s
  quote :: s.flatMap (quotedChar quote) ++ [quote]

/-- `quoted` on strings. -/
def quotedString (s : String) : String := String.ofList (quoted s.toList)

/-- One octet inside quotes: like a character, but nothing beyond ASCII is
shown as itself. -/
def quotedOctet (quote : Char) (b : UInt8) : List Char :=
  let c := Char.ofNat b.toNat
  if c = quote ∨ c = '\\' then ['\\', c]
  else if c = '\n' then ['\\', 'n']
  else if c = '\r' then ['\\', 'r']
  else if c = '\t' then ['\\', 't']
  else if 0x20 ≤ b.toNat ∧ b.toNat < 0x7f then [c]
  else '\\' :: 'x' :: hexFixed 2 b.toNat

/-- Octets between quotes, marked by a leading `b`. -/
def quotedOctets (bs : List UInt8) : String :=
  let quote := quoteFor (bs.map fun b => Char.ofNat b.toNat)
  String.ofList ('b' :: quote :: bs.flatMap (quotedOctet quote) ++ [quote])

end CachedViews.Text
