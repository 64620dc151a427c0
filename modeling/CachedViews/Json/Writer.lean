import CachedViews.Value
import CachedViews.Text.Hex

/-
# Writing JSON

The text of a value as JSON, in ASCII alone: a character that is not printable
ASCII is written by its code point, beyond U+FFFF as a pair of halves. With an
indentation every item and entry stands on a line of its own.

Key definitions: `Json.quote`, `Json.digitLimit`, `Json.Layout`, `Json.write`, `Json.line`.
-/

namespace CachedViews.Json

open CachedViews.Text

/-- Why a value cannot be written. -/
inductive WriteFault where
  /-- No value of this kind can be written. -/
  | notSerializable (kind : String)
  /-- A key of this kind cannot be written. -/
  | badKey (kind : String)
  /-- An integer has more digits than are converted. -/
  | hugeInteger
  deriving Repr, BEq, DecidableEq

/-- The most digits that an integer may have. -/
def digitLimit : Nat := 4300

/-- Four digits behind `\u`. -/
def escapeUnit (n : Nat) : List Char := '\\' :: 'u' :: hexFixed 4 n

/-- What stands for one character of a string. -/
def quoteChar (c : Char) : List Char :=
  if c = '"' then ['\\', '"']
  else if c = '\\' then ['\\', '\\']
  else if c = '\n' then ['\\', 'n']
  else if c = '\r' then ['\\', 'r']
  else if c = '\t' then ['\\', 't']
  else if c = '\x08' then ['\\', 'b']
  else if c = '\x0c' then ['\\', 'f']
  else if 0x20 ≤ c.toNat ∧ c.toNat < 0x7f then [c]
  else if c.toNat < 0x10000 then escapeUnit c.toNat
  else escapeUnit (0xd800 + (c.toNat - 0x10000) / 0x400) ++
    escapeUnit (0xdc00 + (c.toNat - 0x10000) % 0x400)

/-- A string between its quotes. -/
def quoteChars (s : List Char) : List Char := '"' :: s.flatMap quoteChar ++ ['"']

/-- `quoteChars` on strings. -/
def quote (s : String) : String := String.ofList (quoteChars s.toList)

/-- How entries are set out. -/
structure Layout where
  /-- Blanks per level, each item on its own line; nothing for one line in all. -/
  indent : Option Nat
  comma : String
  colon : String

/-- One line with a blank behind commas and colons. -/
def Layout.oneLine : Layout := ⟨none, ", ", ": "⟩

/-- Lines indented by two blanks per level. -/
def Layout.indented : Layout := ⟨some 2, ",", ": "⟩

/-- The break before an item `level` deep. -/
def Layout.break (l : Layout) (level : Nat) : String :=
  match l.indent with
  | none => ""
  | some n => "\n" ++ String.ofList (List.replicate (n * level) ' ')

/-- Items between brackets. -/
def Layout.enclose (l : Layout) (level : Nat) (opening closing : String) : List String → String
  | [] => opening ++ closing
  | items =>
    opening ++ l.break (level + 1) ++ String.intercalate (l.comma ++ l.break (level + 1)) items ++
      l.break level ++ closing

/-- The digits of an integer, if there are not too many. -/
def integerText (n : Int) : Except WriteFault String :=
  if digitLimit < (Nat.toDigits 10 n.natAbs).length then .error .hugeInteger else .ok (toString n)

/-- The text of a key. Numbers, truth values and nothing become strings. -/
def keyText : Value → Except WriteFault String
  | .str s => .ok (quote s)
  | .markup s => .ok (quote s)
  | .null => .ok (quote "null")
  | .bool b => .ok (quote (if b then "true" else "false"))
  | .int n => (integerText n).map quote
  | .float x => .ok (quote (Decimal.jsonStyle.render x))
  | v => .error (.badKey v.kind)

mutual

/-- The text of a value `level` deep. -/
def writeAt (l : Layout) (level : Nat) : Value → Except WriteFault String
  | .null => .ok "null"
  | .bool b => .ok (if b then "true" else "false")
  | .int n => integerText n
  | .float x => .ok (Decimal.jsonStyle.render x)
  | .str s => .ok (quote s)
  | .markup s => .ok (quote s)
  | .list xs => (writeItems l (level + 1) xs).map (l.enclose level "[" "]")
  | .tuple xs => (writeItems l (level + 1) xs).map (l.enclose level "[" "]")
  | .dict es => (writeEntries l (level + 1) es).map (l.enclose level "\x7b" "\x7d")
  | v => .error (.notSerializable v.kind)

/-- The texts of items. -/
def writeItems (l : Layout) (level : Nat) : List Value → Except WriteFault (List String)
  | [] => .ok []
  | x :: xs => do
    let s ← writeAt l level x
    let rest ← writeItems l level xs
    return s :: rest

/-- The texts of entries. -/
def writeEntries (l : Layout) (level : Nat) :
    List (Value × Value) → Except WriteFault (List String)
  | [] => .ok []
  | (k, v) :: es => do
    let key ← keyText k
    let s ← writeAt l level v
    let rest ← writeEntries l level es
    return (key ++ l.colon ++ s) :: rest

end

/-- The text of a value. -/
def write (l : Layout) (v : Value) : Except WriteFault String := writeAt l 0 v

/-- The one-line text of a value, nothing for a value that has none. -/
def line (v : Value) : String := (write .oneLine v).toOption.getD "null"

end CachedViews.Json
