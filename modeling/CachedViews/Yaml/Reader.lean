import CachedViews.Yaml.Node
import CachedViews.Text.CaseMap

/-
# Reading YAML

The value of a document. Mappings keep their entries in order, the value of a
repeated key replaces the earlier one in its place, and a merge key puts the
entries of other mappings in front. Keys must be values that can be keys.

Key definitions: `Yaml.build`, `Yaml.read`.
-/

namespace CachedViews.Yaml

open CachedViews.Text

/-- A fault of the value rather than of the format. -/
def failing {α : Type} (f : Fault) : Except Refusal α := .error (.fault f)

/-- The result, or a fault of the value. -/
def orFault {α : Type} : Except Fault α → Except Refusal α
  | .ok a => .ok a
  | .error f => failing f

/-! ### Scalars with a written tag -/

/-- The text without blanks around it. -/
def stripped (s : List Char) : List Char := trim isBlank s

/-- The text without a sign for the base in front. -/
def dropBaseSign (base : Nat) (s : List Char) : List Char :=
  let signs : List Char := if base = 2 then ['b', 'B'] else if base = 8 then ['o', 'O']
    else if base = 16 then ['x', 'X'] else []
  match s with
  | '0' :: c :: r => if signs.contains c then r else s
  | s => s

/-- The integer that a text writes in a base. -/
def parseInt (base : Nat) (s : List Char) : Except Fault Int :=
  let (negative, body) := dropSign (stripped s)
  let digits := dropBaseSign base body
  if digits.isEmpty || !digits.all fun c => (digitValue? c).any (· < base) then
    .error (.value (.badNumeral base (String.ofList s)))
  else if base = 10 ∧ Json.digitLimit < digits.length then
    .error (.value (.hugeInteger digits.length))
  else
    let n : Int := numeral base digits
    .ok (if negative then -n else n)

/-- The integer of a scalar that is tagged as one. -/
def taggedInt (text : List Char) : Except Fault Int := do
  let (negative, body) := dropSign (ungrouped text)
  if (ungrouped text).isEmpty then .error .noCharacter
  else
    let n ← match body with
      | ['0'] => .ok 0
      | '0' :: 'b' :: r => parseInt 2 r
      | '0' :: 'x' :: r => parseInt 16 r
      | [] => .error .noCharacter
      | '0' :: _ => parseInt 8 body
      | _ =>
        if body.contains ':' then do
          let parts ← (splitOn ':' body).mapM (parseInt 10)
          .ok (parts.foldl (fun n part => n * 60 + part) 0)
        else parseInt 10 body
    return if negative then -n else n

/-- The words for floating numbers that are no numerals. -/
def floatWords : List (String × Float) :=
  [("inf", 1.0 / 0.0), ("infinity", 1.0 / 0.0), ("nan", 0.0 / 0.0)]

/-- The floating number that a text writes. -/
def parseFloat (s : List Char) : Except Fault Float :=
  let bad : Except Fault Float := .error (.value (.badFloat (String.ofList s)))
  let (negative, body) := dropSign (stripped s)
  let signed (x : Float) : Float := if negative then -x else x
  match floatWords.lookup (String.ofList (body.map Char.toLower)) with
  | some x => .ok (signed x)
  | none =>
    let whole := body.takeWhile isDigit
    let (fraction, tail) := match body.dropWhile isDigit with
      | '.' :: r => (r.takeWhile isDigit, r.dropWhile isDigit)
      | r => ([], r)
    if whole.isEmpty ∧ fraction.isEmpty then bad
    else match tail with
      | [] => .ok (Decimal.floatOfParts negative whole fraction 0)
      | e :: r =>
        let (down, ds) := dropSign r
        if (e = 'e' ∨ e = 'E') ∧ ds ≠ [] ∧ ds.all isDigit then
          let n : Int := Decimal.ofDigits ds
          .ok (Decimal.floatOfParts negative whole fraction (if down then -n else n))
        else bad

/-- The floating number of a scalar that is tagged as one. -/
def taggedFloat (text : List Char) : Except Fault Float := do
  let s := (ungrouped text).map Char.toLower
  let (negative, body) := dropSign s
  let signed (x : Float) : Float := if negative then -x else x
  if s.isEmpty then .error .noCharacter
  else if body = ".inf".toList then return signed (1.0 / 0.0)
  else if body = ".nan".toList then return 0.0 / 0.0
  else if body.contains ':' then
    let parts ← (splitOn ':' body).mapM parseFloat
    return signed ((parts.reverse.foldl (fun (x, base) part => (x + part * base, base * 60.0))
      ((0.0 : Float), (1.0 : Float))).1)
  else return signed (← parseFloat body)

/-- The value of a character in base sixty-four. -/
def base64Value? (c : Char) : Option Nat :=
  let n := c.toNat
  if 'A' ≤ c ∧ c ≤ 'Z' then some (n - 65)
  else if 'a' ≤ c ∧ c ≤ 'z' then some (n - 71)
  else if isDigit c then some (n + 4)
  else if c = '+' then some 62
  else if c = '/' then some 63
  else none

/-- The octets that groups of four characters write. `held` are the values of the
group begun so far, the first one first. Characters that have no value are passed
over, and reading ends at a group that is filled up. -/
def decodeBase64 : List Nat → Nat → List Char → Option (List UInt8)
  | held, _, [] => if held.isEmpty then some [] else none
  | held, fill, c :: r =>
    if c = '=' then
      match held with
      | [a, b] =>
        if fill = 1 then some [UInt8.ofNat (a * 4 + b / 16)] else decodeBase64 held (fill + 1) r
      | [a, b, d] => some [UInt8.ofNat (a * 4 + b / 16), UInt8.ofNat (b % 16 * 16 + d / 4)]
      | _ => decodeBase64 held fill r
    else match base64Value? c with
      | none => decodeBase64 held fill r
      | some v =>
        match held with
        | [a, b, d] =>
          (decodeBase64 [] 0 r).map fun more =>
            UInt8.ofNat (a * 4 + b / 16) :: UInt8.ofNat (b % 16 * 16 + d / 4) ::
              UInt8.ofNat (d % 4 * 64 + v) :: more
        | held => decodeBase64 (held ++ [v]) 0 r

/-- The value of a scalar. One without a written tag has the form of its tag. -/
def buildScalar (tag : Tag) (text : String) : Except Refusal Value :=
  let s := text.toList
  match tag with
  | .scalar .null => .ok .null
  | .scalar .text => .ok (.str text)
  | .scalar .bool =>
    match boolWords.lookup (String.ofList (lower s)) with
    | some b => .ok (.bool b)
    | none => failing (.unknownWord (String.ofList (lower s)))
  | .scalar .int =>
    if isInt s then orFault ((intValue s).map .int) else orFault ((taggedInt s).map .int)
  | .scalar .float =>
    if isFloat s then .ok (.float (floatValue s)) else orFault ((taggedFloat s).map .float)
  | .scalar .moment =>
    match stamp? s with
    | some stamp => orFault ((momentValue stamp).map .moment)
    | none => failing (.attribute "NoneType" "groupdict")
  | .scalar .binary =>
    if s.all fun c => c.toNat < 128 then
      match decodeBase64 [] 0 s with
      | some octets => .ok (.bytes octets)
      | none => .error .malformed
    else .error .malformed
  | _ => .error .malformed

/-! ### Collections -/

/-- A mapping of entries. A later value of a key replaces an earlier one. -/
def dictOf (entries : List (Value × Value)) : Except Refusal (List (Value × Value)) :=
  if entries.all fun e => e.1.isHashable then
    .ok (entries.foldl (fun es (k, v) => Value.insertEntry k v es) [])
  else .error .malformed

/-- The different values of a list of keys. -/
def setOf (entries : List (Value × Value)) : List Value := entries.map (·.1)

mutual

/-- The value of a node. -/
def build : Node → Except Refusal Value
  | .scalar tag text => buildScalar tag text
  | .sequence tag items =>
    match tag with
    | .sequence => do return .list (← buildItems items)
    | .orderedMapping | .pairs => do return .list (← buildPairs items)
    | _ => .error .malformed
  | .mapping tag entries =>
    match tag with
    | .mapping => do return .dict (← dictOf (← buildEntries entries))
    | .set => do return .set (setOf (← dictOf (← buildEntries entries)))
    | .scalar .text => buildText entries
    | _ => .error .malformed

/-- The values of items. -/
def buildItems : List Node → Except Refusal (List Value)
  | [] => .ok []
  | n :: ns => do return (← build n) :: (← buildItems ns)

/-- The pairs of a list of mappings with one entry each. -/
def buildPairs : List Node → Except Refusal (List Value)
  | [] => .ok []
  | .mapping _ [(k, v)] :: ns => do
    let k ← build k
    let v ← build v
    return .tuple [k, v] :: (← buildPairs ns)
  | _ :: _ => .error .malformed

/-- The entries of a mapping: those of merged mappings, then its own. -/
def buildEntries (entries : List (Node × Node)) : Except Refusal (List (Value × Value)) := do
  return (← buildMerged entries) ++ (← buildOwn entries)

/-- The entries of the mappings that are merged into a mapping. -/
def buildMerged : List (Node × Node) → Except Refusal (List (Value × Value))
  | [] => .ok []
  | (k, v) :: es => do
    if k.tag == .scalar .merge then
      match v with
      | .mapping _ inner =>
        return ((← buildMerged inner) ++ (← buildOwn inner)) ++ (← buildMerged es)
      | .sequence _ items => return (← buildSources items) ++ (← buildMerged es)
      | .scalar _ _ => .error .malformed
    else buildMerged es

/-- The entries of several merged mappings, the last mapping first. -/
def buildSources : List Node → Except Refusal (List (Value × Value))
  | [] => .ok []
  | .mapping _ inner :: ns => do
    let first := (← buildMerged inner) ++ (← buildOwn inner)
    return (← buildSources ns) ++ first
  | _ :: _ => .error .malformed

/-- The entries of a mapping that are not merge keys. -/
def buildOwn : List (Node × Node) → Except Refusal (List (Value × Value))
  | [] => .ok []
  | (k, v) :: es => do
    if k.tag == .scalar .merge then buildOwn es
    else
      let key ← match k with
        | .scalar (.scalar .value) text => .ok (.str text)
        | k => build k
      return (key, ← build v) :: (← buildOwn es)

/-- The text of a mapping that is tagged as a text: that of its value key. -/
def buildText : List (Node × Node) → Except Refusal Value
  | [] => .error .malformed
  | (k, v) :: es =>
    if k.tag == .scalar .value then
      match v with
      | .scalar _ text => .ok (.str text)
      | .mapping _ inner => buildText inner
      | .sequence _ _ => .error .malformed
    else buildText es

end

/-- The value of a text that is one document; an empty text is nothing. -/
def read (s : String) : Except Refusal Value := do
  match ← parseDocument s.toList with
  | none => return .null
  | some n => build n

end CachedViews.Yaml
