import CachedViews.Yaml.Scalar
import CachedViews.Path

/-
# Writing YAML

The block form of a value: one line per entry and item, keys in order, empty
collections in brackets. A text stands plain when it reads back as itself, else
between apostrophes, and between double quotes when it holds characters that
need escapes. Long texts are broken at blanks past the eightieth column.

Key definitions: `Yaml.Analysis`, `Yaml.analyse`, `Yaml.Pen`, `Yaml.write`.
-/

namespace CachedViews.Yaml

open CachedViews.Text

/-! ### Which style a text can have -/

/-- What a text allows. -/
structure Analysis where
  empty : Bool
  multiline : Bool
  plain : Bool
  single : Bool
  deriving Repr, BEq

/-- A line break of any kind. -/
def isBreak (c : Char) : Bool := c = '\n' || c = '\x85' || c = '\u2028' || c = '\u2029'

/-- A blank, a break or the null character. -/
def isGap (c : Char) : Bool := c = '\x00' || c = ' ' || c = '\t' || c = '\r' || isBreak c

/-- Does a character, seen with its neighbours, have a meaning in a block? -/
def isIndicator (previous : Option Char) (c : Char) (next : Option Char) : Bool :=
  let gapAfter := (next.map isGap).getD true
  match previous with
  | none =>
    "#,[]\x7b\x7d&*!|>'\"%@`".toList.contains c || ((c = '?' || c = ':' || c = '-') && gapAfter)
  | some p => (c = ':' && gapAfter) || (c = '#' && isGap p)

/-- Does a character hold in a text, given its neighbours? -/
def anyWithNeighbours (p : Option Char → Char → Option Char → Bool) :
    Option Char → List Char → Bool
  | _, [] => false
  | previous, c :: r => p previous c r.head? || anyWithNeighbours p (some c) r

/-- A character that only a double-quoted text can hold. -/
def isUnwritable (c : Char) : Bool := !(c = '\n' || (0x20 ≤ c.toNat && c.toNat ≤ 0x7e))

/-- What a text allows. -/
def analyse (s : List Char) : Analysis :=
  if s.isEmpty then ⟨true, false, true, true⟩
  else
    let marked := s.take 3 = ['-', '-', '-'] || s.take 3 = ['.', '.', '.'] ||
      anyWithNeighbours isIndicator none s
    let breaks := s.any isBreak
    let atEnds (p : Char → Bool) := s.head?.any p || s.getLast?.any p
    let breakSpace := anyWithNeighbours (fun prev c _ => c = ' ' && prev.any isBreak) none s
    let spaceBreak := anyWithNeighbours (fun prev c _ => isBreak c && prev = some ' ') none s
    let special := s.any isUnwritable
    let outer := atEnds fun c => c = ' ' || isBreak c
    { empty := false
      multiline := breaks
      plain := !(outer || breakSpace || spaceBreak || special || breaks || marked)
      single := !(breakSpace || spaceBreak || special) }

/-! ### The pen -/

/-- Text under construction, with what is known of its last line. -/
structure Pen where
  out : String := ""
  column : Nat := 0
  /-- The last thing written was white. -/
  white : Bool := true
  /-- Only indentation and indicators stand on the line so far. -/
  indented : Bool := true
  /-- A plain text ends the document so far, which then needs a mark. -/
  openEnded : Bool := false

namespace Pen

/-- Write text on the current line. -/
def put (p : Pen) (s : List Char) : Pen :=
  { p with out := p.out ++ String.ofList s, column := p.column + s.length }

/-- Break the line. -/
def newline (p : Pen) (c : Char) : Pen :=
  { p with out := p.out ++ c.toString, column := 0, white := true, indented := true }

/-- Begin a line of the given indentation, on the current one where that fits. -/
def indent (p : Pen) (level : Nat) : Pen :=
  let p := if !p.indented || level < p.column || (p.column = level && !p.white) then p.newline '\n'
    else p
  if p.column < level then
    { p.put (List.replicate (level - p.column) ' ') with white := true }
  else p

/-- Write an indicator, behind a blank where one is needed. -/
def indicator (p : Pen) (s : String) (gap white indented : Bool) : Pen :=
  let text := if p.white || !gap then s.toList else ' ' :: s.toList
  { p.put text with white, indented := p.indented && indented, openEnded := false }

end Pen

/-- The column behind which a text is broken. -/
def bestWidth : Nat := 80

/-- How a scalar is laid out: the indentation of its further lines, and whether it
may be broken into lines. -/
structure Sheet where
  level : Nat
  breaks : Bool
  deriving Repr, BEq, DecidableEq

/-- Is a text broken behind a column? -/
def Sheet.endsAt (t : Sheet) (column : Nat) : Bool := t.breaks && bestWidth < column

/-- A plain text. -/
def plainFrom (t : Sheet) : Nat → List Char → Pen → Pen
  | 0, _, p => p
  | fuel + 1, s, p =>
    let word := s.takeWhile (· ≠ ' ')
    let rest := s.dropWhile (· ≠ ' ')
    let p := p.put word
    let spaces := rest.takeWhile (· = ' ')
    let rest := rest.dropWhile (· = ' ')
    if spaces.isEmpty then p
    else
      let p := if spaces.length = 1 ∧ t.endsAt p.column then
          { p.indent t.level with white := false, indented := false }
        else p.put spaces
      plainFrom t fuel rest p

/-- A plain text; at the root it leaves the document open. -/
def putPlain (t : Sheet) (root : Bool) (s : List Char) (p : Pen) : Pen :=
  let p := if root then { p with openEnded := true } else p
  if s.isEmpty then p
  else
    let p := if p.white then p else p.put [' ']
    plainFrom t (s.length + 1) s { p with white := false, indented := false }

/-- The inside of a text between apostrophes. `first` says that nothing of it is
written yet. -/
def singleFrom (t : Sheet) : Nat → Bool → List Char → Pen → Pen
  | 0, _, _, p => p
  | _ + 1, _, [], p => p
  | fuel + 1, _, '\'' :: r, p => singleFrom t fuel false r (p.put ['\'', '\''])
  | fuel + 1, first, c :: r, p =>
    if c = ' ' then
      let spaces := (c :: r).takeWhile (· = ' ')
      let rest := (c :: r).dropWhile (· = ' ')
      let p := if spaces.length = 1 ∧ t.endsAt p.column ∧ !first ∧ !rest.isEmpty then
          p.indent t.level
        else p.put spaces
      singleFrom t fuel false rest p
    else if isBreak c then
      let breaks := (c :: r).takeWhile isBreak
      let p := if c = '\n' then p.newline '\n' else p
      let p := breaks.foldl (fun p b => p.newline b) p
      singleFrom t fuel false ((c :: r).dropWhile isBreak) (p.indent t.level)
    else
      let stops (d : Char) : Bool := d = ' ' || isBreak d || d = '\''
      let word := (c :: r).takeWhile fun d => !stops d
      singleFrom t fuel false ((c :: r).dropWhile fun d => !stops d) (p.put word)

/-- A text between apostrophes. -/
def putSingle (t : Sheet) (s : List Char) (p : Pen) : Pen :=
  let p := p.indicator "'" true false false
  let p := singleFrom t (s.length + 1) true s p
  p.indicator "'" false false false

/-- The letter that stands for a character behind a backslash. -/
def letterEscape? (c : Char) : Option Char :=
  [('\x00', '0'), ('\x07', 'a'), ('\x08', 'b'), ('\t', 't'), ('\n', 'n'), ('\x0b', 'v'),
   ('\x0c', 'f'), ('\r', 'r'), ('\x1b', 'e'), ('"', '"'), ('\\', '\\'), ('\x85', 'N'),
   ('\xa0', '_'), ('\u2028', 'L'), ('\u2029', 'P')].lookup c

/-- What stands for a character between double quotes, if not itself. -/
def doubleEscape? (c : Char) : Option (List Char) :=
  if c = '"' ∨ c = '\\' ∨ !(0x20 ≤ c.toNat ∧ c.toNat ≤ 0x7e) then
    match letterEscape? c with
    | some d => some ['\\', d]
    | none => some ((codePointEscape c.toNat).take 2 ++
        ((codePointEscape c.toNat).drop 2).map Char.toUpper)
  else none

/-- The inside of a text between double quotes. `pending` is what was passed over
and not written yet, `place` the number of characters before the next one. -/
def doubleFrom (t : Sheet) (length : Nat) : Nat → List Char → Nat → List Char → Pen → Pen
  | 0, pending, _, _, p => p.put pending
  | _ + 1, pending, _, [], p => p.put pending
  | fuel + 1, pending, place, c :: r, p =>
    let (pending, p, escapedHere) := match doubleEscape? c with
      | some e => ([], (p.put pending).put e, true)
      | none => (pending, p, false)
    let inMiddle := 0 < place && place + 1 < length
    let reach := if escapedHere then p.column - 1 else p.column + pending.length
    if inMiddle && (c = ' ' || escapedHere || pending.isEmpty) && t.endsAt reach then
      let p := p.put (pending ++ ['\\'])
      let p := { p.indent t.level with white := false, indented := false }
      let next := if escapedHere then r else c :: r
      let p := if next.head? = some ' ' then p.put ['\\'] else p
      doubleFrom t length fuel (if escapedHere then [] else [c]) (place + 1) r p
    else doubleFrom t length fuel (if escapedHere then [] else pending ++ [c]) (place + 1) r p

/-- A text between double quotes. -/
def putDouble (t : Sheet) (s : List Char) (p : Pen) : Pen :=
  let p := p.indicator "\"" true false false
  let p := doubleFrom t s.length (s.length + 1) [] 0 s p
  p.indicator "\"" false false false

/-! ### Nodes -/

/-- Where a node stands. -/
inductive Spot where
  | root | item | value | key
  deriving Repr, BEq, DecidableEq

/-- A scalar as it is written: its text and whether it is text by its kind. -/
structure ScalarText where
  text : String
  isText : Bool

/-- The scalar of a value. -/
def scalarOf? : Value → Option ScalarText
  | .null => some ⟨"null", false⟩
  | .bool b => some ⟨if b then "true" else "false", false⟩
  | .int n => some ⟨toString n, false⟩
  | .float x => some ⟨Decimal.yamlStyle.render x, false⟩
  | .str s => some ⟨s, true⟩
  | .moment m => some ⟨m.render " ", false⟩
  | _ => none

/-- The level below a level; the first one is the root's. -/
def deeper (level : Option Nat) : Nat := (level.map (· + 2)).getD 0

/-- Write a scalar. A key stays on its line. -/
def putScalar (level : Option Nat) (spot : Spot) (s : ScalarText) (p : Pen) : Pen :=
  let cs := s.text.toList
  let a := analyse cs
  let simpleKey := spot == .key
  let t : Sheet := ⟨(level.map (· + 2)).getD 2, !simpleKey⟩
  let readsBack := !s.isText || formOf s.text == .text
  if readsBack && !(simpleKey && (a.empty || a.multiline)) && a.plain then
    putPlain t (spot == .root) cs p
  else if a.single && !(simpleKey && a.multiline) then putSingle t cs p
  else putDouble t cs p

/-- The longest key, with its mark, that stands before a colon on one line. -/
def keyWidth : Nat := 128

/-- The length of the mark that goes with the kind of a scalar. -/
def markLength : Value → Nat
  | .null => 6
  | .bool _ => 6
  | .int _ => 5
  | .float _ => 7
  | .moment _ => 11
  | _ => 5

/-- Can the value stand as a key on one line with what it leads to? -/
def isSimpleKey (k : Value) : Bool :=
  match k with
  | .list [] | .dict [] => true
  | k =>
    match scalarOf? k with
    | some s =>
      let a := analyse s.text.toList
      !a.empty && !a.multiline && markLength k + s.text.length < keyWidth
    | none => false

/-- The order of keys: numbers by size, texts by code points. Mixed kinds have
none. -/
def keyBelow? (a b : Value) : Option Bool :=
  match a.number?, b.number?, a.string?, b.string? with
  | some m, some n, _, _ => some (m.below n)
  | _, _, some s, some t => some (s < t)
  | _, _, _, _ => none

/-- Entries in the order of their keys, or as they are when the keys have no
order. -/
def sortedEntries (es : List (Value × Value)) : List (Value × Value) :=
  if es.all fun a => es.all fun b => (keyBelow? a.1 b.1).isSome then
    es.mergeSort fun a b => !(keyBelow? b.1 a.1).getD false
  else es

/-- The mark and the items of a value that is written as a sequence. -/
def sequence? : Value → Option (Option String × List Value)
  | .list xs => some (none, xs)
  | .tuple xs => some (some "!!python/tuple", xs)
  | .markup s => some (some "!!python/object/new:markupsafe.Markup", [.str s])
  | .path p =>
    let parts := (Path.components p).filter (· ≠ ".") |>.map Value.str
    some (some "!!python/object/apply:pathlib.PosixPath",
      if Path.isAbsolute p then .str "/" :: parts else parts)
  | _ => none

/-- The mark and the entries of a value that is written as a mapping. -/
def mapping? : Value → Option (Option String × List (Value × Value))
  | .dict es => some (none, sortedEntries es)
  | .set xs => some (some "!!set", sortedEntries (xs.map (·, Value.null)))
  | _ => none

/-- Write a node. `level` is the indentation of the collection around it. Each
step goes one level down or one entry on, so the fuel is the size of the value. -/
def putNode : Nat → Option Nat → Spot → Value → Pen → Pen
  | 0, _, _, _, p => p
  | fuel + 1, level, spot, v, p =>
    let mark (m : Option String) (p : Pen) : Pen := match m with
      | some m => p.indicator m true false false
      | none => p
    match scalarOf? v, sequence? v, mapping? v with
    | some s, _, _ => putScalar level spot s p
    | _, some (m, []), _ => ((mark m p).indicator "[" true true false).indicator "]" false false false
    | _, some (m, xs), _ =>
      let p := mark m p
      let level := if (spot == .value || spot == .key) && !p.indented then level.getD 0 else deeper level
      xs.foldl (fun p x =>
        putNode fuel (some level) .item x ((p.indent level).indicator "-" true false true)) p
    | _, _, some (m, []) =>
      ((mark m p).indicator "\x7b" true true false).indicator "\x7d" false false false
    | _, _, some (m, es) =>
      let p := mark m p
      let level := deeper level
      es.foldl (fun p (k, v) =>
        let p := p.indent level
        if isSimpleKey k then
          let p := putNode fuel (some level) .key k p
          putNode fuel (some level) .value v (p.indicator ":" false false false)
        else
          let p := putNode fuel (some level) .value k (p.indicator "?" true false true)
          let p := (p.indent level).indicator ":" true false true
          putNode fuel (some level) .value v p) p
    | none, none, none => putScalar level spot ⟨v.text, true⟩ p

mutual

/-- How deep a value is nested. -/
def depth : Value → Nat
  | .list xs | .tuple xs | .set xs => depthItems xs + 1
  | .dict es => depthEntries es + 1
  | _ => 2

/-- The greatest depth of items. -/
def depthItems : List Value → Nat
  | [] => 0
  | x :: xs => max (depth x) (depthItems xs)

/-- The greatest depth in entries. -/
def depthEntries : List (Value × Value) → Nat
  | [] => 0
  | (k, v) :: es => max (max (depth k) (depth v)) (depthEntries es)

end

mutual

/-- Is there a document of the value? There is one of plain data, moments, sets and
paths. -/
def isWritable : Value → Bool
  | .null | .bool _ | .int _ | .float _ | .str _ | .markup _ | .moment _ | .path _ => true
  | .list xs | .tuple xs | .set xs => areWritable xs
  | .dict es => entriesWritable es
  | _ => false

/-- Is there a document of each of the values? -/
def areWritable : List Value → Bool
  | [] => true
  | v :: vs => isWritable v && areWritable vs

/-- Is there a document of the keys and values of the entries? -/
def entriesWritable : List (Value × Value) → Bool
  | [] => true
  | (k, v) :: es => isWritable k && isWritable v && entriesWritable es

end

/-- The document of a value. -/
def write (v : Value) : String :=
  let p := putNode (depth v + 2) none .root v {}
  let p := p.indent 0
  let p := if p.openEnded then (p.indicator "..." true false false).indent 0 else p
  p.out

end CachedViews.Yaml
