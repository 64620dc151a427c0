import CachedViews.Yaml.Lexeme

/-
# Tokens of YAML text

A document is a sequence of tokens. The structure that indentation gives is made
explicit: `blockMapping` and `blockSequence` open a level and `blockEnd` closes
it. A key without a sign of its own is recognised only at the colon behind it,
so the places where such a key may have begun are remembered (`Candidate`), one
for each level of brackets. A candidate is given up at the end of its line; one
at the indentation of a mapping must turn out to be a key.

Key definitions: `Yaml.Token`, `Yaml.Scan`, `Yaml.Scan.token`, `Yaml.tokens`.
-/

namespace CachedViews.Yaml

open CachedViews.Text

/-- An instruction in front of a document. -/
inductive Directive where
  | version (major : Nat)
  | handle (name expansion : List Char)
  | other
  deriving Repr, BEq, DecidableEq

/-- A token. -/
inductive Token where
  | directive (d : Directive)
  | documentStart | documentEnd
  | blockSequence | blockMapping | blockEnd
  | openSequence | closeSequence | openMapping | closeMapping
  | blockEntry | flowEntry | key | value
  | alias (name : List Char)
  | anchor (name : List Char)
  | tag (handle : Option (List Char)) (suffix : List Char)
  | scalar (text : List Char) (isPlain : Bool)
  deriving Repr, BEq, DecidableEq

/-- A place where a key may have begun: the number of its first token, where it
stands, and whether it must turn out to be a key. -/
structure Candidate where
  number : Nat
  index : Nat
  line : Nat
  column : Nat
  required : Bool

/-- A scan of a text: what is left of it and where that is, the tokens found, the
open indentations with the innermost first, and the candidates for keys, one for
each level of brackets, with the innermost level first. -/
structure Scan where
  rest : List Char
  index : Nat := 0
  line : Nat := 0
  column : Nat := 0
  tokens : Array Token := #[]
  indent : Int := -1
  outer : List Int := []
  mayStartKey : Bool := true
  candidate : Option Candidate := none
  brackets : List (Option Candidate) := []

namespace Scan

/-- Is the scan inside brackets? -/
def inFlow (s : Scan) : Bool := !s.brackets.isEmpty

/-- The position behind so many characters. -/
def advance : Nat → Scan → Scan
  | 0, s => s
  | n + 1, s =>
    match s.rest with
    | [] => s
    | c :: r =>
      if isLineEnd c ∧ ¬ (c = '\r' ∧ r.head? = some '\n') then
        advance n { s with rest := r, index := s.index + 1, line := s.line + 1, column := 0 }
      else if c = '\ufeff' then advance n { s with rest := r, index := s.index + 1 }
      else advance n { s with rest := r, index := s.index + 1, column := s.column + 1 }

/-- The position at which `rest` is left. -/
def goto (rest : List Char) (s : Scan) : Scan := s.advance (s.rest.length - rest.length)

/-- Add a token. -/
def push (t : Token) (s : Scan) : Scan := { s with tokens := s.tokens.push t }

/-- Give up a candidate; one that had to be a key is a fault. -/
def giveUp (c : Option Candidate) : Except Refusal Unit :=
  match c with
  | some c => if c.required then .error .malformed else .ok ()
  | none => .ok ()

/-- Is a candidate too far away for its colon to be found? -/
def isStale (s : Scan) (c : Candidate) : Bool := c.line != s.line || 1024 < s.index - c.index

/-- The candidate that is still within reach, if any. -/
def fresh (s : Scan) (c : Option Candidate) : Except Refusal (Option Candidate) := do
  match c with
  | some c =>
    if s.isStale c then
      giveUp (some c)
      return none
    else return some c
  | none => return none

/-- Give up the candidates that are out of reach. -/
def dropStale (s : Scan) : Except Refusal Scan := do
  let candidate ← s.fresh s.candidate
  let brackets ← s.brackets.mapM s.fresh
  return { s with candidate, brackets }

/-- Give up the candidate of the innermost level. -/
def dropCandidate (s : Scan) : Except Refusal Scan := do
  giveUp s.candidate
  return { s with candidate := none }

/-- Remember that a key may begin here. -/
def noteCandidate (s : Scan) : Except Refusal Scan := do
  if s.mayStartKey then
    let s ← s.dropCandidate
    return { s with candidate := some {
      number := s.tokens.size, index := s.index, line := s.line, column := s.column
      required := !s.inFlow && s.indent == (s.column : Int) } }
  else return s

/-- Close the levels that are indented further than a column. -/
def unwind (column : Int) (s : Scan) : Scan :=
  if s.inFlow then s else go s.outer s
where
  /-- Close levels one by one. -/
  go : List Int → Scan → Scan
    | [], s => s
    | outer :: more, s =>
      if column < s.indent then go more { s.push .blockEnd with indent := outer, outer := more }
      else s

/-- Open a level at a column that is indented further than the current one. -/
def deepen (column : Nat) (s : Scan) : Option Scan :=
  if s.indent < (column : Int) then
    some { s with indent := column, outer := s.indent :: s.outer }
  else none

/-- Open a block at the current column, in front of the next token. -/
def openBlock (t : Token) (s : Scan) : Except Refusal Scan :=
  if s.inFlow then .ok s
  else if !s.mayStartKey then .error .malformed
  else match s.deepen s.column with
    | some s => .ok (s.push t)
    | none => .ok s

/-! ### Gaps and marks -/

/-- The text behind blanks, comments and line ends, and whether a line ended. -/
def skipGaps : Nat → Bool → List Char → Bool × List Char
  | 0, broke, r => (broke, r)
  | fuel + 1, broke, r =>
    let r := r.dropWhile (· = ' ')
    let r := match r with
      | '#' :: r => r.dropWhile fun c => !isLineEnd c
      | r => r
    match lineBreak? r with
    | some (_, r) => skipGaps fuel true r
    | none => (broke, r)

/-- The position of the next token. -/
def toToken (s : Scan) : Scan :=
  let start := if s.index = 0 ∧ s.rest.head? = some '\ufeff' then s.rest.tail else s.rest
  let (broke, rest) := skipGaps (start.length + 1) false start
  let s := s.goto rest
  if broke && !s.inFlow then { s with mayStartKey := true } else s

/-- Close all levels in front of a mark of the document. -/
def closeAll (s : Scan) : Except Refusal Scan := do
  let s ← (s.unwind (-1)).dropCandidate
  return { s with mayStartKey := false }

/-- A mark between documents. -/
def documentMark (t : Token) (s : Scan) : Except Refusal Scan := do
  return ((← s.closeAll).advance 3).push t

/-- An opening bracket. -/
def opening (t : Token) (s : Scan) : Except Refusal Scan := do
  let s ← s.noteCandidate
  return { (s.advance 1).push t with
    brackets := s.candidate :: s.brackets, candidate := none, mayStartKey := true }

/-- A closing bracket. One without an opening bracket is refused. -/
def closing (t : Token) (s : Scan) : Except Refusal Scan := do
  let s ← s.dropCandidate
  match s.brackets with
  | [] => .error .malformed
  | candidate :: brackets =>
    return { (s.advance 1).push t with candidate, brackets, mayStartKey := false }

/-- A comma inside brackets. -/
def entry (s : Scan) : Except Refusal Scan := do
  let s ← { s with mayStartKey := true }.dropCandidate
  return (s.advance 1).push .flowEntry

/-- A dash in front of an item. -/
def item (s : Scan) : Except Refusal Scan := do
  let s ← s.openBlock .blockSequence
  let s ← { s with mayStartKey := true }.dropCandidate
  return (s.advance 1).push .blockEntry

/-- A question mark in front of a key. -/
def explicitKey (s : Scan) : Except Refusal Scan := do
  let s ← s.openBlock .blockMapping
  let s ← { s with mayStartKey := !s.inFlow }.dropCandidate
  return (s.advance 1).push .key

/-- A colon in front of a value. A candidate before it was a key. -/
def colon (s : Scan) : Except Refusal Scan := do
  match s.candidate with
  | some c =>
    let s := { s with candidate := none, tokens := s.tokens.insertIdxIfInBounds c.number .key }
    let s := if s.inFlow then s
      else match s.deepen c.column with
        | some s => { s with tokens := s.tokens.insertIdxIfInBounds c.number .blockMapping }
        | none => s
    return ({ s with mayStartKey := false }.advance 1).push .value
  | none =>
    let s ← s.openBlock .blockMapping
    let s ← { s with mayStartKey := !s.inFlow }.dropCandidate
    return (s.advance 1).push .value

/-! ### Names, tags and directives -/

/-- The name of an anchor, behind its sign. -/
def readName (r : List Char) : Except Refusal (List Char × List Char) :=
  let name := r.takeWhile isNameChar
  let rest := r.dropWhile isNameChar
  let ends := match rest with
    | [] => true
    | c :: _ => endsWord rest || ['?', ':', ',', ']', '}', '%', '@', '\x60'].contains c
  if name.isEmpty || !ends then .error .malformed else .ok (name, rest)

/-- May the character stand in a tag? -/
def isTagChar (c : Char) : Bool :=
  c.isAlphanum || "-;/?:@&=+$,_.!~*'()[]".toList.contains c

/-- The octets that signs of the form `%41` write, one after another. -/
def readOctets : List Char → Except Refusal (List UInt8 × List Char)
  | '%' :: a :: b :: r =>
    match digitValue? a, digitValue? b with
    | some x, some y => do
      let (octets, rest) ← readOctets r
      return (UInt8.ofNat (16 * x + y) :: octets, rest)
    | _, _ => .error .malformed
  | '%' :: _ => .error .malformed
  | r => .ok ([], r)

/-- The characters of a tag. -/
def readTagText : Nat → List Char → Except Refusal (List Char × List Char)
  | 0, r => .ok ([], r)
  | _ + 1, [] => .ok ([], [])
  | fuel + 1, c :: r => do
    if c = '%' then
      let (octets, r) ← readOctets (c :: r)
      match decodeUtf8 octets with
      | .ok text =>
        let (more, rest) ← readTagText fuel r
        return (text ++ more, rest)
      | .error _ => .error .malformed
    else if isTagChar c then
      let (more, rest) ← readTagText fuel r
      return (c :: more, rest)
    else return ([], c :: r)

/-- The characters of a tag, at least one. -/
def readSuffix (r : List Char) : Except Refusal (List Char × List Char) := do
  let (text, rest) ← readTagText (r.length + 1) r
  if text.isEmpty then .error .malformed else return (text, rest)

/-- A handle of tags: a name between exclamation marks, or one mark. -/
def readHandle (r : List Char) : Except Refusal (List Char × List Char) :=
  match r with
  | '!' :: ' ' :: r => .ok (['!'], ' ' :: r)
  | '!' :: r =>
    match r.dropWhile isNameChar with
    | '!' :: rest => .ok ('!' :: r.takeWhile isNameChar ++ ['!'], rest)
    | _ => .error .malformed
  | _ => .error .malformed

/-- A tag: its handle, unless it is written in full, and its suffix. -/
def readTag (s : List Char) : Except Refusal (Token × List Char) := do
  let (t, rest) ← match s.tail with
    | '<' :: r => do
      match ← readSuffix r with
      | (suffix, '>' :: rest) => pure (Token.tag none suffix, rest)
      | _ => .error .malformed
    | r =>
      if endsWord r then pure (Token.tag none ['!'], r)
      else if (r.takeWhile fun c => c ≠ ' ' ∧ !isLineEnd c).contains '!' then do
        let (handle, r) ← readHandle s
        let (suffix, rest) ← readSuffix r
        pure (Token.tag (some handle) suffix, rest)
      else do
        let (suffix, rest) ← readSuffix r
        pure (Token.tag (some ['!']) suffix, rest)
  if endsEntry rest then return (t, rest) else .error .malformed

/-- The version that a document says it is written in. -/
def readVersion (r : List Char) : Except Refusal (Directive × List Char) :=
  let r := r.dropWhile (· = ' ')
  let major := r.takeWhile isDigit
  match r.dropWhile isDigit with
  | '.' :: r =>
    let minor := r.takeWhile isDigit
    let rest := r.dropWhile isDigit
    if major.isEmpty || minor.isEmpty || !endsEntry rest then .error .malformed
    else .ok (.version (numeral 10 major), rest)
  | _ => .error .malformed

/-- A handle of tags and what it stands for. -/
def readHandleDirective (r : List Char) : Except Refusal (Directive × List Char) := do
  let (handle, r) ← readHandle (r.dropWhile (· = ' '))
  if r.head? ≠ some ' ' then .error .malformed
  else
    let (expansion, rest) ← readSuffix (r.dropWhile (· = ' '))
    if endsEntry rest then return (.handle handle expansion, rest) else .error .malformed

/-- A directive, up to the end of its line. -/
def readDirective (s : List Char) : Except Refusal (Directive × List Char) := do
  let r := s.tail
  let name := r.takeWhile isNameChar
  let r := r.dropWhile isNameChar
  if name.isEmpty || !endsEntry r then .error .malformed
  else
    let (d, r) ←
      if name = "YAML".toList then readVersion r
      else if name = "TAG".toList then readHandleDirective r
      else pure (.other, r.dropWhile fun c => !isLineEnd c)
    let r := match r.dropWhile (· = ' ') with
      | '#' :: r => r.dropWhile fun c => !isLineEnd c
      | r => r
    match lineBreak? r with
    | some (_, rest) => return (d, rest)
    | none => if r.isEmpty then return (d, r) else .error .malformed

/-! ### The next token -/

/-- A token at which a key may begin. -/
def nodeStart (t : Token) (rest : List Char) (s : Scan) : Except Refusal Scan := do
  let s ← s.noteCandidate
  return { (s.goto rest).push t with mayStartKey := false }

/-- Does a plain scalar begin here? -/
def startsPlain (inFlow : Bool) : List Char → Bool
  | [] => false
  | c :: r =>
    (!isInlineBlank c && !isLineEnd c && !"-?:,[]\x7b\x7d#&*!|>'\"%@\x60".toList.contains c) ||
      (!endsWord r && (c = '-' || (!inFlow && (c = '?' || c = ':'))))

/-- A token that starts with a character which may stand for itself. -/
def content (s : Scan) : Except Refusal Scan := do
  match s.rest with
  | '*' :: r =>
    let (name, rest) ← readName r
    s.nodeStart (.alias name) rest
  | '&' :: r =>
    let (name, rest) ← readName r
    s.nodeStart (.anchor name) rest
  | '!' :: _ =>
    let (t, rest) ← readTag s.rest
    s.nodeStart t rest
  | '"' :: _ | '\'' :: _ =>
    let (text, rest) ← readQuoted s.rest
    s.nodeStart (.scalar text false) rest
  | c :: _ =>
    if (c = '|' ∨ c = '>') ∧ !s.inFlow then
      let s ← { s with mayStartKey := true }.dropCandidate
      let (text, rest) ← readBlock s.indent s.rest
      return (s.goto rest).push (.scalar text false)
    else if startsPlain s.inFlow s.rest then
      let p := readPlain s.inFlow (s.indent + 1) s.rest
      let s ← s.nodeStart (.scalar p.text true) p.rest
      return { s with mayStartKey := p.broke }
    else .error .malformed
  | [] => .error .malformed

/-- Read the next token; the scan stands in front of it. -/
def token (s : Scan) : Except Refusal Scan := do
  let atStart := s.column = 0
  match s.rest with
  | '%' :: _ =>
    if atStart then
      let (d, rest) ← readDirective s.rest
      return ((← s.closeAll).goto rest).push (.directive d)
    else .error .malformed
  | '[' :: _ => s.opening .openSequence
  | '\x7b' :: _ => s.opening .openMapping
  | ']' :: _ => s.closing .closeSequence
  | '\x7d' :: _ => s.closing .closeMapping
  | ',' :: _ => s.entry
  | c :: r =>
    if atStart ∧ isSeparator s.rest then
      s.documentMark (if c = '-' then .documentStart else .documentEnd)
    else if c = '-' ∧ endsWord r then
      if s.inFlow then .error .malformed else s.item
    else if c = '?' ∧ (s.inFlow ∨ endsWord r) then s.explicitKey
    else if c = ':' ∧ (s.inFlow ∨ endsWord r) then s.colon
    else s.content
  | [] => .ok s

/-- All tokens of the rest. -/
def all : Nat → Scan → Except Refusal (List Token)
  | 0, _ => .error .malformed
  | fuel + 1, s => do
    let s ← s.toToken.dropStale
    let s := s.unwind s.column
    if s.rest.isEmpty then
      let s ← s.closeAll
      return s.tokens.toList
    else all fuel (← s.token)

end Scan

/-- The tokens of a text. -/
def tokens (s : List Char) : Except Refusal (List Token) :=
  if s.all isAllowed then Scan.all (s.length + 2) { rest := s } else .error .malformed

end CachedViews.Yaml
