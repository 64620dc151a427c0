import CachedViews.Fault
import CachedViews.Text.Wordlike

/-
# Scalars in YAML text

The ways to write a scalar: plain, in single or double quotes, and as a block of
indented lines. Each reader takes the text from the first character of a scalar
on and gives the text of the scalar with the text that is left. Line breaks
inside a scalar are folded: one break is a blank, more breaks are one fewer.

Key definitions: `Yaml.Refusal`, `Yaml.readPlain`, `Yaml.readQuoted`,
`Yaml.readBlock`.
-/

namespace CachedViews.Yaml

open CachedViews.Text

/-- Why a text is no document: it breaks the rules of the format, or a value in
it cannot be made. -/
inductive Refusal where
  | malformed
  | fault (f : Fault)
  deriving Repr, BEq, DecidableEq

/-- Does the character end a line? -/
def isLineEnd (c : Char) : Bool :=
  c = '\n' || c = '\r' || c = '\x85' || c = '\u2028' || c = '\u2029'

/-- A blank inside a line. -/
def isInlineBlank (c : Char) : Bool := c = ' ' || c = '\t'

/-- May the character occur in a document? -/
def isAllowed (c : Char) : Bool :=
  let n := c.toNat
  isInlineBlank c || isLineEnd c || (0x20 ≤ n && n ≤ 0x7e) || (0xa0 ≤ n && n ≤ 0xfffd) ||
    0x10000 ≤ n

/-- A character of names: a letter, a digit, `-` or `_`. -/
def isNameChar (c : Char) : Bool := c.isAlphanum || c = '-' || c = '_'

/-- Does a word end here, at the end of the text, a blank or a line end? -/
def endsWord : List Char → Bool
  | [] => true
  | c :: _ => isInlineBlank c || isLineEnd c

/-- Does the text end here, at its end, a space or a line end? -/
def endsEntry : List Char → Bool
  | [] => true
  | c :: _ => c = ' ' || isLineEnd c

/-- The line end at the beginning of a text as it counts in a scalar, and the
text behind it. -/
def lineBreak? : List Char → Option (Char × List Char)
  | '\r' :: '\n' :: r => some ('\n', r)
  | c :: r =>
    if c = '\n' ∨ c = '\r' ∨ c = '\x85' then some ('\n', r)
    else if isLineEnd c then some (c, r) else none
  | [] => none

/-- Does a mark between documents stand at the beginning of the line? -/
def isSeparator (s : List Char) : Bool :=
  (s.take 3 = ['-', '-', '-'] || s.take 3 = ['.', '.', '.']) && endsWord (s.drop 3)

/-- Line breaks inside a scalar: the first is a blank when it stands alone and is
dropped before others. -/
def folded (first : Char) (others : List Char) : List Char :=
  (if first ≠ '\n' then [first] else if others.isEmpty then [' '] else []) ++ others

/-! ### Plain scalars -/

/-- A scalar that was read, whether a line ended behind it, and the text that is
left. -/
structure Plain where
  text : List Char
  broke : Bool
  rest : List Char

/-- Does a plain scalar pause at this character, with `r` behind it? -/
def pausesPlain (inFlow : Bool) (c : Char) (r : List Char) : Bool :=
  isInlineBlank c || isLineEnd c ||
    (c = ':' && (endsWord r || (inFlow && (r.head?.map [',', '[', ']', '{', '}'].contains).getD false))) ||
    (inFlow && [',', '?', '[', ']', '{', '}'].contains c)

/-- The characters up to the next pause. -/
def plainRun (inFlow : Bool) : List Char → List Char × List Char
  | [] => ([], [])
  | c :: r =>
    if pausesPlain inFlow c r then ([], c :: r)
    else
      let (run, rest) := plainRun inFlow r
      (c :: run, rest)

/-- The line breaks and blanks at the beginning of a line, with the width of the
last run of blanks. A separator ends the scalar and gives no breaks. -/
def plainBreaks : Nat → List Char → Option (List Char) × Nat × List Char
  | 0, s => (none, 0, s)
  | fuel + 1, s =>
    if isSeparator s then (none, 0, s)
    else
      let body := s.dropWhile (· = ' ')
      match lineBreak? body with
      | some (b, r) =>
        let (breaks, width, rest) := plainBreaks fuel r
        (breaks.map (b :: ·), width, rest)
      | none => (some [], s.length - body.length, body)

/-- What stands between two runs of a plain scalar: the text it counts as, the
column behind a line break, and the text that is left. -/
structure Gap where
  text : List Char
  column : Option Nat
  rest : List Char

/-- The gap at the beginning of a text. -/
def plainGap (s : List Char) : Gap :=
  let body := s.dropWhile (· = ' ')
  match lineBreak? body with
  | some (b, r) =>
    let (breaks, width, rest) := plainBreaks (r.length + 1) r
    ⟨(breaks.map (folded b)).getD [], some width, rest⟩
  | none => ⟨s.takeWhile (· = ' '), none, body⟩

/-- The runs of a plain scalar. `gap` is the text between the last run and this
one; it counts only when another run follows. -/
def plainRuns (inFlow : Bool) (indent : Int) : Nat → List Char → Bool → List Char → Plain
  | 0, _, broke, s => ⟨[], broke, s⟩
  | fuel + 1, gap, broke, s =>
    match plainRun inFlow s with
    | ([], _) => ⟨[], broke, s⟩
    | (run, rest) =>
      let next := plainGap rest
      let leaves := match next.column with
        | some column => !inFlow && (column : Int) < indent
        | none => false
      if next.text.isEmpty || next.rest.head? = some '#' || leaves then
        ⟨gap ++ run, next.column.isSome, next.rest⟩
      else
        let more := plainRuns inFlow indent fuel next.text next.column.isSome next.rest
        { more with text := gap ++ run ++ more.text }

/-- The plain scalar at the beginning of a text. Its further lines are indented
at least to `indent`, unless it stands in brackets. -/
def readPlain (inFlow : Bool) (indent : Int) (s : List Char) : Plain :=
  plainRuns inFlow indent (s.length + 1) [] false s

/-! ### Quoted scalars -/

/-- The letters that stand for one character behind a backslash. -/
def letterEscapes : List (Char × Char) :=
  [('0', '\x00'), ('a', '\x07'), ('b', '\x08'), ('t', '\t'), ('\t', '\t'), ('n', '\n'),
   ('v', '\x0b'), ('f', '\x0c'), ('r', '\r'), ('e', '\x1b'), (' ', ' '), ('"', '"'),
   ('\\', '\\'), ('/', '/'), ('N', '\x85'), ('_', '\xa0'), ('L', '\u2028'), ('P', '\u2029')]

/-- The letters behind which a number of hexadecimal digits follows. -/
def codeEscapes : List (Char × Nat) := [('x', 2), ('u', 4), ('U', 8)]

/-- The line breaks inside quotes, blanks at the beginning of lines dropped. -/
def quotedBreaks : Nat → List Char → Except Refusal (List Char × List Char)
  | 0, _ => .error .malformed
  | fuel + 1, s =>
    if isSeparator s then .error .malformed
    else match lineBreak? (s.dropWhile isInlineBlank) with
      | some (b, r) => do
        let (breaks, rest) ← quotedBreaks fuel r
        return (b :: breaks, rest)
      | none => .ok ([], s.dropWhile isInlineBlank)

/-- What an escape stands for, from the character behind the backslash on. -/
def readEscape : List Char → Except Refusal (List Char × List Char)
  | [] => .error .malformed
  | c :: r =>
    match letterEscapes.lookup c, codeEscapes.lookup c, lineBreak? (c :: r) with
    | some d, _, _ => .ok ([d], r)
    | _, some count, _ =>
      let digits := r.take count
      if digits.length = count ∧ digits.all fun d => (digitValue? d).isSome then
        let code := numeral 16 digits
        if 0x10ffff < code then .error (.fault (.value .hugeCodePoint))
        else .ok ([Char.ofNat code], r.drop count)
      else .error .malformed
    | _, _, some (_, rest) => quotedBreaks (rest.length + 1) rest
    | _, _, none => .error .malformed

/-- The rest of a quoted scalar, up to and with the closing quote. -/
def quotedFrom (double : Bool) : Nat → List Char → Except Refusal (List Char × List Char)
  | 0, _ => .error .malformed
  | _ + 1, [] => .error .malformed
  | fuel + 1, c :: r => do
    if double && c = '"' then return ([], r)
    else if !double && c = '\'' then
      match r with
      | '\'' :: r =>
        let (text, rest) ← quotedFrom double fuel r
        return ('\'' :: text, rest)
      | r => return ([], r)
    else if double && c = '\\' then
      let (piece, r) ← readEscape r
      let (text, rest) ← quotedFrom double fuel r
      return (piece ++ text, rest)
    else if isInlineBlank c || isLineEnd c then
      let blanks := (c :: r).takeWhile isInlineBlank
      match lineBreak? ((c :: r).dropWhile isInlineBlank) with
      | some (b, r) =>
        let (breaks, r) ← quotedBreaks (r.length + 1) r
        let (text, rest) ← quotedFrom double fuel r
        return (folded b breaks ++ text, rest)
      | none =>
        let (text, rest) ← quotedFrom double fuel ((c :: r).dropWhile isInlineBlank)
        return (blanks ++ text, rest)
    else
      let (text, rest) ← quotedFrom double fuel r
      return (c :: text, rest)

/-- The quoted scalar at the beginning of a text. -/
def readQuoted (s : List Char) : Except Refusal (List Char × List Char) :=
  match s with
  | '"' :: r => quotedFrom true (r.length + 1) r
  | '\'' :: r => quotedFrom false (r.length + 1) r
  | _ => .error .malformed

/-! ### Block scalars -/

/-- What becomes of the line breaks at the end of a block: all are dropped, one
is kept, or all are. -/
inductive Chomping where
  | strip | clip | keep
  deriving Repr, BEq, DecidableEq

/-- The sign of a chomping. -/
def chomping? : Char → Option Chomping
  | '-' => some .strip
  | '+' => some .keep
  | _ => none

/-- The head of a block: chomping and the width of the indentation, in either
order. -/
def readBlockHead (s : List Char) : Except Refusal (Chomping × Option Nat × List Char) := do
  let width (s : List Char) : Except Refusal (Option Nat × List Char) := match s with
    | c :: r =>
      if c = '0' then .error .malformed
      else if isDigit c then .ok (digitValue? c, r) else .ok (none, s)
    | [] => .ok (none, [])
  let sign (s : List Char) : Option Chomping × List Char := match s with
    | c :: r => match chomping? c with
      | some chomp => (some chomp, r)
      | none => (none, s)
    | [] => (none, [])
  let (first, r) := sign s
  let (given, r) ← width r
  let (second, r) := if first.isSome || given.isNone then (none, r) else sign r
  if endsEntry r then
    let r := r.dropWhile (· = ' ')
    let r := match r with
      | '#' :: r => r.dropWhile fun c => !isLineEnd c
      | r => r
    match lineBreak? r with
    | some (_, r) => return ((first.or second).getD .clip, given, r)
    | none => if r.isEmpty then return ((first.or second).getD .clip, given, []) else .error .malformed
  else .error .malformed

/-- The line breaks before the first line of a block, the widest indentation met,
the column reached, and the text that is left. -/
def blockIndentation : Nat → List Char → List Char × Nat × Nat × List Char
  | 0, s => ([], 0, 0, s)
  | fuel + 1, s =>
    let body := s.dropWhile (· = ' ')
    let width := s.length - body.length
    match lineBreak? body with
    | some (b, r) =>
      let (breaks, widest, column, rest) := blockIndentation fuel r
      (b :: breaks, max width widest, column, rest)
    | none => ([], width, width, body)

/-- The line breaks between the lines of a block, the column reached, and the
text that is left. At most `indent` blanks of a line are passed over. -/
def blockBreaks (indent : Nat) : Nat → List Char → List Char × Nat × List Char
  | 0, s => ([], 0, s)
  | fuel + 1, s =>
    let width := min indent (s.takeWhile (· = ' ')).length
    match lineBreak? (s.drop width) with
    | some (b, r) =>
      let (breaks, column, rest) := blockBreaks indent fuel r
      (b :: breaks, column, rest)
    | none => ([], width, s.drop width)

/-- Does the line start with text rather than with a blank? -/
def startsFlush (s : List Char) : Bool := (s.head?.map fun c => !isInlineBlank c).getD true

/-- The lines of a block. `breaks` are the line breaks before the next line and
`last` is the one that ended the last line. -/
def blockLines (folding : Bool) (indent : Nat) (chomp : Chomping) :
    Nat → List Char → List Char → Nat → List Char → List Char × List Char
  | 0, _, _, _, s => ([], s)
  | fuel + 1, last, breaks, column, s =>
    if column = indent ∧ s ≠ [] then
      let line := s.takeWhile fun c => !isLineEnd c
      let after := s.dropWhile fun c => !isLineEnd c
      let (ending, r) : List Char × List Char := match lineBreak? after with
        | some (b, r) => ([b], r)
        | none => ([], after)
      let (nextBreaks, nextColumn, rest) := blockBreaks indent (r.length + 1) r
      let joint :=
        if nextColumn = indent ∧ rest ≠ [] then
          if folding && ending = ['\n'] && startsFlush s && startsFlush rest then
            if nextBreaks.isEmpty then [' '] else []
          else ending
        else []
      let (text, left) := blockLines folding indent chomp fuel ending nextBreaks nextColumn rest
      (breaks ++ line ++ joint ++ text, left)
    else
      let tail := match chomp with
        | .strip => []
        | .clip => last
        | .keep => last ++ breaks
      (tail, s)

/-- The block at the beginning of a text, from its sign on. `parent` is the
indentation it stands in. -/
def readBlock (parent : Int) (s : List Char) : Except Refusal (List Char × List Char) := do
  let folding := s.head? = some '>'
  let (chomp, given, r) ← readBlockHead s.tail
  let least := (max 1 (parent + 1)).toNat
  match given with
  | none =>
    let (breaks, widest, column, rest) := blockIndentation (r.length + 1) r
    return blockLines folding (max least widest) chomp (r.length + 1) [] breaks column rest
  | some width =>
    let indent := least + width - 1
    let (breaks, column, rest) := blockBreaks indent (r.length + 1) r
    return blockLines folding indent chomp (r.length + 1) [] breaks column rest

end CachedViews.Yaml
