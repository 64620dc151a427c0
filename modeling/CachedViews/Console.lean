import CachedViews.Fault
import CachedViews.Text.CaseMap
import CachedViews.Text.Wordlike

/-
# Marked-up text on the console

Text for the console may hold tags in brackets, such as `[red]` and `[/red]`,
which set a style and are not shown. A tag begins with a small letter, `#`, `/`
or `@`. A backslash in front of a bracket that would begin a tag makes it text;
`escape` does so for a whole text, so that it is shown as it is.

A tag may be closed under another name for its style, and one that begins with
`@` has parameters, which are read when it is closed. Which names stand for one
style and which parameters cannot be read is up to the console (`Console.Look`).

Not covered: names between colons, which a console takes for pictures if it knows them.

Key definitions: `Console.Look`, `Console.parts`, `Console.visible`,
`Console.escape`, `Console.shown`, `Console.line`.
-/

namespace CachedViews.Console

open CachedViews.Text

/-- A part of marked-up text: what is shown, or a tag and where it begins. -/
inductive Part where
  | text (s : List Char)
  | tag (position : Nat) (body : List Char)
  deriving Repr, BEq, DecidableEq

/-- A character that a tag may begin with. -/
def isTagStart (c : Char) : Bool :=
  ('a' ≤ c && c ≤ 'z') || c = '#' || c = '/' || c = '@'

/-- The tag behind an opening bracket, and what follows it. -/
def tag? : List Char → Option (List Char × List Char)
  | c :: r =>
    let more := r.takeWhile fun c => c ≠ '[' && c ≠ ']'
    match isTagStart c, r.drop more.length with
    | true, ']' :: rest => some (c :: more, rest)
    | _, _ => none
  | [] => none

/-- The parts of marked-up text from a position on. Of the backslashes in front of
a tag, two stand for one; one that is left over makes the tag text. -/
def partsFrom : Nat → Nat → List Char → List Part
  | 0, _, _ => []
  | fuel + 1, i, s =>
    let slashes := s.takeWhile (· = '\\')
    let n := slashes.length
    match s.drop n with
    | '[' :: r =>
      match tag? r with
      | some (body, rest) =>
        let more := partsFrom fuel (i + n + body.length + 2) rest
        let shown := List.replicate (n / 2) '\\'
        if n % 2 = 1 then .text (shown ++ '[' :: body ++ [']']) :: more
        else .text shown :: .tag (i + n) body :: more
      | none => .text (slashes.drop 1 ++ ['[']) :: partsFrom fuel (i + n + 1) r
    | c :: r => .text (slashes ++ [c]) :: partsFrom fuel (i + n + 1) r
    | [] => [.text slashes]

/-- The parts of marked-up text. -/
def parts (s : List Char) : List Part := partsFrom (s.length + 1) 0 s

/-- A text without the blanks around it. -/
def strip (s : List Char) : List Char :=
  ((s.dropWhile isBlank).reverse.dropWhile isBlank).reverse

/-- What a console makes of tags. -/
structure Look where
  /-- The style of a name. Without further knowledge no style has two names. -/
  style : List Char → List Char := fun name => lower (strip name)
  /-- What is wrong with the parameters of a tag that begins with `@`. -/
  misread : List Char → Option String := fun _ => none
  deriving Inhabited

/-- The name in a tag: its text up to an equals sign. -/
def nameOf (body : List Char) : List Char := body.takeWhile (· ≠ '=')

/-- A tag that is open: its style, and its parameters if it begins with `@`. -/
structure OpenTag where
  style : List Char
  parameters : List Char
  deriving Repr, BEq, DecidableEq

variable (look : Look)

/-- The tag that is opened. -/
def opened (body : List Char) : OpenTag where
  style := look.style (nameOf body)
  parameters := if body.head? = some '@' then body.drop ((nameOf body).length + 1) else []

/-- Parameters are read when their tag is closed. -/
def closed (tag : OpenTag) : Except Fault Unit :=
  if tag.parameters.isEmpty then .ok ()
  else match look.misread tag.parameters with
    | some text => .error (.markup text)
    | none => .ok ()

/-- What is shown of parts, with the tags that are open, the latest first. -/
def visibleParts : List OpenTag → List Part → Except Fault (List Char)
  | _, [] => .ok []
  | tags, .text s :: ps => (visibleParts tags ps).map (s ++ ·)
  | tags, .tag position body :: ps =>
    match body with
    | '/' :: closing =>
      match strip (nameOf closing), tags with
      | [], [] => .error (.nothingToClose position)
      | [], tag :: below => do
        closed look tag
        visibleParts below ps
      | name, _ =>
        match tags.find? (·.style = look.style name) with
        | some tag => do
          closed look tag
          visibleParts (tags.eraseP (·.style = look.style name)) ps
        | none => .error (.unmatchedTag (String.ofList body) position)
    | _ => visibleParts (opened look body :: tags) ps

/-- What is shown of marked-up text. -/
def visible (s : List Char) : Except Fault (List Char) := visibleParts look [] (parts s)

/-- Write a text, up to its end, so that no part of it is taken for a tag. -/
def escapeFrom : Nat → List Char → List Char
  | 0, s => s
  | fuel + 1, s =>
    let slashes := s.takeWhile (· = '\\')
    match s.drop slashes.length with
    | '[' :: r =>
      match tag? r with
      | some (body, rest) =>
        slashes ++ slashes ++ '\\' :: '[' :: body ++ ']' :: escapeFrom fuel rest
      | none => slashes ++ '[' :: escapeFrom fuel r
    | c :: r => slashes ++ c :: escapeFrom fuel r
    | [] => slashes

/-- Write a text so that it is shown as it is. A single backslash at the end is
doubled, so that it changes nothing that is put behind it. -/
def escape (s : List Char) : List Char :=
  let written := escapeFrom (s.length + 1) s
  if (written.reverse.takeWhile (· = '\\')).length = 1 then written ++ ['\\'] else written

/-- A character that moves the position on the console and is never shown. -/
def isControl (c : Char) : Bool :=
  c = '\x07' || c = '\x08' || c = '\x0b' || c = '\x0c' || c = '\r'

/-- The columns between two stops of the tabulator. -/
def tabWidth : Nat := 8

/-- Blanks in place of tabs, from a column on. -/
def expandTabs : Nat → List Char → List Char
  | _, [] => []
  | _, '\n' :: r => '\n' :: expandTabs 0 r
  | column, '\t' :: r =>
    let blanks := tabWidth - column % tabWidth
    List.replicate blanks ' ' ++ expandTabs (column + blanks) r
  | column, c :: r => c :: expandTabs (column + 1) r

/-- The text that is shown for marked-up text. -/
def shown (s : String) : Except Fault String := do
  let seen ← visible look s.toList
  return String.ofList (seen.filter fun c => !isControl c)

/-- The line that marked-up text makes on the console. -/
def line (s : String) : Except Fault String := do
  return String.ofList (expandTabs 0 (← shown look s).toList) ++ "\n"

end CachedViews.Console
