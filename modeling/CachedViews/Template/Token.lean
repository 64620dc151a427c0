import CachedViews.Fault
import CachedViews.Text.Wordlike

/-
# Tokens of a template

A template text is cut into data, the signs that open and close statements and
prints, and the tokens between them. Comments leave no token; a raw section is
data. A sign may ask that the blanks next to it are dropped (`-`) or kept (`+`).

A text that cannot be cut ends in a failure token: a parser that stops earlier
never sees it.

Key definitions: `Settings`, `Token`, `tokens`.
-/

namespace CachedViews.Template

open CachedViews.Text

/-- The choices that tell how a text is read and printed. -/
structure Settings where
  /-- Printed values are escaped. -/
  autoescape : Bool := true
  /-- The line end behind a statement is dropped. -/
  trimBlocks : Bool := false
  /-- The blanks before a statement that begins its line are dropped. -/
  lstripBlocks : Bool := false
  /-- The last line end of the text is kept. -/
  keepTrailingNewline : Bool := false
  /-- There is a statement that evaluates an expression for its effect. -/
  doStatement : Bool := false
  /-- There are statements that leave a loop or its round. -/
  loopControls : Bool := false
  /-- The tags of further statements, which are not followed. -/
  furtherTags : List String := []
  deriving Repr, BEq, DecidableEq, Inhabited

/-- What a token is. -/
inductive TokenKind where
  | data (s : String)
  | beginPrint
  | endPrint
  | beginBlock
  | endBlock
  | name (s : String)
  | text (s : String)
  | int (n : Int)
  | float (x : Float)
  | op (s : String)
  | finish
  | failure (f : SyntaxFault)
  deriving Repr, BEq, Inhabited

/-- A token and the line that it begins on. -/
structure Token where
  line : Nat
  kind : TokenKind
  deriving Repr, BEq, Inhabited

/-! ### Opening and closing signs -/

/-- What opens a part of the text, with its sign for blanks. -/
inductive Opening where
  | raw (sign : Option Char)
  | block (sign : Option Char)
  | print (sign : Option Char)
  | comment (sign : Option Char)
  deriving Repr, BEq

/-- The sign for blanks of an opening. -/
def Opening.sign : Opening → Option Char
  | .raw s | .block s | .print s | .comment s => s

/-- A sign for blanks at the beginning of a text. -/
def takeSign : List Char → Option Char × List Char
  | '-' :: r => (some '-', r)
  | '+' :: r => (some '+', r)
  | r => (none, r)

/-- The text behind its blanks. -/
def skipBlanks (s : List Char) : List Char := s.dropWhile isBlank

/-- A word between blanks at the beginning of a text, and what follows. -/
def takeWord? (word s : List Char) : Option (List Char) :=
  (dropStart? word (skipBlanks s)).map skipBlanks

/-- The closing sign of a statement, with the blanks that go with it. `plus` says
whether a sign that keeps blanks is allowed. -/
def closeBlock? (trim plus : Bool) : List Char → Option (List Char)
  | '+' :: '%' :: '}' :: r => if plus then some r else none
  | '-' :: '%' :: '}' :: r => some (skipBlanks r)
  | '%' :: '}' :: '\n' :: r => some (if trim then r else '\n' :: r)
  | '%' :: '}' :: r => some r
  | _ => none

/-- The closing sign of a print, with the blanks that go with it. -/
def closePrint? : List Char → Option (List Char)
  | '-' :: '}' :: '}' :: r => some (skipBlanks r)
  | '}' :: '}' :: r => some r
  | _ => none

/-- The closing sign of a comment, with the blanks that go with it. -/
def closeComment? (trim : Bool) : List Char → Option (List Char)
  | '+' :: '#' :: '}' :: r => some r
  | '-' :: '#' :: '}' :: r => some (skipBlanks r)
  | '#' :: '}' :: '\n' :: r => some (if trim then r else '\n' :: r)
  | '#' :: '}' :: r => some r
  | _ => none

/-- The opening at the beginning of a text, and what follows it. -/
def opening? : List Char → Option (Opening × List Char)
  | '{' :: '%' :: r =>
    let (sign, r') := takeSign r
    match (takeWord? ['r', 'a', 'w'] r').bind (closeBlock? false false) with
    | some rest => some (.raw sign, rest)
    | none => some (.block sign, r')
  | '{' :: '{' :: r => let (sign, r') := takeSign r; some (.print sign, r')
  | '{' :: '#' :: r => let (sign, r') := takeSign r; some (.comment sign, r')
  | _ => none

/-- The end of a raw section at the beginning of a text. -/
def endRaw? (trim : Bool) : List Char → Option (Option Char × List Char)
  | '{' :: '%' :: r =>
    let (sign, r') := takeSign r
    ((takeWord? "endraw".toList r').bind (closeBlock? trim true)).map fun rest => (sign, rest)
  | _ => none

/-- The text up to the first place where something is found, and what is found
there. -/
def splitAt? {α : Type} (find : List Char → Option α) : List Char → List Char × Option α
  | [] => ([], none)
  | c :: r =>
    match find (c :: r) with
    | some a => ([], some a)
    | none => let (before, found) := splitAt? find r; (c :: before, found)

/-- The data before a sign: without the blanks at its end, or without the blanks
of its last line when nothing else is on that line. -/
def stripData (st : Settings) (sign : Option Char) (isPrint lineStart : Bool) (s : List Char) :
    List Char :=
  if sign = some '-' then (s.reverse.dropWhile isBlank).reverse
  else if sign = none ∧ st.lstripBlocks ∧ !isPrint then
    let tail := (s.reverse.takeWhile (· ≠ '\n')).reverse
    if (s.contains '\n' || lineStart) && tail.all isBlank then s.take (s.length - tail.length)
    else s
  else s

/-! ### Literals -/

/-- Digits of a class in groups that single underscores separate. -/
def takeGrouped (p : Char → Bool) : List Char → List Char × List Char
  | '_' :: c :: r =>
    if p c then let (ds, rest) := takeGrouped p r; (c :: ds, rest) else ([], '_' :: c :: r)
  | c :: r => if p c then let (ds, rest) := takeGrouped p r; (c :: ds, rest) else ([], c :: r)
  | [] => ([], [])

/-- Digits that begin with a digit. -/
def takeDigits? (p : Char → Bool) : List Char → Option (List Char × List Char)
  | c :: r => if p c then some (takeGrouped p (c :: r)) else none
  | [] => none

/-- A floating number at the beginning of a text. -/
def takeFloat? (s : List Char) : Option (Float × List Char) := do
  let (whole, r) ← takeDigits? isDigit s
  let fraction? := match r with
    | '.' :: r => takeDigits? isDigit r
    | _ => none
  let (fraction, r') := match fraction? with
    | some (ds, r') => (ds, r')
    | none => ([], r)
  let exponent? : Option (Int × List Char) := match r' with
    | e :: r =>
      if e = 'e' ∨ e = 'E' then
        let (sign, r) := takeSign r
        (takeDigits? isDigit r).map fun (ds, rest) =>
          let n : Int := Decimal.ofDigits ds
          (if sign = some '-' then -n else n, rest)
      else none
    | [] => none
  match exponent?, fraction? with
  | some (e, rest), _ => some (Decimal.floatOfParts false whole fraction e, rest)
  | none, some _ => some (Decimal.floatOfParts false whole fraction 0, r')
  | none, none => none

/-- An integer at the beginning of a text, in base ten or behind the sign of
another base. -/
def takeInt? (s : List Char) : Option (Int × List Char) :=
  let based (base : Nat) (p : Char → Bool) (r : List Char) : Option (Int × List Char) :=
    let r := match r with
      | '_' :: r => r
      | r => r
    (takeDigits? p r).map fun (ds, rest) => ((numeral base ds : Nat), rest)
  let zero (r : List Char) : Option (Int × List Char) :=
    some (0, (takeGrouped (· = '0') r).2)
  match s with
  | '0' :: b :: r =>
    let other :=
      if b = 'b' ∨ b = 'B' then based 2 (fun c => c = '0' || c = '1') r
      else if b = 'o' ∨ b = 'O' then based 8 (fun c => '0' ≤ c && c ≤ '7') r
      else if b = 'x' ∨ b = 'X' then based 16 (fun c => (digitValue? c).isSome) r
      else none
    match other with
    | some found => some found
    | none => zero (b :: r)
  | '0' :: r => zero r
  | s => (takeDigits? isDigit s).map fun (ds, rest) => ((numeral 10 ds : Nat), rest)

/-- The inside of a quoted text and what follows the closing quote. -/
def takeQuoted? (quote : Char) : List Char → Option (List Char × List Char)
  | [] => none
  | '\\' :: c :: r => (takeQuoted? quote r).map fun (s, rest) => ('\\' :: c :: s, rest)
  | c :: r =>
    if c = quote then some ([], r)
    else if c = '\\' then none
    else (takeQuoted? quote r).map fun (s, rest) => (c :: s, rest)

/-- How a character beyond ASCII is spelt behind a backslash. -/
def spelling (c : Char) : List Char := (codePointEscape c.toNat).tail

/-- The fault of an escape with too few digits. -/
def truncated (mark : String) : String := "truncated \\" ++ mark ++ " escape"

/-- `width` digits in base sixteen and what follows. -/
def takeHex? (width : Nat) (s : List Char) : Option (Nat × List Char) :=
  let ds := s.take width
  if ds.length = width ∧ ds.all (fun c => (digitValue? c).isSome) then
    some (hexValue ds, s.drop width)
  else none

/-- Work off the escapes of a quoted text. -/
def unescape : Nat → List Char → Except String (List Char)
  | 0, _ => .ok []
  | _ + 1, [] => .ok []
  | fuel + 1, '\\' :: c :: r =>
    let one (d : Char) := (unescape fuel r).map (d :: ·)
    let coded (width : Nat) (mark : String) : Except String (List Char) :=
      match takeHex? width r with
      | none => .error (truncated mark)
      | some (n, rest) =>
        if 0x10ffff < n then .error "illegal Unicode character"
        else (unescape fuel rest).map (Json.charOfUnit n :: ·)
    match c with
    | '\n' => unescape fuel r
    | '\\' => one '\\'
    | '\'' => one '\''
    | '"' => one '"'
    | 'a' => one '\x07'
    | 'b' => one '\x08'
    | 'f' => one '\x0c'
    | 'n' => one '\n'
    | 'r' => one '\r'
    | 't' => one '\t'
    | 'v' => one '\x0b'
    | 'x' => coded 2 "xXX"
    | 'u' => coded 4 "uXXXX"
    | 'U' => coded 8 "UXXXXXXXX"
    | 'N' => .error "malformed \\N character escape"
    | c =>
      if '0' ≤ c ∧ c ≤ '7' then
        let ds := (c :: r.take 2).takeWhile fun d => '0' ≤ d && d ≤ '7'
        (unescape fuel (r.drop (ds.length - 1))).map (Char.ofNat (numeral 8 ds) :: ·)
      else if c.toNat < 0x80 then (unescape fuel r).map ('\\' :: c :: ·)
      else (unescape fuel r).map ('\\' :: spelling c ++ ·)
  | fuel + 1, c :: r => (unescape fuel r).map (c :: ·)

/-- An operator at the beginning of a text, the longer ones first. -/
def takeOperator? : List Char → Option (String × List Char)
  | '/' :: '/' :: r => some ("//", r)
  | '*' :: '*' :: r => some ("**", r)
  | '=' :: '=' :: r => some ("==", r)
  | '!' :: '=' :: r => some ("!=", r)
  | '>' :: '=' :: r => some (">=", r)
  | '<' :: '=' :: r => some ("<=", r)
  | c :: r => if "+-/*%~[]()\x7b\x7d><=.:|,;".toList.contains c then some (c.toString, r) else none
  | [] => none

/-- The bracket that closes an opening one. -/
def closing? : String → Option String
  | "(" => some ")"
  | "[" => some "]"
  | "\x7b" => some "\x7d"
  | _ => none

/-- Is the operator a closing bracket? -/
def isClosing (o : String) : Bool := o = ")" || o = "]" || o = "\x7d"

/-! ### Cutting a text -/

/-- Where in a template a text is being cut. -/
inductive Mode where
  | root | comment | raw
  /-- Between signs: in a print or a statement. The brackets that are still to be
  closed come with it, the innermost first. -/
  | inside (isPrint : Bool) (open_ : List String)
  deriving Repr, BEq

/-- The line behind a stretch of text, given the line before it. -/
def lineAfter (line : Nat) (before rest : List Char) : Nat :=
  line + (before.take (before.length - rest.length)).count '\n'

/-- Does a stretch of text end with a line end? -/
def endsLine (before rest : List Char) : Bool :=
  (before.take (before.length - rest.length)).getLast? = some '\n'

/-- What stands at a place between signs. -/
inductive Inner where
  | skip (rest : List Char)
  | close (rest : List Char)
  | token (k : TokenKind) (rest : List Char)
  | fail (text : String)
  | done

/-- The next piece between signs. `last` is the character before it and `total`
the length of the whole text. -/
def inner (st : Settings) (isPrint : Bool) (open_ : List String) (last : Char) (total : Nat)
    (s : List Char) : Inner :=
  let close? := if open_.isEmpty then
      if isPrint then closePrint? s else closeBlock? st.trimBlocks true s
    else none
  match close? with
  | some rest => .close rest
  | none =>
    match s with
    | [] => .done
    | c :: r =>
      if isBlank c then .skip (skipBlanks s)
      else match (if last = '.' then none else takeFloat? s) with
        | some (x, rest) => .token (.float x) rest
        | none =>
          match takeInt? s with
          | some (n, rest) => .token (.int n) rest
          | none =>
            if isWord c then .token (.name (String.ofList (s.takeWhile isWord))) (s.dropWhile isWord)
            else
              let quoted? := if c = '\'' ∨ c = '"' then takeQuoted? c r else none
              match quoted? with
              | some (inside, rest) =>
                match unescape (inside.length + 1) inside with
                | .ok t => .token (.text (String.ofList t)) rest
                | .error text => .fail text
              | none =>
                match takeOperator? s with
                | some (o, rest) => .token (.op o) rest
                | none =>
                  .fail s!"unexpected char {quotedString c.toString} at {total - s.length}"

/-- The brackets still to be closed after an operator, or what is wrong with it. -/
def balance (open_ : List String) (o : String) : Except String (List String) :=
  match closing? o with
  | some c => .ok (c :: open_)
  | none =>
    if isClosing o then
      match open_ with
      | [] => .error s!"unexpected '{o}'"
      | c :: more => if c = o then .ok more else .error s!"unexpected '{o}', expected '{c}'"
    else .ok open_

/-- The tokens of a text from a place in the middle. `lineStart` says whether the
last stretch ended with a line end; `tokenLine` is the line of the last token. -/
def tokensFrom (st : Settings) (total : Nat) :
    Nat → Mode → Nat → Nat → Bool → Char → List Char → List Token
  | 0, _, _, tokenLine, _, _, _ => [⟨tokenLine, .finish⟩]
  | fuel + 1, mode, line, tokenLine, lineStart, last, s =>
    let data (t : List Char) (at_ : Nat) (more : Nat → List Token) : List Token :=
      if t.isEmpty then more tokenLine else ⟨at_, .data (String.ofList t)⟩ :: more at_
    let failure (text : String) : List Token := [⟨line, .failure { line, text }⟩]
    match mode with
    | .root =>
      match splitAt? opening? s with
      | (t, none) => data t line fun at_ => [⟨at_, .finish⟩]
      | (t, some (o, rest)) =>
        let isPrint := match o with | .print _ => true | _ => false
        let kept := stripData st o.sign isPrint lineStart t
        let begin := line + t.count '\n'
        let after := lineAfter line s rest
        let starts := endsLine s rest
        data kept line fun tokenLine =>
          match o with
          | .print _ => ⟨begin, .beginPrint⟩ ::
              tokensFrom st total fuel (.inside true []) after begin starts '{' rest
          | .block _ => ⟨begin, .beginBlock⟩ ::
              tokensFrom st total fuel (.inside false []) after begin starts '{' rest
          | .comment _ => tokensFrom st total fuel .comment after tokenLine starts '{' rest
          | .raw _ => tokensFrom st total fuel .raw after tokenLine starts '{' rest
    | .comment =>
      match splitAt? (closeComment? st.trimBlocks) s with
      | (_, some rest) =>
        tokensFrom st total fuel .root (lineAfter line s rest) tokenLine (endsLine s rest) '}' rest
      | (t, none) =>
        if t.isEmpty then [⟨tokenLine, .finish⟩] else failure "Missing end of comment tag"
    | .raw =>
      match splitAt? (endRaw? st.trimBlocks) s with
      | (t, some (sign, rest)) =>
        data (stripData st sign false lineStart t) line fun tokenLine =>
          tokensFrom st total fuel .root (lineAfter line s rest) tokenLine (endsLine s rest) '}' rest
      | (t, none) =>
        if t.isEmpty then [⟨tokenLine, .finish⟩] else failure "Missing end of raw directive"
    | .inside isPrint open_ =>
      let after (rest : List Char) := lineAfter line s rest
      match inner st isPrint open_ last total s with
      | .done => [⟨tokenLine, .finish⟩]
      | .fail text => failure text
      | .skip rest =>
        tokensFrom st total fuel mode (after rest) tokenLine (endsLine s rest) ' ' rest
      | .close rest =>
        ⟨line, if isPrint then .endPrint else .endBlock⟩ ::
          tokensFrom st total fuel .root (after rest) line (endsLine s rest) '}' rest
      | .token k rest =>
        let last := (s.take (s.length - rest.length)).getLast?.getD ' '
        match k with
        | .op o =>
          match balance open_ o with
          | .error text => failure text
          | .ok open_ =>
            ⟨line, k⟩ :: tokensFrom st total fuel (.inside isPrint open_) (after rest) line false last rest
        | k => ⟨line, k⟩ :: tokensFrom st total fuel mode (after rest) line false last rest

/-- The text as it is cut: line ends unified, and the last one dropped unless it
is to be kept. -/
def normalized (st : Settings) (s : List Char) : List Char :=
  let s := unifyNewlines s
  if !st.keepTrailingNewline && s.getLast? = some '\n' then s.dropLast else s

/-- The tokens of a template text. Every step but the last takes a character or
enters a part, so twice the length bounds their number. -/
def tokens (st : Settings) (s : List Char) : List Token :=
  let s := normalized st s
  tokensFrom st s.length (2 * s.length + 2) .root 1 1 true ' ' s

end CachedViews.Template
