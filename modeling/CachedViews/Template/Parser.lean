import CachedViews.Template.Operations
import CachedViews.Template.Token

/-
# Parsing templates

A recursive-descent parser from tokens to nodes. It looks at one token and
rarely at a second; a failure token is a fault as soon as it is reached. Every
rule is one function on the remaining tokens, with a bound on the depth of
nesting that the number of tokens always meets.

Statements of blocks, macros, inclusion and the like are not followed: a text that
has one is given up there (`ParseFault.notFollowed`). A filter or a test that there
is but that is not followed is read like any other.

Key definitions: `Parse`, `ParseFault`, `parseTemplate`.
-/

namespace CachedViews.Template

open CachedViews.Text

/-- Why a text was given up. -/
inductive ParseFault where
  | malformed (f : SyntaxFault)
  /-- The text may be well formed, but has something in it that is not followed. -/
  | notFollowed (what : String)
  deriving Repr, BEq, DecidableEq

/-- The fault that the text is refused with. -/
def ParseFault.fault : ParseFault → Fault
  | .malformed f => .malformedTemplate f
  | .notFollowed what => .notFollowed what

/-- A step of parsing: it works on the tokens that are left. -/
abbrev Parse (α : Type) := StateT (List Token) (Except ParseFault) α

/-- Which ends of statements are waited for, the innermost first, and which
statements are open. -/
structure Surroundings where
  ends : List (List String) := []
  tags : List String := []

namespace Parse

/-- The operator names that are shown for brackets and signs. -/
def describe : TokenKind → String
  | .data _ => "template data / text"
  | .beginPrint => "begin of print statement"
  | .endPrint => "end of print statement"
  | .beginBlock => "begin of statement block"
  | .endBlock => "end of statement block"
  | .name s => s
  | .text _ => "string"
  | .int _ => "integer"
  | .float _ => "float"
  | .op o => o
  | .finish => "end of template"
  | .failure f => f.text

/-- The token that is looked at. -/
def current : Parse Token := do
  match ← get with
  | [] => return ⟨1, .finish⟩
  | t :: _ => return t

/-- What the token is that is looked at. -/
def kind : Parse TokenKind := return (← current).kind

/-- Refuse the text at a line. -/
def failAt {α : Type} (line : Nat) (text : String) : Parse α :=
  throw (.malformed { line, text })

/-- Refuse the text at the token that is looked at. -/
def fail {α : Type} (text : String) : Parse α := do failAt (← current).line text

/-- Give up at something that is not followed. -/
def giveUp {α : Type} (what : String) : Parse α := throw (.notFollowed what)

/-- Go on to the next token. The last token stays. -/
def advance : Parse Unit := do
  match ← get with
  | _ :: ⟨_, .failure f⟩ :: _ => throw (.malformed f)
  | _ :: t :: r => set (t :: r)
  | _ => pure ()

/-- The kind of the token after the one that is looked at. -/
def peek : Parse TokenKind := do
  match ← get with
  | _ :: ⟨_, .failure f⟩ :: _ => throw (.malformed f)
  | _ :: t :: _ => return t.kind
  | _ => return .finish

/-- Is the operator looked at? -/
def atOp (o : String) : Parse Bool := return (← kind) == .op o

/-- Is the word looked at? -/
def atName (s : String) : Parse Bool := return (← kind) == .name s

/-- Go past an operator if it is looked at. -/
def skipOp (o : String) : Parse Bool := do
  if ← atOp o then advance; return true else return false

/-- Go past a word if it is looked at. -/
def skipName (s : String) : Parse Bool := do
  if ← atName s then advance; return true else return false

/-- The fault for a token that is not the expected one. -/
def unexpected {α : Type} (wanted : String) : Parse α := do
  let t ← current
  if t.kind == .finish then
    failAt t.line s!"unexpected end of template, expected {quotedString wanted}."
  else failAt t.line s!"expected token {quotedString wanted}, got {quotedString (describe t.kind)}"

/-- Go past a token that has to be there. -/
def expect (k : TokenKind) : Parse Unit := do
  if (← kind) == k then advance else unexpected (describe k)

/-- Go past a name that has to be there. -/
def expectName : Parse String := do
  match ← kind with
  | .name s => advance; return s
  | _ => unexpected "name"

/-- The end of a list of expressions. -/
def atTupleEnd : Parse Bool := do
  match ← kind with
  | .endPrint | .endBlock | .op ")" => return true
  | _ => return false

/-- The comparison that an operator stands for. -/
def comparison? : TokenKind → Option Comparison
  | .op "==" => some .eq
  | .op "!=" => some .ne
  | .op "<" => some .lt
  | .op "<=" => some .le
  | .op ">" => some .gt
  | .op ">=" => some .ge
  | _ => none

/-- The arithmetic operator of a sum. -/
def additive? : TokenKind → Option Arithmetic
  | .op "+" => some .add
  | .op "-" => some .sub
  | _ => none

/-- The arithmetic operator of a product. -/
def multiplicative? : TokenKind → Option Arithmetic
  | .op "*" => some .mul
  | .op "/" => some .div
  | .op "//" => some .floorDiv
  | .op "%" => some .mod
  | _ => none

/-- Does an argument of a test begin here? -/
def beginsArgument : TokenKind → Bool
  | .name "else" | .name "or" | .name "and" => false
  | .name _ | .text _ | .int _ | .float _ | .op "(" | .op "[" | .op "\x7b" => true
  | _ => false

/-- Quoted texts in a row. -/
def texts : Nat → String → Parse String
  | 0, acc => return acc
  | fuel + 1, acc => do
    match ← kind with
    | .text s => advance; texts fuel (acc ++ s)
    | _ => return acc

/-- A name with dots in it. -/
def dottedName : Nat → String → Parse String
  | 0, acc => return acc
  | fuel + 1, acc => do
    if ← skipOp "." then
      let s ← expectName
      dottedName fuel (acc ++ "." ++ s)
    else return acc

/-- The fault of a nesting that is too deep for its tokens; it does not arise. -/
def tooDeep {α : Type} : Parse α := fail "nesting too deep"

mutual

/-- An expression, with or without a condition behind it. -/
def expression : Nat → Bool → Parse Expr
  | 0, _ => tooDeep
  | fuel + 1, withCondition => do
    let line := (← current).line
    let e ← disjunction fuel
    if withCondition then conditions fuel line e else return e

/-- Conditions behind an expression, which began on the line. -/
def conditions : Nat → Nat → Expr → Parse Expr
  | 0, _, _ => tooDeep
  | fuel + 1, line, e => do
    if ← skipName "if" then
      let condition ← disjunction fuel
      let no ← if ← skipName "else" then some <$> expression fuel true else pure none
      conditions fuel (← current).line (.choose line condition e no)
    else return e

/-- Alternatives. -/
def disjunction : Nat → Parse Expr
  | 0 => tooDeep
  | fuel + 1 => do
    let a ← conjunction fuel
    disjunctionRest fuel a

/-- Further alternatives. -/
def disjunctionRest : Nat → Expr → Parse Expr
  | 0, _ => tooDeep
  | fuel + 1, a => do
    if ← skipName "or" then
      let b ← conjunction fuel
      disjunctionRest fuel (.or a b)
    else return a

/-- Expressions that all have to hold. -/
def conjunction : Nat → Parse Expr
  | 0 => tooDeep
  | fuel + 1 => do
    let a ← negation fuel
    conjunctionRest fuel a

/-- Further expressions that have to hold. -/
def conjunctionRest : Nat → Expr → Parse Expr
  | 0, _ => tooDeep
  | fuel + 1, a => do
    if ← skipName "and" then
      let b ← negation fuel
      conjunctionRest fuel (.and a b)
    else return a

/-- An expression that may be negated. -/
def negation : Nat → Parse Expr
  | 0 => tooDeep
  | fuel + 1 => do
    if ← skipName "not" then return .not (← negation fuel) else comparisons fuel

/-- A chain of comparisons. -/
def comparisons : Nat → Parse Expr
  | 0 => tooDeep
  | fuel + 1 => do
    let first ← sum fuel
    match ← comparisonRest fuel with
    | [] => return first
    | rest => return .compare first rest

/-- The comparisons behind the first operand. -/
def comparisonRest : Nat → Parse (List (Comparison × Expr))
  | 0 => tooDeep
  | fuel + 1 => do
    let found ← match comparison? (← kind) with
      | some op => advance; pure (some op)
      | none =>
        if ← skipName "in" then pure (some .isIn)
        else if ← atName "not" then
          if (← peek) == .name "in" then advance; advance; pure (some .notIn)
          else pure none
        else pure none
    match found with
    | none => return []
    | some op =>
      let e ← sum fuel
      return (op, e) :: (← comparisonRest fuel)

/-- A sum. -/
def sum : Nat → Parse Expr
  | 0 => tooDeep
  | fuel + 1 => do
    let a ← concatenation fuel
    sumRest fuel a

/-- Further summands. -/
def sumRest : Nat → Expr → Parse Expr
  | 0, _ => tooDeep
  | fuel + 1, a => do
    match additive? (← kind) with
    | some op =>
      advance
      let b ← concatenation fuel
      sumRest fuel (.arithmetic op a b)
    | none => return a

/-- Texts put together. -/
def concatenation : Nat → Parse Expr
  | 0 => tooDeep
  | fuel + 1 => do
    let a ← product fuel
    match ← concatenationRest fuel with
    | [] => return a
    | rest => return .concat (a :: rest)

/-- The further texts. -/
def concatenationRest : Nat → Parse (List Expr)
  | 0 => tooDeep
  | fuel + 1 => do
    if ← skipOp "~" then
      let a ← product fuel
      return a :: (← concatenationRest fuel)
    else return []

/-- A product. -/
def product : Nat → Parse Expr
  | 0 => tooDeep
  | fuel + 1 => do
    let a ← power fuel
    productRest fuel a

/-- Further factors. -/
def productRest : Nat → Expr → Parse Expr
  | 0, _ => tooDeep
  | fuel + 1, a => do
    match multiplicative? (← kind) with
    | some op =>
      advance
      let b ← power fuel
      productRest fuel (.arithmetic op a b)
    | none => return a

/-- A power. -/
def power : Nat → Parse Expr
  | 0 => tooDeep
  | fuel + 1 => do
    let a ← unary fuel true
    powerRest fuel a

/-- Further exponents. -/
def powerRest : Nat → Expr → Parse Expr
  | 0, _ => tooDeep
  | fuel + 1, a => do
    if ← skipOp "**" then
      let b ← unary fuel true
      powerRest fuel (.arithmetic .pow a b)
    else return a

/-- An expression with a sign, or a primary one, with what follows it. -/
def unary : Nat → Bool → Parse Expr
  | 0, _ => tooDeep
  | fuel + 1, withFilter => do
    let e ←
      if ← skipOp "-" then Expr.negative <$> unary fuel false
      else if ← skipOp "+" then Expr.positive <$> unary fuel false
      else primary fuel
    let e ← postfixes fuel e
    if withFilter then filters fuel e else return e

/-- A name, a literal or a bracketed expression. -/
def primary : Nat → Parse Expr
  | 0 => tooDeep
  | fuel + 1 => do
    let t ← current
    match t.kind with
    | .name s =>
      advance
      if s = "true" ∨ s = "True" then return .constant (.bool true)
      else if s = "false" ∨ s = "False" then return .constant (.bool false)
      else if s = "none" ∨ s = "None" then return .constant .none
      else return .name s
    | .text s =>
      advance
      return .constant (.text (← texts fuel s))
    | .int n => advance; return .constant (.int n)
    | .float x => advance; return .constant (.float x)
    | .op "(" =>
      advance
      let e ← tuple fuel false true true
      expect (.op ")")
      return e
    | .op "[" =>
      advance
      let items ← listItems fuel []
      expect (.op "]")
      return .list items
    | .op "\x7b" =>
      advance
      let entries ← dictEntries fuel []
      expect (.op "\x7d")
      return .dict entries
    | k => failAt t.line s!"unexpected {quotedString (describe k)}"

/-- The items of a list. -/
def listItems : Nat → List Expr → Parse (List Expr)
  | 0, _ => tooDeep
  | fuel + 1, items => do
    if ← atOp "]" then return items
    if !items.isEmpty then expect (.op ",")
    if ← atOp "]" then return items
    let e ← expression fuel true
    listItems fuel (items ++ [e])

/-- The entries of a mapping. -/
def dictEntries : Nat → List (Expr × Expr) → Parse (List (Expr × Expr))
  | 0, _ => tooDeep
  | fuel + 1, entries => do
    if ← atOp "\x7d" then return entries
    if !entries.isEmpty then expect (.op ",")
    if ← atOp "\x7d" then return entries
    let k ← expression fuel true
    expect (.op ":")
    let v ← expression fuel true
    dictEntries fuel (entries ++ [(k, v)])

/-- One expression, or several with commas between: then a tuple. Items may be
restricted to primary ones. Nothing at all is allowed between brackets only. -/
def tuple : Nat → Bool → Bool → Bool → Parse Expr
  | 0, _, _, _ => tooDeep
  | fuel + 1, simple, withCondition, bracketed => do
    let (items, isTuple) ← tupleItems fuel simple withCondition []
    if isTuple then return .tuple items
    match items with
    | e :: _ => return e
    | [] =>
      if bracketed then return .tuple []
      else
        let t ← current
        failAt t.line s!"Expected an expression, got {quotedString (describe t.kind)}"

/-- The items of a tuple, and whether there was a comma. -/
def tupleItems : Nat → Bool → Bool → List Expr → Parse (List Expr × Bool)
  | 0, _, _, _ => tooDeep
  | fuel + 1, simple, withCondition, items => do
    if !items.isEmpty then expect (.op ",")
    if ← atTupleEnd then return (items, !items.isEmpty)
    let e ← if simple then primary fuel else expression fuel withCondition
    if ← atOp "," then tupleItems fuel simple withCondition (items ++ [e])
    else return (items ++ [e], !items.isEmpty)

/-- The ways into a value: attributes, items and calls. -/
def postfixes : Nat → Expr → Parse Expr
  | 0, _ => tooDeep
  | fuel + 1, e => do
    match ← kind with
    | .op "." =>
      advance
      let t ← current
      advance
      match t.kind with
      | .name s => postfixes fuel (.attribute e s)
      | .int n => postfixes fuel (.item e (.constant (.int n)))
      | _ => failAt t.line "expected name or number"
    | .op "[" =>
      advance
      let e ← subscript fuel e
      postfixes fuel e
    | .op "(" =>
      let (args, named) ← arguments fuel
      postfixes fuel (.call e args named)
    | _ => return e

/-- What stands between square brackets behind a value. -/
def subscript : Nat → Expr → Parse Expr
  | 0, _ => tooDeep
  | fuel + 1, e => do
    let colon ← atOp ":"
    let first ← if colon then pure none
      else if ← atOp "]" then pure none
      else some <$> expression fuel true
    if ← skipOp ":" then
      let bound : Parse (Option Expr) := do
        if (← atOp ":") || (← atOp "]") then return none else some <$> expression fuel true
      let stop ← bound
      let step ← if ← skipOp ":" then bound else pure none
      expect (.op "]")
      return .slice e first stop step
    match first with
    | none => expect (.op "]"); return .item e (.tuple [])
    | some key =>
      if ← atOp "," then
        let more ← subscriptRest fuel [key]
        expect (.op "]")
        return .item e (.tuple more)
      expect (.op "]")
      return .item e key

/-- Further keys between square brackets. -/
def subscriptRest : Nat → List Expr → Parse (List Expr)
  | 0, _ => tooDeep
  | fuel + 1, keys => do
    if ← atOp "]" then return keys
    expect (.op ",")
    let key ← expression fuel true
    subscriptRest fuel (keys ++ [key])

/-- The arguments of a call, the named ones last. -/
def arguments : Nat → Parse (List Expr × List (String × Expr))
  | 0 => tooDeep
  | fuel + 1 => do
    let line := (← current).line
    expect (.op "(")
    let found ← argumentRest fuel line [] []
    expect (.op ")")
    if (found.2.map Prod.fst).Nodup then return found
    giveUp "a named argument that is given twice"

/-- Further arguments. -/
def argumentRest : Nat → Nat → List Expr → List (String × Expr) →
    Parse (List Expr × List (String × Expr))
  | 0, _, _, _ => tooDeep
  | fuel + 1, line, args, named => do
    if ← atOp ")" then return (args, named)
    if !(args.isEmpty && named.isEmpty) then expect (.op ",")
    if ← atOp ")" then return (args, named)
    if (← atOp "*") || (← atOp "**") then giveUp "an argument that is spread out"
    let key? ← match ← kind with
      | .name s => if (← peek) == .op "=" then pure (some s) else pure none
      | _ => pure none
    match key? with
    | some key =>
      advance
      advance
      let e ← expression fuel true
      argumentRest fuel line args (named ++ [(key, e)])
    | none =>
      if !named.isEmpty then failAt line "invalid syntax for function call expression"
      let e ← expression fuel true
      argumentRest fuel line (args ++ [e]) named

/-- Filters, tests and calls behind an expression. -/
def filters : Nat → Expr → Parse Expr
  | 0, _ => tooDeep
  | fuel + 1, e => do
    match ← kind with
    | .op "|" =>
      advance
      let e ← filter fuel e
      filters fuel e
    | .name "is" =>
      let line := (← current).line
      advance
      let e ← test fuel line e
      filters fuel e
    | .op "(" =>
      let (args, named) ← arguments fuel
      filters fuel (.call e args named)
    | _ => return e

/-- The name of a filter and its arguments. -/
def filter : Nat → Expr → Parse Expr
  | 0, _ => tooDeep
  | fuel + 1, e => do
    let line := (← current).line
    let name ← dottedName fuel (← expectName)
    if ← atOp "(" then
      let (args, named) ← arguments fuel
      return .filter e line name args named
    else return .filter e line name [] []

/-- The name of a test and its arguments. -/
def test : Nat → Nat → Expr → Parse Expr
  | 0, _, _ => tooDeep
  | fuel + 1, line, e => do
    let negated ← skipName "not"
    let name ← dottedName fuel (← expectName)
    let k ← kind
    let args ←
      if k == .op "(" then do
        let (args, named) ← arguments fuel
        if !named.isEmpty then giveUp "a named argument of a test"
        pure args
      else if beginsArgument k then do
        if k == .name "is" then fail "You cannot chain multiple tests with is"
        let arg ← primary fuel
        let arg ← postfixes fuel arg
        pure [arg]
      else pure []
    let found := Expr.test e line name args
    return if negated then .not found else found

end

/-! ### Statements -/

/-- The target of an expression that may be assigned to. -/
def target? : Expr → Option Target
  | .name n => some (.name n)
  | .tuple items =>
    let rec each : List Expr → Option (List Target)
      | [] => some []
      | .name n :: more => (each more).map (.name n :: ·)
      | _ => none
    (each items).map .tuple
  | _ => none

/-- May the expression be a part of a target? -/
def isTargetPart : Expr → Bool
  | .name _ | .tuple _ => true
  | _ => false

/-- The tags of the statements that are not followed. -/
def furtherTags : List String :=
  ["autoescape", "block", "call", "extends", "filter", "from", "import", "include", "macro",
   "print", "with"]

/-- The name of a form of expression, for the fault that nothing can be assigned
to it. -/
def formName : Expr → String
  | .constant _ => "const"
  | .list _ => "list"
  | .dict _ => "dict"
  | .tuple _ => "tuple"
  | _ => "name"

/-- What a statement assigns to. A field of a variable may be assigned by `set`. -/
def assignTarget (fuel : Nat) (withField : Bool) : Parse Target := do
  let isField ← if withField then (return (← peek) == .op ".") else pure false
  if isField then
    let object ← expectName
    advance
    let field ← expectName
    return .attribute object field
  else
    let line := (← current).line
    let e ← tuple fuel true true false
    match target? e, e with
    | some t, _ => return t
    | none, .tuple items =>
      if items.all isTargetPart then giveUp "a target inside a target"
      else failAt line s!"can't assign to {quotedString (formName e)}"
    | none, _ => failAt line s!"can't assign to {quotedString (formName e)}"

/-- The alternatives of a list of tags. -/
def alternatives (names : List String) : String :=
  String.intercalate " or " (names.map quotedString)

/-- The fault of a tag that nothing waits for, or of a text that ends too early. -/
def tagFault {α : Type} (at_ : Surroundings) (line : Nat) (name? : Option String) : Parse α :=
  let start := match name? with
    | none => "Unexpected end of template."
    | some name => s!"Encountered unknown tag {quotedString name}."
  let waiting := match at_.ends with
    | [] => ""
    | names :: _ =>
      if (name?.any fun name => at_.ends.any fun ends => ends.contains name) then
        " You probably made a nesting mistake. Jinja is expecting this tag, but currently " ++
          s!"looking for {alternatives names}."
      else s!" Jinja was looking for the following tags: {alternatives names}."
  let open_ := match at_.tags with
    | [] => ""
    | tag :: _ => s!" The innermost block that needs to be closed is {quotedString tag}."
  failAt line (start ++ waiting ++ open_)

mutual

/-- Nodes up to the end of the text or a tag that is waited for. -/
def nodes (st : Settings) : Nat → Surroundings → Option (List String) → Parse (List Node)
  | 0, _, _ => tooDeep
  | fuel + 1, at_, ends? => do
    match ← kind with
    | .finish => return []
    | .data s =>
      advance
      return .text s :: (← nodes st fuel at_ ends?)
    | .beginPrint =>
      advance
      let e ← tuple fuel false true false
      expect .endPrint
      return .print e :: (← nodes st fuel at_ ends?)
    | .beginBlock =>
      advance
      let found ← match ends?, ← kind with
        | some ends, .name s => pure (ends.contains s)
        | _, _ => pure false
      if found then return []
      let n ← statement st fuel at_
      expect .endBlock
      return n :: (← nodes st fuel at_ ends?)
    | _ => fail "internal parsing error"

/-- The nodes inside a statement, up to one of its tags, which is looked at
afterwards. -/
def inside (st : Settings) : Nat → Surroundings → List String → Parse (List Node)
  | 0, _, _ => tooDeep
  | fuel + 1, at_, ends => do
    let _ ← skipOp ":"
    expect .endBlock
    let inner := { at_ with ends := ends :: at_.ends }
    let body ← nodes st fuel inner (some ends)
    let t ← current
    if t.kind == .finish then tagFault inner t.line none
    return body

/-- A statement. -/
def statement (st : Settings) : Nat → Surroundings → Parse Node
  | 0, _ => tooDeep
  | fuel + 1, at_ => do
    let t ← current
    match t.kind with
    | .name "if" =>
      advance
      branches st fuel { at_ with tags := "if" :: at_.tags }
    | .name "for" =>
      advance
      let at_ := { at_ with tags := "for" :: at_.tags }
      let target ← assignTarget fuel false
      expect (.name "in")
      let items ← tuple fuel false false false
      let filter ← if ← skipName "if" then some <$> expression fuel true else pure none
      let _ ← skipName "recursive"
      let body ← inside st fuel at_ ["endfor", "else"]
      let hasElse ← atName "else"
      advance
      if hasElse then
        let no ← inside st fuel at_ ["endfor"]
        advance
        return .loop target items filter body no
      else return .loop target items filter body []
    | .name "set" =>
      advance
      let at_ := { at_ with tags := "set" :: at_.tags }
      let target ← assignTarget fuel true
      if ← skipOp "=" then
        let e ← tuple fuel false true false
        return .assign target e
      else if ← atOp "|" then giveUp "a filter of an assigned text"
      else
        let body ← inside st fuel at_ ["endset"]
        advance
        return .capture target body
    | .name s =>
      if s = "do" ∧ st.doStatement then
        advance
        return .run (← tuple fuel false true false)
      else if s = "break" ∧ st.loopControls then advance; return .leave
      else if s = "continue" ∧ st.loopControls then advance; return .next
      else if furtherTags.contains s || st.furtherTags.contains s then giveUp ("the tag " ++ s)
      else tagFault at_ t.line (some s)
    | _ => failAt t.line "tag name expected"

/-- The branches of a condition. -/
def branches (st : Settings) : Nat → Surroundings → Parse Node
  | 0, _ => tooDeep
  | fuel + 1, at_ => do
    let condition ← tuple fuel false false false
    let yes ← inside st fuel at_ ["elif", "else", "endif"]
    match ← kind with
    | .name "elif" =>
      advance
      let no ← branches st fuel at_
      return .branch condition yes [no]
    | .name "else" =>
      advance
      let no ← inside st fuel at_ ["endif"]
      advance
      return .branch condition yes no
    | _ =>
      advance
      return .branch condition yes []

end

end Parse

/-! ### Names of filters and tests -/

/-- Is there a filter of the name? -/
def isFilter (name : String) : Bool :=
  (filterParameters.lookup name).isSome || furtherFilters.contains name

/-- Is there a test of the name? -/
def isTest (name : String) : Bool :=
  (testArguments.lookup name).isSome || furtherTests.contains name

mutual

/-- The first name of a filter or a test that does not exist, looked for in the
parts of an expression that are sure to be evaluated. -/
def unknownIn : Expr → Option SyntaxFault
  | .constant _ | .name _ => none
  | .list items | .tuple items | .concat items => unknownInAll items
  | .dict entries => unknownInEntries entries
  | .attribute e _ => unknownIn e
  | .item e k => (unknownIn e).or (unknownIn k)
  | .slice e _ _ _ => unknownIn e
  | .call f args named => (unknownIn f).or ((unknownInAll args).or (unknownInNamed named))
  | .filter e line name args named =>
    if isFilter name then
      (unknownIn e).or ((unknownInAll args).or (unknownInNamed named))
    else some { line, text := s!"No filter named {quotedString name}.", unknownName := true }
  | .test e line name args =>
    if isTest name then (unknownIn e).or (unknownInAll args)
    else some { line, text := s!"No test named {quotedString name}.", unknownName := true }
  | .negative e | .positive e | .not e => unknownIn e
  | .arithmetic _ a b | .and a b | .or a b => (unknownIn a).or (unknownIn b)
  | .compare first rest => (unknownIn first).or (unknownInCompared rest)
  | .choose _ _ _ _ => none

/-- `unknownIn` for several expressions. -/
def unknownInAll : List Expr → Option SyntaxFault
  | [] => none
  | e :: es => (unknownIn e).or (unknownInAll es)

/-- `unknownIn` for entries. -/
def unknownInEntries : List (Expr × Expr) → Option SyntaxFault
  | [] => none
  | (k, v) :: es => (unknownIn k).or ((unknownIn v).or (unknownInEntries es))

/-- `unknownIn` for named arguments. -/
def unknownInNamed : List (String × Expr) → Option SyntaxFault
  | [] => none
  | (_, e) :: es => (unknownIn e).or (unknownInNamed es)

/-- `unknownIn` for the further operands of comparisons. -/
def unknownInCompared : List (Comparison × Expr) → Option SyntaxFault
  | [] => none
  | (_, e) :: es => (unknownIn e).or (unknownInCompared es)

end

mutual

/-- The first unknown name in a node; `soft` says that the node may not be
reached, so that its names matter only when it is. -/
def unknownInNode (soft : Bool) : Node → Option SyntaxFault
  | .text _ | .leave | .next => none
  | .print e | .run e | .assign _ e => if soft then none else unknownIn e
  | .branch _ yes no => (unknownInNodes true yes).or (unknownInNodes true no)
  | .loop _ items filter body no =>
    ((if soft then none else unknownIn items).or (filter.bind unknownIn)).or
      ((unknownInNodes false body).or (unknownInNodes false no))
  | .capture _ body => unknownInNodes false body

/-- `unknownInNode` for several nodes. -/
def unknownInNodes (soft : Bool) : List Node → Option SyntaxFault
  | [] => none
  | n :: ns => (unknownInNode soft n).or (unknownInNodes soft ns)

end

/-- The nodes of a template text. -/
def parseTemplate (st : Settings) (s : String) : Except ParseFault (List Node) := do
  let ts := tokens st s.toList
  match ts with
  | ⟨_, .failure f⟩ :: _ => throw (.malformed f)
  | _ =>
    let (body, _) ← (Parse.nodes st (40 * (ts.length + 1)) {} none).run ts
    match unknownInNodes false body with
    | some f => throw (.malformed f)
    | none => return body

end CachedViews.Template
