import CachedViews.Fault
import CachedViews.Path
import CachedViews.Text.CaseMap
import CachedViews.Template.Syntax

/-
# Operations of the template language

The ways into a value, the operators, the comparisons and the tests. A missing
value prints as nothing and counts as false, but every operation that needs a
value refuses it. Where plain text meets markup, the plain text is escaped
first, so that markup stays well formed.

What operations come to is followed for plain data: nothing, truth values,
numbers, texts, lists, tuples and mappings. Values of other kinds have many more
attributes and operations; what asks for one of those ends in the fault
`Fault.notFollowed`, never in a result or a fault that is made up.

Key definitions: `attributeOf`, `itemOf`, `itemsOf`, `entriesOf`, `arithmetic`,
`compare`, `joinMarkup`, `testValue`.
-/

namespace CachedViews.Template

open CachedViews.Text

/-- Is the value of a kind whose operations are followed? -/
def isPlain : Value → Bool
  | .null | .bool _ | .int _ | .float _ | .str _ | .markup _ | .list _ | .tuple _ | .dict _ => true
  | _ => false

/-- The fault of an operation on the given values: that of its kind, if they are
plain. -/
def refusal (operation : String) (operands : List Value) (f : TypeFault) : Fault :=
  if operands.all isPlain then .type f else .notFollowed operation

/-! ### Attributes and items -/

/-- The name of a value's kind in messages about attributes. -/
def ownerName : Value → String
  | .null => "None"
  | .markup _ => "markupsafe.Markup object"
  | .path _ => "pathlib.PosixPath object"
  | .page _ _ => "template_views.compiler.CompiledTemplate object"
  | .directorySource _ _ => "template_views.partials.DirectorySource object"
  | .inlineSource _ _ => "template_views.partials.InlineSource object"
  | .record .renderMeta _ => "template_views.engine.RenderMeta object"
  | .record .request _ => "aiohttp.web_request.Request object"
  | .record .loop _ => "jinja2.runtime.LoopContext object"
  | .record .attributes _ => "types.SimpleNamespace object"
  | .record .reference _ => "jinja2.runtime.TemplateReference object"
  | v => v.kind ++ " object"

/-- The methods of a value that are followed. -/
def methodNames : Value → List String
  | .str _ | .markup _ => ["upper", "lower", "strip", "startswith", "endswith"]
  | .dict _ => ["items", "keys", "values", "get"]
  | .list _ => ["append"]
  | _ => []

/-- The further attributes that integers and floating numbers have. -/
def numberNames : List String :=
  ["as_integer_ratio", "bit_count", "bit_length", "conjugate", "denominator", "from_bytes",
   "fromhex", "hex", "imag", "is_integer", "numerator", "real", "to_bytes"]

/-- The further attributes that texts have. -/
def textNames : List String :=
  ["capitalize", "casefold", "center", "count", "encode", "escape", "expandtabs", "find", "format",
   "format_map", "index", "isalnum", "isalpha", "isascii", "isdecimal", "isdigit", "isidentifier",
   "islower", "isnumeric", "isprintable", "isspace", "istitle", "isupper", "join", "ljust",
   "lstrip", "maketrans", "partition", "removeprefix", "removesuffix", "replace", "rfind",
   "rindex", "rjust", "rpartition", "rsplit", "rstrip", "split", "splitlines", "striptags",
   "swapcase", "title", "translate", "unescape", "zfill"]

/-- The further attributes of the record about a render. -/
def metaNames : List String :=
  ["construct", "copy", "dict", "from_orm", "json", "model_computed_fields", "model_config",
   "model_construct", "model_copy", "model_dump", "model_dump_json", "model_extra", "model_fields",
   "model_fields_set", "model_json_schema", "model_parametrized_name", "model_post_init",
   "model_rebuild", "model_validate", "model_validate_json", "model_validate_strings",
   "parse_file", "parse_obj", "parse_raw", "schema", "schema_json", "update_forward_refs",
   "validate"]

/-- Does the value have, or may it have, an attribute of the name that is not
followed? Names that begin with two underscores are those of every object. -/
def hasFurther (v : Value) (name : String) : Bool :=
  name.startsWith "__" ||
  match v with
  | .null | .missing _ | .record .attributes _ | .record .reference _ => false
  | .bool _ | .int _ | .float _ => numberNames.contains name
  | .str _ | .markup _ => textNames.contains name
  | .list _ => ["clear", "copy", "count", "extend", "index", "insert", "pop", "remove", "reverse",
      "sort"].contains name
  | .tuple _ => ["count", "index"].contains name
  | .dict _ => ["clear", "copy", "fromkeys", "pop", "popitem", "setdefault", "update"].contains name
  | .page _ _ => name = "template"
  | .record .renderMeta _ => metaNames.contains name || name.startsWith "_"
  | .record .loop _ => name = "cycle" || name = "changed" || name.startsWith "_"
  | _ => true

/-- An attribute proper of a value. -/
def ownAttribute? (v : Value) (name : String) : Option Value :=
  match v with
  | .record _ fields => fields.lookup name
  | .page _ p => if name = "name" then some ((p.name.map Value.str).getD .null) else none
  | .directorySource p n =>
    if name = "path" then some (.str p)
    else if name = "namespace" then some ((n.map Value.str).getD .null) else none
  | v => if (methodNames v).contains name then some (.method v name) else none

/-- The place that an index means in a sequence: a negative one counts from the
end. -/
def place? (length : Nat) (index : Int) : Option Nat :=
  let n := if index < 0 then index + length else index
  if 0 ≤ n ∧ n < length then some n.toNat else none

/-- The integer that a value is, as an index. -/
def index? : Value → Option Int
  | .int n => some n
  | .bool b => some (if b then 1 else 0)
  | _ => none

/-- An item proper of a value. -/
def ownItem? (v key : Value) : Option Value :=
  let at_ (xs : List Value) : Option Value := do xs[← place? xs.length (← index? key)]?
  let char (s : String) : Option String := do
    return (← s.toList[← place? s.length (← index? key)]?).toString
  match v with
  | .list xs | .tuple xs | .series (.range _ _) xs => at_ xs
  | .bytes bs => at_ (bs.map fun b => .int b.toNat)
  | .str s => (char s).map .str
  | .markup s => (char s).map .markup
  | .dict es => if key.isHashable then (es.find? fun e => Value.same key e.1).map (·.2) else none
  | _ => none

/-- The attribute of a name, if the value has one. -/
def findAttribute (v : Value) (name : String) : Except Fault (Option Value) :=
  match ownAttribute? v name with
  | some found => .ok (some found)
  | none =>
    if hasFurther v name then .error (.notFollowed (ownerName v ++ "." ++ name)) else .ok none

/-- `v.name`: an attribute, or else the item of that key. -/
def attributeOf (v : Value) (name : String) : Except Fault Value := do
  match v, ← findAttribute v name with
  | .missing m, _ => .error (.missing m)
  | _, some found => return found
  | v, none => return (ownItem? v (.str name)).getD (.missing (.attribute (ownerName v) name))

/-- `v[key]`: an item, or else the attribute of that name. -/
def itemOf (v key : Value) : Except Fault Value :=
  match v with
  | .missing m => .error (.missing m)
  | .builtin n => .error (.notFollowed ("an item of " ++ n))
  | v =>
    match ownItem? v key with
    | some found => .ok found
    | none =>
      match key.string? with
      | some name => do
        return (← findAttribute v name).getD (.missing (.attribute (ownerName v) name))
      | none => .ok (.missing (.element (ownerName v) key.shown))

/-- The items that a loop over the value goes through. -/
def itemsOf (v : Value) : Except Fault (List Value) :=
  match v with
  | .list xs | .tuple xs | .set xs | .series _ xs => .ok xs
  | .dict es => .ok (es.map (·.1))
  | .str s => .ok (s.toList.map fun c => .str c.toString)
  | .markup s => .ok (s.toList.map fun c => .str c.toString)
  | .bytes bs => .ok (bs.map fun b => .int b.toNat)
  | .missing _ => .ok []
  | v => .error (refusal "iteration" [v] (.notIterable v.kind))

/-- The entries that pairs make, the first of which has a given place. -/
def entriesOfPairs : Nat → List Value → List (Value × Value) → Except Fault (List (Value × Value))
  | _, [], es => .ok es
  | i, pair :: more, es =>
    match itemsOf pair with
    | .error _ => .error (refusal "iteration" [pair] (.notPair i))
    | .ok [k, v] =>
      match k.unhashable? with
      | none => entriesOfPairs (i + 1) more (Value.insertEntry k v es)
      | some kind => .error (.type (.unhashable kind))
    | .ok items => .error (.value (.noPair i items.length))

/-- The entries of a mapping, or those that a sequence of pairs makes. What is taken
for false has none. -/
def entriesOf (v : Value) : Except Fault (List (Value × Value)) :=
  match v.isTrue, v with
  | false, _ => .ok []
  | true, .dict es => .ok es
  | true, v => do entriesOfPairs 0 (← itemsOf v) []

/-- The bounds of a slice with their defaults filled in, as places in order. -/
def slicePlaces (length : Nat) (start stop step : Option Int) : List Nat :=
  let step := step.getD 1
  let clamp (low high n : Int) : Int := max low (min high n)
  let n : Int := length
  let fix (i : Int) : Int := if i < 0 then i + n else i
  if 0 < step then
    let a := (start.map fun i => clamp 0 n (fix i)).getD 0
    let b := (stop.map fun i => clamp 0 n (fix i)).getD n
    (List.range length).filter fun (k : Nat) => a ≤ k && k < b && (k - a) % step = 0
  else
    let a := (start.map fun i => clamp (-1) (n - 1) (fix i)).getD (n - 1)
    let b := (stop.map fun i => clamp (-1) (n - 1) (fix i)).getD (-1)
    ((List.range length).filter fun (k : Nat) => b < k && k ≤ a && (a - k) % (-step) = 0).reverse

/-- A bound of a slice: an integer, or nothing. -/
def sliceBound : Option Value → Except Fault (Option Int)
  | none | some .null => .ok none
  | some v =>
    match index? v with
    | some i => .ok (some i)
    | none => .error (.notFollowed "a slice with such a bound")

/-- `v[start:stop:step]`. -/
def sliceOf (v : Value) (start stop step : Option Value) : Except Fault Value := do
  let start ← sliceBound start
  let stop ← sliceBound stop
  let step ← sliceBound step
  if step = some 0 then .error (.value .zeroStep)
  else
    let pick {α : Type} (xs : List α) : List α :=
      (slicePlaces xs.length start stop step).filterMap (xs[·]?)
    match v with
    | .missing m => .error (.missing m)
    | .list xs => return .list (pick xs)
    | .tuple xs => return .tuple (pick xs)
    | .str s => return .str (String.ofList (pick s.toList))
    | .markup s => return .markup (String.ofList (pick s.toList))
    | _ => .error (.notFollowed "a slice of such a value")

/-! ### Text and markup -/

/-- The markup that prints a value: markup as it is, anything else escaped. -/
def escaped : Value → String
  | .markup s => s
  | v => escapeString v.text

/-- Is the value marked-up text? -/
def isMarkup : Value → Bool
  | .markup _ => true
  | _ => false

/-- Texts put together: plain, unless one of them is markup; then what is plain
is escaped. -/
def joinMarkup (vs : List Value) : Value :=
  if vs.any isMarkup then .markup (String.join (vs.map escaped))
  else .str (String.join (vs.map Value.text))

/-- Texts put together where nothing is escaped. -/
def joinPlain (vs : List Value) : Value := .str (String.join (vs.map Value.text))

/-- A change of the characters of a text; any other value is taken by its printed
form. -/
def mapText (f : List Char → List Char) : Value → Value
  | .markup s => .markup (String.ofList (f s.toList))
  | v => .str (String.ofList (f v.text.toList))

/-! ### Arithmetic -/

/-- The sign of an operator in messages. -/
def Arithmetic.sign : Arithmetic → String
  | .add => "+"
  | .sub => "-"
  | .mul => "*"
  | .div => "/"
  | .floorDiv => "//"
  | .mod => "%"
  | .pow => "** or pow()"

/-- An integer as a result. Those of more than 4300 digits could not be printed. -/
def integerResult (n : Int) : Except Fault Value :=
  if n.natAbs < Nat.pow 10 4300 then .ok (.int n)
  else .error (.notFollowed "an integer of more than 4300 digits")

/-- An operation on two floating numbers. Quotients without a rest and rests are
followed where they come out exactly: for numbers of ten binary places. -/
def onFloats (op : Arithmetic) (x y : Float) : Except Fault Value :=
  let isShort (x : Float) : Bool :=
    Float.floor (x * 1024.0) == x * 1024.0 && Float.abs (x * 1024.0) ≤ 4503599627370496.0
  let power := Float.pow x y
  match op with
  | .add => .ok (.float (x + y))
  | .sub => .ok (.float (x - y))
  | .mul => .ok (.float (x * y))
  | .div =>
    if y == 0.0 then .error (.notFollowed "division by zero") else .ok (.float (x / y))
  | .floorDiv =>
    if isShort x && isShort y && y != 0.0 then .ok (.float (Float.floor (x / y)))
    else .error (.notFollowed "such a quotient")
  | .mod =>
    if isShort x && isShort y && 0.0 < y then .ok (.float (x - y * Float.floor (x / y)))
    else .error (.notFollowed "such a rest")
  | .pow =>
    if 0.0 < x && power.isFinite then .ok (.float power) else .error (.notFollowed "such a power")

/-- An operation on two integers. -/
def onIntegers (op : Arithmetic) (m n : Int) : Except Fault Value :=
  match op with
  | .add => integerResult (m + n)
  | .sub => integerResult (m - n)
  | .mul => integerResult (m * n)
  | .div =>
    if n = 0 then .error .divisionByZero
    -- beyond that the quotient of the nearest doubles is not the double nearest to the quotient
    else if max m.natAbs n.natAbs ≤ 9007199254740992 then
      .ok (.float (Decimal.ofInteger m / Decimal.ofInteger n))
    else .error (.notFollowed "such a quotient")
  | .floorDiv =>
    if n = 0 then .error (.notFollowed "division by zero") else integerResult (Int.fdiv m n)
  | .mod =>
    if n = 0 then .error (.notFollowed "division by zero") else integerResult (Int.fmod m n)
  | .pow =>
    if n < 0 then onFloats .pow (Decimal.ofInteger m) (Decimal.ofInteger n)
    else if m.natAbs ≤ 1 ∨ n.toNat * m.natAbs.log2 ≤ 14300 then integerResult (Int.pow m n.toNat)
    else .error (.notFollowed "an integer of more than 4300 digits")

/-- An operation on two numbers. -/
def onNumbers (op : Arithmetic) (a b : Value.Number) : Except Fault Value :=
  let float (n : Int) : Except Fault Float :=
    let x := Decimal.ofInteger n
    if x.isFinite then .ok x else .error (.notFollowed "such a large integer")
  match a, b with
  | .int m, .int n => onIntegers op m n
  | .int m, .float y => do onFloats op (← float m) y
  | .float x, .int n => do onFloats op x (← float n)
  | .float x, .float y => onFloats op x y

/-- The sum of two values that are not both numbers. -/
def addValues (a b : Value) : Except Fault Value :=
  match a, b with
  | .str s, .str t => .ok (.str (s ++ t))
  | .str s, .markup t => .ok (.markup (escapeString s ++ t))
  | .markup s, .str t => .ok (.markup (s ++ escapeString t))
  | .markup s, .markup t => .ok (.markup (s ++ t))
  | .list xs, .list ys => .ok (.list (xs ++ ys))
  | .tuple xs, .tuple ys => .ok (.tuple (xs ++ ys))
  | .str _, b => .error (refusal "a sum" [b] (.onlyConcatenates "str" b.kind))
  | .list _, b => .error (refusal "a sum" [b] (.onlyConcatenates "list" b.kind))
  | .tuple _, b => .error (refusal "a sum" [b] (.onlyConcatenates "tuple" b.kind))
  | .markup _, _ => .error (.notFollowed "a sum with markup")
  | a, b => .error (refusal "a sum" [a, b] (.badOperands "+" a.kind b.kind))

/-- A sequence several times in a row. -/
def repeated (v : Value) (n : Int) : Option Value :=
  let times {α : Type} (xs : List α) : List α := (List.replicate n.toNat xs).flatten
  match v with
  | .str s => some (.str (String.ofList (times s.toList)))
  | .markup s => some (.markup (String.ofList (times s.toList)))
  | .list xs => some (.list (times xs))
  | .tuple xs => some (.tuple (times xs))
  | _ => none

/-- Is the value a sequence that can be repeated? -/
def isSequence : Value → Bool
  | .str _ | .markup _ | .list _ | .tuple _ => true
  | _ => false

/-- The product of two values that are not both numbers. -/
def multiplyValues (a b : Value) : Except Fault Value :=
  match (index? b).bind (repeated a), (index? a).bind (repeated b) with
  | some v, _ => .ok v
  | none, some v => .ok v
  | none, none =>
    if isSequence a || isSequence b then .error (.notFollowed "such a product")
    else .error (refusal "a product" [a, b] (.badOperands "*" a.kind b.kind))

/-- An arithmetic operation. The rest sign behind a text fills a format in, which is
not followed. -/
def arithmetic (op : Arithmetic) (a b : Value) : Except Fault Value :=
  match op, a, b with
  | .mod, .str _, _ | .mod, .markup _, _ => .error (.notFollowed "a format")
  | _, .missing m, _ => .error (.missing m)
  | _, _, .missing m => .error (.missing m)
  | op, a, b =>
    match a.number?, b.number? with
    | some m, some n => onNumbers op m n
    | _, _ =>
      match op with
      | .add => addValues a b
      | .mul => multiplyValues a b
      | op => .error (refusal "such an operation" [a, b] (.badOperands op.sign a.kind b.kind))

/-- A value with its sign changed. -/
def negated (v : Value) : Except Fault Value :=
  match v with
  | .missing m => .error (.missing m)
  | v =>
    match v.number? with
    | some (.int n) => .ok (.int (-n))
    | some (.float x) => .ok (.float (-x))
    | none => .error (refusal "a sign" [v] (.badUnary "-" v.kind))

/-- A value with its sign kept. -/
def unchanged (v : Value) : Except Fault Value :=
  match v with
  | .missing m => .error (.missing m)
  | v =>
    match v.number? with
    | some (.int n) => .ok (.int n)
    | some (.float x) => .ok (.float x)
    | none => .error (refusal "a sign" [v] (.badUnary "+" v.kind))

/-! ### Comparisons -/

/-- The sign of a comparison in messages. -/
def Comparison.sign : Comparison → String
  | .eq => "=="
  | .ne => "!="
  | .lt => "<"
  | .le => "<="
  | .gt => ">"
  | .ge => ">="
  | .isIn => "in"
  | .notIn => "not in"

/-- Is the first value below the second? Nothing for values without an order. -/
def below? (a b : Value) : Option Bool :=
  match a.number?, b.number?, a.string?, b.string? with
  | some m, some n, _, _ => some (m.below n)
  | _, _, some s, some t => some (s < t)
  | _, _, _, _ => none

/-- Do values of the two kinds have an order that is not followed: sequences, one by
one? -/
def isOrderedFurther : Value → Value → Bool
  | .list _, .list _ | .tuple _, .tuple _ => true
  | _, _ => false

/-- A comparison by order. -/
def ordered (op : Comparison) (a b : Value) : Except Fault Bool :=
  match a, b with
  | .missing m, _ => .error (.missing m)
  | _, .missing m => .error (.missing m)
  | a, b =>
    match below? a b, below? b a with
    | some lt, some gt =>
      .ok (match op with
        | .lt => lt
        | .gt => gt
        | .le => lt || Value.same a b
        | _ => gt || Value.same a b)
    | _, _ =>
      if isOrderedFurther a b then .error (.notFollowed "the order of sequences")
      else .error (refusal "an order" [a, b] (.notOrdered op.sign a.kind b.kind))

/-- Is the first value in the second? -/
def isIn (a b : Value) : Except Fault Bool :=
  match b with
  | .list xs | .tuple xs | .series _ xs => .ok (xs.any (Value.same a))
  | .set xs =>
    match a, a.unhashable? with
    | .set _, _ => .error (.notFollowed "a set in a set")
    | _, some kind => .error (.type (.unhashable kind))
    | _, none => .ok (xs.any (Value.same a))
  | .dict es =>
    match a.unhashable? with
    | some kind => .error (.type (.unhashable kind))
    | none => .ok (es.any fun e => Value.same a e.1)
  | .str s | .markup s =>
    match a.string? with
    | some word => .ok (contains word.toList s.toList)
    | none =>
      match a with
      | .missing m => .error (.type (.notStringContainer (Value.missing m).kind))
      | a => .error (refusal "a part of a text" [a] (.notStringContainer a.kind))
  | .missing _ => .ok false
  | b => .error (refusal "a part of such a value" [b] (.notContainer b.kind))

/-- A comparison. -/
def compare (op : Comparison) (a b : Value) : Except Fault Bool :=
  match op with
  | .eq => .ok (Value.same a b)
  | .ne => .ok (!Value.same a b)
  | .isIn => isIn a b
  | .notIn => (isIn a b).map (!·)
  | op => ordered op a b

/-! ### Filters and tests -/

/-- The filters that are followed, with the names of their arguments. -/
def filterParameters : List (String × List String) :=
  [("upper", []), ("lower", []), ("length", []), ("count", []),
   ("default", ["default_value", "boolean"]), ("d", ["default_value", "boolean"]),
   ("join", ["d", "attribute"]), ("safe", []), ("e", []), ("escape", []), ("to_json", []),
   ("to_yaml", []), ("basename", []), ("dirname", [])]

/-- The filters that there are beyond those. -/
def furtherFilters : List String :=
  ["abs", "attr", "batch", "capitalize", "center", "dictsort", "filesizeformat", "first", "float",
   "forceescape", "format", "groupby", "indent", "int", "items", "last", "list", "map", "max",
   "min", "pprint", "random", "reject", "rejectattr", "replace", "reverse", "round", "select",
   "selectattr", "slice", "sort", "string", "striptags", "sum", "title", "tojson", "trim",
   "truncate", "unique", "urlencode", "urlize", "wordcount", "wordwrap", "xmlattr"]

/-- The tests that are followed, with how many arguments they take. -/
def testArguments : List (String × Nat) :=
  [("defined", 0), ("undefined", 0), ("none", 0), ("true", 0), ("false", 0), ("boolean", 0),
   ("integer", 0), ("float", 0), ("number", 0), ("string", 0), ("mapping", 0), ("sequence", 0),
   ("iterable", 0), ("callable", 0), ("even", 0), ("odd", 0), ("in", 1), ("eq", 1), ("equalto", 1),
   ("ne", 1), ("lt", 1), ("lessthan", 1), ("gt", 1), ("greaterthan", 1), ("le", 1), ("ge", 1)]

/-- The tests that there are beyond those. -/
def furtherTests : List String :=
  ["divisibleby", "escaped", "filter", "lower", "sameas", "test", "upper"]

/-- Whether a value passes a test that is followed. -/
def passesTest (name : String) (v arg : Value) : Except Fault Bool :=
  let isMissing : Value → Bool
    | .missing _ => true
    | _ => false
  let rest (k : Int) : Except Fault Bool := do
    let r ← arithmetic .mod v (.int 2)
    return Value.same r (.int k)
  match name with
  | "defined" => .ok (!isMissing v)
  | "undefined" => .ok (isMissing v)
  | "none" => .ok (match v with | .null => true | _ => false)
  | "true" => .ok (match v with | .bool true => true | _ => false)
  | "false" => .ok (match v with | .bool false => true | _ => false)
  | "boolean" => .ok (match v with | .bool _ => true | _ => false)
  | "integer" => .ok (match v with | .int _ => true | _ => false)
  | "float" => .ok (match v with | .float _ => true | _ => false)
  | "number" => .ok v.number?.isSome
  | "string" => .ok v.string?.isSome
  | "mapping" => .ok (match v with | .dict _ | .record .request _ => true | _ => false)
  | "sequence" => .ok (match v with
      | .list _ | .tuple _ | .dict _ | .str _ | .markup _ | .bytes _ | .missing _ => true
      | .series (.range _ _) _ | .record .request _ => true
      | _ => false)
  | "iterable" =>
    match itemsOf v with
    | .ok _ => .ok true
    | .error (.type _) => .ok false
    | .error f => .error f
  | "callable" => .ok (match v with
      | .missing _ | .record .loop _ => true
      | v => v.isCallable)
  | "even" => rest 0
  | "odd" => rest 1
  | "in" => isIn v arg
  | "eq" | "equalto" => .ok (Value.same v arg)
  | "ne" => .ok (!Value.same v arg)
  | "lt" | "lessthan" => ordered .lt v arg
  | "gt" | "greaterthan" => ordered .gt v arg
  | "le" => ordered .le v arg
  | "ge" => ordered .ge v arg
  | name => .error (.unknownTest name)

/-- Whether a value passes a test. -/
def testValue (name : String) (v : Value) (args : List Value) : Except Fault Bool :=
  match testArguments.lookup name with
  | some n =>
    if args.length = n then passesTest name v (args.headD .null)
    else .error (.notFollowed ("the test " ++ name ++ " with such arguments"))
  | none =>
    if furtherTests.contains name then .error (.notFollowed ("the test " ++ name))
    else .error (.unknownTest name)

end CachedViews.Template
