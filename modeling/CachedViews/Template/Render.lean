import CachedViews.Json.Writer
import CachedViews.Yaml.Writer
import CachedViews.Template.Operations

/-
# Rendering templates

A page is rendered against its variables. A name stands for the nearest of: a
variable set in the template, the template itself under the name `self`, a
variable of the model, the two names `partials` and `partial`, a helper, a
function every template knows; else the value is missing. Calling `partial`
renders another template with the same model and further variables on top of it,
so what a partial sets is never seen outside.

Values are not shared: a list that is appended to is another value of the variable
that names it. That is what happens where nothing else holds the list; where
something may, the change is not followed, nor is any other change in place
(`Env.mayChange`).

Evaluation is recursion on the syntax. What calls do is a parameter (`Calls`),
which closes the circle through a bound on how deep templates call each other
(`renderPage`). The bound, and what functions from outside do, are matters of the
surroundings (`Runtime`).

Key definitions: `Env`, `Env.lookup`, `Env.mayChange`, `eval`, `runNodes`,
`Runtime`, `callValue`, `renderPage`, `callTemplate`.
-/

namespace CachedViews.Template

open CachedViews.Text

/-- Variables with their values, the latest first. -/
abbrev Scope := List (String × Value)

/-- What the names of a template stand for. -/
structure Env where
  /-- The variables set by the template, the innermost block first. -/
  scopes : List Scope
  model : List (String × Value)
  partials : Value
  helpers : List (String × Value)
  /-- Printed values are escaped. -/
  escapes : Bool
  /-- Values that others hold too, so that nothing inside them may change. -/
  held : List Value

/-- The functions every template knows. -/
def builtinNames : List String := ["range", "dict", "lipsum", "cycler", "joiner", "namespace"]

/-- The value of a name in a list of scopes. -/
def lookupScopes (name : String) : List Scope → Option Value
  | [] => none
  | s :: more => (s.lookup name).or (lookupScopes name more)

/-- The value of a name outside the variables that the template sets. -/
def Env.given? (env : Env) (name : String) : Option Value :=
  if name = "self" then some (.record .reference [])
  else (env.model.lookup name).or <|
    if name = "partial" then some (.caller env.partials env.model)
    else if name = "partials" then some env.partials
    else (env.helpers.lookup name).or <|
      if builtinNames.contains name then some (.builtin name) else none

/-- What a name stands for. -/
def Env.lookup (env : Env) (name : String) : Value :=
  ((lookupScopes name env.scopes).or (env.given? name)).getD (.missing (.name name))

/-- The names inside a block that begins. -/
def Env.inner (env : Env) : Env := { env with scopes := [] :: env.scopes }

/-- The names behind a block that is over. -/
def Env.outer (env : Env) : Env := { env with scopes := env.scopes.tail }

/-- Give a variable of the innermost block a value. -/
def Env.assign (env : Env) (name : String) (v : Value) : Env :=
  match env.scopes with
  | [] => { env with scopes := [[(name, v)]] }
  | s :: more => { env with scopes := Value.insertField name v s :: more }

/-- Give a variable a new value where it stands. -/
def Env.change (env : Env) (name : String) (v : Value) : Env :=
  let rec inScopes : List Scope → Option (List Scope)
    | [] => none
    | s :: more =>
      if (s.lookup name).isSome then some (Value.insertField name v s :: more)
      else (inScopes more).map (s :: ·)
  match inScopes env.scopes with
  | some scopes => { env with scopes }
  | none => { env with model := Value.insertField name v env.model }

/-! ### Changes in place -/

mutual

/-- Is the value a list of the shown form, or does it have one inside? -/
def holdsList (shown : String) : Value → Bool
  | .list xs => (Value.list xs).shown = shown || anyHoldsList shown xs
  | .tuple xs | .set xs | .series _ xs => anyHoldsList shown xs
  | .dict es => entriesHoldList shown es
  | .function _ closure => holdsList shown closure
  | .inlineSource templates _ => holdsList shown templates
  | .future result => holdsList shown result
  | .record _ fields => fieldsHoldList shown fields
  | .caller partials model => holdsList shown partials || fieldsHoldList shown model
  | .method object _ => holdsList shown object
  | _ => false

/-- `holdsList` for several values. -/
def anyHoldsList (shown : String) : List Value → Bool
  | [] => false
  | v :: vs => holdsList shown v || anyHoldsList shown vs

/-- `holdsList` for entries. -/
def entriesHoldList (shown : String) : List (Value × Value) → Bool
  | [] => false
  | (k, v) :: es => holdsList shown k || holdsList shown v || entriesHoldList shown es

/-- `holdsList` for fields. -/
def fieldsHoldList (shown : String) : List (String × Value) → Bool
  | [] => false
  | (_, v) :: fs => holdsList shown v || fieldsHoldList shown fs

end

/-- May the list that a variable names be changed in place, so that it is seen through
this variable alone? Nothing else that there is then holds a list like it. -/
def Env.mayChange (env : Env) (name : String) (list : Value) : Bool :=
  let others := env.change name .null
  let holds := fieldsHoldList list.shown
  !(others.scopes.any holds || holds others.model || holds others.helpers ||
    holdsList list.shown others.partials || anyHoldsList list.shown others.held)

/-- What calling a value with arguments and named arguments gives. -/
abbrev Calls := Value → List Value → List (String × Value) → Except Fault Value

/-! ### Filters -/

/-- How many items or characters a value has. -/
def lengthOf (v : Value) : Except Fault Nat :=
  match v with
  | .list xs | .tuple xs | .set xs => .ok xs.length
  | .dict es => .ok es.length
  | .str s | .markup s => .ok s.length
  | .bytes bs => .ok bs.length
  | .series _ xs => .ok xs.length
  | .missing _ => .ok 0
  | v => .error (refusal "a length" [v] (.noLength v.kind))

/-- Items put together with a separator between two. Where values are escaped,
one that is markup makes the others be escaped first. -/
def joinItems (escapes : Bool) (items : List Value) (separator : Value) : Value :=
  if escapes ∧ (isMarkup separator ∨ items.any isMarkup) then
    .markup (String.intercalate (escaped separator) (items.map escaped))
  else .str (String.intercalate separator.text (items.map Value.text))

/-- A part of a path; what is taken for false has the empty one. -/
def pathPart (part : String → String) (v : Value) : Except Fault Value :=
  if v.isTrue then
    match v with
    | .markup s => .ok (.markup (part s))
    | .bytes _ => .error (.notFollowed "a part of a path of octets")
    | v => do return .str (part (← v.asPath))
  else .ok (.str "")

/-- Is the value missing? -/
def isMissing : Value → Bool
  | .missing _ => true
  | _ => false

/-- The item of each value under a key. A key may be a path of several, which is not
followed. -/
def itemsUnder (key : Value) (items : List Value) : Except Fault (List Value) :=
  match key with
  | .null => .ok items
  | key =>
    if key.string?.any fun s => s.toList.any fun c => c = '.' || isDigit c then
      .error (.notFollowed "an attribute of an attribute")
    else items.mapM fun item => itemOf item key

/-- Apply a filter that is followed to a value, given its arguments by their places
and names. -/
def followedFilter (escapes : Bool) (name : String) (v : Value)
    (argument : Nat → String → Value → Value) : Except Fault Value :=
  match name with
  | "upper" => .ok (mapText upper v)
  | "lower" => .ok (mapText lower v)
  | "length" | "count" => (lengthOf v).map fun n => .int n
  | "default" | "d" =>
    let other := argument 0 "default_value" (.str "")
    if isMissing v ∨ ((argument 1 "boolean" (.bool false)).isTrue ∧ !v.isTrue) then .ok other
    else .ok v
  | "join" => do
    let items ← itemsUnder (argument 1 "attribute" .null) (← itemsOf v)
    return joinItems escapes items (argument 0 "d" (.str ""))
  | "safe" => .ok (.markup v.text)
  | "e" | "escape" => .ok (.markup (escaped v))
  | "to_json" =>
    match Json.write .indented v with
    | .ok s => .ok (.str s)
    | .error e => .error (Fault.ofWrite e)
  | "to_yaml" =>
    if Yaml.isWritable v then .ok (.str (Yaml.write v))
    else .error (.notFollowed "the text of such a value")
  | "basename" => pathPart Path.base v
  | "dirname" => pathPart Path.parent v
  | name => .error (.unknownFilter name)

/-- Apply a filter. -/
def applyFilter (escapes : Bool) (name : String) (v : Value) (args : List Value)
    (named : List (String × Value)) : Except Fault Value :=
  match filterParameters.lookup name with
  | some parameters =>
    let left := parameters.drop args.length
    if parameters.length < args.length ∨ named.any fun n => !left.contains n.1 then
      .error (.notFollowed ("the filter " ++ name ++ " with such arguments"))
    else
      followedFilter escapes name v fun place key other =>
        (args[place]?.or (named.lookup key)).getD other
  | none =>
    if furtherFilters.contains name then .error (.notFollowed ("the filter " ++ name))
    else .error (.unknownFilter name)

/-! ### Evaluation -/

/-- The value of a literal. -/
def Constant.value : Constant → Value
  | .none => .null
  | .bool b => .bool b
  | .int n => .int n
  | .float x => .float x
  | .text s => .str s

/-- Why a choice without an alternative has no value. -/
def noBranch (line : Nat) : String :=
  s!"the inline if-expression on line {line} evaluated to false and no else section was defined."

mutual

/-- The value of an expression. -/
def eval (call : Calls) (env : Env) : Expr → Except Fault Value
  | .constant c => .ok c.value
  | .name n => .ok (env.lookup n)
  | .list items => (evalAll call env items).map .list
  | .tuple items => (evalAll call env items).map .tuple
  | .dict entries => do
    let es ← evalEntries call env entries
    match Value.firstUnhashable? (es.map (·.1)) with
    | some kind => .error (.type (.unhashable kind))
    | none => return .dict (es.foldl (fun found e => Value.insertEntry e.1 e.2 found) [])
  | .attribute e name => do attributeOf (← eval call env e) name
  | .item e key => do
    let v ← eval call env e
    itemOf v (← eval call env key)
  | .slice e start stop step => do
    let v ← eval call env e
    let start ← evalOptional call env start
    let stop ← evalOptional call env stop
    let step ← evalOptional call env step
    sliceOf v start stop step
  | .call f args named => do
    let f ← eval call env f
    let args ← evalAll call env args
    let named ← evalNamed call env named
    call f args named
  | .filter e _ name args named => do
    let v ← eval call env e
    let args ← evalAll call env args
    let named ← evalNamed call env named
    applyFilter env.escapes name v args named
  | .test e _ name args => do
    let v ← eval call env e
    let args ← evalAll call env args
    return .bool (← testValue name v args)
  | .negative e => do negated (← eval call env e)
  | .positive e => do unchanged (← eval call env e)
  | .not e => do return .bool !(← eval call env e).isTrue
  | .arithmetic op a b => do
    let x ← eval call env a
    arithmetic op x (← eval call env b)
  | .concat items => do
    let vs ← evalAll call env items
    return if env.escapes then joinMarkup vs else joinPlain vs
  | .compare first rest => do evalCompared call env (← eval call env first) rest
  | .and a b => do
    let x ← eval call env a
    if x.isTrue then eval call env b else return x
  | .or a b => do
    let x ← eval call env a
    if x.isTrue then return x else eval call env b
  | .choose line condition yes no => do
    if (← eval call env condition).isTrue then eval call env yes
    else return (← evalOptional call env no).getD (.missing (.told (noBranch line)))

/-- The values of several expressions. -/
def evalAll (call : Calls) (env : Env) : List Expr → Except Fault (List Value)
  | [] => .ok []
  | e :: es => do
    let v ← eval call env e
    return v :: (← evalAll call env es)

/-- The values of entries. -/
def evalEntries (call : Calls) (env : Env) :
    List (Expr × Expr) → Except Fault (List (Value × Value))
  | [] => .ok []
  | (k, e) :: es => do
    let k ← eval call env k
    let v ← eval call env e
    return (k, v) :: (← evalEntries call env es)

/-- The values of named arguments. -/
def evalNamed (call : Calls) (env : Env) :
    List (String × Expr) → Except Fault (List (String × Value))
  | [] => .ok []
  | (n, e) :: es => do
    let v ← eval call env e
    return (n, v) :: (← evalNamed call env es)

/-- The value of an expression that may be left out. -/
def evalOptional (call : Calls) (env : Env) : Option Expr → Except Fault (Option Value)
  | none => .ok none
  | some e => (eval call env e).map some

/-- Comparisons one after the other, each with the operand before it, until one
fails. -/
def evalCompared (call : Calls) (env : Env) (first : Value) :
    List (Comparison × Expr) → Except Fault Value
  | [] => .ok (.bool true)
  | (op, e) :: rest => do
    let v ← eval call env e
    if ← compare op first v then
      if rest.isEmpty then return .bool true else evalCompared call env v rest
    else return .bool false

end

/-! ### Nodes -/

/-- How the nodes of a block ended. -/
inductive Signal where
  | done | leave | next
  deriving Repr, BEq, DecidableEq

/-- The text of a block so far, the variables, and how the block ended. -/
structure Progress where
  out : String
  env : Env
  signal : Signal

/-- Give the parts of a target their values. -/
def assignAll (env : Env) : List (Target × Value) → Env
  | [] => env
  | (.name n, v) :: more => assignAll (env.assign n v) more
  | (_, _) :: more => assignAll env more

/-- Refuse a target that is a field: no value has fields that a template may set. -/
def checkTarget : Target → Except Fault Unit
  | .attribute _ _ => .error .notNamespace
  | .name _ | .tuple _ => .ok ()

/-- Give a target its value; a target of several names takes the items. -/
def assignTo (env : Env) (target : Target) (v : Value) : Except Fault Env :=
  match target with
  | .name n => .ok (env.assign n v)
  | .attribute _ _ => .error .notNamespace
  | .tuple targets =>
    match itemsOf v with
    | .error _ => .error (refusal "iteration" [v] (.notUnpackable v.kind))
    | .ok items =>
      if items.length < targets.length then
        .error (.value (.tooFewValues targets.length items.length))
      else if targets.length < items.length then .error (.value (.tooManyValues targets.length))
      else .ok (assignAll env (targets.zip items))

/-- What a loop knows about its round. -/
def loopRecord (items : List Value) (index : Nat) : Value :=
  let length := items.length
  let neighbour (i : Nat) : Value := items[i]?.getD (.missing (.told "there is no next item"))
  .record .loop [("index", .int (index + 1)), ("index0", .int index),
    ("revindex", .int (length - index : Nat)), ("revindex0", .int (length - index - 1 : Nat)),
    ("first", .bool (index = 0)), ("last", .bool (index + 1 = length)), ("length", .int length),
    ("depth", .int 1), ("depth0", .int 0),
    ("previtem", if index = 0 then .missing (.told "there is no previous item")
      else neighbour (index - 1)),
    ("nextitem", neighbour (index + 1))]

/-- The variable and the item that a call of a list's `append` is about. -/
def appended? : Expr → Option (String × Expr)
  | .call (.attribute (.name n) "append") [e] [] => some (n, e)
  | _ => none

/-- Evaluate an expression that may put an item at the end of a list. -/
def evalChanging (call : Calls) (env : Env) (e : Expr) : Except Fault (Value × Env) :=
  match appended? e with
  | none => do return (← eval call env e, env)
  | some (n, item) =>
    match env.lookup n with
    | .list xs => do
      let v ← eval call env item
      if env.mayChange n (.list xs) && !holdsList (Value.list xs).shown v then
        return (.null, env.change n (.list (xs ++ [v])))
      else .error (.notFollowed "a change of a list that something else may hold")
    | _ => do return (← eval call env e, env)

/-- The printed form of a value. -/
def printed (escapes : Bool) (v : Value) : String := if escapes then escaped v else v.text

/-- The items of a loop that pass its condition. -/
def passing (call : Calls) (env : Env) (target : Target) (condition : Option Expr)
    (items : List Value) : Except Fault (List Value) :=
  match condition with
  | none => .ok items
  | some e => items.filterM fun item => do
    let env ← assignTo env.inner target item
    return (← eval call env e).isTrue

/-- The rounds of a loop, given what a round does with the variables it starts
from. -/
def rounds (round : Env → Value → Nat → Except Fault Progress) :
    List Value → Nat → Env → Except Fault (String × Env)
  | [], _, env => .ok ("", env)
  | item :: more, index, env => do
    let p ← round env.inner item index
    if p.signal = .leave then return (p.out, p.env.outer)
    else
      let (out, env) ← rounds round more (index + 1) p.env.outer
      return (p.out ++ out, env)

mutual

/-- Run one node. -/
def runNode (call : Calls) (env : Env) : Node → Except Fault Progress
  | .text s => .ok ⟨s, env, .done⟩
  | .print e => do
    let (v, env) ← evalChanging call env e
    return ⟨printed env.escapes v, env, .done⟩
  | .branch condition yes no => do
    if (← eval call env condition).isTrue then runNodes call env yes else runNodes call env no
  | .loop target items condition body no => do
    let items ← itemsOf (← eval call env items)
    let items ← passing call env target condition items
    if items.isEmpty then
      let p ← runNodes call env.inner no
      return { p with env := p.env.outer }
    else
      let (out, env) ← rounds (fun env item index => do
        let env ← assignTo (env.assign "loop" (loopRecord items index)) target item
        runNodes call env body) items 0 { env with held := .list items :: env.held }
      return ⟨out, { env with held := env.held.tail }, .done⟩
  | .assign target e => do
    checkTarget target
    let v ← eval call env e
    return ⟨"", ← assignTo env target v, .done⟩
  | .capture target body => do
    let p ← runNodes call env.inner body
    if p.signal = .done then
      let v : Value := if env.escapes then .markup p.out else .str p.out
      return ⟨"", ← assignTo p.env.outer target v, .done⟩
    else return ⟨"", p.env.outer, p.signal⟩
  | .run e => do
    let (_, env) ← evalChanging call env e
    return ⟨"", env, .done⟩
  | .leave => .ok ⟨"", env, .leave⟩
  | .next => .ok ⟨"", env, .next⟩

/-- Run nodes in order, up to one that leaves the block. -/
def runNodes (call : Calls) (env : Env) : List Node → Except Fault Progress
  | [] => .ok ⟨"", env, .done⟩
  | n :: ns => do
    let p ← runNode call env n
    if p.signal = .done then
      let q ← runNodes call p.env ns
      return ⟨p.out ++ q.out, q.env, q.signal⟩
    else return p

end

/-! ### Calls -/

/-- What templates are run by: what the functions that came from outside do, and how
deep templates may call each other. -/
structure Runtime where
  /-- What a function of a name, which holds a value, gives for arguments and named
  arguments. -/
  call : String → Value → List Value → List (String × Value) → Except Fault Value
  depth : Nat
  /-- The faults of functions are their own: none tells of a view. -/
  tellsNoView : ∀ name closure args named, TellsNoView (call name closure args named)

/-- No function came from outside. -/
def Runtime.closed (depth : Nat) : Runtime where
  call _ _ _ _ := .error (.type (.notCallable "function"))
  depth
  tellsNoView _ _ _ _ _ h := nomatch h

instance : Inhabited Runtime := ⟨.closed 0⟩

/-- Call a method of a value. -/
def callMethod (v : Value) (name : String) (args : List Value) (named : List (String × Value)) :
    Except Fault Value :=
  match v, name, args, named with
  | .dict es, "items", [], [] => .ok (.series .items (es.map fun e => .tuple [e.1, e.2]))
  | .dict es, "keys", [], [] => .ok (.series .keys (es.map (·.1)))
  | .dict es, "values", [], [] => .ok (.series .values (es.map (·.2)))
  | .dict es, "get", key :: others, [] =>
    if 1 < others.length then .error (.notFollowed "get with such arguments")
    else
      match key.unhashable? with
      | some kind => .error (.type (.unhashable kind))
      | none => .ok ((ownItem? (.dict es) key).getD (others.headD .null))
  | v, "upper", [], [] => .ok (mapText upper v)
  | v, "lower", [], [] => .ok (mapText lower v)
  | v, "strip", [], [] => .ok (mapText (trim isBlank) v)
  | v, "startswith", [.str w], [] => .ok (.bool (w.toList.isPrefixOf v.text.toList))
  | v, "endswith", [.str w], [] => .ok (.bool (w.toList.isSuffixOf v.text.toList))
  | _, name, _, _ => .error (.notFollowed (name ++ " with such arguments"))

/-- Call a function every template knows. -/
def callBuiltin (name : String) (args : List Value) (named : List (String × Value)) :
    Except Fault Value :=
  let range (start stop : Int) : Value :=
    .series (.range start stop)
      ((List.range (stop - start).toNat).map fun (n : Nat) => .int (start + n))
  match name, args.map index?, named with
  | "range", [some stop], [] => .ok (range 0 stop)
  | "range", [some start, some stop], [] => .ok (range start stop)
  | "dict", [], named => .ok (Value.ofFields named)
  | name, _, _ => .error (.notFollowed ("a call of " ++ name))

/-- What the templates of an engine are given: the variables and, among them, the
record about the render. -/
def metaFields (model : List (String × Value)) : List (String × Value) :=
  match model.lookup "view" with
  | some (.record .renderMeta fields) => fields
  | some (.record .attributes fields) => fields
  | _ => []

/-- The partials that a model brings. -/
def partialsOf (model : List (String × Value)) : Value :=
  match (metaFields model).lookup "partials" with
  | some v => if v.isTrue then v else .dict []
  | none => .dict []

/-- The helpers that a model brings. -/
def helpersOf (model : List (String × Value)) : List (String × Value) :=
  match (metaFields model).lookup "helpers" with
  | some (.dict es) => Value.stringFields es
  | _ => []

/-- The names of a page that is rendered against a model, which its caller holds. -/
def pageEnv (escapes : Bool) (model : List (String × Value)) : Env :=
  { scopes := [], model, partials := partialsOf model, helpers := helpersOf model, escapes
    held := model.map (·.2) }

/-- Refuse a model in which the record about the render is a missing value: that
cannot be asked for helpers and partials. -/
def checkMeta (model : List (String × Value)) : Except Fault Unit :=
  match model.lookup "view" with
  | some (.missing m) => .error (.missing m)
  | _ => .ok ()

/-- The variables of a call of a template: a mapping and further variables on top
of it. Variables have names that are texts. -/
def modelOf (v : Value) (extra : List (String × Value)) : Except Fault (List (String × Value)) :=
  match v.isTrue, v with
  | false, _ => .ok extra
  | true, .dict es =>
    let model := Value.overlay (Value.stringFields es) extra
    if es.all fun e => e.1.string?.isSome then .ok model
    else do
      checkMeta model
      .error (.type .keywordsNotStrings)
  | true, v => .error (refusal "a model" [v] (.notMapping v.kind))

/-- What rendering a page against a model gives. -/
abbrev Pages := Page → List (String × Value) → Except Fault Value

/-- Call a value that is no `partial` function. -/
def callPlain (rt : Runtime) (enter : Pages) (f : Value) (args : List Value)
    (named : List (String × Value)) : Except Fault Value :=
  match f with
  | .missing m => .error (.missing m)
  | .function n closure => rt.call n closure args named
  | .page _ p =>
    let function := "CompiledTemplate.__call__"
    if (named.lookup "self").isSome then .error (.type (.repeatedArgument function "self"))
    else
      match args with
      | [] => do
        let model ← modelOf ((named.lookup "model").getD .null) (named.filter (·.1 ≠ "model"))
        enter p model
      | [m] =>
        if (named.lookup "model").isSome then .error (.type (.repeatedArgument function "model"))
        else do enter p (← modelOf m named)
      | args => .error (.type (.tooManyArguments function 2 (args.length + 1)))
  | .builtin n => callBuiltin n args named
  | .method v n => callMethod v n args named
  | f => .error (refusal "a call" [f] (.notCallable f.kind))

/-- The name that a `partial` call is given, and the further variables. -/
def partialArguments (args : List Value) (named : List (String × Value)) :
    Except Fault (Value × List (String × Value)) :=
  let function := "CompiledTemplate.__call__.<locals>.partial"
  match args with
  | [] =>
    match named.lookup "name" with
    | some name => .ok (name, named.filter (·.1 ≠ "name"))
    | none => .error (.type (.missingArguments function ["name"]))
  | [name] =>
    if (named.lookup "name").isSome then .error (.type (.repeatedArgument function "name"))
    else .ok (name, named)
  | args => .error (.type (.tooManyArguments function 1 args.length))

/-- The partial of a name. -/
def partialOf (partials name : Value) : Except Fault Value :=
  if !name.isHashable then .error (.type (.unhashable (name.unhashable?.getD name.kind)))
  else match ownItem? partials name with
    | some found => .ok found
    | none => .error (.partialNotFound name.text)

/-- Call a value. The function `partial` looks its template up and renders it
with the model of the caller and the further variables on top. -/
def callValue (rt : Runtime) (enter : Pages) : Calls := fun f args named =>
  match f with
  | .caller partials model => do
    let (name, extra) ← partialArguments args named
    let handle ← partialOf partials name
    callPlain rt enter handle [Value.ofFields (Value.overlay model extra)] []
  | f => callPlain rt enter f args named

/-- Render a page against a model, which its caller holds. The bound is how many
templates may be entered inside each other. -/
def renderPage (rt : Runtime) : Nat → Pages
  | 0 => fun _ _ => .error .recursion
  | depth + 1 => fun page model => do
    checkMeta model
    let p ← runNodes (callValue rt (renderPage rt depth)) (pageEnv page.escapes model) page.body
    return .markup p.out

/-- Render a page against a model that nothing else holds. -/
def renderAlone (rt : Runtime) : Pages := fun page model => do
  checkMeta model
  let env := { pageEnv page.escapes model with held := [] }
  let p ← runNodes (callValue rt (renderPage rt (rt.depth - 1))) env page.body
  return .markup p.out

/-- Call a template with variables. -/
def callTemplate (rt : Runtime) (f : Value) (entries : List (Value × Value)) :
    Except Fault Value :=
  callPlain rt (renderPage rt rt.depth) f [.dict entries] []

end CachedViews.Template
