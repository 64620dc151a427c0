import CachedViews.Template.Syntax
import CachedViews.Text.Quoted
import CachedViews.Text.Markup
import CachedViews.Text.Split
import CachedViews.Decimal.Notation

/-
# Values

The dynamic values that configurations, template variables and templates work
with. Mappings keep their entries in order. Text is either plain or markup;
markup is not escaped again when it is printed.

Every value has the name of its kind (`Value.kind`), a printed form
(`Value.text`) and an unambiguous one (`Value.shown`), in which strings are
quoted.

Texts are sequences of Unicode scalar values. Integers are written however long
they are: readers and arithmetic refuse those of more than 4300 digits, which
could not be written in decimal, but for those that YAML has in another base.

Key definitions: `Value`, `Value.kind`, `Value.isTrue`, `Value.shown`,
`Value.text`, `Value.same`.
-/

namespace CachedViews

open CachedViews.Text

/-- A calendar date, or with `time` a moment: hour, minute, second, microsecond.
`offset` is the distance from universal time in minutes. -/
structure Moment where
  year : Nat
  month : Nat
  day : Nat
  time : Option (Nat × Nat × Nat × Nat)
  offset : Option Int
  deriving Repr, BEq, DecidableEq

/-- Why a value is missing. -/
inductive Missing where
  /-- No variable has the name. -/
  | name (n : String)
  /-- A value of the kind `owner` has no attribute of the name. -/
  | attribute (owner n : String)
  /-- A value of the kind `owner` has no element with the shown key. -/
  | element (owner key : String)
  /-- There is none, for the reason that is told. -/
  | told (text : String)
  deriving Repr, BEq, DecidableEq

/-- A compiled page: its nodes, the name it was compiled under, and whether the
values it prints are escaped. -/
structure Page where
  name : Option String
  escapes : Bool
  body : List Template.Node
  deriving Inhabited

/-- The kinds of records that templates may meet. -/
inductive RecordKind where
  | renderMeta | request | loop | attributes
  /-- What a template knows itself by. -/
  | reference
  deriving Repr, BEq, DecidableEq

/-- What a sequence goes through that is computed and not stored: the entries, keys
or values of a mapping, or the integers from a first one up to another one. -/
inductive SeriesKind where
  | items | keys | values
  | range (start stop : Int)
  deriving Repr, BEq, DecidableEq

/-- A dynamic value. -/
inductive Value where
  | null
  | bool (b : Bool)
  | int (n : Int)
  | float (x : Float)
  | str (s : String)
  | markup (s : String)
  | bytes (bs : List UInt8)
  | moment (m : Moment)
  | list (items : List Value)
  | tuple (items : List Value)
  | set (items : List Value)
  | dict (entries : List (Value × Value))
  | series (kind : SeriesKind) (items : List Value)
  | path (p : String)
  /-- A function that came from outside: its name and what it holds. What it does is
  a matter of the surroundings. -/
  | function (name : String) (closure : Value)
  /-- A compiled page. `given` tells apart the templates that came with the input. -/
  | page (given : Nat) (p : Page)
  /-- Partials found by listing a directory. -/
  | directorySource (path : String) (namesp : Option String)
  /-- Partials given as templates. -/
  | inlineSource (templates : Value) (namesp : Option String)
  /-- A finished future. -/
  | future (result : Value)
  | record (kind : RecordKind) (fields : List (String × Value))
  | missing (m : Missing)
  /-- The function `partial` of a template: the partials and the variables that
  it hands on. -/
  | caller (partials : Value) (model : List (String × Value))
  /-- A function every template knows. -/
  | builtin (name : String)
  /-- A method of a value. -/
  | method (object : Value) (name : String)
  deriving Inhabited

namespace Value

/-- The name of a value's kind. -/
def kind : Value → String
  | null => "NoneType"
  | bool _ => "bool"
  | int _ => "int"
  | float _ => "float"
  | str _ => "str"
  | markup _ => "Markup"
  | bytes _ => "bytes"
  | moment m => if m.time.isSome then "datetime" else "date"
  | list _ => "list"
  | tuple _ => "tuple"
  | set _ => "set"
  | dict _ => "dict"
  | series .items _ => "dict_items"
  | series .keys _ => "dict_keys"
  | series .values _ => "dict_values"
  | series (.range _ _) _ => "range"
  | path _ => "PosixPath"
  | function _ _ => "function"
  | page _ _ => "CompiledTemplate"
  | directorySource _ _ => "DirectorySource"
  | inlineSource _ _ => "InlineSource"
  | future _ => "Future"
  | record .renderMeta _ => "RenderMeta"
  | record .request _ => "Request"
  | record .loop _ => "LoopContext"
  | record .attributes _ => "SimpleNamespace"
  | record .reference _ => "TemplateReference"
  | missing _ => "Undefined"
  | caller _ _ => "function"
  | builtin n => if n = "lipsum" then "function" else "type"
  | method _ _ => "builtin_function_or_method"

/-- Is the value taken for true by a condition? -/
def isTrue : Value → Bool
  | null => false
  | bool b => b
  | int n => n != 0
  | float x => x != 0.0
  | str s => s != ""
  | markup s => s != ""
  | bytes bs => !bs.isEmpty
  | list xs => !xs.isEmpty
  | tuple xs => !xs.isEmpty
  | set xs => !xs.isEmpty
  | dict es => !es.isEmpty
  | series _ xs => !xs.isEmpty
  | missing _ => false
  | _ => true

/-- Can the value be called? -/
def isCallable : Value → Bool
  | function _ _ | page _ _ | caller _ _ | builtin _ | method _ _ => true
  | _ => false

/-- The characters of a plain or marked-up text. -/
def string? : Value → Option String
  | str s => some s
  | markup s => some s
  | _ => none

/-- The text of a path, however it is given. -/
def path? : Value → Option String
  | str s => some s
  | markup s => some s
  | path p => some p
  | _ => none

/-- A mapping with string keys. -/
def ofFields (fields : List (String × Value)) : Value :=
  .dict (fields.map fun (k, v) => (.str k, v))

/-- The value under a string key of a list of entries. -/
def entry? (key : String) : List (Value × Value) → Option Value
  | [] => none
  | (.str k, v) :: r => if k = key then some v else entry? key r
  | (.markup k, v) :: r => if k = key then some v else entry? key r
  | _ :: r => entry? key r

/-- The entries of a mapping whose keys are strings. -/
def stringFields : List (Value × Value) → List (String × Value)
  | [] => []
  | (.str k, v) :: r => (k, v) :: stringFields r
  | (.markup k, v) :: r => (k, v) :: stringFields r
  | _ :: r => stringFields r

/-- Two digits of a number below one hundred. -/
def twoDigits (n : Nat) : String := String.ofList (decimalFixed 2 n)

end Value

namespace Moment

/-- The distance from universal time as `+hh:mm`. -/
def offsetText (minutes : Int) : String :=
  (if minutes < 0 then "-" else "+") ++ Value.twoDigits (minutes.natAbs / 60) ++ ":" ++
    Value.twoDigits (minutes.natAbs % 60)

/-- The standard form of a moment, with the given sign between date and time. -/
def render (separator : String) (m : Moment) : String :=
  let date := String.ofList (decimalFixed 4 m.year) ++ "-" ++ Value.twoDigits m.month ++ "-" ++
    Value.twoDigits m.day
  match m.time with
  | none => date
  | some (hour, minute, second, micro) =>
    date ++ separator ++ Value.twoDigits hour ++ ":" ++ Value.twoDigits minute ++ ":" ++
      Value.twoDigits second ++
      (if micro = 0 then "" else "." ++ String.ofList (decimalFixed 6 micro)) ++
      (m.offset.map offsetText).getD ""

/-- The form of a moment that shows its parts. -/
def shown (m : Moment) : String :=
  let date := s!"{m.year}, {m.month}, {m.day}"
  match m.time with
  | none => "datetime.date(" ++ date ++ ")"
  | some (hour, minute, second, micro) =>
    let zone := match m.offset with
      | none => ""
      | some 0 => ", tzinfo=datetime.timezone.utc"
      | some minutes =>
        if minutes < 0 then
          ", tzinfo=datetime.timezone(datetime.timedelta(days=-1, seconds=" ++
            toString (86400 + minutes * 60) ++ "))"
        else
          ", tzinfo=datetime.timezone(datetime.timedelta(seconds=" ++ toString (minutes * 60) ++ "))"
    let seconds :=
      if micro ≠ 0 then ", " ++ toString second ++ ", " ++ toString micro
      else if second ≠ 0 then ", " ++ toString second else ""
    "datetime.datetime(" ++ date ++ ", " ++ toString hour ++ ", " ++ toString minute ++ seconds ++
      zone ++ ")"

end Moment

/-- Parts in order with a comma between two. -/
def commaList (parts : List String) : String := String.intercalate ", " parts

namespace Value

/-- The form of a function that every template knows. -/
def builtinShown : String → String
  | "cycler" => "<class 'jinja2.utils.Cycler'>"
  | "joiner" => "<class 'jinja2.utils.Joiner'>"
  | "lipsum" => "<function generate_lorem_ipsum>"
  | "namespace" => "<class 'jinja2.utils.Namespace'>"
  | n => "<class " ++ quotedString n ++ ">"

/-- The text or number in a field, with escapes for what is beyond ASCII. -/
def fieldText (fields : List (String × Value)) (name : String) : String :=
  match fields.lookup name with
  | some (str s) =>
    String.ofList (s.toList.flatMap fun c => if c.toNat < 0x80 then [c] else codePointEscape c.toNat)
  | some (int n) => toString n
  | _ => ""

mutual

/-- The form of a value that shows its kind: strings are quoted. -/
def shown : Value → String
  | null => "None"
  | bool true => "True"
  | bool false => "False"
  | int n => toString n
  | float x => Decimal.printedStyle.render x
  | str s => quotedString s
  | markup s => "Markup(" ++ quotedString s ++ ")"
  | bytes bs => quotedOctets bs
  | moment m => m.shown
  | list xs => "[" ++ commaList (shownItems xs) ++ "]"
  | tuple [] => "()"
  | tuple [x] => "(" ++ x.shown ++ ",)"
  | tuple xs => "(" ++ commaList (shownItems xs) ++ ")"
  | set [] => "set()"
  | set xs => "\x7b" ++ commaList (shownItems xs) ++ "\x7d"
  | dict es => "\x7b" ++ commaList (shownEntries es) ++ "\x7d"
  | series (.range start stop) _ => "range(" ++ toString start ++ ", " ++ toString stop ++ ")"
  | series .items xs => "dict_items([" ++ commaList (shownItems xs) ++ "])"
  | series .keys xs => "dict_keys([" ++ commaList (shownItems xs) ++ "])"
  | series .values xs => "dict_values([" ++ commaList (shownItems xs) ++ "])"
  | path p => "PosixPath(" ++ quotedString p ++ ")"
  | function n _ => "<function " ++ n ++ ">"
  | page _ p => "<CompiledTemplate " ++ (match p.name with
      | some "" => "(string)"
      | some n => n
      | none => "(string)") ++ ">"
  | directorySource p ns =>
    "DirectorySource(path=" ++ quotedString p ++ ", namespace=" ++
      (match ns with | none => "None" | some n => quotedString n) ++ ")"
  | inlineSource t ns =>
    "InlineSource(templates=" ++ t.shown ++ ", namespace=" ++
      (match ns with | none => "None" | some n => quotedString n) ++ ")"
  | future v => "<Future finished result=" ++ v.shown ++ ">"
  | record .renderMeta fs => "RenderMeta(" ++ commaList (shownFields fs) ++ ")"
  | record .attributes fs => "namespace(" ++ commaList (shownFields fs) ++ ")"
  | record .request fs => "<Request " ++ fieldText fs "method" ++ " " ++ fieldText fs "path" ++ " >"
  | record .loop fs => "<LoopContext " ++ fieldText fs "index" ++ "/" ++ fieldText fs "length" ++ ">"
  | record .reference _ => "<TemplateReference None>"
  | missing _ => "Undefined"
  | caller _ _ => "<function partial>"
  | builtin n => builtinShown n
  | method o n => "<built-in method " ++ n ++ " of " ++ o.kind ++ " object>"

/-- The shown forms of items. -/
def shownItems : List Value → List String
  | [] => []
  | x :: xs => x.shown :: shownItems xs

/-- The shown forms of entries, key first. -/
def shownEntries : List (Value × Value) → List String
  | [] => []
  | (k, v) :: es => (k.shown ++ ": " ++ v.shown) :: shownEntries es

/-- The shown forms of named fields. -/
def shownFields : List (String × Value) → List String
  | [] => []
  | (n, v) :: fs => (n ++ "=" ++ v.shown) :: shownFields fs

end

/-- The printed form of a value: texts are not quoted. -/
def text : Value → String
  | str s => s
  | markup s => s
  | moment m => m.render " "
  | path p => p
  | missing _ => ""
  | record .renderMeta fs => String.intercalate " " (shownFields fs)
  | directorySource p ns =>
    "path=" ++ quotedString p ++ " namespace=" ++ (match ns with
      | none => "None"
      | some n => quotedString n)
  | inlineSource t ns =>
    "templates=" ++ t.shown ++ " namespace=" ++ (match ns with
      | none => "None"
      | some n => quotedString n)
  | v => v.shown

/-- The number that a value counts as, if it is one. -/
inductive Number where
  | int (n : Int)
  | float (x : Float)

/-- Truth values count as zero and one. -/
def number? : Value → Option Number
  | bool b => some (.int (if b then 1 else 0))
  | int n => some (.int n)
  | float x => some (.float x)
  | _ => none

/-- Numbers are equal by value, whatever their kinds. -/
def Number.same : Number → Number → Bool
  | .int a, .int b => a = b
  | .int a, .float b => Decimal.isInteger b a
  | .float a, .int b => Decimal.isInteger a b
  | .float a, .float b => a == b

/-- Is the first number below the second? An integer is compared with the whole part
of a floating number, so that nothing is rounded. -/
def Number.below : Number → Number → Bool
  | .int a, .int b => a < b
  | .int a, .float b =>
    let whole := Decimal.truncate b
    if b.isFinite then a < whole || (a = whole && Decimal.ofInteger whole < b) else 0.0 < b
  | .float a, .int b =>
    let whole := Decimal.truncate a
    if a.isFinite then whole < b || (whole = b && a < Decimal.ofInteger whole) else a < 0.0
  | .float a, .float b => a < b

mutual

/-- Equality of values as templates and mapping keys see it: numbers by value,
plain and marked-up text alike, lists in order, mappings and sets in any order. -/
def same : Value → Value → Bool
  | null, null => true
  | bool a, bool b => a == b
  | bool a, int b => (if a then 1 else 0) == b
  | bool a, float b => Decimal.isInteger b (if a then 1 else 0)
  | int a, bool b => a == (if b then 1 else 0)
  | float a, bool b => Decimal.isInteger a (if b then 1 else 0)
  | int a, int b => a == b
  | int a, float b => Decimal.isInteger b a
  | float a, int b => Decimal.isInteger a b
  | float a, float b => a == b
  | str a, str b => a == b
  | str a, markup b => a == b
  | markup a, str b => a == b
  | markup a, markup b => a == b
  | bytes a, bytes b => a == b
  | moment a, moment b => a == b
  | list a, list b => sameItems a b
  | tuple a, tuple b => sameItems a b
  | set a, set b => a.length == b.length && subset a b
  | dict a, dict b => a.length == b.length && subEntries a b
  | series (.range _ _) a, series (.range _ _) b => sameItems a b
  | path a, path b => a == b
  | function m a, function n b => m == n && same a b
  | directorySource a m, directorySource b n => a == b && m == n
  | inlineSource a m, inlineSource b n => same a b && m == n
  | missing _, missing _ => true
  | record j a, record k b => j == k && a.length == b.length && sameFields a b
  | page a p, page b q => a == b && p.name == q.name
  | _, _ => false

/-- Equality item by item. -/
def sameItems : List Value → List Value → Bool
  | [], [] => true
  | a :: as, b :: bs => same a b && sameItems as bs
  | _, _ => false

/-- Equality field by field. -/
def sameFields : List (String × Value) → List (String × Value) → Bool
  | [], [] => true
  | (m, a) :: as, (n, b) :: bs => m == n && same a b && sameFields as bs
  | _, _ => false

/-- Is every item of the first list in the second? -/
def subset : List Value → List Value → Bool
  | [], _ => true
  | a :: as, bs => bs.any (same a) && subset as bs

/-- Does the second mapping give every key of the first the same value? -/
def subEntries : List (Value × Value) → List (Value × Value) → Bool
  | [], _ => true
  | (k, v) :: as, bs =>
    (match bs.find? fun e => same k e.1 with
      | some e => same v e.2
      | none => false) && subEntries as bs

end

/-- Put a value under a key, in the place of an equal key or at the end. -/
def insertEntry (k v : Value) : List (Value × Value) → List (Value × Value)
  | [] => [(k, v)]
  | (k', v') :: r => if same k k' then (k', v) :: r else (k', v') :: insertEntry k v r

/-- Entries on top of others: an entry of both keeps its place and takes the value of
`above`. -/
def onTop (below above : List (Value × Value)) : List (Value × Value) :=
  above.foldl (fun entries (k, v) => insertEntry k v entries) below

/-- Put a field in the place of the field of that name or at the end. -/
def insertField {α : Type} (name : String) (v : α) : List (String × α) → List (String × α)
  | [] => [(name, v)]
  | (n, w) :: r => if n = name then (n, v) :: r else (n, w) :: insertField name v r

/-- The fields of `above` on top of those of `below`: a field of both keeps its
place and takes the value of `above`. -/
def overlay {α : Type} (below above : List (String × α)) : List (String × α) :=
  above.foldl (fun fields (n, v) => insertField n v fields) below

mutual

/-- The kind of the first part of a value that cannot be part of a key. -/
def unhashable? : Value → Option String
  | list _ => some "list"
  | dict _ => some "dict"
  | set _ => some "set"
  | series .items _ => some "dict_items"
  | series .keys _ => some "dict_keys"
  | directorySource _ _ => some "DirectorySource"
  | inlineSource _ _ => some "InlineSource"
  | record .renderMeta _ => some "RenderMeta"
  | record .attributes _ => some "SimpleNamespace"
  | tuple xs => firstUnhashable? xs
  | _ => none

/-- `unhashable?` for several values. -/
def firstUnhashable? : List Value → Option String
  | [] => none
  | x :: xs => x.unhashable?.or (firstUnhashable? xs)

end

/-- May the value be a key of a mapping? -/
def isHashable (v : Value) : Bool := v.unhashable?.isNone

end Value

end CachedViews
