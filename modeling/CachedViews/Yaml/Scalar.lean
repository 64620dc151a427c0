import CachedViews.Fault
import CachedViews.Text.Split
import CachedViews.Text.Wordlike

/-
# Plain scalars of YAML 1.1

A plain scalar is read by its form: words for truth values and for nothing,
integers in four bases and in base sixty, floating numbers, dates and moments,
and text for all else. The same rule tells a writer which texts need quotes.

Key definitions: `Yaml.Form`, `Yaml.formOf`, `Yaml.readScalar`.
-/

namespace CachedViews.Yaml

open CachedViews.Text

/-- What a scalar is read as. -/
inductive Form where
  | null | bool | int | float | text | moment | merge | value
  | binary
  deriving Repr, BEq, DecidableEq

/-- The words for true and for false. -/
def boolWords : List (String × Bool) :=
  ["yes", "Yes", "YES", "true", "True", "TRUE", "on", "On", "ON"].map (·, true) ++
    ["no", "No", "NO", "false", "False", "FALSE", "off", "Off", "OFF"].map (·, false)

/-- The words for nothing. -/
def nullWords : List String := ["~", "null", "Null", "NULL", ""]

/-- A digit, or the sign that groups digits. -/
def isGrouped (p : Char → Bool) (c : Char) : Bool := p c || c = '_'

/-- The text without a sign, and whether the sign is a minus. -/
def dropSign : List Char → Bool × List Char
  | '-' :: r => (true, r)
  | '+' :: r => (false, r)
  | r => (false, r)

/-- Digits, the first of which is no group sign. -/
def isDigits (first rest : Char → Bool) : List Char → Bool
  | c :: r => first c && r.all (isGrouped rest)
  | [] => false

/-- At least one digit or group sign. -/
def isGroup (p : Char → Bool) (s : List Char) : Bool := !s.isEmpty && s.all (isGrouped p)

/-- A digit that begins a numeral without a leading zero. -/
def isLeading (c : Char) : Bool := '1' ≤ c && c ≤ '9'

/-- A part of a number in base sixty. -/
def isSixtieth : List Char → Bool
  | [a] => isDigit a
  | [a, b] => '0' ≤ a && a ≤ '5' && isDigit b
  | _ => false

/-- An integer in one of its notations. -/
def isInt (s : List Char) : Bool :=
  match (dropSign s).2 with
  | '0' :: 'b' :: r => isGroup (fun c => c = '0' || c = '1') r
  | '0' :: 'x' :: r => isGroup (fun c => (digitValue? c).isSome) r
  | ['0'] => true
  | '0' :: r => isGroup (fun c => '0' ≤ c && c ≤ '7') r
  | body =>
    match splitOn ':' body with
    | [whole] => isDigits isLeading isDigit whole
    | whole :: parts => isDigits isLeading isDigit whole && parts.all isSixtieth
    | [] => false

/-- An exponent with its sign, or nothing. -/
def isExponentOrEmpty : List Char → Bool
  | [] => true
  | e :: sign :: ds => (e = 'e' || e = 'E') && (sign = '-' || sign = '+') && !ds.isEmpty && ds.all isDigit
  | _ => false

/-- The text before the first point and the text after it. -/
def cutPoint (s : List Char) : Option (List Char × List Char) :=
  if s.contains '.' then some (s.takeWhile (· ≠ '.'), (s.dropWhile (· ≠ '.')).tail) else none

/-- A floating number in one of its notations. -/
def isFloat (s : List Char) : Bool :=
  let body := (dropSign s).2
  let hasSign := body.length < s.length
  if [".inf", ".Inf", ".INF"].any fun w => w.toList = body then true
  else if [".nan", ".NaN", ".NAN"].any fun w => w.toList = s then true
  else match cutPoint body with
    | none => false
    | some (whole, tail) =>
      let fraction := tail.takeWhile (isGrouped isDigit)
      let rest := tail.dropWhile (isGrouped isDigit)
      if whole.isEmpty then
        !hasSign && isDigits isDigit isDigit fraction && isExponentOrEmpty rest
      else match splitOn ':' whole with
        | [whole] => isDigits isDigit isDigit whole && isExponentOrEmpty rest
        | whole :: parts => isDigits isDigit isDigit whole && parts.all isSixtieth && rest.isEmpty
        | [] => false

/-- The parts of a written date or moment, as texts of digits. -/
structure Stamp where
  year : List Char
  month : List Char
  day : List Char
  clock : Option (List Char × List Char × List Char × List Char)
  /-- The distance from universal time, in minutes. -/
  offset : Option Int

/-- One or two digits at the beginning of a text. -/
def oneOrTwo? : List Char → Option (List Char × List Char)
  | a :: b :: r => if isDigit a then if isDigit b then some ([a, b], r) else some ([a], b :: r) else none
  | [a] => if isDigit a then some ([a], []) else none
  | [] => none

/-- Exactly two digits at the beginning of a text. -/
def two? : List Char → Option (List Char × List Char)
  | a :: b :: r => if isDigit a && isDigit b then some ([a, b], r) else none
  | _ => none

/-- A character that has to come next. -/
def char? (c : Char) : List Char → Option (List Char)
  | d :: r => if c = d then some r else none
  | [] => none

/-- A zone behind a time: `Z`, or hours and perhaps minutes with a sign. -/
def zone? (s : List Char) : Option (Option Int) :=
  match s.dropWhile fun c => c = ' ' || c = '\t' with
  | [] => if s.isEmpty then some none else none
  | ['Z'] => some (some 0)
  | sign :: r =>
    if sign = '-' ∨ sign = '+' then do
      let (hours, r) ← oneOrTwo? r
      let minutes ← match r with
        | [] => some []
        | ':' :: r => match two? r with
          | some (m, []) => some m
          | _ => none
        | _ => none
      let total : Int := (numeral 10 hours * 60 + numeral 10 minutes : Nat)
      return some (if sign = '-' then -total else total)
    else none

/-- Is the stamp one that needs no tag? A date alone has two digits for the month and
for the day. -/
def Stamp.isPlain (s : Stamp) : Bool :=
  s.clock.isSome || (s.month.length = 2 && s.day.length = 2)

/-- The parts of a date or a moment, if the text is one. -/
def stamp? (s : List Char) : Option Stamp := do
  let year := s.take 4
  guard (year.length = 4 && year.all isDigit)
  let r ← char? '-' (s.drop 4)
  let (month, r) ← oneOrTwo? r
  let r ← char? '-' r
  let (day, r) ← oneOrTwo? r
  match r with
  | [] => return ⟨year, month, day, none, none⟩
  | c :: rest =>
    let r ← if c = 'T' ∨ c = 't' then some rest
      else if c = ' ' ∨ c = '\t' then some (rest.dropWhile fun c => c = ' ' || c = '\t')
      else none
    let (hour, r) ← oneOrTwo? r
    let r ← char? ':' r
    let (minute, r) ← two? r
    let r ← char? ':' r
    let (second, r) ← two? r
    let (fraction, r) := match r with
      | '.' :: r => (r.takeWhile isDigit, r.dropWhile isDigit)
      | r => ([], r)
    let offset ← zone? r
    return ⟨year, month, day, some (hour, minute, second, fraction), offset⟩

/-- What a plain scalar is read as. -/
def formOf (s : String) : Form :=
  let cs := s.toList
  if nullWords.contains s then .null
  else if (boolWords.lookup s).isSome then .bool
  else if isInt cs then .int
  else if isFloat cs then .float
  else if (stamp? cs).any Stamp.isPlain then .moment
  else if s = "<<" then .merge
  else if s = "=" then .value
  else .text

/-! ### Values of scalars -/

/-- The digits of a text without the group signs. -/
def ungrouped (s : List Char) : List Char := s.filter (· ≠ '_')

/-- The number that parts in base sixty write. -/
def sixties (parts : List (List Char)) : Nat :=
  parts.foldl (fun n part => n * 60 + numeral 10 part) 0

/-- The value of an integer. -/
def intValue (s : List Char) : Except Fault Int :=
  let (negative, body) := dropSign (ungrouped s)
  let signed (n : Nat) : Int := if negative then -(n : Int) else n
  match body with
  | ['0'] => .ok 0
  | '0' :: 'b' :: r => if r.isEmpty then .error (.value (.badNumeral 2 "")) else .ok (signed (numeral 2 r))
  | '0' :: 'x' :: r => if r.isEmpty then .error (.value (.badNumeral 16 "")) else .ok (signed (numeral 16 r))
  | '0' :: r => .ok (signed (numeral 8 r))
  | body =>
    if Json.digitLimit < body.length ∧ !body.contains ':' then
      .error (.value (.hugeInteger body.length))
    else .ok (signed (sixties (splitOn ':' body)))

/-- The value of a floating number written in base ten. -/
def decimalValue (s : List Char) : Float :=
  let (whole, tail) := (cutPoint s).getD (s.takeWhile isDigit, [])
  let fraction := tail.takeWhile isDigit
  let exponent : Int := match tail.dropWhile isDigit with
    | _ :: r =>
      let (negative, ds) := dropSign r
      let n : Int := Decimal.ofDigits ds
      if negative then -n else n
    | [] => 0
  Decimal.floatOfParts false whole fraction exponent

/-- The value of a floating number. -/
def floatValue (s : List Char) : Float :=
  let (negative, body) := dropSign ((ungrouped s).map Char.toLower)
  let signed (x : Float) : Float := if negative then -x else x
  if body = ".inf".toList then signed (1.0 / 0.0)
  else if body = ".nan".toList then 0.0 / 0.0
  else match splitOn ':' body with
    | [body] => signed (decimalValue body)
    | parts =>
      signed ((parts.reverse.foldl (fun (x, base) part => (x + decimalValue part * base, base * 60.0))
        ((0.0 : Float), (1.0 : Float))).1)

/-- The days of a month. -/
def daysIn (year month : Nat) : Nat :=
  if month = 2 then
    if year % 4 = 0 ∧ (year % 100 ≠ 0 ∨ year % 400 = 0) then 29 else 28
  else if [4, 6, 9, 11].contains month then 30 else 31

/-- The minutes of a day. -/
def dayMinutes : Int := 1440

/-- What is said of a zone that is a day or more away. The distance is given in days and
in seconds, of which there are never less than none. -/
def zoneMessage (offset : Int) : String :=
  let days := offset.fdiv dayMinutes
  let seconds := (offset - days * dayMinutes) * 60
  let distance := if seconds = 0 then s!"days={days}" else s!"days={days}, seconds={seconds}"
  "offset must be a timedelta strictly between -timedelta(hours=24) and timedelta(hours=24), " ++
    s!"not datetime.timedelta({distance})."

/-- Is a zone less than a day away? -/
def isNear (offset : Option Int) : Bool := offset.all fun n => n.natAbs < dayMinutes.natAbs

/-- The value of a date or a moment, if there is such a day and such a time. -/
def momentValue (s : Stamp) : Except Fault Moment :=
  let year := numeral 10 s.year
  let month := numeral 10 s.month
  let day := numeral 10 s.day
  let bad (part : String) : Except Fault Moment := .error (.value (.badDate part))
  if !isNear s.offset then bad (zoneMessage (s.offset.getD 0))
  else if year = 0 then bad "year 0 is out of range"
  else if month = 0 ∨ 12 < month then bad "month must be in 1..12"
  else if day = 0 ∨ daysIn year month < day then bad "day is out of range for month"
  else match s.clock with
    | none => .ok ⟨year, month, day, none, none⟩
    | some (h, m, sec, fraction) =>
      let hour := numeral 10 h
      let minute := numeral 10 m
      let second := numeral 10 sec
      let micro := numeral 10 ((fraction ++ List.replicate 6 '0').take 6)
      if 23 < hour then bad "hour must be in 0..23"
      else if 59 < minute then bad "minute must be in 0..59"
      else if 59 < second then bad "second must be in 0..59"
      else .ok ⟨year, month, day, some (hour, minute, second, micro), s.offset⟩

/-- The value of a scalar of a form that its text has. -/
def readScalar (form : Form) (s : String) : Except Fault Value :=
  match form with
  | .null => .ok .null
  | .bool => .ok (.bool ((boolWords.lookup s).getD false))
  | .int => (intValue s.toList).map .int
  | .float => .ok (.float (floatValue s.toList))
  | .moment =>
    match stamp? s.toList with
    | some stamp => (momentValue stamp).map .moment
    | none => .ok (.str s)
  | _ => .ok (.str s)

end CachedViews.Yaml
