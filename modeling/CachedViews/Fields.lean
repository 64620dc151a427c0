import CachedViews.Fault

/-
# Checking the fields of a record

A record is built from a mapping by checking its fields one by one. A check
gives the checked value or the faults of the field; the faults of all fields
are collected in the order of the fields.

Checks are lax: where a text is wanted, the octets of one will do, and where a
truth value is wanted, a number or a word that stands for it.

Key definitions: `Checked`, `Checked.faults`, `Value.asText?`, `checkText`,
`checkFlag`, `checkMapping`, `checkCallables`.
-/

namespace CachedViews

/-- A checked value, or what is wrong with the field. -/
abbrev Checked (α : Type) := Except (List FieldFault) α

namespace Checked

/-- What is wrong, nothing for a good value. -/
def faults {α : Type} : Checked α → List FieldFault
  | .ok _ => []
  | .error fs => fs

/-- One fault at a place. -/
def fail {α : Type} (place : List String) (problem : FieldProblem) : Checked α :=
  .error [⟨place, problem⟩]

@[simp] theorem faults_ok {α : Type} (a : α) : faults (.ok a : Checked α) = [] := rfl

@[simp] theorem faults_error {α : Type} (fs : List FieldFault) :
    faults (.error fs : Checked α) = fs := rfl

end Checked

/-- The text that octets write. -/
def octetsText? (octets : List UInt8) : Option String :=
  match Text.decodeUtf8 octets with
  | .ok cs => some (String.ofList cs)
  | .error _ => none

/-- The text that a value is taken for, plain or marked up, or written by octets. -/
def Value.asText? : Value → Option String
  | .bytes octets => octetsText? octets
  | v => v.string?

/-- What is wrong with a value that is no text. -/
def textProblem : Value → FieldProblem
  | .bytes _ => .notUnicode
  | _ => .notString

/-- A text, or octets that write one. -/
def checkText (place : List String) (v : Value) : Checked String :=
  match v.asText? with
  | some s => .ok s
  | none => Checked.fail place (textProblem v)

/-- A text or nothing. -/
def checkOptionalText (place : List String) : Value → Checked (Option String)
  | .null => .ok none
  | v => (checkText place v).map some

/-- The words for the two truth values. -/
def flagWords : List (String × Bool) :=
  [("0", false), ("off", false), ("f", false), ("false", false), ("n", false), ("no", false),
   ("1", true), ("on", true), ("t", true), ("true", true), ("y", true), ("yes", true)]

/-- A truth value, or a number or word that stands for one. -/
def checkFlag (place : List String) (v : Value) : Checked Bool :=
  match v with
  | .bool b => .ok b
  | .int 0 => .ok false
  | .int 1 => .ok true
  | .int _ => Checked.fail place .unreadableBoolean
  | .float x =>
    if Decimal.isInteger x 0 then .ok false
    else if Decimal.isInteger x 1 then .ok true
    else if Decimal.isInteger x (Decimal.truncate x) then Checked.fail place .unreadableBoolean
    else Checked.fail place .notBoolean
  | v =>
    match v.asText?, v with
    | none, .bytes _ => Checked.fail place .unreadableBoolean
    | none, _ => Checked.fail place .notBoolean
    | some s, _ =>
      match flagWords.lookup (String.ofList (s.toList.map Char.toLower)) with
      | some b => .ok b
      | none => Checked.fail place .unreadableBoolean

/-- The place name of a key: a text is its own, and a truth value counts as a
number. -/
def keyPlace (k : Value) : String :=
  match k, k.string? with
  | .bool b, _ => if b then "1" else "0"
  | _, some s => s
  | k, none => k.shown

/-- The entries of a mapping whose keys are texts, each value checked by `check`
at its own place. -/
def checkEntries {α : Type} (place : List String) (check : List String → Value → Checked α) :
    List (Value × Value) → Checked (List (String × α))
  | [] => .ok []
  | (k, v) :: rest =>
    let key := checkText (place ++ [keyPlace k, "[key]"]) k
    let value := check (place ++ [keyPlace k]) v
    match key, value, checkEntries place check rest with
    | .ok s, .ok a, .ok more => .ok ((s, a) :: more)
    | key, value, more => .error (key.faults ++ value.faults ++ more.faults)

/-- The fields that checked entries are gathered to. Octets may write a name that
is there already: the field then takes the later value. -/
def gathered {α : Type} (entries : List (Value × Value)) (fields : List (String × α)) :
    List (String × α) :=
  if entries.all fun e => e.1.string?.isSome then fields else Value.overlay [] fields

/-- A mapping with texts for keys, each value checked by `check`. -/
def checkFields {α : Type} (place : List String) (check : List String → Value → Checked α) :
    Value → Checked (List (String × α))
  | .dict es => (checkEntries place check es).map (gathered es)
  | _ => Checked.fail place .notDictionary

/-- A mapping with texts for keys. -/
def checkMapping (place : List String) : Value → Checked (List (String × Value)) :=
  checkFields place fun _ v => .ok v

/-- A value that can be called. -/
def checkCallable (place : List String) (v : Value) : Checked Value :=
  if v.isCallable then .ok v else Checked.fail place .notCallable

/-- A mapping of texts to values that can be called. -/
def checkCallables (place : List String) : Value → Checked (List (String × Value)) :=
  checkFields place checkCallable

/-- Nothing stands for the layout of a view when it is false or empty. -/
def withoutLayout : Value → Value
  | .bool false => .null
  | .str "" => .null
  | .markup "" => .null
  | v => v

end CachedViews
