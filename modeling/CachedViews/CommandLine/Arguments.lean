import CachedViews.Fault
import CachedViews.Text.Numeral

/-
# Arguments of a command

A command knows a grammar of options. An option has long names, which begin with
two hyphens, and short ones of one hyphen and a letter. The value of an option
is the next argument, or follows an equals sign or the letter; flags take none,
and may stand together behind one hyphen. Two hyphens alone end the options. Other
arguments are words; either options go on behind a word or they do not.

Options are checked in the order in which they first appear; of an option that
is given twice, the last value counts.

Key definitions: `OptionKind`, `OptionSpec`, `Arguments`, `Arguments.scan`,
`Arguments.check`, `Arguments.value?`.
-/

namespace CachedViews.CommandLine

open CachedViews.Text

/-- How the value of an option is read. -/
inductive OptionKind where
  | flag | text | path | integer
  deriving Repr, BEq, DecidableEq

/-- An option: its key and its names. -/
structure OptionSpec where
  key : String
  names : List String
  kind : OptionKind := .text
  deriving Repr, BEq, DecidableEq, Inhabited

/-- Why a command is not run. -/
inductive Refusal where
  /-- The arguments are not those of a command. -/
  | usage
  | fault (f : Fault)
  deriving Repr, BEq, DecidableEq

/-- An option that is set to a value. The value of a flag is empty. -/
abbrev Setting := OptionSpec × String

/-- The settings and the words among arguments. -/
structure Arguments where
  settings : List Setting := []
  words : List String := []
  deriving Repr, Inhabited

namespace Arguments

/-- The option of a name. -/
def named? (g : List OptionSpec) (name : List Char) : Option OptionSpec :=
  g.find? fun o => o.names.contains (String.ofList name)

/-- Settings, and the option that the next argument is the value of, if there is one. -/
abbrev Read := List Setting × Option OptionSpec

/-- Read the letters behind one hyphen. -/
def readLetters (g : List OptionSpec) : List Char → Option Read
  | [] => some ([], none)
  | c :: r =>
    match named? g ['-', c] with
    | none => none
    | some o =>
      if o.kind = .flag then (readLetters g r).map fun (s, next) => ((o, "") :: s, next)
      else if r = [] then some ([], some o)
      else some ([(o, String.ofList r)], none)

/-- Read an option with two hyphens. -/
def readLong (g : List OptionSpec) (arg : List Char) : Option Read :=
  let name := arg.takeWhile (· ≠ '=')
  match named? g name, arg.drop name.length with
  | none, _ => none
  | some o, [] => if o.kind = .flag then some ([(o, "")], none) else some ([], some o)
  | some o, _ :: value =>
    if o.kind = .flag then none else some ([(o, String.ofList value)], none)

/-- Read an argument that begins with a hyphen. -/
def readOption (g : List OptionSpec) : List Char → Option Read
  | '-' :: '-' :: r => readLong g ('-' :: '-' :: r)
  | _ :: r => readLetters g r
  | [] => none

/-- Settings in front of others. -/
def withSettings (s : List Setting) (a : Arguments) : Arguments :=
  { a with settings := s ++ a.settings }

/-- A word in front of others. -/
def withWord (w : String) (a : Arguments) : Arguments := { a with words := w :: a.words }

/-- Tell options and words apart. Options go on behind a word if `mixed`. -/
def scan (g : List OptionSpec) (mixed : Bool) : List String → Option Arguments
  | [] => some {}
  | arg :: rest =>
    match arg.toList with
    | ['-', '-'] => some { words := rest }
    | '-' :: c :: r =>
      match readOption g ('-' :: c :: r) with
      | none => none
      | some (s, none) => (scan g mixed rest).map (withSettings s)
      | some (s, some o) =>
        match rest with
        | [] => none
        | value :: rest => (scan g mixed rest).map (withSettings (s ++ [(o, value)]))
    | _ => if mixed then (scan g mixed rest).map (withWord arg) else some { words := arg :: rest }

/-- The value of an option: the last one that is given. -/
def value? (a : Arguments) (key : String) : Option String :=
  (a.settings.reverse.find? fun s => s.1.key = key).map (·.2)

/-- Is a flag set? -/
def isSet (a : Arguments) (key : String) : Bool := (a.value? key).isSome

/-- What is wrong with a value. A path cannot hold the null character. -/
def refusal? : OptionKind → String → Option Refusal
  | .path, v => if v.toList.contains '\x00' then some (.fault (.value .nullByte)) else none
  | .integer, v => if (integer? v.toList).isNone then some .usage else none
  | .flag, _ | .text, _ => none

/-- The first of the options whose value is refused decides. -/
def check (a : Arguments) : Except Refusal Unit :=
  match (a.settings.map (·.1)).findSome? fun o => (a.value? o.key).bind (refusal? o.kind) with
  | some r => .error r
  | none => .ok ()

/-- Read arguments in which options and words may be mixed, with as many words as
wanted. -/
def read (g : List OptionSpec) (wanted : Nat) (args : List String) :
    Except Refusal Arguments := do
  match scan g true args with
  | none => .error .usage
  | some a =>
    a.check
    if a.words.length = wanted then return a else .error .usage

end Arguments

end CachedViews.CommandLine
