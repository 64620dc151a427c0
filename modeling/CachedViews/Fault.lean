import CachedViews.Json.Reader
import CachedViews.Json.Writer
import CachedViews.Text.Utf8

/-
# Faults

Everything that can go wrong, by cause. `Fault.kind` names the kind of a fault
and `Fault.message` is its wording. The library's own faults (`ViewFault`) know
the path they are about and the operation they arose in; `ViewFault.report`
gives all that is told about them. What templates and compilers fail with is never
one of these (`TellsNoView`).

Key definitions: `Fault`, `ViewFault`, `Report`, `Fault.kind`, `Fault.message`,
`TellsNoView`.
-/

namespace CachedViews

open CachedViews.Text

/-- What the file system objects to. -/
inductive FileProblem where
  | noSuchFile
  | noSuchDirectory
  | notDirectory
  | isDirectory
  | fileExists
  | nameTooLong
  | tooManyLinks
  deriving Repr, BEq, DecidableEq

/-- A refusal of the file system and the path it was asked for. -/
structure FileFault where
  problem : FileProblem
  path : String
  deriving Repr, BEq, DecidableEq

/-- The number of a problem. -/
def FileProblem.number : FileProblem → Nat
  | .noSuchFile | .noSuchDirectory => 2
  | .notDirectory => 20
  | .isDirectory => 21
  | .fileExists => 17
  | .nameTooLong => 36
  | .tooManyLinks => 40

/-- The wording of a problem. -/
def FileProblem.text : FileProblem → String
  | .noSuchFile => "No such file or directory"
  | .noSuchDirectory => "No such directory"
  | .notDirectory => "Not a directory"
  | .isDirectory => "Is a directory"
  | .fileExists => "File exists"
  | .nameTooLong => "File name too long"
  | .tooManyLinks => "Too many levels of symbolic links"

/-- The kind of fault that a problem is reported as. -/
def FileProblem.kind : FileProblem → String
  | .noSuchFile | .noSuchDirectory => "FileNotFoundError"
  | .notDirectory => "NotADirectoryError"
  | .isDirectory => "IsADirectoryError"
  | .fileExists => "FileExistsError"
  | .nameTooLong | .tooManyLinks => "OSError"

/-- The wording of a refusal. -/
def FileFault.message (f : FileFault) : String :=
  s!"[Errno {f.problem.number}] {f.problem.text}: {quotedString f.path}"

/-- The wording for octets that are no text. -/
def utf8Message (e : Utf8Error) : String :=
  let octet (b : UInt8) : String := "0x" ++ String.ofList (hexFixed 2 b.toNat)
  let range (b : UInt8) (position length : Nat) : String :=
    if length = 1 then s!"byte {octet b} in position {position}"
    else s!"bytes in position {position}-{position + length - 1}"
  "'utf-8' codec can't decode " ++ match e with
    | .invalidStart b i => range b i 1 ++ ": invalid start byte"
    | .invalidContinuation b i n => range b i n ++ ": invalid continuation byte"
    | .unexpectedEnd b i n => range b i n ++ ": unexpected end of data"

/-- Why the text of a file could not be had. -/
inductive ReadFault where
  | file (f : FileFault)
  | notText (e : Utf8Error)
  deriving Repr, BEq, DecidableEq

/-- The kind of a reading fault. -/
def ReadFault.kind : ReadFault → String
  | .file f => f.problem.kind
  | .notText _ => "UnicodeDecodeError"

/-- The wording of a reading fault. -/
def ReadFault.message : ReadFault → String
  | .file f => f.message
  | .notText e => utf8Message e

/-- What is wrong with a field of a model. -/
inductive FieldProblem where
  | notString
  /-- Octets that write no text. -/
  | notUnicode
  | notList
  | notDictionary
  | notCallable
  | emptyExtension
  | unknownField
  | required
  | unreadableBoolean
  | notBoolean
  deriving Repr, BEq, DecidableEq

/-- The label of a field problem. -/
def FieldProblem.label : FieldProblem → String
  | .notString => "string_type"
  | .notUnicode => "string_unicode"
  | .notList => "list_type"
  | .notDictionary => "dict_type"
  | .notCallable => "callable_type"
  | .emptyExtension => "value_error"
  | .unknownField => "extra_forbidden"
  | .required => "missing"
  | .unreadableBoolean => "bool_parsing"
  | .notBoolean => "bool_type"

/-- The wording of a field problem. -/
def FieldProblem.text : FieldProblem → String
  | .notString => "Input should be a valid string"
  | .notUnicode => "Input should be a valid string, unable to parse raw data as a unicode string"
  | .notList => "Input should be a valid list"
  | .notDictionary => "Input should be a valid dictionary"
  | .notCallable => "Input should be callable"
  | .emptyExtension => "Value error, extname must not be empty"
  | .unknownField => "Extra inputs are not permitted"
  | .required => "Field required"
  | .unreadableBoolean => "Input should be a valid boolean, unable to interpret input"
  | .notBoolean => "Input should be a valid boolean"

/-- A problem and the way to the field it is about, on which a number is written out. -/
structure FieldFault where
  place : List String
  problem : FieldProblem
  deriving Repr, BEq, DecidableEq

/-- A template text that cannot be parsed. A name of a filter or a test that does
not exist is found only after parsing and has a kind of its own. -/
structure SyntaxFault where
  line : Nat
  text : String
  unknownName : Bool := false
  /-- Does the wording end with the line? -/
  located : Bool := false
  deriving Repr, BEq, DecidableEq

/-- The kind of a syntax fault. -/
def SyntaxFault.kind (f : SyntaxFault) : String :=
  if f.unknownName then "TemplateAssertionError" else "TemplateSyntaxError"

/-- The wording of a syntax fault. -/
def SyntaxFault.message (f : SyntaxFault) : String :=
  if f.located then s!"{f.text}\n  line {f.line}" else f.text

/-- The faults that the library reports about views. -/
inductive ViewFault where
  /-- A directory could not be listed. -/
  | listing (path : String) (cause : FileFault)
  /-- A template could not be read. -/
  | reading (path : String) (cause : ReadFault)
  /-- A template could not be compiled. -/
  | compiling (path : String) (cause : SyntaxFault)
  /-- An entry names no source of partials. -/
  | source (entry : String)
  | invalidConfiguration (faults : List FieldFault)
  | missingConfiguration (path : String)
  | configurationFormat (path : String)
  | malformedYaml (path : String)
  | malformedJson (path : String) (cause : Json.Fault)
  | unreadableConfiguration (path : String) (cause : FileFault)
  | configurationNotMapping (path : String)
  deriving Repr, BEq, DecidableEq

/-- The kinds of the library's own faults. The first is the common one. -/
inductive ReportKind where
  | base | listing | read | compile | configuration
  deriving Repr, BEq, DecidableEq

/-- The name of a kind. -/
def ReportKind.name : ReportKind → String
  | .base => "TemplateViewsError"
  | .listing => "ListingError"
  | .read => "ReadError"
  | .compile => "CompileError"
  | .configuration => "ConfigurationError"

/-- The kind of a name. -/
def ReportKind.ofName? (s : String) : Option ReportKind :=
  [ReportKind.base, .listing, .read, .compile, .configuration].find? (·.name = s)

/-- The names of a kind and of the kinds it belongs to. -/
def ReportKind.names (k : ReportKind) : List String :=
  match k with
  | .base => [k.name]
  | _ => [k.name, ReportKind.base.name]

/-- All that is told about one of the library's own faults: the message, the
component and its operation, diagnostic values, and the path it concerns. -/
structure Report where
  kind : ReportKind
  message : Value
  component : Value := .null
  operation : Value := .null
  contextDetails : Value := .dict []
  path : Value := .null
  details : Value := .dict []
  cause : Option String := none

/-- The component and the operation as one word, when both are known. -/
def Report.location (r : Report) : Option String :=
  if r.component.isTrue && r.operation.isTrue then
    some (r.component.text ++ "." ++ r.operation.text)
  else none

/-- The message with the place it comes from. -/
def Report.text (r : Report) : String :=
  match r.location with
  | some l => r.message.text ++ " [in " ++ l ++ "]"
  | none => r.message.text

/-- All that is told about a fault. -/
def ViewFault.report : ViewFault → Report
  | .listing path cause =>
    { kind := .listing
      message := .str s!"Unable to list templates in {path}: {cause.message}"
      component := .str "DirectoryLister", operation := .str "list"
      path := .str path, cause := some cause.problem.kind }
  | .reading path cause =>
    { kind := .read
      message := .str s!"Unable to read template {path}: {cause.message}"
      component := .str "FileReader", operation := .str "read"
      path := .str path, cause := some cause.kind }
  | .compiling path cause =>
    { kind := .compile
      message := .str s!"Unable to compile template {path}: {cause.message}"
      component := .str "TemplateCompiler", operation := .str "compile"
      path := .str path, details := .dict [(.str "line", .int cause.line)]
      cause := some cause.kind }
  | .source entry =>
    { kind := .configuration
      message := .str "A partials dir must be a string or config object"
      component := .str "PartialsAggregator", operation := .str "aggregate"
      details := .dict [(.str "entry", .str entry)] }
  | .invalidConfiguration _ =>
    { kind := .configuration, message := .str "Invalid configuration"
      cause := some "ValidationError" }
  | .missingConfiguration path =>
    { kind := .configuration, message := .str s!"Configuration file not found: {path}" }
  | .configurationFormat path =>
    { kind := .configuration, message := .str s!"Unsupported config file format: {path}" }
  | .malformedYaml path =>
    { kind := .configuration, message := .str s!"Invalid YAML format in {path}"
      cause := some "YAMLError" }
  | .malformedJson path cause =>
    { kind := .configuration, message := .str s!"Invalid JSON format in {path}: {cause.message}"
      cause := some "JSONDecodeError" }
  | .unreadableConfiguration path cause =>
    { kind := .configuration
      message := .str s!"Error reading config file {path}: {cause.message}"
      cause := some cause.problem.kind }
  | .configurationNotMapping path =>
    { kind := .configuration, message := .str s!"Configuration in {path} must be a mapping" }

/-- A value of a kind that the operation does not take. -/
inductive TypeFault where
  | notPath (found : String)
  | notMapping (found : String)
  | notMappingArgument (callee found : String)
  | keywordsNotStrings
  | notCallable (found : String)
  | notIterable (found : String)
  | notContainer (found : String)
  | notStringContainer (found : String)
  | badOperands (op left right : String)
  | notOrdered (op left right : String)
  | onlyConcatenates (left right : String)
  | badUnary (op found : String)
  | noLength (found : String)
  | notSerializable (found : String)
  | badKey (found : String)
  | unhashable (found : String)
  | tooManyArguments (function : String) (takes : Nat) (given : Nat)
  | missingArguments (function : String) (names : List String)
  | unexpectedKeyword (function keyword : String)
  | repeatedArgument (function name : String)
  | takesNoKeywords (function : String)
  | notText (position : Nat) (found : String)
  | tooFewFormatArguments
  | tooManyFormatArguments
  | formatNeedsMapping
  | formatNumber (conversion : Char) (wanted found : String)
  | notReal (found : String)
  | notCharacter
  | starNotInteger
  | notLevel (found : String)
  | notUnpackable (found : String)
  | notPair (index : Nat)
  | notInteger (found : String)
  deriving Repr, BEq, DecidableEq

/-- The wording of a type fault. -/
def TypeFault.message : TypeFault → String
  | .notPath found => s!"expected str, bytes or os.PathLike object, not {found}"
  | .notMapping found => s!"'{found}' object is not a mapping"
  | .notMappingArgument callee found =>
    s!"{callee}() argument after ** must be a mapping, not {found}"
  | .keywordsNotStrings => "keywords must be strings"
  | .notCallable found => s!"'{found}' object is not callable"
  | .notIterable found => s!"'{found}' object is not iterable"
  | .notContainer found => s!"argument of type '{found}' is not iterable"
  | .notStringContainer found => s!"'in <string>' requires string as left operand, not {found}"
  | .badOperands op left right =>
    s!"unsupported operand type(s) for {op}: '{left}' and '{right}'"
  | .notOrdered op left right =>
    s!"'{op}' not supported between instances of '{left}' and '{right}'"
  | .onlyConcatenates left right =>
    s!"can only concatenate {left} (not \"{right}\") to {left}"
  | .badUnary op found => s!"bad operand type for unary {op}: '{found}'"
  | .noLength found => s!"object of type '{found}' has no len()"
  | .notSerializable found => s!"Object of type {found} is not JSON serializable"
  | .badKey found => s!"keys must be str, int, float, bool or None, not {found}"
  | .unhashable found => s!"unhashable type: '{found}'"
  | .tooManyArguments function takes given =>
    let noun := if takes = 1 then "argument" else "arguments"
    let verb := if given = 1 then "was" else "were"
    s!"{function}() takes {takes} positional {noun} but {given} {verb} given"
  | .missingArguments function names =>
    let noun := if names.length = 1 then "argument" else "arguments"
    let quotedNames := names.map quotedString
    let enumeration := match quotedNames with
      | [a, b] => a ++ " and " ++ b
      | ns => String.intercalate ", " ns
    s!"{function}() missing {names.length} required positional {noun}: {enumeration}"
  | .unexpectedKeyword function keyword =>
    s!"{function}() got an unexpected keyword argument '{keyword}'"
  | .repeatedArgument function name =>
    s!"{function}() got multiple values for argument '{name}'"
  | .takesNoKeywords function => s!"{function}() takes no keyword arguments"
  | .notText position found =>
    s!"sequence item {position}: expected str instance, {found} found"
  | .tooFewFormatArguments => "not enough arguments for format string"
  | .tooManyFormatArguments => "not all arguments converted during string formatting"
  | .formatNeedsMapping => "format requires a mapping"
  | .formatNumber conversion wanted found =>
    s!"%{conversion.toString} format: {wanted} is required, not {found}"
  | .notReal found => s!"must be real number, not {found}"
  | .notCharacter => "%c requires int or char"
  | .starNotInteger => "* wants int"
  | .notPair index => s!"cannot convert dictionary update sequence element #{index} to a sequence"
  | .notUnpackable found => s!"cannot unpack non-iterable {found} object"
  | .notInteger found =>
    s!"int() argument must be a string, a bytes-like object or a real number, not '{found}'"
  | .notLevel found => s!"Level not an integer or a valid string: {found}"

/-- A value of the right kind that the operation cannot take. -/
inductive ValueFault where
  | noPath
  | nullByte
  | raised (text : String)
  | unknownLevel (text : String)
  | hugeInteger (digits : Nat)
  /-- An integer that is to be written has too many digits. -/
  | unwritableInteger
  | unsupportedFormat (c : Char) (index : Nat)
  | incompleteFormat
  | widthTooBig
  | precisionTooBig
  | zeroStep
  | tooFewValues (wanted found : Nat)
  | tooManyValues (wanted : Nat)
  | noPair (index length : Nat)
  | badDate (part : String)
  | badNumeral (base : Nat) (text : String)
  | badFloat (text : String)
  | hugeCodePoint
  deriving Repr, BEq, DecidableEq

/-- The wording of a value fault. -/
def ValueFault.message : ValueFault → String
  | .noPath => "no path specified"
  | .nullByte => "embedded null byte"
  | .raised text => text
  | .unknownLevel text => s!"Unknown level: {quotedString text}"
  | .hugeInteger digits => (Json.Fault.hugeInteger digits).message
  | .unwritableInteger =>
    "Exceeds the limit (4300 digits) for integer string conversion; use sys.set_int_max_str_digits() to increase the limit"
  | .unsupportedFormat c index =>
    let code := String.ofList (Nat.toDigits 16 c.toNat)
    let shown := if 31 ≤ c.toNat ∧ c.toNat ≤ 126 then c else '?'
    s!"unsupported format character '{shown.toString}' (0x{code}) at index {index}"
  | .incompleteFormat => "incomplete format"
  | .widthTooBig => "width too big"
  | .precisionTooBig => "precision too big"
  | .zeroStep => "slice step cannot be zero"
  | .tooFewValues wanted found =>
    s!"not enough values to unpack (expected {wanted}, got {found})"
  | .noPair index length =>
    s!"dictionary update sequence element #{index} has length {length}; 2 is required"
  | .badDate part => part
  | .badNumeral base text => s!"invalid literal for int() with base {base}: {quotedString text}"
  | .badFloat text => s!"could not convert string to float: {quotedString text}"
  | .hugeCodePoint => "chr() arg not in range(0x110000)"
  | .tooManyValues wanted => s!"too many values to unpack (expected {wanted})"

/-- Everything that can go wrong. -/
inductive Fault where
  | view (f : ViewFault)
  | validation (model : String) (faults : List FieldFault)
  | type (f : TypeFault)
  | value (f : ValueFault)
  | file (f : FileFault)
  | notText (e : Utf8Error)
  | partialNotFound (name : String)
  | unknownWord (word : String)
  | noCharacter
  | attribute (owner name : String)
  | moduleAttribute (module name : String)
  | noModule (name : String)
  | missing (m : Missing)
  | malformedTemplate (f : SyntaxFault)
  | unknownFilter (name : String)
  | unknownTest (name : String)
  /-- A field of a value was to be set that has no fields to set. -/
  | notNamespace
  | divisionByZero
  /-- An integer does not fit a word of the named type. -/
  | tooLarge (word : String)
  /-- An integer that is to be written as a character is the code point of none. -/
  | noCodePoint
  | recursion
  | unknownHome
  | noEngine
  | unreadableContext (path : String)
  | contextNotMapping (path : String)
  /-- A closing tag of marked-up text closes nothing that is open. -/
  | unmatchedTag (tag : String) (position : Nat)
  | nothingToClose (position : Nat)
  /-- The parameters of a tag cannot be read. -/
  | markup (text : String)
  | cancelled
  /-- The outcome of a task that has not ended was asked for. -/
  | unfinished
  /-- A fault of a computation that came from outside. -/
  | external (kind text : String)
  /-- Something that templates may ask for but that is not followed here, so that what
  it would come to is left open. -/
  | notFollowed (what : String)
  deriving Repr, BEq, DecidableEq

/-- The fault of a value that cannot be written as JSON. -/
def Fault.ofWrite : Json.WriteFault → Fault
  | .notSerializable kind => .type (.notSerializable kind)
  | .badKey kind => .type (.badKey kind)
  | .hugeInteger => .value .unwritableInteger

/-- The wording for a missing value. -/
def Missing.message : Missing → String
  | .name n => s!"{quotedString n} is undefined"
  | .attribute owner n => s!"{quotedString owner} has no attribute {quotedString n}"
  | .element owner key => s!"{owner} has no element {key}"
  | .told text => text

/-- The name of a fault's kind. -/
def Fault.kind : Fault → String
  | .view f => f.report.kind.name
  | .validation _ _ => "ValidationError"
  | .type _ => "TypeError"
  | .value _ => "ValueError"
  | .file f => f.problem.kind
  | .notText _ => "UnicodeDecodeError"
  | .partialNotFound _ => "KeyError"
  | .unknownWord _ => "KeyError"
  | .noCharacter => "IndexError"
  | .attribute _ _ => "AttributeError"
  | .moduleAttribute _ _ => "AttributeError"
  | .noModule _ => "ModuleNotFoundError"
  | .missing _ => "UndefinedError"
  | .malformedTemplate f => f.kind
  | .unknownFilter _ => "TemplateRuntimeError"
  | .unknownTest _ | .notNamespace => "TemplateRuntimeError"
  | .divisionByZero => "ZeroDivisionError"
  | .tooLarge _ | .noCodePoint => "OverflowError"
  | .recursion => "RecursionError"
  | .unknownHome => "RuntimeError"
  | .noEngine => "RuntimeError"
  | .unreadableContext _ => "BadParameter"
  | .contextNotMapping _ => "BadParameter"
  | .unmatchedTag _ _ | .nothingToClose _ | .markup _ => "MarkupError"
  | .cancelled => "CancelledError"
  | .unfinished => "InvalidStateError"
  | .external kind _ => kind
  | .notFollowed _ => "NotFollowed"

/-- The wording of a fault. -/
def Fault.message : Fault → String
  | .view f => f.report.text
  | .validation model _ => model
  | .type f => f.message
  | .value f => f.message
  | .file f => f.message
  | .notText e => utf8Message e
  | .partialNotFound name => quotedString ("Partial not found: " ++ name)
  | .unknownWord word => quotedString word
  | .noCharacter => "string index out of range"
  | .attribute owner name => s!"'{owner}' object has no attribute '{name}'"
  | .moduleAttribute module name => s!"module '{module}' has no attribute '{name}'"
  | .noModule name => s!"No module named {quotedString name}"
  | .missing m => m.message
  | .malformedTemplate f => f.message
  | .unknownFilter name => s!"No filter named {quotedString name} found."
  | .unknownTest name => s!"No test named {quotedString name} found."
  | .notNamespace => "cannot assign attribute on non-namespace object"
  | .divisionByZero => "division by zero"
  | .noCodePoint => "%c arg not in range(0x110000)"
  | .tooLarge word => s!"Python int too large to convert to C {word}"
  | .recursion => "maximum recursion depth exceeded"
  | .unknownHome => "Could not determine home directory."
  | .noEngine => "View engine is not set up for this application"
  | .unreadableContext path => s!"Cannot load context from {path}"
  | .contextNotMapping path => s!"Context in {path} must be a mapping"
  | .unmatchedTag tag position =>
    s!"closing tag '[{tag}]' at position {position} doesn't match any open tag"
  | .nothingToClose position =>
    s!"closing tag '[/]' at position {position} has nothing to close"
  | .markup text => text
  | .cancelled => ""
  | .unfinished => "Result is not set."
  | .external _ text => text
  | .notFollowed what => s!"{what} is not followed"

/-- The text of a path; a value that is none is refused. -/
def Value.asPath (v : Value) : Except Fault String :=
  match v.path? with
  | some p => .ok p
  | none => .error (.type (.notPath v.kind))

/-! ### Faults of templates and compilers -/

/-- If it fails, then not with a fault that this library reports about a view. -/
def TellsNoView {α : Type} (r : Except Fault α) : Prop := ∀ f, r ≠ .error (.view f)

section

variable {α β : Type} {r : Except Fault α}

theorem tellsNoView_ok (a : α) : TellsNoView (.ok a : Except Fault α) := fun _ h => nomatch h

theorem TellsNoView.bind {k : α → Except Fault β} (h : TellsNoView r)
    (hk : ∀ a, TellsNoView (k a)) : TellsNoView (r >>= k) := by
  cases r with
  | ok a => exact hk a
  | error f => exact fun v hv => h v (congrArg Except.error (Except.error.inj hv))

theorem TellsNoView.map (h : TellsNoView r) (k : α → β) : TellsNoView (r.map k) := by
  cases r with
  | ok a => exact tellsNoView_ok _
  | error f => exact fun v hv => h v (congrArg Except.error (Except.error.inj hv))

theorem tellsNoView_mapM {step : α → Except Fault β} (h : ∀ a, TellsNoView (step a))
    (as : List α) : TellsNoView (as.mapM step) := by
  induction as with
  | nil => exact tellsNoView_ok _
  | cons a as ih =>
    rw [List.mapM_cons]
    exact (h a).bind fun _ => ih.bind fun _ => tellsNoView_ok _

end

end CachedViews
