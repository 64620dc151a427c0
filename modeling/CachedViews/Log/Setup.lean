import CachedViews.Log.Record
import CachedViews.FileTree
import CachedViews.Text.CaseMap

/-
# Setting up the log

The root logger has a level and handlers. Setting it up takes away all handlers
and adds new ones: one for the console, or a given one, and one for a file if
a file is named. The directories of the file are made when they are missing.

Key definitions: `RootLogger`, `LogChoices`, `levelOf`, `setUp`.
-/

namespace CachedViews

open CachedViews.Text

namespace FileTree

/-- Make the directory at a path, in a directory that exists. -/
def makeDirectory (tree : FileTree) (cwd path : String) : Except FileFault FileTree :=
  let ns := names cwd path
  if pathLimit < path.utf8ByteSize then .error ⟨.nameTooLong, path⟩
  else match tree.locateNames ns.dropLast with
    | .error problem => .error ⟨problem, path⟩
    | .ok up =>
      match ns.getLast? with
      | none => .error ⟨.fileExists, path⟩
      | some name =>
        if name = "" ∨ name = "." ∨ name = ".." then .error ⟨.fileExists, path⟩
        else if !up.node.isDirectory then .error ⟨.notDirectory, path⟩
        else if nameLimit < name.utf8ByteSize then .error ⟨.nameTooLong, path⟩
        else if (up.node.entries.lookup name).isSome then .error ⟨.fileExists, path⟩
        else .ok ⟨FileNode.putAt (.directory []) (up.real ++ [name]) tree.root⟩

/-- Make the directory at a tidy path and those above it, unless they exist. -/
def makeDirectories (tree : FileTree) (cwd : String) : Nat → String → Except FileFault FileTree
  | 0, path => .error ⟨.noSuchFile, path⟩
  | fuel + 1, path =>
    let settle (tree : FileTree) : Except FileFault FileTree → Except FileFault FileTree
      | .ok made => .ok made
      | .error f => if tree.isDirectory cwd path then .ok tree else .error f
    match tree.makeDirectory cwd path with
    | .error ⟨.noSuchFile, _⟩ =>
      let up := Path.tidyParent path
      if up = path then .error ⟨.noSuchFile, path⟩
      else do
        let tree ← makeDirectories tree cwd fuel up
        settle tree (tree.makeDirectory cwd path)
    | made => settle tree made

/-- Open a file for further lines, and make it if it is missing. -/
def openForAppend (tree : FileTree) (cwd path : String) : Except FileFault FileTree :=
  match tree.locate cwd path with
  | .ok found =>
    if found.node.isDirectory then .error ⟨.isDirectory, path⟩ else .ok tree
  | .error .noSuchFile =>
    let made := tree.write cwd path (.file [])
    match tree.locateNames (names cwd path).dropLast with
    | .ok up => if up.node.isDirectory then .ok made else .error ⟨.notDirectory, path⟩
    | .error problem => .error ⟨problem, path⟩
  | .error problem => .error ⟨problem, path⟩

end FileTree

namespace Log

/-- Where records go. -/
inductive Sink where
  | console
  /-- A handler that came from outside. -/
  | given
  /-- A file that is replaced when it has grown. -/
  | file (path : String)
  deriving Repr, BEq, DecidableEq

/-- Where records go, and how they are written, if that was set. -/
structure Handler where
  sink : Sink
  format : Option LogFormat

/-- The level and the handlers of the root logger. -/
structure RootLogger where
  level : Int := 30
  handlers : List Handler := [⟨.given, none⟩]
  deriving Inhabited

/-- How large a log file grows, in octets. -/
def fileLimit : Nat := 10485760

/-- How many old log files are kept. -/
def fileBackups : Nat := 5

/-- What the log is to be like. -/
structure LogChoices where
  level : Value := .str "INFO"
  structured : Bool := false
  file : Value := .null
  /-- Is a handler given instead of the console? -/
  given : Bool := false
  version : Value := .str "1.0.0"

/-- The levels by their names. -/
def levels : List (String × Int) :=
  [("CRITICAL", 50), ("FATAL", 50), ("ERROR", 40), ("WARNING", 30), ("WARN", 30), ("INFO", 20),
   ("DEBUG", 10), ("NOTSET", 0)]

/-- The format that one name stands for. -/
def formatText : String := "%(levelname)s:%(name)s:%(message)s"

/-- The table of styles that another name stands for. -/
def stylesText : String :=
  "\x7b'%': (<class 'logging.PercentStyle'>, '%(levelname)s:%(name)s:%(message)s'), " ++
  "'\x7b': (<class 'logging.StrFormatStyle'>, '\x7blevelname\x7d:\x7bname\x7d:\x7bmessage\x7d'), " ++
  "'$': (<class 'logging.StringTemplateStyle'>, " ++
  "'$\x7blevelname\x7d:$\x7bname\x7d:$\x7bmessage\x7d')\x7d"

/-- The names that stand for something else than a level. -/
def otherNames : List (String × Fault) :=
  [("BASIC_FORMAT", .value (.unknownLevel formatText)), ("_STYLES", .type (.notLevel stylesText))]

/-- The level of a name in any case. A name that is unknown stands for `INFO`. -/
def levelOf (v : Value) : Except Fault Int :=
  match v.string? with
  | none => .error (.attribute v.kind "upper")
  | some name =>
    let name := String.ofList (upper name.toList)
    match otherNames.lookup name with
    | some f => .error f
    | none => .ok ((levels.lookup name).getD 20)

/-- The root logger, the files, and what was printed. -/
structure LogState where
  root : RootLogger := {}
  files : FileTree
  printed : List String := []

/-- Open the log file, with its directories. -/
def openLogFile (cwd : String) (file : Value) (tree : FileTree) :
    Except Fault (String × FileTree) := do
  let path ← file.asPath
  let up := Path.tidyParent (Path.tidy path)
  if path.toList.contains '\x00' then .error (.value .nullByte)
  else
    let tree ← if up = "." then .ok tree
      else match tree.makeDirectories cwd (path.length + 1) up with
        | .ok tree => .ok tree
        | .error f => .error (.file f)
    let full := Path.absolute cwd path
    match tree.openForAppend cwd full with
    | .ok tree => return (full, tree)
    | .error f => .error (.file f)

/-- The handlers of choices, each with its format. A given handler keeps its own,
unless records are structured. -/
def handlersOf (c : LogChoices) (file : Option String) : List Handler :=
  let format := if c.structured then LogFormat.structured c.version else .plain
  let first : Handler :=
    if c.given then ⟨.given, if c.structured then some format else none⟩
    else ⟨.console, some format⟩
  first :: (file.map fun path => ⟨.file path, some format⟩).toList

/-- Set the log up. The level is set and the old handlers are gone before the file
is opened; so a fault of the file leaves no handlers. -/
def setUp (cwd : String) (c : LogChoices) (s : LogState) : Except Fault Unit × LogState :=
  match levelOf c.level with
  | .error f => (.error f, s)
  | .ok level =>
    let bare : LogState := { s with root := ⟨level, []⟩ }
    let opened : Except Fault (Option String × FileTree) :=
      if c.file.isTrue then (openLogFile cwd c.file s.files).map fun (path, tree) => (some path, tree)
      else .ok (none, s.files)
    match opened with
    | .error f => (.error f, bare)
    | .ok (file, files) =>
      let printed := if !c.given ∧ level ≤ 10 then
          [s!"Logging configured with level: {c.level.text}"]
        else []
      (.ok (), { root := ⟨level, handlersOf c file⟩, files, printed := s.printed ++ printed })

end Log

end CachedViews
