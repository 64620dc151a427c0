import CachedViews.Task.Schedule
import CachedViews.Task.LogLine
import CachedViews.Listing
import CachedViews.Options
import CachedViews.Source
import CachedViews.Config
import CachedViews.Layout
import CachedViews.Template.Environment

/-
# The work of an engine

An engine keeps three caches: listings of directories, texts of files, and
compiled templates. Its tasks are jobs (`Engine.Job`), which need three
operations of their surroundings: walking a directory, opening a file and
compiling a text. The result of a job is a `Product`.

Key definitions: `Engine`, `Handle`, `Engine.Job`, `Engine.Op`, `Engine.Product`,
`Engine.Note`, `Engine.signature`, `Engine.world`.
-/

namespace CachedViews

/-- A template in use: the value that is called, and the number of the compilation
it comes from, unless it was given. -/
structure Handle where
  serial : Option Nat
  value : Value
  deriving Inhabited

/-- The name of a template, if it has one. -/
def Handle.name? (h : Handle) : Option String :=
  match h.value with
  | .page _ p => p.name
  | _ => none

/-- An engine: its configuration, its compiler, what runs its templates, and its working
directory. -/
structure Engine where
  config : Config
  compiler : Template.Compiler := .pages
  runtime : Template.Runtime
  cwd : String
  deriving Inhabited

namespace Engine

/-- The caches of an engine. -/
inductive CacheName where
  | directory | file | template
  deriving Repr, BEq, DecidableEq

/-- The name of a cache in the log. -/
def CacheName.name : CacheName → String
  | .directory => "directory"
  | .file => "file"
  | .template => "template"

/-- The jobs of an engine. The jobs `walk`, `open` and `compile` are what the
caches hold; they are about resolved paths. -/
inductive Job where
  | list (dir : Value) (cached : Bool)
  | walk (dir : String)
  | read (file : Value) (cached : Bool)
  | open (file : String)
  | template (file : Value) (cached : Bool)
  | compile (file : String) (cached : Bool)
  | templates (dir : Value) (cached : Bool)
  | source (s : Source) (cached : Bool)
  | partials (sources : Value) (cached : Bool)
  | render (file context : Value) (options : RenderOptions)
  | view (file options : Value)

/-- The results of jobs. -/
inductive Product where
  | names (paths : List String)
  | text (s : String)
  | template (h : Handle)
  | templates (hs : List (String × Handle))
  /-- The templates of a source that brings its own. -/
  | given (templates : Value)
  | value (v : Value)
  deriving Inhabited

namespace Product

/-- The paths of a listing. -/
def asNames : Product → List String
  | names ps => ps
  | _ => []

/-- The text of a file. -/
def asText : Product → String
  | text s => s
  | _ => ""

/-- A template. -/
def asTemplate : Product → Handle
  | template h => h
  | _ => default

/-- Named templates. -/
def asTemplates : Product → List (String × Handle)
  | templates hs => hs
  | _ => []

/-- What a render gives. -/
def asValue : Product → Value
  | value v => v
  | _ => .null

end Product

/-- The operations that an engine needs. -/
inductive Op where
  | walk (dir : String)
  | open (file : String)
  | compile (file text : String)
  deriving Repr, BEq, DecidableEq

/-- The answers to operations. -/
def Op.Answer : Op → Type
  | .walk _ => Except FileFault Listing
  | .open _ => Except FileTree.OpenFault String
  | .compile _ _ => Except Fault Handle

/-- What programs note in the journal. -/
inductive Note where
  | cycle (path : String)
  | listed (count : Nat) (dir : String)
  | listingFailed (dir : String) (f : FileFault)
  | read (length : Nat) (file : String)
  | readingFailed (file : String) (f : ReadFault)
  | compiled (file : String)
  | compilingFailed (file : String) (f : SyntaxFault)
  | aggregated (templates sources : Nat)
  | variableReplaced (file : String)
  | layout (view : Value) (path : String)

/-- The log line of a note. -/
def Note.logLine : Note → LogLine
  | .cycle path => ⟨.debug, loggerOf "loader", s!"Skipping symlink cycle at {path}", none⟩
  | .listed count dir => ⟨.debug, loggerOf "loader", s!"Listed {count} templates in {dir}", none⟩
  | .listingFailed dir f =>
    ⟨.warning, loggerOf "loader", s!"Failed to list templates in {dir}: {f.message}", none⟩
  | .read length file =>
    ⟨.debug, loggerOf "loader", s!"Read {length} characters from {file}", none⟩
  | .readingFailed file f =>
    ⟨.warning, loggerOf "loader", s!"Failed to read template {file}: {f.message}", none⟩
  | .compiled file => ⟨.debug, loggerOf "compiler", s!"Compiled template {file}", none⟩
  | .compilingFailed file f =>
    ⟨.error, loggerOf "compiler", s!"Template syntax error in {file} line {f.line}: {f.text}", none⟩
  | .aggregated templates sources =>
    ⟨.debug, loggerOf "partials", s!"Aggregated {templates} partials from {sources} sources", none⟩
  | .variableReplaced file =>
    ⟨.debug, loggerOf "engine",
      s!"Template variable 'view' in {file} replaced by render metadata", none⟩
  | .layout view path =>
    ⟨.debug, loggerOf "engine", s!"Rendering layout {path}", some view⟩

/-- What the programs of an engine are about. -/
def signature : Signature where
  Cache := CacheName
  Job := Job
  Op := Op
  Answer := Op.Answer
  Result := Product
  Note := Note

instance : DecidableEq signature.Cache := inferInstanceAs (DecidableEq CacheName)

/-- Programs of an engine. -/
abbrev Work (α : Type) := Program signature α

/-- The tasks and caches of an engine. -/
abbrev Desk := Board signature

/-- The surroundings of an engine: a tree of files and its compiler. The template
that is compiled next gets the given number. -/
def world (e : Engine) (tree : FileTree) (serial : Nat) : World signature
  | .walk dir => CachedViews.walk tree e.cwd dir e.config.extname
  | .open file => tree.openText e.cwd file
  | .compile file text =>
    (e.compiler.compile e.config.compilerOptions file text).map fun v => ⟨some serial, v⟩

/-- The resolved form of a path, however it is given. -/
def keyOf (e : Engine) (path : Value) : Except Fault String :=
  path.asPath.map (Path.absolute e.cwd)

/-- Leave a note. -/
def note (n : Note) : Work Unit := Program.tell (σ := signature) n

/-- Leave several notes. -/
def noteAll : List Note → Work Unit
  | [] => pure ()
  | n :: ns => do
    note n
    noteAll ns

/-- Look a job up in a cache. -/
def cachedJob (c : CacheName) (key : String) (job : Job) : Work Product :=
  Program.cached (σ := signature) c key job

/-- The results of several jobs. -/
def allJobs (jobs : List Job) : Work (List Product) := Program.all (σ := signature) jobs

end Engine

end CachedViews
