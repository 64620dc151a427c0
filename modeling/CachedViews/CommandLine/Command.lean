import CachedViews.CommandLine.Arguments
import CachedViews.Path

/-
# Commands

The program has four commands: `render` prints a view, `partials` lists the
partials of views, `serve` answers requests with views, and `version`. Choices
about the log stand in front of the command.

Key definitions: `Command`, `Command.read`, `Invocation`, `Invocation.read`.
-/

namespace CachedViews.CommandLine

open CachedViews.Text

/-- What the arguments say about the engine. -/
structure EngineChoice where
  config : Option String := none
  extname : Option String := none
  deriving Repr, BEq, DecidableEq, Inhabited

/-- The layout that the arguments ask for. -/
inductive LayoutChoice where
  | usual
  | none
  | named (name : String)
  deriving Repr, BEq, DecidableEq, Inhabited

/-- A view to be printed. -/
structure RenderCommand where
  view : String
  views : String
  context : Option String := none
  layout : LayoutChoice := .usual
  engine : EngineChoice := {}
  deriving Repr, BEq, DecidableEq, Inhabited

/-- A site to be served. -/
structure ServeCommand where
  views : String
  host : String
  port : Int
  defaultView : String
  context : Option String := none
  cache : Bool := true
  engine : EngineChoice := {}
  deriving Repr, BEq, DecidableEq, Inhabited

/-- The commands. -/
inductive Command where
  | render (c : RenderCommand)
  | partials (views : String) (engine : EngineChoice)
  | serve (c : ServeCommand)
  | version
  deriving Repr, BEq, DecidableEq, Inhabited

/-! ### Options -/

/-- The views directory. -/
def viewsOption : OptionSpec := ⟨"views", ["--views", "-v"], .path⟩

/-- A file with template variables. -/
def contextOption : OptionSpec := ⟨"context", ["--context", "-c"], .path⟩

/-- A configuration file. -/
def configOption : OptionSpec := ⟨"config", ["--config"], .path⟩

/-- The extension of template files. -/
def extnameOption : OptionSpec := ⟨"extname", ["--extname"], .text⟩

/-- The options of `render`. -/
def renderOptions : List OptionSpec :=
  [viewsOption, contextOption, ⟨"layout", ["--layout", "-l"], .text⟩,
   ⟨"no-layout", ["--no-layout"], .flag⟩, configOption, extnameOption]

/-- The options of `partials`. -/
def partialsOptions : List OptionSpec := [viewsOption, configOption, extnameOption]

/-- The options of `serve`. -/
def serveOptions : List OptionSpec :=
  [viewsOption, ⟨"host", ["--host"], .text⟩, ⟨"port", ["--port", "-p"], .integer⟩,
   ⟨"default-view", ["--default-view"], .text⟩, contextOption,
   ⟨"no-cache", ["--no-cache"], .flag⟩, configOption]

/-- The options in front of the command. -/
def globalOptions : List OptionSpec :=
  [⟨"log-level", ["--log-level"], .text⟩, ⟨"json-logs", ["--json-logs"], .flag⟩]

/-! ### Reading -/

namespace Arguments

/-- The tidy path that an option gives. -/
def path? (a : Arguments) (key : String) : Option String := (a.value? key).map Path.tidy

/-- The views directory. -/
def views (a : Arguments) : String := (a.path? "views").getD "views"

/-- What is said about the engine. -/
def engine (a : Arguments) : EngineChoice := ⟨a.path? "config", a.value? "extname"⟩

/-- The layout that is asked for. An empty name is as good as none given. -/
def layout (a : Arguments) : LayoutChoice :=
  if a.isSet "no-layout" then .none
  else match a.value? "layout" with
    | some "" | Option.none => .usual
    | some name => .named name

end Arguments

namespace Command

/-- The command of a name, with its arguments. The arguments are not read before
the name is known. -/
def read? (name : String) : Option (List String → Except Refusal Command) :=
  match name with
  | "render" => some fun args => do
    let a ← Arguments.read renderOptions 1 args
    return .render ⟨a.words.headD "", a.views, a.path? "context", a.layout, a.engine⟩
  | "partials" => some fun args => do
    let a ← Arguments.read partialsOptions 0 args
    return .partials a.views a.engine
  | "serve" => some fun args => do
    let a ← Arguments.read serveOptions 0 args
    let port := ((a.value? "port").bind fun p => integer? p.toList).getD 3000
    return .serve ⟨a.views, (a.value? "host").getD "127.0.0.1", port,
      (a.value? "default-view").getD "home", a.path? "context", !a.isSet "no-cache", a.engine⟩
  | "version" => some fun args => do
    let _ ← Arguments.read [] 0 args
    return .version
  | _ => none

end Command

/-- The choices about the log and the arguments of the command. -/
structure Invocation where
  level : Option String
  structured : Bool
  command : List String → Except Refusal Command
  args : List String

/-- Read what stands in front of the command, and the name of the command. -/
def Invocation.read (args : List String) : Except Refusal Invocation :=
  match Arguments.scan globalOptions false args with
  | none => .error .usage
  | some a =>
    match a.words with
    | [] => .error .usage
    | name :: args =>
      match Command.read? name with
      | none => .error .usage
      | some command => .ok ⟨a.value? "log-level", a.isSet "json-logs", command, args⟩

end CachedViews.CommandLine
