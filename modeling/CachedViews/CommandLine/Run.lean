import CachedViews.CommandLine.Command
import CachedViews.Config.Loading
import CachedViews.Engine.Running
import CachedViews.Log.Setup
import CachedViews.Web.Site

/-
# Running commands

A command is run on a host and has an outcome: a text, a table, a site that is to
be served, or a reason why there is none of these. The outcome settles the exit
code: 0 if all is well, 1 for a fault, and 2 if the command was misused, which
includes a file of template variables that cannot be read. The library's own
faults are reported in a line; others are passed on.

Faults are escaped when they are reported. The cells of a table and the views
directory of a site are not: a tag in them that closes nothing is a fault.

The log is set up before the arguments of the command are read.

Key definitions: `Table`, `Table.shown`, `Outcome`, `Outcome.exitCode`, `Service`,
`Command.run`, `run`.
-/

namespace CachedViews.CommandLine

/-- The version of the program. -/
def programVersion : String := "1.0.0"

/-- A site and the address at which it is to be served. -/
structure Service where
  site : Web.Site
  host : String
  port : Int
  deriving Inhabited

/-- A table of two columns. -/
structure Table where
  title : String
  headings : String × String
  rows : List (String × String)
  deriving Repr, BEq, DecidableEq, Inhabited

/-- What is shown of a table of marked-up texts. They are read column by column,
and the title last. -/
def Table.shown (look : Console.Look) (t : Table) : Except Fault Table := do
  let first ← Console.shown look t.headings.1
  let firsts ← (t.rows.map Prod.fst).mapM (Console.shown look)
  let second ← Console.shown look t.headings.2
  let seconds ← (t.rows.map Prod.snd).mapM (Console.shown look)
  return ⟨← Console.shown look t.title, (first, second), firsts.zip seconds⟩

/-- What comes of a command. -/
inductive Outcome where
  | text (s : String)
  /-- A table, and what is shown of it. -/
  | table (t seen : Table)
  /-- A site is to be served; a line says so. -/
  | serving (s : Service) (line : String)
  /-- A fault that is reported in a line. -/
  | reported (line : String)
  | misused
  /-- A fault that is passed on. -/
  | fault (f : Fault)
  deriving Inhabited

/-- The exit code of an outcome. -/
def Outcome.exitCode : Outcome → Nat
  | text _ | table _ _ | serving _ _ => 0
  | reported _ | fault _ => 1
  | misused => 2

/-- The outcome of what could not be done. -/
def Outcome.ofFault : Fault → Outcome
  | .unreadableContext _ | .contextNotMapping _ => misused
  | f => fault f

/-- The outcome of a refusal. -/
def Outcome.ofRefusal : Refusal → Outcome
  | .usage => misused
  | .fault f => fault f

/-- The outcome of a command that was tried. The library's own faults are reported. -/
def Outcome.reporting (look : Console.Look) : Except Fault Outcome → Outcome
  | .ok o => o
  | .error (.view f) =>
    let text := String.ofList (Console.escape f.report.text.toList)
    match Console.line look ("[red]Error:[/red] " ++ text) with
    | .ok line => reported line
    | .error g => fault g
  | .error f => ofFault f

/-- The engine of a command. -/
def engineOf (h : Host) (c : EngineChoice) : Except Fault Engine := do
  let added := match c.extname with
    | none | some "" => []
    | some extname => [(Value.str "extname", Value.str extname)]
  let config ← Config.load h c.config Config.usualStart added
  return { config, runtime := h.runtime, cwd := h.cwd }

/-- The options of a view that is printed: the views directory, the template
variables on top of it, and the layout on top of these. -/
def viewOptions (views : String) (context : List (Value × Value)) (layout : LayoutChoice) :
    List (Value × Value) :=
  let settings := [(Value.str "settings", Value.dict [(.str "views", .str views)])]
  let options := Value.onTop settings context
  match layout with
  | .usual => options
  | .none => Value.insertEntry (.str "layout") .null options
  | .named name => Value.insertEntry (.str "layout") (.str name) options

/-- Print a view. -/
def RenderCommand.run (h : Host) (c : RenderCommand) : Except Fault Outcome := do
  let e ← engineOf h c.engine
  let context ← readContext h c.context
  let file := viewPath e.cwd e.config.extname c.views c.view
  let options := viewOptions c.views context c.layout
  let (outcome, _) := e.work h.files (.view (.str file) (.dict options)) {}
  return .text ((← outcome).asValue.text ++ "\n")

/-- The partials that views below a directory are rendered with. -/
def partialsOf (h : Host) (views : String) (e : Engine) : Except Fault (List (String × Handle)) :=
  (e.work h.files (.partials (e.partialsBelow (some views)) false) {}).1.map (·.asTemplates)

/-- The table of partials by name, with the names of their templates. -/
def partialsTable (found : List (String × Handle)) : Table where
  title := "Partials"
  headings := ("Name", "Template")
  rows := (found.map fun (name, t) => (name, t.name?.getD "")).mergeSort fun a b => !(b.1 < a.1)

/-- List the partials of views. -/
def runPartials (h : Host) (views : String) (c : EngineChoice) : Except Fault Outcome := do
  let table := partialsTable (← partialsOf h views (← engineOf h c))
  return .table table (← table.shown h.look)

/-- Serve views. Only the configuration is among what is reported. -/
def ServeCommand.run (h : Host) (c : ServeCommand) : Outcome :=
  match engineOf h c.engine with
  | .error f => Outcome.reporting h.look (.error f)
  | .ok e =>
    match readContext h c.context with
    | .error f => Outcome.ofFault f
    | .ok context =>
      let site := { Web.Site.create e c.views with
        defaultView := c.defaultView, cache := .bool c.cache, context }
      match Console.line h.look
        s!"template-views serving [cyan]{c.views}[/cyan] on http://{c.host}:{c.port}" with
      | .ok line => .serving ⟨site, c.host, c.port⟩ line
      | .error f => .fault f

/-- Run a command. -/
def Command.run (h : Host) : Command → Outcome
  | .render c => Outcome.reporting h.look (c.run h)
  | .partials views engine => Outcome.reporting h.look (runPartials h views engine)
  | .serve c => c.run h
  | .version => .text s!"template-views {programVersion}\n"

/-- The level of the log unless the arguments say otherwise. -/
def usualLevel : String := "WARNING"

/-- Run the program with its arguments. -/
def run (h : Host) (level : String) (args : List String) : Outcome :=
  match Invocation.read args with
  | .error r => Outcome.ofRefusal r
  | .ok i =>
    let choices : Log.LogChoices :=
      { level := .str (i.level.getD level), structured := i.structured
        given := !i.structured, version := .str programVersion }
    match (Log.setUp h.cwd choices { files := h.files }).1 with
    | .error f => .fault f
    | .ok () =>
      match i.command i.args with
      | .error r => Outcome.ofRefusal r
      | .ok command => command.run h

end CachedViews.CommandLine
