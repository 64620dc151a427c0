import CachedViews.CommandLine.Run

/-
# The program

The program reads the files below its working directory, and those that its
arguments name elsewhere, runs its command on them, and prints the outcome.
While a site is served, each line of standard input is a request, a method and
a target; the files are read anew for every request.
-/

namespace CachedViews.CommandLine

/-- The paths below which the program looks for files: the working directory, and
what the arguments, or the parts of them behind an equals sign, name. -/
def placesOf (cwd : String) (args : List String) : List String :=
  let named := args.flatMap fun arg =>
    [arg, String.ofList ((arg.toList.dropWhile (· ≠ '=')).drop 1)]
  cwd :: (named.filter (· ≠ "")).map fun path => Path.absolute cwd path

/-- Read files into a tree. A path whose real path is another one is a link; a path
without a real path leads nowhere and is left out. -/
partial def readFiles (tree : FileTree) : List String → IO FileTree
  | [] => return tree
  | path :: more => do
    if (FileNode.at? tree.root (Path.components path)).isSome then readFiles tree more
    else
      match ← (IO.FS.realPath path).toBaseIO with
      | .error _ => readFiles tree more
      | .ok real =>
        if real.toString ≠ path then
          readFiles (tree.write "/" path (.link real.toString)) (real.toString :: more)
        else if ← real.isDir then
          let below := (← real.readDir).toList.map fun entry => Path.join path entry.fileName
          readFiles (tree.write "/" path (.directory [])) (below ++ more)
        else
          let content ← IO.FS.readBinFile real
          readFiles (tree.write "/" path (.file content.data.toList)) more

/-- The variables that the program knows. -/
def readVariables : IO (List (String × String)) := do
  let names := "HOME" :: Config.variableSettings.map (Config.variableName Config.usualStart)
  return (← names.mapM fun name => return (name, ← IO.getEnv name)).filterMap fun (name, value) =>
    value.map fun v => (name, v)

/-- Answer a request for every line of input. -/
partial def answerLines (input : IO.FS.Stream) (site : Web.Site) (read : IO FileTree)
    (desk : Engine.Desk) : IO Unit := do
  let line ← input.getLine
  if line.isEmpty then return
  let request : Web.Request := match Text.splitOn ' ' line.trimAscii.toString.toList with
    | [target] => { target := String.ofList target }
    | method :: target :: _ => ⟨String.ofList method, String.ofList target⟩
    | [] => {}
  let (outcome, desk) := Web.answer (some site) (← read) request desk
  let response : Web.Response := match outcome with
    | .ok r => r
    | .error (.refused e) => e.response
    | .error (.fault f) => ⟨500, "text/plain", s!"{f.kind}: {f.message}"⟩
  IO.println s!"{response.status} {response.type}"
  IO.println response.text
  (← IO.getStdout).flush
  answerLines input site read desk

/-- How the program is used. -/
def usage : String := "Usage: template-views [--log-level LEVEL] [--json-logs] COMMAND

  render VIEW  [-v VIEWS] [-c FILE] [-l LAYOUT | --no-layout] [--config FILE] [--extname EXT]
  partials     [-v VIEWS] [--config FILE] [--extname EXT]
  serve        [-v VIEWS] [--host HOST] [-p PORT] [--default-view VIEW] [-c FILE] [--no-cache]
               [--config FILE]
  version"

/-- What runs the templates of the program: no function comes from outside, and the
nesting is what a thousand calls inside each other leave room for, of which a
template that another one calls takes six. -/
def templateRuntime : Template.Runtime := .closed 160

end CachedViews.CommandLine

open CachedViews CommandLine in
/-- Run the program and tell its exit code. -/
def main (args : List String) : IO UInt32 := do
  let cwd := (← IO.currentDir).toString
  let read := readFiles {} (placesOf cwd args)
  let environment ← readVariables
  let home := (environment.lookup "HOME").getD "/"
  let level := (← IO.getEnv "LOG_LEVEL").getD usualLevel
  let host : Host := { files := ← read, cwd, home, environment, runtime := templateRuntime }
  let outcome := CommandLine.run host level args
  match outcome with
  | .text s | .reported s => IO.print s
  | .table _ seen =>
    IO.println seen.title
    for (name, template) in seen.rows do
      IO.println s!"{name}  {template}"
  | .misused => IO.eprintln usage
  | .fault f => IO.eprintln s!"{f.kind}: {f.message}"
  | .serving s line =>
    IO.print line
    (← IO.getStdout).flush
    answerLines (← IO.getStdin) s.site read {}
  return UInt32.ofNat outcome.exitCode
