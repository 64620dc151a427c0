import CachedViews.Console
import CachedViews.FileTree
import CachedViews.Template.Render

/-
# The host of an engine

What an engine finds around it: a tree of files, the working directory, the
variables of the environment, the look of the console, and what runs templates. A
path that begins with a tilde starts at a home directory.

Key definitions: `Host`, `Host.expandHome`, `Host.exists?`, `Host.readText`.
-/

namespace CachedViews

open CachedViews.Text

/-- Files, working directory, home directory, environment variables, the home
directories of other users, the look of the console, and what runs templates. -/
structure Host where
  files : FileTree := {}
  cwd : String
  home : String
  environment : List (String × String) := []
  homes : List (String × String) := [("root", "/root"), ("nobody", "/nonexistent")]
  look : Console.Look := {}
  runtime : Template.Runtime
  deriving Inhabited

namespace Host

/-- The home directory that a first component names, `~` alone or with a user, as
it is written down. -/
def writtenHome (h : Host) : List Char → Option String
  | ['~'] => some ((h.environment.lookup "HOME").getD h.home)
  | _ :: user => h.homes.lookup (String.ofList user)
  | [] => none

/-- The home directory that a first component names. Slashes at its end do not
count, and it must not begin with a tilde itself. -/
def homeOf (h : Host) (component : List Char) : Except Fault String :=
  match h.writtenHome component with
  | none => .error .unknownHome
  | some written =>
    let bare := (written.toList.reverse.dropWhile (· = '/')).reverse
    if bare = [] then .ok "/"
    else if bare.head? = some '~' then .error .unknownHome
    else .ok (String.ofList bare)

/-- The tidy path in which a tilde at the beginning is replaced. -/
def expandHome (h : Host) (path : String) : Except Fault String := do
  let tidy := Path.tidy path
  if tidy.toList.head? = some '~' then
    match Path.keptComponents tidy.toList with
    | first :: more =>
      let home ← h.homeOf first
      return Path.tidy (Path.join home (String.ofList (joinWith ['/'] more)))
    | [] => return tidy
  else return tidy

/-- Does a path lead anywhere? A name that is too long is a fault. -/
def exists? (h : Host) (path : String) : Except Fault Bool :=
  match h.files.locate h.cwd path with
  | .ok _ => .ok true
  | .error .nameTooLong => .error (.file ⟨.nameTooLong, path⟩)
  | .error _ => .ok false

/-- The text of a file. -/
def readText (h : Host) (path : String) : Except ReadFault String := h.files.read h.cwd path

end Host

end CachedViews
