import CachedViews.Fault
import CachedViews.Path

/-
# Files of views and layouts

The name of a view or a layout becomes a file: a name without an extension of
its own gets the engine's, and the result is looked for below a directory. An
empty name means that there is no layout.

Key definitions: `withExtension`, `layoutFile`, `layoutPath`, `viewPath`.
-/

namespace CachedViews

/-- The name with the extension, unless it has one of its own. -/
def withExtension (extname name : String) : String :=
  if Path.extension name = "" then name ++ extname else name

/-- The file of a layout of the given name. -/
def layoutFile (cwd directory extname name : String) : String :=
  Path.absolute cwd (Path.join directory (withExtension extname name))

/-- The file of a layout, if there is to be one. -/
def layoutPath (cwd directory extname : String) : Option String → Option String
  | none | some "" => none
  | some name => some (layoutFile cwd directory extname name)

/-- `layoutPath` for values: anything that is taken for false is no layout. -/
def layoutPathOf (cwd : String) (directory layout : Value) (extname : String) :
    Except Fault Value := do
  if layout.isTrue then
    let name ← layout.asPath
    let directory ← directory.asPath
    return .str (layoutFile cwd directory extname name)
  else return .null

/-- The file of a view below the views directory. -/
def viewPath (cwd extname directory name : String) : String :=
  Path.absolute cwd (Path.join directory (withExtension extname name))

end CachedViews
