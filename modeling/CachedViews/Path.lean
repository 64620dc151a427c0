import CachedViews.Path.Components

/-
# Paths

Operations on paths written as strings. A cache key is a path in resolved form
(`Path.absolute`): absolute, without empty components and without dots. Next to
these textual operations stands the tidy form of a path object
(`Path.tidy`), which drops empty components and single dots but keeps two dots.

Key definitions: `Path.absolute`, `Path.join`, `Path.along`,
`Path.extension`, `Path.relative`, `Path.tidy`.
-/

namespace CachedViews.Path

open CachedViews.Text

/-- The resolved form of a path, seen from the working directory. -/
def absolute (cwd path : String) : String :=
  String.ofList (Components.absolute cwd.toList path.toList)

/-- `path` below `directory`, unless it is absolute. -/
def join (directory path : String) : String :=
  String.ofList (Components.join directory.toList path.toList)

/-- The path along names: each is joined to the path that leads to it. -/
def along (directory : String) (names : List String) : String := names.foldl join directory

/-- The extension of the last component, with its dot. -/
def extension (path : String) : String := String.ofList (Components.extension path.toList)

/-- The text behind the last slash. -/
def base (path : String) : String := String.ofList (Components.base path.toList)

/-- The text before the last slash. -/
def parent (path : String) : String := String.ofList (Components.parent path.toList)

/-- The way from `start` to `path`. -/
def relative (cwd start path : String) : String :=
  String.ofList (Components.relative cwd.toList start.toList path.toList)

/-- Does the path start at the root? -/
def isAbsolute (path : String) : Bool := Components.isAbsolute path.toList

/-- The components that a path object keeps. -/
def keptComponents (path : List Char) : List (List Char) :=
  (splitOn '/' path).filter fun c => c ≠ [] && c ≠ ['.']

/-- The text of a path object: empty components and single dots are dropped, and
nothing at all is a single dot. -/
def tidyChars (path : List Char) : List Char :=
  match Components.root path ++ joinWith ['/'] (keptComponents path) with
  | [] => ['.']
  | text => text

/-- `tidyChars` on strings. -/
def tidy (path : String) : String := String.ofList (tidyChars path.toList)

/-- The suffix of a tidy path: what its last component has from its last dot on,
unless that dot is its first or its last character. -/
def suffix (path : String) : String :=
  let name := (keptComponents path.toList).getLast?.getD []
  let tail := (name.reverse.takeWhile (· ≠ '.')).reverse
  if name.contains '.' ∧ tail ≠ [] ∧ tail.length + 1 < name.length then
    String.ofList ('.' :: tail)
  else ""

/-- The path object one component up. -/
def tidyParent (path : String) : String :=
  let kept := (keptComponents path.toList).dropLast
  match Components.root path.toList ++ joinWith ['/'] kept with
  | [] => "."
  | text => String.ofList text

/-- The components of a resolved path as strings. -/
def components (path : String) : List String :=
  ((splitOn '/' path.toList).filter (· ≠ [])).map String.ofList

end CachedViews.Path
