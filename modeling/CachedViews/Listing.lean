import CachedViews.FileTree

/-
# Listing templates

The files below a directory whose names end in an extension, as paths from the
directory, in order. Hidden names are passed over. Links are followed, so a
directory that is linked under two names is listed under both; but a link back
to a directory on the way from the start is passed over, which is judged by real
paths. So the real paths on a way are pairwise distinct, and no way is longer
than the number of directories. A directory on the way that cannot be opened, as
its path is too long, is a fault of the walk.

Key definitions: `Sight`, `leadOf`, `look`, `descend`, `Listing`, `walk`.
-/

namespace CachedViews

open CachedViews.Text

/-- Is a name hidden? -/
def isHidden (name : String) : Bool := name.toList.head? = some '.'

/-- What a walk comes upon, as names from where it starts: a template, or a link
back to a directory on the way. -/
inductive Sight where
  | template (names : List String)
  | cycle (names : List String)
  deriving Repr, BEq, DecidableEq

/-- What an entry of a directory leads to. -/
inductive Lead where
  /-- A directory with a real path. -/
  | directory (real : List String)
  | file
  | nothing
  deriving Repr, BEq, DecidableEq

/-- What a path leads to that was followed. -/
def Lead.of : Except FileProblem FileTree.Found → Lead
  | .ok ⟨real, .directory _⟩ => .directory real
  | .ok ⟨_, .file _⟩ => .file
  | _ => .nothing

/-- What an entry leads to, of the directory at a path with the real path `real`.
A directory is known for one at once; anything else is followed. -/
def leadOf (tree : FileTree) (cwd path : String) (real : List String) :
    String × FileNode → Lead
  | (name, .directory _) => .directory (real ++ [name])
  | (name, _) => .of (tree.locate cwd (Path.join path name))

/-- What is seen at several entries in order, unless one of them has a fault. -/
def sightsAt (look : String × FileNode → Except FileFault (List Sight)) :
    List (String × FileNode) → Except FileFault (List Sight)
  | [] => .ok []
  | entry :: more => do
    let seen ← look entry
    let rest ← sightsAt look more
    return seen ++ rest

/-- What is seen at an entry of the directory at the names `below` from where the walk starts,
with the real path `real`. `chain` holds the real paths of the directories on the way, and `down`
goes on below an entry that is a directory. -/
def look (tree : FileTree) (extname cwd directory : String)
    (down : List (List String) → List String → Except FileFault (List Sight))
    (chain : List (List String)) (below real : List String) (entry : String × FileNode) :
    Except FileFault (List Sight) :=
  let names := below ++ [entry.1]
  match leadOf tree cwd (Path.along directory below) real entry with
  | .directory real => if chain.contains real then .ok [.cycle names] else down (real :: chain) names
  | .file => .ok (if extname.toList.isSuffixOf entry.1.toList then [.template names] else [])
  | .nothing => .ok []

/-- What is below the directory at the names `below`, which has to be opened. `chain`
holds the real paths of the directories on the way, the directory itself included.
The bound is on how many more directories a way may enter. -/
def descend (tree : FileTree) (extname cwd directory : String) :
    Nat → List (List String) → List String → Except FileFault (List Sight)
  | 0, _, _ => .ok []
  | fuel + 1, chain, below =>
    let path := Path.along directory below
    match tree.locate cwd path with
    | .error problem => .error ⟨problem, path⟩
    | .ok found =>
      sightsAt (look tree extname cwd directory (descend tree extname cwd directory fuel) chain
        below found.real) (found.node.entries.filter fun entry => !isHidden entry.1)

/-- The templates of a directory in order, and the links that were passed over. -/
structure Listing where
  paths : List String
  cycles : List String
  deriving Repr, BEq, DecidableEq

/-- The templates among what a walk came upon, as paths. -/
def templatePaths (sights : List Sight) : List String :=
  (sights.filterMap fun
    | .template names => some (String.intercalate "/" names)
    | .cycle _ => none).mergeSort fun a b => !(b < a)

/-- The links that a walk passed over, as paths. -/
def cyclePaths (directory : String) (sights : List Sight) : List String :=
  sights.filterMap fun
    | .cycle names => some (Path.along directory names)
    | .template _ => none

/-- The templates below a directory, in the order of their code points. -/
def walk (tree : FileTree) (cwd directory extname : String) : Except FileFault Listing :=
  if tree.isDirectory cwd directory then
    match tree.locate cwd directory with
    | .error _ => .error ⟨.noSuchDirectory, directory⟩
    | .ok found => do
      let sights ←
        descend tree extname cwd directory (tree.root.directoryCount + 1) [found.real] []
      return ⟨templatePaths sights, cyclePaths directory sights⟩
  else .error ⟨.noSuchDirectory, directory⟩

end CachedViews
