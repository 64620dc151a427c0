import CachedViews.Fault
import CachedViews.Path

/-
# File trees

A file tree is a directory of named nodes: files with their octets, symbolic
links with their targets, and directories. A path is followed name by name; a
link on the way is replaced by its target, at most `linkLimit` times. Following
a path gives the real path of what is found, that is the names from the root to
it without links, and the node itself.

Key definitions: `FileNode`, `FileNode.at?`, `FileTree.locate`, `FileTree.read`,
`FileTree.write`, `FileTree.remove`.
-/

namespace CachedViews

open CachedViews.Text

/-- A file, a link or a directory. -/
inductive FileNode where
  | file (content : List UInt8)
  | link (target : String)
  | directory (entries : List (String × FileNode))
  deriving Inhabited

namespace FileNode

/-- The entries of a directory, none for any other node. -/
def entries : FileNode → List (String × FileNode)
  | directory es => es
  | _ => []

/-- Is the node a directory? -/
def isDirectory : FileNode → Bool
  | directory _ => true
  | _ => false

/-- Is the node a file? -/
def isFile : FileNode → Bool
  | file _ => true
  | _ => false

/-- The node behind a list of names, links not followed. -/
def at? (node : FileNode) : List String → Option FileNode
  | [] => some node
  | name :: more =>
    match node.entries.lookup name with
    | some child => child.at? more
    | none => none

/-- Put a node under a name, in the place of the one that has the name. -/
def put (name : String) (node : FileNode) : List (String × FileNode) → List (String × FileNode)
  | [] => [(name, node)]
  | (n, old) :: more => if n = name then (n, node) :: more else (n, old) :: put name node more

/-- The tree with a node at a real path. Missing directories on the way are
made; a node on the way that is no directory is left alone. -/
def putAt (new : FileNode) : List String → FileNode → FileNode
  | [], _ => new
  | name :: more, directory es =>
    directory (put name (putAt new more ((es.lookup name).getD (directory []))) es)
  | _ :: _, node => node

/-- The tree without the node at a real path. -/
def removeAt : List String → FileNode → FileNode
  | [name], directory es => directory (es.filter fun e => e.1 ≠ name)
  | name :: more, directory es =>
    match es.lookup name with
    | some child => directory (put name (removeAt more child) es)
    | none => directory es
  | _, node => node

mutual

/-- How many directories a tree has. -/
def directoryCount : FileNode → Nat
  | directory es => directoryCounts es + 1
  | _ => 0

/-- How many directories are in the trees of entries. -/
def directoryCounts : List (String × FileNode) → Nat
  | [] => 0
  | (_, n) :: es => directoryCount n + directoryCounts es

end

end FileNode

/-- A tree of files, seen from its root directory. -/
structure FileTree where
  root : FileNode := .directory []
  deriving Inhabited

namespace FileTree

/-- How many links are replaced before a path is given up. -/
def linkLimit : Nat := 40

/-- The most octets that a name may have. -/
def nameLimit : Nat := 255

/-- The most octets that a path may have which is handed to the operating system. -/
def pathLimit : Nat := 4095

/-- A path followed: the real path of a node, and the node. -/
structure Found where
  real : List String
  node : FileNode
  deriving Inhabited

/-- Follow names from a node whose real path is given. `jump` goes on at the
target of a link with the names that are left. -/
def follow (tree : FileTree) (jump : List String → List String → Except FileProblem Found)
    (real : List String) (node : FileNode) : List String → Except FileProblem Found
  | [] => .ok ⟨real, node⟩
  | name :: more =>
    match node with
    | .directory es =>
      if name = "" ∨ name = "." then follow tree jump real node more
      else if name = ".." then
        let up := real.dropLast
        follow tree jump up ((tree.root.at? up).getD tree.root) more
      else if nameLimit < name.utf8ByteSize then .error .nameTooLong
      else match es.lookup name with
        | none => .error .noSuchFile
        | some (.link target) =>
          let names := (splitOn '/' target.toList).map String.ofList
          if Path.isAbsolute target then jump [] (names ++ more) else jump real (names ++ more)
        | some child => follow tree jump (real ++ [name]) child more
    | _ => .error .notDirectory

/-- Follow names from a directory, replacing a limited number of links. -/
def followFrom (tree : FileTree) : Nat → List String → List String → Except FileProblem Found
  | 0, real, names =>
    follow tree (fun _ _ => .error .tooManyLinks) real ((tree.root.at? real).getD tree.root) names
  | links + 1, real, names =>
    follow tree (followFrom tree links) real ((tree.root.at? real).getD tree.root) names

/-- The names of a path that is seen from the working directory. -/
def names (cwd path : String) : List String :=
  (splitOn '/' (Path.join cwd path).toList).map String.ofList

/-- What is found at the end of a list of names from the root. -/
def locateNames (tree : FileTree) (names : List String) : Except FileProblem Found :=
  followFrom tree linkLimit [] names

/-- What is found at a path. The limit is on the path as it is given, not on what it stands
for from the root. The empty path leads nowhere. -/
def locate (tree : FileTree) (cwd path : String) : Except FileProblem Found :=
  if path = "" then .error .noSuchFile
  else if pathLimit < path.utf8ByteSize then .error .nameTooLong
  else locateNames tree (names cwd path)

/-- Does a path lead to a directory? -/
def isDirectory (tree : FileTree) (cwd path : String) : Bool :=
  match tree.locate cwd path with
  | .ok found => found.node.isDirectory && !path.toList.contains '\x00'
  | .error _ => false

/-- The octets of the file at a path. -/
def readOctets (tree : FileTree) (cwd path : String) : Except FileFault (List UInt8) :=
  match tree.locate cwd path with
  | .error problem => .error ⟨problem, path⟩
  | .ok found =>
    match found.node with
    | .file content => .ok content
    | .directory _ => .error ⟨.isDirectory, path⟩
    | .link _ => .error ⟨.tooManyLinks, path⟩

/-- The text that octets write, with its line ends unified. -/
def decodeText (octets : List UInt8) : Except ReadFault String :=
  match decodeUtf8 octets with
  | .ok s => .ok (String.ofList (unifyNewlines s))
  | .error e => .error (.notText e)

/-- The text of the file at a path, with its line ends unified. -/
def read (tree : FileTree) (cwd path : String) : Except ReadFault String :=
  match tree.readOctets cwd path with
  | .error f => .error (.file f)
  | .ok octets => decodeText octets

/-- Why a file could not be opened as text. -/
inductive OpenFault where
  | unreadable (f : ReadFault)
  /-- The path holds a null character. -/
  | nullByte
  deriving Repr, BEq, DecidableEq

/-- Open the file at a path and read its text. -/
def openText (tree : FileTree) (cwd path : String) : Except OpenFault String :=
  if path.toList.contains '\x00' then .error .nullByte
  else match tree.read cwd path with
    | .ok text => .ok text
    | .error f => .error (.unreadable f)

/-! ### Changes -/

/-- The real path that names lead to, where names that lead nowhere stand for
themselves. -/
def realOf (tree : FileTree) : Nat → List String → List String
  | 0, ns => ns
  | fuel + 1, ns =>
    match tree.locateNames ns with
    | .ok found => found.real
    | .error _ =>
      match ns.getLast? with
      | none => []
      | some name =>
        let up := tree.realOf fuel ns.dropLast
        match tree.root.at? (up ++ [name]) with
        | some (.link target) =>
          if Path.isAbsolute target then
            tree.realOf fuel ((splitOn '/' target.toList).map String.ofList)
          else tree.realOf fuel (up ++ (splitOn '/' target.toList).map String.ofList)
        | _ => if name = "" ∨ name = "." then up else if name = ".." then up.dropLast else up ++ [name]

/-- The tree with a node at a path, links on the way followed. -/
def write (tree : FileTree) (cwd path : String) (node : FileNode) : FileTree :=
  let ns := names cwd path
  let real := match node with
    | .link _ =>
      tree.realOf (ns.length + linkLimit) ns.dropLast ++ (ns.getLast?.map fun n => [n]).getD []
    | _ => tree.realOf (ns.length + linkLimit) ns
  match node, tree.root.at? real with
  | .directory [], some (.directory _) => tree
  | _, _ => ⟨FileNode.putAt node real tree.root⟩

/-- The tree without what stands at a path; a link goes, not its target. -/
def remove (tree : FileTree) (cwd path : String) : FileTree :=
  let ns := (names cwd path).filter (· ≠ "")
  match ns.getLast? with
  | none => tree
  | some name =>
    ⟨tree.root.removeAt (tree.realOf (ns.length + linkLimit) ns.dropLast ++ [name])⟩

end FileTree

end CachedViews
