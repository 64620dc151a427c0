import CachedViews.Engine.Work

/-
# Looking things up

Listing a directory, reading a file and compiling a template. Each of them can
use its cache: then the work is done by a task that is stored there, and asked
for under the resolved path. Compiling reads the file with the same choice.

Key definitions: `Engine.listing`, `Engine.reading`, `Engine.compiling`,
`Engine.template`.
-/

namespace CachedViews.Engine

/-- Walk a directory. -/
def walking (dir : String) : Work Product := do
  let answer : Except FileFault Listing ← Program.await (σ := signature) (Op.walk dir)
  match answer with
  | .ok l =>
    noteAll (l.cycles.map .cycle)
    note (.listed l.paths.length dir)
    return .names l.paths
  | .error f =>
    note (.listingFailed dir f)
    Program.fail (.view (.listing dir f))

/-- The templates of a directory. -/
def listing (dir : String) (cached : Bool) : Work Product :=
  if cached then cachedJob .directory dir (.walk dir) else walking dir

/-- Open a file and read it. -/
def opening (file : String) : Work Product := do
  let answer : Except FileTree.OpenFault String ← Program.await (σ := signature) (Op.open file)
  match answer with
  | .ok text =>
    note (.read text.length file)
    return .text text
  | .error (.unreadable f) =>
    note (.readingFailed file f)
    Program.fail (.view (.reading file f))
  | .error .nullByte => Program.fail (.value .nullByte)

/-- The text of a file. -/
def reading (file : String) (cached : Bool) : Work Product :=
  if cached then cachedJob .file file (.open file) else opening file

/-- Read a file and compile it. -/
def compiling (file : String) (cached : Bool) : Work Product := do
  let text ← reading file cached
  let answer : Except Fault Handle ← Program.query (σ := signature) (Op.compile file text.asText)
  match answer with
  | .ok h =>
    note (.compiled file)
    return .template h
  | .error (.malformedTemplate f) =>
    note (.compilingFailed file f)
    Program.fail (.view (.compiling file f))
  | .error f => Program.fail f

/-- The template of a file. -/
def template (file : String) (cached : Bool) : Work Product :=
  if cached then cachedJob .template file (.compile file true) else compiling file false

end CachedViews.Engine
