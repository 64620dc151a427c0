import CachedViews.Engine.Lookup

/-
# Partials

All templates of all sources in one mapping. The sources are worked on at the
same time and merged in their order: a later source wins over an earlier one.
All sources are named before any work begins, so an entry that is no source is
refused at once.

Key definitions: `Engine.templatesBelow`, `Engine.entriesOf`, `Engine.merge`,
`Engine.aggregate`.
-/

namespace CachedViews.Engine

/-- The templates below a directory, by their paths from it. -/
def templatesBelow (e : Engine) (dir : Value) (cached : Bool) : Work Product := do
  let key ← Program.ofExcept (e.keyOf dir)
  let names := (← listing key cached).asNames
  let found ← allJobs (names.map fun f => .template (.str (Path.join dir.text f)) cached)
  return .templates (names.zip (found.map Product.asTemplate))

/-- The templates of a source. -/
def templatesOf (e : Engine) (s : Source) (cached : Bool) : Work Product :=
  match s with
  | .directory path _ => e.templatesBelow (.str path) cached
  | .templates (.future v) _ => pure (.given v)
  | .templates v _ => pure (.given v)

/-- The sources that a value lists: its items, or itself. -/
def entriesOf : Value → List Value
  | .list xs => xs
  | .tuple xs => xs
  | v => [v]

/-- The named templates of a mapping. -/
def givenTemplates : List (Value × Value) → Except Fault (List (String × Handle))
  | [] => .ok []
  | (k, v) :: es =>
    match k.string? with
    | some name => do return (name, ⟨none, v⟩) :: (← givenTemplates es)
    | none => .error (.attribute k.kind "replace")

/-- The named templates that a source came up with. -/
def namedTemplates : Product → Except Fault (List (String × Handle))
  | .templates hs => .ok hs
  | .given (.dict es) => givenTemplates es
  | .given v => .error (.attribute v.kind "items")
  | _ => .ok []

/-- The templates of several sources under their names as partials. -/
def merge (extname : String) : List (Source × Product) → List (String × Handle) →
    Except Fault (List (String × Handle))
  | [], merged => .ok merged
  | (s, p) :: more, merged => do
    let found ← namedTemplates p
    merge extname more (found.foldl (fun hs (path, h) =>
      Value.insertField (partialName path s.namesp extname) h hs) merged)

/-- The partials of all sources that a value lists. -/
def aggregate (e : Engine) (sources : Value) (cached : Bool) : Work Product := do
  let resolved ← Program.ofExcept ((entriesOf sources).mapM Source.ofEntry)
  let products ← allJobs (resolved.map fun s => .source s cached)
  let merged ← Program.ofExcept (merge e.config.extname (resolved.zip products) [])
  note (.aggregated merged.length resolved.length)
  return .templates merged

end CachedViews.Engine
