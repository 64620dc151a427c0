import CachedViews.Yaml.Token
import CachedViews.Yaml.Scalar

/-
# Nodes of YAML documents

A document is one node: a scalar, a sequence or a mapping, each with a tag that
says what it is read as. A node without a tag gets one by its form. An alias
stands for the node its anchor was put on; an anchor must be unique and must
come before its aliases.

Key definitions: `Yaml.Tag`, `Yaml.Node`, `Yaml.Parsing`, `Yaml.parseDocument`.
-/

namespace CachedViews.Yaml

open CachedViews.Text

/-- What a node is read as. -/
inductive Tag where
  | scalar (form : Form)
  | sequence | mapping | set | orderedMapping | pairs
  | unknown (name : List Char)
  deriving Repr, BEq, DecidableEq

instance : Inhabited Tag := ⟨.sequence⟩

/-- The common part of the names of the known tags. -/
def tagBase : List Char := "tag:yaml.org,2002:".toList

/-- The known tags. -/
def knownTags : List (String × Tag) :=
  [("null", .scalar .null), ("bool", .scalar .bool), ("int", .scalar .int),
   ("float", .scalar .float), ("binary", .scalar .binary), ("timestamp", .scalar .moment),
   ("str", .scalar .text), ("merge", .scalar .merge), ("value", .scalar .value),
   ("seq", .sequence), ("map", .mapping), ("set", .set), ("omap", .orderedMapping),
   ("pairs", .pairs)]

/-- The tag of a full name. -/
def Tag.ofName (name : List Char) : Tag :=
  match dropStart? tagBase name with
  | some short => (knownTags.lookup (String.ofList short)).getD (.unknown name)
  | none => .unknown name

/-- A node. -/
inductive Node where
  | scalar (tag : Tag) (text : String)
  | sequence (tag : Tag) (items : List Node)
  | mapping (tag : Tag) (entries : List (Node × Node))
  deriving Inhabited

/-- The tag of a node. -/
def Node.tag : Node → Tag
  | scalar t _ => t
  | sequence t _ => t
  | mapping t _ => t

/-- What is left of the tokens, the handles of tags, and the anchors so far. The
node of an anchor is known once it is complete. -/
structure ParseState where
  rest : List Token
  handles : List (List Char × List Char) := []
  anchors : List (List Char × Option Node) := []

/-- Reading from the tokens that are left. -/
abbrev Parsing := StateT ParseState (Except Refusal)

/-- The handles that every document knows. -/
def commonHandles : List (List Char × List Char) := [(['!'], ['!']), (['!', '!'], tagBase)]

/-- Refuse the document. -/
def refuse {α : Type} : Parsing α := throw .malformed

/-- The next token, left in its place. -/
def peek : Parsing (Option Token) := return (← get).rest.head?

/-- Pass over the next token. -/
def skip : Parsing Unit := modify fun s => { s with rest := s.rest.tail }

/-- Is the next token one of these? -/
def isNext (ts : List Token) : Parsing Bool :=
  return match ← peek with
    | some t => ts.contains t
    | none => false

/-- The next token has to be this one. -/
def expect (t : Token) : Parsing Unit := do
  if ← isNext [t] then skip else refuse

/-- An empty node. -/
def emptyNode : Node := .scalar (.scalar .null) ""

/-- The tag that is written at a node, in full, unless it is just a mark. -/
inductive GivenTag where
  | none
  /-- The mark that a node is what its form says. -/
  | plain
  | named (t : Tag)

/-- The full tag of a handle and a suffix. -/
def resolveTag (handle : Option (List Char)) (suffix : List Char) : Parsing GivenTag := do
  let name ← match handle with
    | none => pure suffix
    | some h => match (← get).handles.lookup h with
      | some start => pure (start ++ suffix)
      | none => refuse
  return if name = ['!'] then .plain else .named (Tag.ofName name)

/-- What stands in front of the content of a node. -/
structure Properties where
  anchor : Option (List Char) := none
  tag : GivenTag := .none

/-- Are there any properties? -/
def Properties.present (p : Properties) : Bool :=
  p.anchor.isSome || match p.tag with
    | .none => false
    | _ => true

/-- Anchor and tag in either order. -/
def readProperties : Parsing Properties := do
  match ← peek with
  | some (.anchor name) =>
    skip
    match ← peek with
    | some (.tag handle suffix) =>
      skip
      return ⟨some name, ← resolveTag handle suffix⟩
    | _ => return { anchor := some name }
  | some (.tag handle suffix) =>
    skip
    match ← peek with
    | some (.anchor name) =>
      skip
      return ⟨some name, ← resolveTag handle suffix⟩
    | _ => return { tag := ← resolveTag handle suffix }
  | _ => return {}

/-- The tag of a scalar: the one given, or by its form if it is plain. -/
def scalarTag (given : GivenTag) (isPlain : Bool) (text : String) : Tag :=
  match given with
  | .named t => t
  | .plain => .scalar (formOf text)
  | .none => .scalar (if isPlain then formOf text else .text)

/-- The tag of a collection: the one given, or the usual one. -/
def collectionTag (given : GivenTag) (usual : Tag) : Tag :=
  match given with
  | .named t => t
  | _ => usual

/-- A new anchor whose node is not complete yet. -/
def declare (anchor : Option (List Char)) : Parsing Unit := do
  match anchor with
  | none => return
  | some name =>
    let s ← get
    if (s.anchors.lookup name).isSome then refuse
    else set { s with anchors := (name, none) :: s.anchors }

/-- The node of an anchor is complete. -/
def define (anchor : Option (List Char)) (n : Node) : Parsing Node := do
  match anchor with
  | none => return n
  | some name =>
    modify fun s => { s with anchors := (name, some n) :: s.anchors }
    return n

/-- The node an alias stands for. -/
def anchored (name : List Char) : Parsing Node := do
  match (← get).anchors.lookup name with
  | some (some n) => return n
  | _ => refuse

/-- Where a node stands: whether blocks are allowed, and whether a sequence may
begin without a deeper indentation. -/
structure Position where
  inBlock : Bool
  flush : Bool := false

mutual

/-- A node. -/
def parseNode : Nat → Position → Parsing Node
  | 0, _ => refuse
  | fuel + 1, position => do
    if let some (.alias name) ← peek then
      skip
      return ← anchored name
    let p ← readProperties
    declare p.anchor
    let next ← peek
    match next with
    | some .blockEntry =>
      if position.flush then
        define p.anchor (.sequence (collectionTag p.tag .sequence) (← parseFlush fuel))
      else parseEmpty p
    | some (.scalar text isPlain) =>
      skip
      let text := String.ofList text
      define p.anchor (.scalar (scalarTag p.tag isPlain text) text)
    | some .openSequence =>
      skip
      define p.anchor (.sequence (collectionTag p.tag .sequence) (← parseFlowItems fuel true))
    | some .openMapping =>
      skip
      define p.anchor (.mapping (collectionTag p.tag .mapping) (← parseFlowEntries fuel true))
    | some .blockSequence =>
      if position.inBlock then
        skip
        define p.anchor (.sequence (collectionTag p.tag .sequence) (← parseItems fuel))
      else parseEmpty p
    | some .blockMapping =>
      if position.inBlock then
        skip
        define p.anchor (.mapping (collectionTag p.tag .mapping) (← parseEntries fuel))
      else parseEmpty p
    | _ => parseEmpty p
where
  /-- A node of properties only. -/
  parseEmpty (p : Properties) : Parsing Node :=
    if p.present then define p.anchor (.scalar (scalarTag p.tag true "") "") else refuse

/-- The items of a block sequence and its end. -/
def parseItems : Nat → Parsing (List Node)
  | 0 => refuse
  | fuel + 1 => do
    match ← peek with
    | some .blockEntry =>
      skip
      let item ← if ← isNext [.blockEntry, .blockEnd] then pure emptyNode
        else parseNode fuel { inBlock := true }
      return item :: (← parseItems fuel)
    | _ =>
      expect .blockEnd
      return []

/-- The items of a sequence that is indented like the mapping around it. -/
def parseFlush : Nat → Parsing (List Node)
  | 0 => refuse
  | fuel + 1 => do
    match ← peek with
    | some .blockEntry =>
      skip
      let item ← if ← isNext [.blockEntry, .key, .value, .blockEnd] then pure emptyNode
        else parseNode fuel { inBlock := true }
      return item :: (← parseFlush fuel)
    | _ => return []

/-- The entries of a block mapping and its end. -/
def parseEntries : Nat → Parsing (List (Node × Node))
  | 0 => refuse
  | fuel + 1 => do
    if ← isNext [.key] then
      skip
      let key ← parsePart fuel
      let value ← if ← isNext [.value] then do
          skip
          parsePart fuel
        else pure emptyNode
      return (key, value) :: (← parseEntries fuel)
    else
      expect .blockEnd
      return []

/-- A key or a value of a block mapping, which may be missing. -/
def parsePart : Nat → Parsing Node
  | 0 => refuse
  | fuel + 1 => do
    if ← isNext [.key, .value, .blockEnd] then return emptyNode
    else parseNode fuel { inBlock := true, flush := true }

/-- The items between square brackets and the closing bracket. -/
def parseFlowItems : Nat → Bool → Parsing (List Node)
  | 0, _ => refuse
  | fuel + 1, isFirst => do
    if ← isNext [.closeSequence] then
      skip
      return []
    else
      if !isFirst then expect .flowEntry
      if ← isNext [.closeSequence] then
        skip
        return []
      else if ← isNext [.key] then
        skip
        let key ← parseFlowPart fuel [.value, .flowEntry, .closeSequence]
        let value ← if ← isNext [.value] then do
            skip
            parseFlowPart fuel [.flowEntry, .closeSequence]
          else pure emptyNode
        return .mapping .mapping [(key, value)] :: (← parseFlowItems fuel false)
      else
        let item ← parseNode fuel { inBlock := false }
        return item :: (← parseFlowItems fuel false)

/-- The entries between braces and the closing brace. -/
def parseFlowEntries : Nat → Bool → Parsing (List (Node × Node))
  | 0, _ => refuse
  | fuel + 1, isFirst => do
    if ← isNext [.closeMapping] then
      skip
      return []
    else
      if !isFirst then expect .flowEntry
      if ← isNext [.closeMapping] then
        skip
        return []
      else if ← isNext [.key] then
        skip
        let key ← parseFlowPart fuel [.value, .flowEntry, .closeMapping]
        let value ← if ← isNext [.value] then do
            skip
            parseFlowPart fuel [.flowEntry, .closeMapping]
          else pure emptyNode
        return (key, value) :: (← parseFlowEntries fuel false)
      else
        let key ← parseNode fuel { inBlock := false }
        return (key, emptyNode) :: (← parseFlowEntries fuel false)

/-- A key or a value between brackets, missing in front of these tokens. -/
def parseFlowPart : Nat → List Token → Parsing Node
  | 0, _ => refuse
  | fuel + 1, missing => do
    if ← isNext missing then return emptyNode else parseNode fuel { inBlock := false }

end

/-- The directives in front of a document: its version at most once, and each
handle at most once. -/
def readDirectives : Nat → Bool → Parsing Unit
  | 0, _ => return
  | fuel + 1, versioned => do
    match ← peek with
    | some (.directive d) =>
      skip
      match d with
      | .version major =>
        if versioned || major != 1 then refuse else readDirectives fuel true
      | .handle name expansion =>
        let s ← get
        if (s.handles.lookup name).isSome then refuse
        else
          set { s with handles := (name, expansion) :: s.handles }
          readDirectives fuel versioned
      | .other => readDirectives fuel versioned
    | _ => modify fun s => { s with handles := s.handles ++ commonHandles }

/-- Pass over the marks that end documents. -/
def skipEnds : Nat → Parsing Unit
  | 0 => return
  | fuel + 1 => do
    if ← isNext [.documentEnd] then
      skip
      skipEnds fuel

/-- The node of a document that begins with a mark. -/
def parseMarked (fuel : Nat) : Parsing Node := do
  readDirectives fuel false
  expect .documentStart
  match ← peek with
  | none | some (.directive _) | some .documentStart | some .documentEnd => return emptyNode
  | _ => parseNode fuel { inBlock := true }

/-- The single document of a text, if there is one. -/
def parseStream (fuel : Nat) : Parsing (Option Node) := do
  match ← peek with
  | none => return none
  | some (.directive _) | some .documentStart => finish (← parseMarked fuel)
  | _ =>
    modify fun s => { s with handles := commonHandles }
    finish (← parseNode fuel { inBlock := true })
where
  /-- Nothing but marks of its end may follow the document. -/
  finish (n : Node) : Parsing (Option Node) := do
    skipEnds fuel
    if (← peek).isNone then return some n else refuse

/-- The node of a text that is one document, or nothing for an empty text. -/
def parseDocument (s : List Char) : Except Refusal (Option Node) := do
  let ts ← tokens s
  let (n, _) ← (parseStream (4 * ts.length + 16)).run { rest := ts }
  return n

end CachedViews.Yaml
