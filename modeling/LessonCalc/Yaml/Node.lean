import LessonCalc.Data.Entries
import LessonCalc.Yaml.Tag
import LessonCalc.Yaml.Token

/-!
# Nodes of a YAML text

A node is a scalar, a sequence or a mapping, with the tag that tells its type.  An alias stands for
the very node that its anchor was put on before, which can be a collection that is still being read:
the nodes of a text are a graph, in which a collection names its parts by their numbers.
-/

namespace LessonCalc.Yaml

/-! ## Graphs -/

/-- The number of a node in its graph. -/
abbrev NodeId := Nat

/-- What a node holds. -/
inductive Content where
  | scalar (text : RawText)
  | sequence (items : List NodeId)
  | mapping (entries : List (NodeId × NodeId))
  deriving Repr, DecidableEq, Inhabited

/-- A node. -/
structure Node where
  tag : Tag
  content : Content
  deriving Repr, DecidableEq, Inhabited

/-- The nodes of a text by their numbers. -/
abbrev Graph := Array Node

namespace Graph

/-- The tag of a node. -/
def tag (g : Graph) (id : NodeId) : Tag :=
  (g[id]?.map Node.tag).getD .unknown

/-- What a node holds. -/
def content (g : Graph) (id : NodeId) : Content :=
  (g[id]?.map Node.content).getD (.scalar "")

/-- The entries of a node that is a mapping. -/
def entries (g : Graph) (id : NodeId) : List (NodeId × NodeId) :=
  match g.content id with
  | .mapping entries => entries
  | _ => []

/-- The graph with another tag of a node. -/
def setTag (g : Graph) (id : NodeId) (tag : Tag) : Graph :=
  g.modify id fun node => { node with tag }

/-- The graph with another content of a node. -/
def setContent (g : Graph) (id : NodeId) (content : Content) : Graph :=
  g.modify id fun node => { node with content }

end Graph

/-! ## From tokens -/

/-- The tokens that are left, the nodes that were met, and those of them that have an anchor.  A
handle of tags stands for the front of their addresses. -/
structure Composer where
  scan : Scan
  graph : Graph := #[]
  anchors : Entries String NodeId := []
  handles : Entries String String := []
  deriving Repr

/-- A step that takes tokens, or fails. -/
abbrev Compose (α : Type) := StateT Composer (Except Fault) α

namespace Compose

/-- Fails with a fault. -/
def fail {α : Type} (fault : Fault) : Compose α :=
  fun _ => .error fault

/-- The next token, or none at the end of the text. -/
def peek : Compose (Option Token) :=
  fun s => do
    let scan ← s.scan.fill
    return (scan.queue.head?, { s with scan })

/-- Takes the next token. -/
def skip : Compose Unit :=
  fun s => do
    let scan ← s.scan.fill
    return ((), { s with scan := scan.take })

/-- Takes the next token if it is the given one. -/
def skipIf (token : Token) : Compose Bool := do
  if (← peek) = some token then
    skip
    return true
  else return false

/-- Takes the next token, which has to be the given one. -/
def expect (token : Token) : Compose Unit := do
  if !(← skipIf token) then fail .malformed

/-- Whether the next token is one of a list. -/
def isAtAny (tokens : List Token) : Compose Bool := do
  match ← peek with
  | some token => return tokens.contains token
  | none => return false

/-- Adds a node, under the name of its anchor if it has one; a name can be used once only. -/
def add (name : Option String) (tag : Tag) (content : Content) : Compose NodeId :=
  fun s =>
    let id := s.graph.size
    let graph := s.graph.push ⟨tag, content⟩
    match name with
    | none => .ok (id, { s with graph })
    | some name =>
      if Entries.contains s.anchors name then .error .malformed
      else .ok (id, { s with graph, anchors := s.anchors.insert name id })

/-- Adds the node where nothing stands. -/
def addEmpty : Compose NodeId :=
  add none .null (.scalar "")

/-- Tells what a node holds once it is read. -/
def finish (id : NodeId) (content : Content) : Compose NodeId :=
  fun s => .ok (id, { s with graph := s.graph.setContent id content })

/-- The node that an alias stands for. -/
def aliased (name : String) : Compose NodeId := do
  match Entries.get? (← get).anchors name with
  | some id => return id
  | none => fail .malformed

/-- Reads an anchor, if there is one. -/
def anchorName? : Compose (Option String) := do
  match ← peek with
  | some (.anchor name) =>
    skip
    return some name
  | _ => return none

/-- Reads a tag, if there is one. -/
def tag? : Compose (Option Token) := do
  match ← peek with
  | some (.tag handle suffix) =>
    skip
    return some (.tag handle suffix)
  | _ => return none

/-- The address of a tag. -/
def addressOf : Option Token → Compose (Option String)
  | some (.tag none suffix) => return some suffix
  | some (.tag (some handle) suffix) => do
    match Entries.get? (← get).handles handle with
    | some lead => return some (lead ++ suffix)
    | none => fail .malformed
  | _ => return none

/-- Reads an anchor and a tag, in either order: the name of the anchor and the address of the
tag. -/
def properties : Compose (Option String × Option String) := do
  match ← anchorName? with
  | some name =>
    let tag ← tag?
    return (some name, ← addressOf tag)
  | none =>
    match ← tag? with
    | some tag =>
      let name ← anchorName?
      return (name, ← addressOf (some tag))
    | none => return (none, none)

/-- The tag of a collection with an address or none. -/
def collectionTag (address : Option String) (otherwise : Tag) : Tag :=
  match address with
  | none | some "!" => otherwise
  | some address => .ofAddress address

/-- The tag of a scalar with an address or none. -/
def scalarTag (address : Option String) (text : RawText) (isPlain : Bool) : Tag :=
  match address with
  | some "!" => .ofText text.legible
  | some address => .ofAddress address
  | none => if isPlain then .ofText text.legible else .text

/-- How deep nodes may be nested. -/
def depthLimit : Nat := 480

/-- Which collections may stand at a place: those in brackets only, those told by indentation too,
or also items without an indentation of their own. -/
inductive Place where
  | flow
  | block
  | indentless
  deriving Repr, DecidableEq

mutual

/-- Reads a node. -/
def node : Nat → Nat → Place → Compose NodeId
  | 0, _, _ => fail .malformed
  | _ + 1, 0, _ => fail .tooDeep
  | fuel + 1, depth + 1, place => do
    if let some (.alias name) ← peek then
      skip
      return ← aliased name
    let (anchor, address) ← properties
    let sequence := add anchor (collectionTag address .sequence) (.sequence [])
    let mapping := add anchor (collectionTag address .mapping) (.mapping [])
    match ← peek with
    | some (.scalar text isPlain) =>
      skip
      add anchor (scalarTag address text isPlain) (.scalar text)
    | some .flowSequenceStart =>
      let id ← sequence
      skip
      finish id (.sequence (← flowItems fuel depth true))
    | some .flowMappingStart =>
      let id ← mapping
      skip
      finish id (.mapping (← flowEntries fuel depth true))
    | token =>
      if place = .indentless ∧ token = some .blockEntry then
        let id ← sequence
        finish id (.sequence (← plainItems fuel depth))
      else if place ≠ .flow ∧ token = some .blockSequenceStart then
        let id ← sequence
        skip
        finish id (.sequence (← blockItems fuel depth))
      else if place ≠ .flow ∧ token = some .blockMappingStart then
        let id ← mapping
        skip
        finish id (.mapping (← blockEntries fuel depth))
      else if anchor.isSome ∨ address.isSome then
        add anchor (scalarTag address "" true) (.scalar "")
      else fail .malformed

/-- Reads a node unless one of the given tokens comes next, before which nothing stands. -/
def nodeUnless : Nat → Nat → Place → List Token → Compose NodeId
  | 0, _, _, _ => fail .malformed
  | fuel + 1, depth, place, stops => do
    if ← isAtAny stops then addEmpty else node fuel depth place

/-- Reads the items of a sequence up to the end of its indentation. -/
def blockItems : Nat → Nat → Compose (List NodeId)
  | 0, _ => fail .malformed
  | fuel + 1, depth => do
    if ← skipIf .blockEntry then
      let item ← nodeUnless fuel depth .block [.blockEntry, .blockEnd]
      return item :: (← blockItems fuel depth)
    else
      expect .blockEnd
      return []

/-- Reads the items of a sequence without an indentation of its own. -/
def plainItems : Nat → Nat → Compose (List NodeId)
  | 0, _ => fail .malformed
  | fuel + 1, depth => do
    if ← skipIf .blockEntry then
      let item ← nodeUnless fuel depth .block [.blockEntry, .key, .value, .blockEnd]
      return item :: (← plainItems fuel depth)
    else return []

/-- Reads the entries of a mapping up to the end of its indentation. -/
def blockEntries : Nat → Nat → Compose (List (NodeId × NodeId))
  | 0, _ => fail .malformed
  | fuel + 1, depth => do
    if ← skipIf .key then
      let stops := [.key, .value, .blockEnd]
      let key ← nodeUnless fuel depth .indentless stops
      let value ←
        if ← skipIf .value then nodeUnless fuel depth .indentless stops else addEmpty
      return (key, value) :: (← blockEntries fuel depth)
    else
      expect .blockEnd
      return []

/-- Reads the items of a sequence up to its closing bracket.  A key makes an item a mapping of one
entry. -/
def flowItems : Nat → Nat → Bool → Compose (List NodeId)
  | 0, _, _ => fail .malformed
  | fuel + 1, depth, first => do
    if ← skipIf .flowSequenceEnd then return []
    if !first then
      expect .flowEntry
    if ← skipIf .flowSequenceEnd then return []
    if ← skipIf .key then
      let item ← add none .mapping (.mapping [])
      let inner := depth - 1
      let key ← nodeUnless fuel inner .flow [.value, .flowEntry, .flowSequenceEnd]
      let value ←
        if ← skipIf .value then nodeUnless fuel inner .flow [.flowEntry, .flowSequenceEnd]
        else addEmpty
      let item ← finish item (.mapping [(key, value)])
      return item :: (← flowItems fuel depth false)
    else
      let item ← node fuel depth .flow
      return item :: (← flowItems fuel depth false)

/-- Reads the entries of a mapping up to its closing brace. -/
def flowEntries : Nat → Nat → Bool → Compose (List (NodeId × NodeId))
  | 0, _, _ => fail .malformed
  | fuel + 1, depth, first => do
    if ← skipIf .flowMappingEnd then return []
    if !first then
      expect .flowEntry
    if ← skipIf .flowMappingEnd then return []
    if ← skipIf .key then
      let key ← nodeUnless fuel depth .flow [.value, .flowEntry, .flowMappingEnd]
      let value ←
        if ← skipIf .value then nodeUnless fuel depth .flow [.flowEntry, .flowMappingEnd]
        else addEmpty
      return (key, value) :: (← flowEntries fuel depth false)
    else
      let key ← node fuel depth .flow
      return (key, ← addEmpty) :: (← flowEntries fuel depth false)

end

/-! ## Streams -/

/-- The handles of tags that are always there. -/
def standardHandles : Entries String String :=
  [("!", "!"), ("!!", "tag:yaml.org,2002:")]

/-- Reads directives: the version may be given once and has to start with one, and a handle can be
given once. -/
def directives : Nat → Bool → Entries String String → Compose Unit
  | 0, _, _ => fail .malformed
  | fuel + 1, versioned, handles => do
    match ← peek with
    | some (.version major) =>
      skip
      if versioned ∨ major ≠ 1 then fail .malformed else directives fuel true handles
    | some (.handle name lead) =>
      skip
      if handles.contains name then fail .malformed
      else directives fuel versioned (handles.insert name lead)
    | some .unknownDirective =>
      skip
      directives fuel versioned handles
    | _ => modify fun s => { s with handles := standardHandles.insertAll handles }

/-- Whether the next token is a directive. -/
def isAtDirective : Compose Bool := do
  match ← peek with
  | some (.version _) | some (.handle _ _) | some .unknownDirective => return true
  | _ => return false

/-- Reads the content of a document behind its mark. -/
def content (fuel : Nat) : Compose NodeId := do
  let isEmpty := (← isAtDirective) || (← peek).isNone ||
    (← isAtAny [.documentStart, .documentEnd])
  if isEmpty then addEmpty else node fuel depthLimit .block

/-- Takes the marks that end a document. -/
def skipEnds : Nat → Compose Unit
  | 0 => return
  | fuel + 1 => do
    if ← skipIf .documentEnd then skipEnds fuel

/-- Reads a document whose mark may be preceded by directives. -/
def markedDocument (fuel : Nat) : Compose NodeId := do
  directives fuel false []
  expect .documentStart
  content fuel

/-- Reads a stream of at most one document: its root. -/
def stream (fuel : Nat) : Compose (Option NodeId) := do
  if (← peek).isNone then return none
  let root ←
    if (← isAtDirective) || (← isAtAny [.documentStart]) then markedDocument fuel
    else
      modify fun s => { s with handles := standardHandles }
      node fuel depthLimit .block
  skipEnds fuel
  if (← peek).isNone then return some root else fail .malformed

end Compose

/-- The nodes of a text, and the number of its root if it has any. -/
def graphOf (text : List Char) : Except Fault (Option NodeId × Graph) := do
  let scan ← Scan.ofText text
  let fuel := 12 * text.length + 60
  let (root, s) ← (Compose.stream fuel).run { scan }
  return (root, s.graph)

end LessonCalc.Yaml
