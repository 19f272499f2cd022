import LessonCalc.Yaml.Merge
import LessonCalc.Yaml.Value

/-!
# Documents from YAML

A node becomes a value by its tag.  Scalars are built where they are met.  A collection is met empty
and filled later, in the order in which collections are met, so of several faults the one that
stands nearest to the root is told.  What is built is a graph of values in which a collection can
hold itself; `documentOf` writes it out.
-/

namespace LessonCalc.Yaml

/-! ## Values -/

/-- A value that is built: a scalar, or a collection by the number of its node. -/
inductive Value where
  | scalar (document : Document)
  | collection (id : NodeId)
  deriving Repr, Inhabited

/-- What a collection is filled with. -/
inductive Filling where
  | list (items : List Value)
  | set (keys : List Document)
  | map (entries : List (Document × Value))
  | pairs (couples : List (Value × Value))
  deriving Repr, Inhabited

/-- The state of building values from the nodes of a text. -/
structure Builder where
  graph : Graph
  /-- How many parts the collections of the text name. -/
  parts : Nat
  /-- The values of the nodes that have been met. -/
  values : Array (Option Value)
  /-- What the collections hold that have been filled. -/
  fillings : Array Filling
  /-- The collections that have been met, in this order. -/
  met : Array NodeId := #[]
  deriving Repr

/-- A step that builds values, or fails. -/
abbrev Build (α : Type) := StateT Builder (Except Fault) α

namespace Build

/-- Fails with a fault. -/
def fail {α : Type} (fault : Fault) : Build α :=
  fun _ => .error fault

/-- The graph as it is now. -/
def graph : Build Graph :=
  fun s => .ok (s.graph, s)

/-! ## Meeting nodes -/

/-- The text of a node: its own if it is a scalar, and the text under the default key if it is a
mapping. -/
def textOf (g : Graph) : Nat → NodeId → Except Fault RawText
  | 0, _ => .error .tooDeep
  | fuel + 1, id =>
    match g.content id with
    | .scalar text => .ok text
    | .sequence _ => .error .malformed
    | .mapping entries =>
      match entries.find? fun (key, _) => g.tag key == .default with
      | some (_, value) => textOf g fuel value
      | none => .error .malformed

/-- The scalar that a node is under a tag.  A time needs a text of its own. -/
def scalarOf (g : Graph) (tag : Tag) (id : NodeId) : Except Fault Document := do
  let text ← textOf g (g.size + 1) id
  match tag, g.content id with
  | .timestamp, .mapping _ => .error .noTimeText
  | _, _ => tag.document text

/-- Whether the nodes of a tag are collections. -/
def isCollection : Tag → Bool
  | .sequence | .mapping | .set | .orderedMap | .pairs => true
  | _ => false

/-- The value of a node; one that is met for the first time is built. -/
def meet (id : NodeId) : Build Value :=
  fun s =>
    match s.values[id]?.join with
    | some value => .ok (value, s)
    | none =>
      let tag := s.graph.tag id
      if isCollection tag then
        let value := Value.collection id
        .ok (value, { s with values := s.values.set! id (some value), met := s.met.push id })
      else do
        let value := Value.scalar (← scalarOf s.graph tag id)
        return (value, { s with values := s.values.set! id (some value) })

/-- The values of nodes. -/
def meetAll : List NodeId → Build (List Value)
  | [] => return []
  | id :: ids => do
    let value ← meet id
    return value :: (← meetAll ids)

/-- The entries that nodes make, in addition to others.  A collection cannot be a key. -/
def meetEntries : List (Document × Value) → List (NodeId × NodeId) → Build (List (Document × Value))
  | done, [] => return done
  | done, (key, value) :: rest => do
    match ← meet key with
    | .collection _ => fail .malformed
    | .scalar key => meetEntries (Document.setKey done key (← meet value)) rest

/-- The pairs that a list of mappings with one entry each makes. -/
def meetPairs : List NodeId → Build (List (Value × Value))
  | [] => return []
  | id :: ids => do
    match (← graph).content id with
    | .mapping [(key, value)] =>
      let key ← meet key
      let value ← meet value
      return (key, value) :: (← meetPairs ids)
    | _ => fail .malformed

/-! ## Filling collections -/

/-- The entries of a mapping with those that it merges. -/
def mergedEntries (id : NodeId) : Build (List (Document × Value)) := do
  let s ← get
  match s.graph.content id with
  | .mapping _ =>
    let graph ← s.graph.merge s.parts id
    set { s with graph }
    meetEntries [] (graph.entries id)
  | _ => fail .malformed

/-- What a collection holds. -/
def fillingOf (id : NodeId) : Build Filling := do
  let g ← graph
  match g.tag id, g.content id with
  | .mapping, _ => return .map (← mergedEntries id)
  | .set, _ => return .set ((← mergedEntries id).map Prod.fst)
  | .sequence, .sequence items => return .list (← meetAll items)
  | .orderedMap, .sequence items => return .pairs (← meetPairs items)
  | .pairs, .sequence items => return .pairs (← meetPairs items)
  | _, _ => fail .malformed

/-- Fills the collections that have been met, from one of them on. -/
def fillFrom : Nat → Nat → Build Unit
  | 0, _ => return
  | fuel + 1, next => do
    match (← get).met[next]? with
    | none => return
    | some id =>
      let filling ← fillingOf id
      modify fun s => { s with fillings := s.fillings.set! id filling }
      fillFrom fuel (next + 1)

/-- Builds the value of the root of a graph. -/
def root (id : NodeId) : Build Value := do
  let value ← meet id
  fillFrom ((← graph).size + 1) 0
  return value

end Build

/-! ## Documents -/

/-- The values in a collection. -/
def Filling.parts : Filling → List Value
  | list items => items
  | set _ => []
  | map entries => entries.map Prod.snd
  | pairs couples => couples.flatMap fun (a, b) => [a, b]

/-- Every two documents as a list. -/
def pairUp : List Document → List Document
  | a :: b :: rest => .list [a, b] :: pairUp rest
  | _ => []

/-- The document of a collection with documents for the values in it. -/
def Filling.document (filling : Filling) (parts : List Document) : Document :=
  match filling with
  | list _ => .list parts
  | set keys => .ofKeys keys
  | map entries => .map ((entries.map Prod.fst).zip parts)
  | pairs _ => .list (pairUp parts)

/-- The documents of the collections that have been looked at; none for one that is endless. -/
abbrev Written := Array (Option (Option Document))

/-- A step that writes values out. -/
abbrev Write (α : Type) := StateM Written α

namespace Write

/-- The document of a value, if it has an end.  `path` are the collections around it: one that holds
itself has none. -/
def finite? (fillings : Array Filling) : Nat → List NodeId → Value → Write (Option Document)
  | _, _, .scalar d => return some d
  | 0, _, .collection _ => return none
  | fuel + 1, path, .collection id => do
    if let some known := (← get)[id]?.join then return known
    if path.contains id then return none
    let filling := fillings[id]?.getD (.list [])
    let parts ← filling.parts.mapM (finite? fillings fuel (id :: path))
    let document := (parts.mapM fun part => part).map filling.document
    modify (·.set! id (some document))
    return document

/-- The document of a value.  One that has no end is written out to a depth. -/
def document (fillings : Array Filling) : Nat → Value → Write Document
  | 0, value => return (← finite? fillings (fillings.size + 1) [] value).getD .endless
  | depth + 1, value => do
    match ← finite? fillings (fillings.size + 1) [] value, value with
    | some d, _ => return d
    | none, .scalar d => return d
    | none, .collection id =>
      let filling := fillings[id]?.getD (.list [])
      return filling.document (← filling.parts.mapM (document fillings depth))

end Write

/-- How deep an endless document is written out: as deep as any check looks. -/
def writtenDepth : Nat := 5

/-- The document of a value in a collection of fillings. -/
def documentOf (fillings : Array Filling) (value : Value) : Document :=
  (Write.document fillings writtenDepth value (Array.replicate fillings.size none)).1

/-- The document of a YAML text; null if the text has none. -/
def read (text : List Char) : Except Fault Document := do
  match ← graphOf text with
  | (none, _) => return .null
  | (some id, graph) =>
    let (value, s) ← (Build.root id).run
      { graph
        parts := graph.partCount
        values := Array.replicate graph.size none
        fillings := Array.replicate graph.size (.list []) }
    return documentOf s.fillings value

end LessonCalc.Yaml
