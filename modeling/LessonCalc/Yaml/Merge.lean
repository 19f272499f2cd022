import LessonCalc.Yaml.Node

/-!
# Merging mappings

The value of a merge key is a mapping, or a sequence of mappings, whose entries the mapping around
it takes over.  They come before its own entries, those of later mappings of a sequence first, so
that own entries and earlier mappings replace them.  A mapping can merge itself, since every merge
key is taken out before its value is looked at.
-/

namespace LessonCalc.Yaml

namespace Graph

/-- How many parts the collections of a graph name. -/
def partCount (g : Graph) : Nat :=
  g.foldl
    (fun count node =>
      match node.content with
      | .scalar _ => count
      | .sequence items => count + items.length
      | .mapping entries => count + entries.length) 0

/-- Takes the first merge key out of a mapping: the value under it. -/
def takeMergeKey? (g : Graph) (id : NodeId) : Option (NodeId × Graph) :=
  let isMerge : NodeId × NodeId → Bool := fun (key, _) => g.tag key == .merge
  let entries := g.entries id
  (entries.find? isMerge).map fun (_, value) =>
    (value, g.setContent id (.mapping (entries.eraseP isMerge)))

/-- Makes the keys of a mapping that stand for its default texts. -/
def nameDefaultKeys (g : Graph) (id : NodeId) : Graph :=
  (g.entries id).foldl
    (fun g (key, _) => if g.tag key == .default then g.setTag key .text else g) g

/-- Puts entries in front of those of a mapping. -/
def prepend (g : Graph) (id : NodeId) (entries : List (NodeId × NodeId)) : Graph :=
  if entries.isEmpty then g else g.setContent id (.mapping (entries ++ g.entries id))

mutual

/-- Merges what a mapping merges, behind the given entries. -/
def mergeBehind : Nat → NodeId → List (NodeId × NodeId) → Graph → Except Fault Graph
  | 0, _, _, _ => .error .tooDeep
  | fuel + 1, id, merged, g =>
    match g.takeMergeKey? id with
    | none => .ok ((g.nameDefaultKeys id).prepend id merged)
    | some (value, g) => do
      let (more, g) ← mergedEntries fuel value g
      mergeBehind fuel id (merged ++ more) g

/-- The entries that the value of a merge key brings. -/
def mergedEntries : Nat → NodeId → Graph → Except Fault (List (NodeId × NodeId) × Graph)
  | 0, _, _ => .error .tooDeep
  | fuel + 1, value, g =>
    match g.content value with
    | .mapping _ => do
      let g ← mergeBehind fuel value [] g
      return (g.entries value, g)
    | .sequence items => mergedItems fuel items [] g
    | .scalar _ => .error .malformed

/-- The entries that mappings bring, in front of those of earlier ones. -/
def mergedItems : Nat → List NodeId → List (NodeId × NodeId) → Graph →
    Except Fault (List (NodeId × NodeId) × Graph)
  | 0, _, _, _ => .error .tooDeep
  | _ + 1, [], earlier, g => .ok (earlier, g)
  | fuel + 1, item :: items, earlier, g =>
    match g.content item with
    | .mapping _ => do
      let g ← mergeBehind fuel item [] g
      mergedItems fuel items (g.entries item ++ earlier) g
    | _ => .error .malformed

end

/-- Merges what a mapping merges; `parts` is how many parts the graph had at first. -/
def merge (g : Graph) (parts : Nat) (id : NodeId) : Except Fault Graph :=
  mergeBehind (3 * (parts + 2) * (parts + 2)) id [] g

end Graph

end LessonCalc.Yaml
