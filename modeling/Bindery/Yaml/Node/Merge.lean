import Bindery.Yaml.Node.Basic

/-!
# Merged mappings

A mapping takes over the entries of the mappings under its merge keys.  They
stand in front of its own entries, so that its own ones win.  Of several
mappings in a list under one merge key the first one wins, so the last one
comes first.  `flatten` does this for one mapping, and first for those it takes
over.

A merge key is removed before its value is looked at.  So a mapping that merges
itself takes over what it has without the key, and each step leaves one merge
key less in the graph.
-/

namespace Bindery.Yaml
namespace Graph

/-- The entries around the first merge key, and its value. -/
def splitMerge? (g : Graph) :
    List (NodeId × NodeId) → Option (List (NodeId × NodeId) × NodeId × List (NodeId × NodeId))
  | [] => none
  | (key, value) :: entries =>
      if (g.node key).tag = .merge then some ([], value, entries)
      else
        (splitMerge? g entries).map fun (before, found, after) =>
          ((key, value) :: before, found, after)

/-- The keys of default values become texts. -/
def settleKeys (g : Graph) (entries : List (NodeId × NodeId)) : Graph :=
  entries.foldl (fun g entry =>
    g.update entry.1 fun n => if n.tag = .value then { n with tag := .str } else n) g

/-- A fault of the value under a merge key of the mapping that starts at a place. -/
def mergeFault (start : Mark) (problem : Problem) (n : Node) : Error :=
  .fault ⟨some .mappingValue, some start, problem, n.start⟩

/-- Merges what the mapping with a number asks for, with `added` merged already. -/
def flattenWith :
    (fuel : Nat) → (id : NodeId) → (added : List (NodeId × NodeId)) →
      StateT Graph (Except Error) Unit
  | 0, _, _ => pure ()
  | fuel + 1, id, added => do
      let g ← get
      let start := (g.node id).start
      let own := (g.node id).entries
      match g.splitMerge? own with
      | none => set ((g.settleKeys own).fill id (.mapping (added ++ own)))
      | some (before, value, after) => do
          set (g.fill id (.mapping (before ++ after)))
          let entriesOf (item : NodeId) : StateT Graph (Except Error) (List (NodeId × NodeId)) := do
            flattenWith fuel item []
            return ((← get).node item).entries
          match (g.node value).content with
          | .mapping _ => do
              let new ← entriesOf value
              flattenWith fuel id (added ++ new)
          | .sequence items => do
              let lists ← items.mapM fun item => do
                let n := (← get).node item
                if n.kind = .mapping then entriesOf item
                else throw (mergeFault start (.notMergeableItem n.kind) n)
              flattenWith fuel id (added ++ lists.reverse.flatten)
          | .scalar _ => throw (mergeFault start (.notMergeable .scalar) (g.node value))

/-- The number of merge keys. -/
def mergeCount (g : Graph) : Nat :=
  (g.nodes.toList.flatMap fun n => n.entries.filter fun e => (g.node e.1).tag = .merge).length

/-- Merges what the mapping with a number asks for. -/
def flatten (id : NodeId) : StateT Graph (Except Error) Unit := do
  flattenWith ((← get).mergeCount + 1) id []

end Graph
end Bindery.Yaml
