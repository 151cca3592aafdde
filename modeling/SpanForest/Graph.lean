import SpanForest.Edge
import SpanForest.Notice
import SpanForest.Partition

/-! # Undirected weighted graphs

    A graph keeps its nodes and edges in the order of insertion, a partition
    of its nodes into sets, and a count of its additions.

    * **Nodes** carry a payload and have the handles that the partition
      issues, so node `i` has handle `i`.
    * **Edges** are not checked: an endpoint that is no node of the graph is
      foreign to the partition and stays alone in its set.
    * **The partition** starts with every node alone. Traversals merge sets
      in it, and so does `union`.
    * **The modification count** grows with every added node or edge, and
      with nothing else. Traversals compare it to notice additions.
-/

namespace SpanForest

/-- A node and its payload. -/
structure Node (α : Type u) where
  /-- The handle of the node. -/
  id : NodeId
  /-- What the node carries; it never changes. -/
  data : α
deriving DecidableEq

/-- A graph with payloads of type `α` and weights of type `ω`. -/
structure Graph (α : Type u) (ω : Type v) where
  /-- The nodes, in the order of insertion. -/
  nodes : Array (Node α) := #[]
  /-- The edges, in the order of insertion. -/
  edges : Array (Edge ω) := #[]
  /-- The sets that the nodes currently form. -/
  partition : Partition := .empty
  /-- How many nodes and edges have been added. -/
  modificationCount : Nat := 0
  /-- The tie-break of the traversals of this graph. -/
  tieBreak : TieBreak := default

namespace Graph

variable {α : Type u} {ω : Type v}

/-! ## Reading -/

/-- The graph without nodes and edges. -/
def empty (tieBreak : TieBreak := default) : Graph α ω := { tieBreak }

/-- The number of nodes. -/
def nodeCount (g : Graph α ω) : Nat := g.nodes.size

/-- The number of edges. -/
def edgeCount (g : Graph α ω) : Nat := g.edges.size

/-- The node with the given handle. -/
def node? (g : Graph α ω) (x : NodeId) : Option (Node α) := g.nodes[x.index]?

/-- The handle of the node that is added next. -/
def nextNode (g : Graph α ω) : NodeId := g.partition.nextId

/-- The edge that joins two nodes when it is added next. -/
def nextEdge (g : Graph α ω) (first second : NodeId) (weight : ω) : Edge ω :=
  ⟨first, second, weight, g.edgeCount⟩

/-! ## Adding -/

/-- The largest modification count: `2 ^ 64 - 1`. -/
def modificationLimit : Nat := 18446744073709551615

/-- Counts one more addition, up to the limit. -/
def countModification (g : Graph α ω) : Graph α ω :=
  { g with modificationCount := min (g.modificationCount + 1) modificationLimit }

/-- Adds a node, in a set of its own. -/
def addNode (g : Graph α ω) (data : α) : Graph α ω :=
  countModification
    { g with nodes := g.nodes.push ⟨g.nextNode, data⟩, partition := g.partition.makeSet }

/-- Adds an edge. -/
def addEdge (g : Graph α ω) (first second : NodeId) (weight : ω) : Graph α ω :=
  countModification { g with edges := g.edges.push (g.nextEdge first second weight) }

/-- The report of the latest addition. -/
def modified (g : Graph α ω) : Notice :=
  .graphModified g.nodeCount g.edgeCount g.modificationCount

/-! ## Merging -/

/-- Merges the sets of two nodes. -/
def union (g : Graph α ω) (a b : NodeId) : Graph α ω :=
  { g with partition := g.partition.union a b }

end Graph

end SpanForest
