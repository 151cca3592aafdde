import SpanForest.Graph
import SpanForest.Proofs.Linking.Closure

/-! # Lawful graphs

    The fields of a graph are not independent of each other: the partition
    issues the handles of the nodes, and the count tells how many additions
    there were.

    * **`Lawful`**: how the fields belong together.
    * **`Lawful.addNode`**, **`Lawful.addEdge`**, **`Lawful.union`**: every
      operation on a lawful graph leaves a lawful graph.
    * **`HasNode`**, **`joinsNodes`**: the nodes of a graph, and the edges
      between them.
-/

namespace SpanForest

namespace Graph

variable {α : Type u} {ω : Type v} {g : Graph α ω}

/-- The fields of a graph belong together. -/
structure Lawful (g : Graph α ω) : Prop where
  /-- Every node is represented. -/
  wellLinked : g.partition.WellLinked
  /-- The partition has issued one handle for each node. -/
  size_eq : g.partition.size = g.nodeCount
  /-- Nodes carry the handles of their places. -/
  nodes_numbered : ∀ (k : Nat) (node : Node α), g.nodes[k]? = some node → node.id = ⟨k⟩
  /-- Edges carry the numbers of their places. -/
  edges_numbered : ∀ (k : Nat) (e : Edge ω), g.edges[k]? = some e → e.sequence = k
  /-- Every addition has been counted, up to the limit. -/
  count_eq : g.modificationCount = min (g.nodeCount + g.edgeCount) modificationLimit

theorem lawful_empty (tieBreak : TieBreak) : (empty tieBreak : Graph α ω).Lawful where
  wellLinked := Partition.wellLinked_empty
  size_eq := rfl
  nodes_numbered := fun k node h => by simp [empty] at h
  edges_numbered := fun k e h => by simp [empty] at h
  count_eq := rfl

/-- A count that stops at the limit still counts one addition correctly. -/
theorem min_min_add_one (n limit : Nat) : min (min n limit + 1) limit = min (n + 1) limit := by
  omega

namespace Lawful

theorem addNode (hg : g.Lawful) (data : α) : (g.addNode data).Lawful where
  wellLinked := hg.wellLinked.makeSet
  size_eq := by
    have hsize := hg.size_eq
    simp only [nodeCount] at hsize
    simp [Graph.addNode, countModification, nodeCount, hsize]
  nodes_numbered := by
    intro k node h
    simp only [Graph.addNode, countModification, Array.getElem?_push] at h
    split at h
    · rename_i hk
      obtain rfl := Option.some.inj h
      have hsize : g.partition.size = k := hg.size_eq.trans hk.symm
      simp [nextNode, Partition.nextId, hsize]
    · exact hg.nodes_numbered k node h
  edges_numbered := hg.edges_numbered
  count_eq := by
    have hcount := hg.count_eq
    simp only [nodeCount, edgeCount] at hcount
    simp only [Graph.addNode, countModification, nodeCount, edgeCount, Array.size_push, hcount,
      min_min_add_one, Nat.add_right_comm]

theorem addEdge (hg : g.Lawful) (first second : NodeId) (weight : ω) :
    (g.addEdge first second weight).Lawful where
  wellLinked := hg.wellLinked
  size_eq := hg.size_eq
  nodes_numbered := hg.nodes_numbered
  edges_numbered := by
    intro k e h
    simp only [Graph.addEdge, countModification, Array.getElem?_push] at h
    split at h
    · rename_i hk
      obtain rfl := Option.some.inj h
      exact hk.symm
    · exact hg.edges_numbered k e h
  count_eq := by
    have hcount := hg.count_eq
    simp only [nodeCount, edgeCount] at hcount
    simp only [Graph.addEdge, countModification, nodeCount, edgeCount, Array.size_push, hcount,
      min_min_add_one, Nat.add_assoc]

theorem union (hg : g.Lawful) (a b : NodeId) : (g.union a b).Lawful where
  wellLinked := hg.wellLinked.union a b
  size_eq := (Partition.size_union _ a b).trans hg.size_eq
  nodes_numbered := hg.nodes_numbered
  edges_numbered := hg.edges_numbered
  count_eq := hg.count_eq

/-- An edge is found under its number. -/
theorem getElem?_sequence {e : Edge ω} (hg : g.Lawful) (he : e ∈ g.edges) :
    g.edges[e.sequence]? = some e := by
  obtain ⟨k, hk⟩ := Array.mem_iff_getElem?.1 he
  rw [hg.edges_numbered k e hk]
  exact hk

/-- Read in order, the numbers of the edges are 0, 1, 2 and so on. -/
theorem map_sequence (hg : g.Lawful) :
    g.edges.toList.map Edge.sequence = List.range g.edgeCount := by
  apply List.ext_getElem
  · simp [edgeCount]
  · intro k hk hk'
    have hlt : k < g.edges.size := by simpa [edgeCount] using hk'
    rw [List.getElem_map, List.getElem_range]
    exact hg.edges_numbered k _ (by simp [hlt])

theorem sequence_lt {e : Edge ω} (hg : g.Lawful) (he : e ∈ g.edges.toList) :
    e.sequence < g.edgeCount := by
  have hmem : e.sequence ∈ g.edges.toList.map Edge.sequence := List.mem_map_of_mem he
  rw [hg.map_sequence] at hmem
  exact List.mem_range.1 hmem

end Lawful

/-! ## Nodes and the edges between them -/

/-- A handle is that of a node of the graph. -/
def HasNode (g : Graph α ω) (x : NodeId) : Prop := x.index < g.nodeCount

instance (g : Graph α ω) (x : NodeId) : Decidable (g.HasNode x) :=
  inferInstanceAs (Decidable (x.index < g.nodeCount))

/-- Whether both endpoints of an edge are nodes of the graph. -/
def joinsNodes (g : Graph α ω) (e : Edge ω) : Bool :=
  decide (g.HasNode e.first) && decide (g.HasNode e.second)

theorem joinsNodes_iff {e : Edge ω} :
    g.joinsNodes e = true ↔ g.HasNode e.first ∧ g.HasNode e.second := by
  simp [joinsNodes]

theorem Lawful.issued_iff (hg : g.Lawful) {x : NodeId} : g.partition.Issued x ↔ g.HasNode x := by
  rw [Partition.Issued, hg.size_eq, HasNode]

/-- A node is found under its handle. -/
theorem Lawful.exists_node? (hg : g.Lawful) {x : NodeId} (hx : g.HasNode x) :
    ∃ data, g.node? x = some ⟨x, data⟩ := by
  obtain ⟨⟨id, data⟩, hnode⟩ : ∃ node, g.node? x = some node := ⟨_, Array.getElem?_eq_getElem hx⟩
  obtain rfl : id = x := hg.nodes_numbered x.index ⟨id, data⟩ hnode
  exact ⟨data, hnode⟩

theorem Lawful.holds_eq_joinsNodes (hg : g.Lawful) (e : Edge ω) :
    g.partition.holds e = g.joinsNodes e := by
  simp [Partition.holds, joinsNodes, hg.issued_iff]

/-- Merging the endpoints of an edge between nodes puts them into one set. -/
theorem Lawful.classes_union_self {e : Edge ω} (hg : g.Lawful) (he : g.joinsNodes e = true) :
    (g.union e.first e.second).partition.classes e.first e.second := by
  have hheld : g.partition.holds e = true := by
    rw [hg.holds_eq_joinsNodes]
    exact he
  show (g.partition.union e.first e.second).classes e.first e.second
  rw [hg.wellLinked.classes_union hheld]
  exact linked_of_mem _ (List.mem_singleton_self e)

end Graph

end SpanForest
