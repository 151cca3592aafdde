import SpanForest.Proofs.Summary.Labels
import SpanForest.Proofs.Traversal.Unmerged

/-! # What a summary says

    The summary of a drained graph is about its edges by label. When nothing
    was merged before, when all edges join nodes, and when every node has a
    label of its own that some edge mentions, the edges by label determine
    all that the summary counts and selects.

    * **`Describes`**: what a summary says of edges by label.
    * **`describes_ofForest`**: the summary of a drained graph describes its
      edges.
-/

namespace SpanForest.Summary

variable {g : Graph String Int} {forest : Forest Int} {place : String → NodeId}

/-- A summary describes edges by label: it counts their labels, the edges, and
    the components of the labels, and it has the edges that Kruskal's selection
    keeps. Each of these joins two components. -/
structure Describes (tieBreak : TieBreak) (edges : List SummaryEdge) (s : Summary) : Prop where
  /-- There is a node for each label. -/
  nodeCount_eq : s.nodeCount = (labelsOf edges).ncard
  /-- All edges are counted. -/
  edgeCount_eq : s.edgeCount = edges.length
  /-- The components are those of the labels. -/
  componentCount_eq : s.componentCount = componentsOf edges
  /-- A tree is a forest of one component. -/
  isTree_iff : s.isTree = true ↔ componentsOf edges = 1
  /-- The edges are selected in the order of examination. -/
  selected : Selected tieBreak edges s.edges
  /-- Each edge of the forest takes away one component. -/
  length_add_componentCount : s.edges.length + s.componentCount = s.nodeCount

/-! ## The summary -/

/-- A drained graph still has its nodes. -/
theorem nodes_traverse (g : Graph String Int) : g.traverse.graph.nodes = g.nodes :=
  ((Traversal.start g).finish_turns g).nodes_edges_eq.1

theorem label_traverse (g : Graph String Int) :
    label g.traverse.graph = label g := by
  funext x
  rw [label, label, Graph.node?, Graph.node?, nodes_traverse]

/-- It still has its edges as well, and they are named as before. -/
theorem labelEdge_traverse (g : Graph String Int) :
    g.traverse.graph.nodeCount = g.nodeCount ∧ g.traverse.graph.edgeCount = g.edgeCount ∧
      labelEdge g.traverse.graph = labelEdge g := by
  have hedges : g.traverse.graph.edges = g.edges :=
    ((Traversal.start g).finish_turns g).nodes_edges_eq.2
  refine ⟨congrArg Array.size (nodes_traverse g), congrArg Array.size hedges, ?_⟩
  funext e
  rw [labelEdge, labelEdge, label_traverse]

/-- But for the entries of its nodes, a drained graph is summed up as before. -/
theorem ofForest_traverse (source : String) (g : Graph String Int) (forest : Forest Int) :
    ofForest source g.traverse.graph forest =
      { ofForest source g forest with nodes := nodeTexts g.traverse.graph } := by
  obtain ⟨hnodeCount, hedgeCount, hlabelEdge⟩ := labelEdge_traverse g
  simp only [ofForest, hnodeCount, hedgeCount, hlabelEdge]

/-- The summary of a drained graph describes its edges by label. -/
theorem describes_ofForest (source : String) (hg : g.Lawful) (hunmerged : g.Unmerged)
    (hedges : ∀ e ∈ g.edges, g.joinsNodes e = true)
    (hplace : ∀ x, g.HasNode x → place (label g x) = x)
    (hlabels : labelsOf (g.edges.toList.map (labelEdge g)) = label g '' firstHandles g.nodeCount)
    (hforest : g.traverse.answer = .ok forest) :
    Describes g.tieBreak (g.edges.toList.map (labelEdge g))
      (ofForest source g.traverse.graph forest) := by
  obtain ⟨hnodeCount, hedgeCount, hlabelEdge⟩ := labelEdge_traverse g
  obtain ⟨-, hselection, -, -, -⟩ := Graph.forest_traverse hg hunmerged hedges hforest
  obtain ⟨hcomponents, hsize⟩ := Graph.componentCount_forest hg hunmerged hedges hforest
  have hedges' : ∀ e ∈ g.edges.toList, g.joinsNodes e = true :=
    fun e he => hedges e (Array.mem_toList_iff.1 he)
  have hcount : forest.componentCount = componentsOf (g.edges.toList.map (labelEdge g)) := by
    rw [componentsOf_eq hplace hedges' hlabels, hcomponents]
  have harranged := hg.arranged
  refine ⟨?_, ?_, hcount, ?_, ?_, ?_⟩
  · show g.traverse.graph.nodeCount = _
    have hinj : Set.InjOn (label g) (firstHandles g.nodeCount) := by
      intro x hx y hy heq
      rw [← hplace x hx, ← hplace y hy, heq]
    rw [hnodeCount, hlabels, hinj.ncard_image, ncard_firstHandles]
  · show g.traverse.graph.edgeCount = _
    rw [hedgeCount, List.length_map, Array.length_toList]
    rfl
  · show forest.isTree = true ↔ _
    rw [← hcount, Forest.isTree, beq_iff_eq]
  · refine ⟨(g.tieBreak.arrange g.edges.toList).map (labelEdge g), harranged.perm.map _, ?_, ?_⟩
    · rw [List.pairwise_map]
      exact harranged.ascending.imp precedes_of_compareUnder
    · show forest.edges.toList.map (labelEdge g.traverse.graph) = _
      have horder : ∀ e ∈ g.tieBreak.arrange g.edges.toList, g.joinsNodes e = true :=
        fun e he => hedges' e (harranged.perm.mem_iff.1 he)
      rw [hlabelEdge, hselection]
      exact (selectLabels_eq hplace hunmerged (fun _ h => (List.not_mem_nil h).elim) horder).symm
  · show (forest.edges.toList.map _).length + forest.componentCount = g.traverse.graph.nodeCount
    rw [List.length_map, Array.length_toList, hnodeCount]
    exact hsize

end SpanForest.Summary
