import SpanForest.Proofs.EdgeList.Loading
import SpanForest.Proofs.Synthetic.Draws
import SpanForest.Proofs.Total.Forests
import SpanForest.Proofs.Traversal.Unmerged

/-! # Synthetic graphs are spanned by trees

    The edges of a generated graph connect all of its nodes, so a traversal
    finds a tree. Nothing else decides that: neither the numbers that are
    drawn, nor the tie-break, nor the further edges, which may repeat each
    other and may be loops.

    * **`Loads`**: a graph that holds all that was generated.
    * **`SpannedBy`**: a forest that is a tree within the weights of the plan.
    * **`components_load`**: the nodes form one component.
    * **`generate_spannedBy`**: the main result.
-/

namespace SpanForest.SyntheticPlan

variable {σ : Type} {plan : SyntheticPlan} {g : SyntheticGraph} {tieBreak : TieBreak}
  {graph : Graph Nat Int} {forest : Forest Int}

/-- A graph holds all that was generated: node `k` carries `k`, and edge `k` is
    the generated edge `k`. -/
structure Loads (plan : SyntheticPlan) (g : SyntheticGraph) (graph : Graph Nat Int) : Prop where
  nodes_eq : graph.nodes.toList = (List.range plan.nodeCount).map fun k => ⟨⟨k⟩, k⟩
  edges_eq : graph.edges.toList =
    g.edges.mapIdx fun k e => ⟨⟨e.left⟩, ⟨e.right⟩, e.weight, k⟩

/-- A forest is a tree that spans the nodes of a plan, from lighter edges to
    heavier ones, and weighs no less and no more than the plan allows. -/
structure SpannedBy (plan : SyntheticPlan) (graph : Graph Nat Int) (forest : Forest Int) :
    Prop where
  /-- There is one component. -/
  isTree : forest.isTree = true
  /-- A tree has one edge less than nodes. -/
  size_eq : forest.edges.size = plan.nodeCount - 1
  /-- The edges are taken from those of the graph, and none closes a cycle. -/
  spanning : SpanningForest ⊥ graph.edges.toList forest.edges.toList
  /-- They link all nodes. -/
  links : ∀ x y, graph.HasNode x → graph.HasNode y → linked ⊥ forest.edges.toList x y
  /-- No edge is lighter than the one before it. -/
  ascending : forest.weights.Pairwise (· ≤ ·)
  /-- Each edge weighs at least one. -/
  le_total : ((plan.nodeCount - 1 : Nat) : Int) ≤ forest.total
  /-- Each edge weighs at most the largest weight. -/
  total_le : forest.total ≤ (plan.nodeCount - 1 : Nat) * plan.maxWeight

theorem Carries.below_range (h : plan.Carries g) :
    ∀ e ∈ g.edges, ListedEdge.Below (List.range plan.nodeCount).length e := by
  rw [List.length_range]
  exact h.below

section graph

variable (hcarries : plan.Carries g) (hgraph : graph = (g.load tieBreak).session.graph)
include hcarries hgraph

/-! ## The graph -/

theorem eq_loaded :
    graph = ListedEdge.loaded tieBreak (List.range plan.nodeCount) g.edges := by
  rw [hgraph, ← hcarries.nodeCount_eq]
  rfl

/-- No node and no edge is left out. -/
theorem loads_load : plan.Loads g graph where
  nodes_eq := by
    rw [ListedEdge.nodes_loaded (eq_loaded hcarries hgraph) hcarries.below_range]
    apply List.ext_getElem
    · simp
    · intro k hk hk'
      simp
  edges_eq := by
    rw [ListedEdge.edges_loaded (eq_loaded hcarries hgraph) hcarries.below_range,
      List.mapIdx_eq_zipIdx_map]
    rfl

theorem nodeCount_load : graph.nodeCount = plan.nodeCount := by
  rw [ListedEdge.nodeCount_loaded (eq_loaded hcarries hgraph) hcarries.below_range,
    List.length_range]

/-- Every edge of the graph is a generated one. -/
theorem exists_generated {e : Edge Int} (he : e ∈ graph.edges.toList) :
    ∃ listed ∈ g.edges, ∃ place, listed.placed place = e := by
  rw [ListedEdge.edges_loaded (eq_loaded hcarries hgraph) hcarries.below_range] at he
  obtain ⟨⟨listed, place⟩, hlisted, rfl⟩ := List.mem_map.1 he
  exact ⟨listed, List.fst_mem_of_mem_zipIdx hlisted, place, rfl⟩

theorem placed_mem {listed : ListedEdge} (hlisted : listed ∈ g.edges) :
    ∃ place, listed.placed place ∈ graph.edges.toList := by
  obtain ⟨place, hplace⟩ := List.mem_iff_getElem?.1 hlisted
  refine ⟨place, ?_⟩
  rw [ListedEdge.edges_loaded (eq_loaded hcarries hgraph) hcarries.below_range]
  exact List.mem_map.2 ⟨(listed, place), List.mem_zipIdx_iff_getElem?.2 hplace, rfl⟩

/-- The edges of the graph link all nodes. -/
theorem linked_load {x y : NodeId} (hx : graph.HasNode x) (hy : graph.HasNode y) :
    linked ⊥ graph.edges.toList x y := by
  rw [Graph.HasNode, nodeCount_load hcarries hgraph] at hx hy
  refine hcarries.connects _ ?_ x.index (List.mem_range.2 hx) y.index (List.mem_range.2 hy)
  intro listed hlisted
  obtain ⟨place, hplace⟩ := placed_mem hcarries hgraph hlisted
  exact linked_of_mem ⊥ hplace

/-- All nodes form one component. -/
theorem components_load (hnodes : 0 < plan.nodeCount) :
    components graph.nodeCount graph.edges.toList = 1 := by
  rw [components_eq_one_iff]
  refine ⟨?_, fun x y hx hy => linked_load hcarries hgraph hx hy⟩
  rw [nodeCount_load hcarries hgraph]
  exact hnodes

/-! ## The forest -/

/-- A forest of the graph is a tree of the plan. -/
theorem spannedBy_load (hnodes : 0 < plan.nodeCount)
    (hforest : graph.traverse.answer = .ok forest) : plan.SpannedBy graph forest := by
  have hloaded := eq_loaded hcarries hgraph
  have hlawful := ListedEdge.lawful_loaded hloaded
  have hunmerged := ListedEdge.unmerged_loaded hloaded
  have hedges : ∀ e ∈ graph.edges, graph.joinsNodes e = true :=
    fun _ => ListedEdge.joinsNodes_loaded hloaded hcarries.below_range
  have hspanning := Graph.spanningForest_traverse hlawful hunmerged hedges hforest
  obtain ⟨hcount, hsize⟩ := Graph.componentCount_forest hlawful hunmerged hedges hforest
  rw [components_load hcarries hgraph hnodes] at hcount
  rw [hcount, nodeCount_load hcarries hgraph] at hsize
  have hsize' : forest.edges.size = plan.nodeCount - 1 := by omega
  have hlength : forest.weights.length = plan.nodeCount - 1 := by
    rw [Forest.weights, List.length_map, Array.length_toList, hsize']
  have hweights : ∀ w ∈ forest.weights, 1 ≤ w ∧ w ≤ plan.maxWeight := by
    intro w hw
    obtain ⟨e, he, rfl⟩ := List.mem_map.1 hw
    obtain ⟨listed, hlisted, place, rfl⟩ :=
      exists_generated hcarries hgraph (hspanning.subset he)
    exact hcarries.weights listed hlisted
  refine ⟨?_, hsize', hspanning, ?_, ?_, ?_, ?_⟩
  · rw [Forest.isTree, hcount]
    rfl
  · intro x y hx hy
    rw [hspanning.linked_eq]
    exact linked_load hcarries hgraph hx hy
  · exact (Traversal.ascends_start graph).weights_finish hforest
  · have hsum := forest.weights.card_nsmul_le_sum 1 fun w hw => (hweights w hw).1
    rw [hlength, nsmul_eq_mul, mul_one] at hsum
    exact hsum
  · have hsum := forest.weights.sum_le_card_nsmul plan.maxWeight fun w hw => (hweights w hw).2
    rw [hlength, nsmul_eq_mul] at hsum
    exact hsum

end graph

/-! ## The main result -/

/-- A plan with nodes and weights whose edges can be counted is carried out,
    whatever the source of randomness yields. The graph that is built has all
    nodes and all edges, and under either tie-break a traversal drains it into
    a tree that spans all nodes, in order of weight, with a total between that
    of the smallest and that of the largest weights. -/
theorem generate_spannedBy (plan : SyntheticPlan) (source : RandomSource σ) (s : σ)
    (hnodes : 0 < plan.nodeCount) (hweight : 1 ≤ plan.maxWeight)
    (hcount : WordRange.nat64.contains
      ((plan.nodeCount - 1 + plan.nodeCount * plan.edgesPerNode : Nat) : Int) = true) :
    ∃ g, plan.generate source s = .ok g ∧ plan.Carries g ∧
      ∀ tieBreak, plan.Loads g (g.load tieBreak).session.graph ∧
        ∃ forest, (g.load tieBreak).session.graph.traverse.answer = .ok forest ∧
          plan.SpannedBy (g.load tieBreak).session.graph forest := by
  have hextra :
      WordRange.nat64.contains ((plan.nodeCount * plan.edgesPerNode : Nat) : Int) = true := by
    have hleast : WordRange.nat64.least = 0 := rfl
    rw [WordRange.contains_iff] at hcount ⊢
    omega
  obtain ⟨g, hgenerate, hcarries⟩ := carries_generate source hweight hnodes hextra s
  refine ⟨g, hgenerate, hcarries, fun tieBreak => ⟨loads_load hcarries rfl, ?_⟩⟩
  obtain ⟨forest, hforest, -⟩ := (g.load tieBreak).session.graph.answer_traverse
  exact ⟨forest, hforest, spannedBy_load hcarries rfl hnodes hforest⟩

/-- With one possible weight, the total of the tree is known beforehand. -/
theorem generate_spannedBy_of_equal_weights :
    let plan : SyntheticPlan := ⟨5, 3, 1⟩
    ∃ g, plan.generate .congruential 42 = .ok g ∧ g.edgeCount = 19 ∧
      ∃ forest, (g.load .latestFirst).session.graph.traverse.answer = .ok forest ∧
        forest.isTree = true ∧ forest.edges.size = 4 ∧ forest.total = 4 := by
  intro plan
  obtain ⟨g, hgenerate, hcarries, hloads⟩ :=
    generate_spannedBy plan .congruential 42 (by decide) (by decide) (by decide)
  obtain ⟨-, forest, hforest, hspanned⟩ := hloads .latestFirst
  refine ⟨g, hgenerate, hcarries.edgeCount_eq, forest, hforest, hspanned.isTree,
    hspanned.size_eq, ?_⟩
  exact Int.le_antisymm hspanned.total_le hspanned.le_total

end SpanForest.SyntheticPlan
