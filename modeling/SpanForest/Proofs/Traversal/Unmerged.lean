import SpanForest.Proofs.Linking.Components
import SpanForest.Proofs.Selection.Minimality
import SpanForest.Proofs.Selection.Rearrangement
import SpanForest.Proofs.Selection.Sequential

/-! # Forests of new graphs

    A new graph has edges between its nodes, and nothing in it is merged yet.
    The forest that a traversal finds there is a forest of the edges alone, and
    its counts are those of the components that the edges form.

    * **`spanningForest_traverse`**: the forest of a new traversal spans what
      all edges span.
    * **`forest_traverse`**: its edges and its counts.
    * **`componentCount_forest`**: its components are those of all edges.
-/

namespace SpanForest.Graph

variable {α : Type u} {ω : Type v} [Ord ω] {g : Graph α ω} {forest : Forest ω}

/-- The forest of a new traversal has the edges that sifting keeps. -/
theorem edges_traverse (hforest : g.traverse.answer = .ok forest) :
    forest.edges.toList = g.partition.sift (g.tieBreak.arrange g.edges.toList) := by
  obtain ⟨forest', hanswer, hsift⟩ := g.answer_traverse
  obtain rfl := Except.ok.inj (hforest.symm.trans hanswer)
  exact hsift

section unmerged

variable (hg : g.Lawful) (hunmerged : g.Unmerged) (hedges : ∀ e ∈ g.edges, g.joinsNodes e = true)
  (hforest : g.traverse.answer = .ok forest)
include hg hunmerged hedges hforest

/-- It is a spanning forest of all edges. -/
theorem spanningForest_traverse :
    SpanningForest ⊥ g.edges.toList forest.edges.toList := by
  have hclasses : g.partition.classes = ⊥ := hunmerged
  have hspanning := spanningForest_sift hg.wellLinked
    fun e he => hg.holds_of_mem_arrange hedges he
  rw [hclasses, ← edges_traverse hforest] at hspanning
  exact hspanning.of_perm (perm_arrange g.tieBreak g.edges.toList)

/-- It is selected sequentially; its edges close no cycle and link what all
    edges link. -/
theorem forest_traverse :
    forest = .ofEdges forest.edges g.nodeCount ∧
      forest.edges.toList = g.selection (g.tieBreak.arrange g.edges.toList) ∧
      Independent ⊥ forest.edges.toList ∧
      linked ⊥ forest.edges.toList = linked ⊥ g.edges.toList ∧
      ∀ e ∈ forest.edges.toList, g.joinsNodes e = true := by
  have hspanning := spanningForest_traverse hg hunmerged hedges hforest
  refine ⟨?_, ?_, hspanning.independent, hspanning.linked_eq, ?_⟩
  · have hfinish := Traversal.forest_of_finish (t := Traversal.start g) (g := g) hforest
    rw [hg.size_eq] at hfinish
    rw [hfinish]
    rfl
  · rw [edges_traverse hforest, hg.selection_eq_sift]
  · intro e he
    exact hedges e (Array.mem_toList_iff.1 (hspanning.subset he))

theorem componentCount_forest :
    forest.componentCount = components g.nodeCount g.edges.toList ∧
      forest.edges.size + forest.componentCount = g.nodeCount := by
  obtain ⟨hsum, -, hindependent, hlinked, hnodes⟩ := forest_traverse hg hunmerged hedges hforest
  have hbelow : ∀ e ∈ forest.edges.toList,
      e.first.index < g.nodeCount ∧ e.second.index < g.nodeCount :=
    fun e he => Graph.joinsNodes_iff.1 (hnodes e he)
  have hcomponents := Forest.componentCount_ofEdges hindependent hbelow
  have hsize := Forest.componentCount_add_size hindependent hbelow
  rw [← hsum] at hcomponents hsize
  constructor
  · unfold components at hcomponents ⊢
    rw [hcomponents, hlinked]
  · omega

end unmerged

end SpanForest.Graph
