import SpanForest.Proofs.Command.Answer
import SpanForest.Proofs.Total.Forests

/-! # The total of a summary

    A summary has a total even when the sum of its weights does not fit into
    a word. The weights of a forest ascend, so the total is pulled up to the
    least word where the negative weights end, and what the positive weights
    add comes on top of that. Whoever expects the nearest word to the exact
    sum is right only as long as the negative weights fit.

    * **`weights_ofForest`**: the summary keeps the weights of the forest.
    * **`traverse_total`**: the main result, the total of every edge list.
    * **`total_misses_sum`**: a list whose sum fits and is not its total.
-/

namespace SpanForest

/-- The edges of a summary have the weights of the forest. -/
theorem Summary.weights_ofForest (source : String) (g : Graph String Int) (forest : Forest Int) :
    (ofForest source g forest).edges.map SummaryEdge.weight = forest.weights :=
  List.map_map ..

namespace ForestCommand

open WordRange

/-- Every edge list has a summary. Its total is the sum of the negative weights,
    but at least the least word, plus the positive weights, but at most the
    greatest word. This is the word nearest to the exact sum only if the
    negative weights fit, or no weight is positive, or the exact sum reaches
    the greatest word all the same. -/
theorem traverse_total (c : ForestCommand) (list : EdgeList) :
    ∃ summary weights, (c.traverse list).1 = .ok summary ∧
      weights = summary.edges.map SummaryEdge.weight ∧
      summary.totalWeight =
        min int64.greatest (max int64.least (belowZero weights) + aboveZero weights) ∧
      (summary.totalWeight = int64.clamp weights.sum ↔
        int64.least ≤ belowZero weights ∨ aboveZero weights = 0 ∨
          int64.greatest ≤ weights.sum) := by
  obtain ⟨forest, hforest, htraverse⟩ := c.traverse_eq_ok list
  have hweights : forest.weights.Pairwise (· ≤ ·) :=
    (Traversal.ascends_start _).weights_finish hforest
  refine ⟨_, forest.weights, htraverse, (Summary.weights_ofForest ..).symm, ?_, ?_⟩
  · exact saturatingSum_of_ascending (by decide) hweights
  · exact saturatingSum_eq_clamp_iff (by decide) hweights (by decide)

/-- The negative weights of this file add up to one less than the least word. A
    positive weight brings the sum back, and the total is by one too high. -/
theorem total_misses_sum :
    let bytes := Text.encode "a b -9223372036854775808\nb c -1\nc d 5\n"
    ∃ summary, (run ⟨Text.encode "towns", .text, .insertionOrder⟩ (.ok (.content bytes))).1 =
        .ok ⟨.text, summary⟩ ∧
      (summary.edges.map SummaryEdge.weight).sum = -9223372036854775804 ∧
      int64.contains (summary.edges.map SummaryEdge.weight).sum = true ∧
      summary.totalWeight = -9223372036854775803 ∧
      summary.totalWeight ≠ int64.clamp (summary.edges.map SummaryEdge.weight).sum := by
  intro bytes
  let summary : Summary :=
    { source := "towns"
      nodeCount := 4
      edgeCount := 3
      componentCount := 1
      totalWeight := -9223372036854775803
      isTree := true
      edges := [⟨"a", "b", -9223372036854775808, 0⟩, ⟨"b", "c", -1, 1⟩, ⟨"c", "d", 5, 2⟩]
      nodes := ["a", "b (a)", "c (a)", "d (a)"] }
  let list : EdgeList :=
    ⟨#["a", "b", "c", "d"], #[⟨0, 1, -9223372036854775808⟩, ⟨1, 2, -1⟩, ⟨2, 3, 5⟩]⟩
  have hparse : EdgeList.parse bytes = .ok list := by
    unfold bytes list
    decide +kernel
  have hsource : source ⟨Text.encode "towns", .text, .insertionOrder⟩ = "towns" := by
    decide +kernel
  have hforest : (list.toGraph .insertionOrder).traverse.answer = .ok
      ⟨#[⟨⟨0⟩, ⟨1⟩, -9223372036854775808, 0⟩, ⟨⟨1⟩, ⟨2⟩, -1, 1⟩, ⟨⟨2⟩, ⟨3⟩, 5, 2⟩], 1, 4⟩ := by
    unfold list
    cbv
  refine ⟨summary, ?_, rfl, by decide, rfl, by decide⟩
  apply run_eq_ok_of_parse hparse hsource hforest rfl
  · unfold summary
    cbv
  · unfold summary
    decide +kernel

end ForestCommand

end SpanForest
