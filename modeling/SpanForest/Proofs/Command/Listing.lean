import SpanForest.Proofs.Command.Answer
import SpanForest.Proofs.Summary.Listing

/-! # The nodes that the command lists

    The nodes of a summary are the labels of the file, in the order of first
    appearance, each with the label that represents its component. The
    components are those of the lines of the file.

    * **`listsNodes_traverse`**: the summary of the graph of a list.
    * **`run_listsNodes`**: the main result, the summary of a file.
-/

namespace SpanForest

namespace EdgeList

variable {triples : List Triple} {tieBreak : TieBreak} {g : Graph String Int}

section graph

variable (hg : g = (ofTriples triples).toGraph tieBreak)
include hg

/-- The nodes carry the labels, in the order of first appearance. -/
theorem data_toGraph : g.nodes.toList.map Node.data = distinctLabels triples :=
  (ListedEdge.graph_loaded (eq_loaded hg) fun _ => below_of_mem_numbered).1

/-- The summary of the drained graph lists its labels. -/
theorem listsNodes_traverse (source : String) {forest : Forest Int}
    (hforest : g.traverse.answer = .ok forest) :
    Summary.ListsNodes (writtenEdges triples) (distinctLabels triples)
      (Summary.representative g.traverse.graph (nodeOf (distinctLabels triples)))
      (.ofForest source g.traverse.graph forest) := by
  have hloaded := eq_loaded hg
  have hedges : ∀ e ∈ g.edges, g.joinsNodes e = true :=
    fun _ => ListedEdge.joinsNodes_loaded hloaded fun _ => below_of_mem_numbered
  have hlists := Summary.listsNodes_ofForest (ListedEdge.lawful_loaded hloaded)
    (ListedEdge.unmerged_loaded hloaded) hedges source (fun _ => nodeOf_label hg) hforest
  rwa [labelEdges_toGraph hg, data_toGraph hg] at hlists

end graph

end EdgeList

namespace ForestCommand

open EdgeList

variable {bytes : List UInt8} {list : EdgeList}

/-- On a file that is an edge list, the command answers with a summary that has
    one entry for each label, in the order of first appearance. The entry is
    the label alone, or the label with another one that stands alone. Two
    labels are given the same representative exactly when the lines of the file
    link them, and as many labels stand alone as there are components. -/
theorem run_listsNodes (c : ForestCommand) (hparse : parse bytes = .ok list) :
    ∃ triples summary representative, Lists bytes triples ∧
      list.labels.toList = distinctLabels triples ∧
      (c.run (.ok (.content bytes))).1 = .ok ⟨c.format, summary⟩ ∧
      summary.ListsNodes (writtenEdges triples) list.labels.toList representative := by
  obtain ⟨triples, hlists, rfl⟩ := parse_eq_ok_iff.1 hparse
  obtain ⟨forest, hforest, hrun⟩ := c.run_eq_ofForest hlists
  have hlistsNodes := listsNodes_traverse rfl c.source hforest
  rw [← labels_ofTriples] at hlistsNodes
  exact ⟨triples, _, _, hlists, labels_ofTriples triples, hrun, hlistsNodes⟩

/-- Of two components and a loop, each is represented by one of its labels, which
    is not always the first one. -/
theorem run_listsNodes_of_components :
    let c : ForestCommand := ⟨Text.encode "towns", .text, .latestFirst⟩
    let bytes := Text.encode "c d 2\na b 3\nd c 1\nb e 2\nf f 0\n"
    ∃ triples summary representative, Lists bytes triples ∧
      (c.run (.ok (.content bytes))).1 = .ok ⟨.text, summary⟩ ∧
      summary.nodes = ["c (d)", "d", "a (b)", "b", "e (b)", "f"] ∧
      summary.ListsNodes (writtenEdges triples) ["c", "d", "a", "b", "e", "f"] representative := by
  intro c bytes
  have hparse : parse bytes = .ok ⟨#["c", "d", "a", "b", "e", "f"],
      #[⟨0, 1, 2⟩, ⟨2, 3, 3⟩, ⟨1, 0, 1⟩, ⟨3, 4, 2⟩, ⟨5, 5, 0⟩]⟩ := by
    unfold bytes
    decide +kernel
  obtain ⟨triples, summary, representative, hlists, -, hrun, hnodes⟩ := c.run_listsNodes hparse
  let nodes := ["c (d)", "d", "a (b)", "b", "e (b)", "f"]
  obtain ⟨forest, -, hanswer⟩ := c.run_of_parse hparse
  have hsame := CommandAnswer.mk.inj (Except.ok.inj (hrun.symm.trans hanswer))
  have htexts : summary.nodes = nodes := by
    rw [hsame.2]
    show Summary.nodeTexts (EdgeList.toGraph _ .latestFirst).traverse.graph = nodes
    unfold nodes
    cbv
  exact ⟨triples, summary, representative, hlists, hrun, htexts, hnodes⟩

end ForestCommand

end SpanForest
