import SpanForest.Proofs.EdgeList.Loading
import SpanForest.Proofs.EdgeList.Numbering
import SpanForest.Proofs.Summary.Described

/-! # Graphs of edge lists

    The graph of a list has a node for each label and an edge for each written
    edge. Named by label again, its edges are the written ones at their places,
    so nothing is lost or moved by numbering labels and building the graph.

    * **`writtenEdges`**: the written edges by label, with their places.
    * **`labelEdges_toGraph`**: they are the edges of the graph, by label.
    * **`describes_traverse`**: so the summary of the drained graph describes
      them.
-/

namespace SpanForest.EdgeList

variable {triples : List Triple} {tieBreak : TieBreak} {label : String} {g : Graph String Int}

/-- The edges by label, with their places in the order in which they are
    written. -/
def writtenEdges (triples : List Triple) : List SummaryEdge :=
  triples.zipIdx.map fun (t, place) => ⟨t.left, t.right, t.weight, place⟩

theorem mem_labelsOf_writtenEdges :
    label ∈ Summary.labelsOf (writtenEdges triples) ↔ label ∈ distinctLabels triples := by
  rw [mem_distinctLabels]
  constructor
  · rintro ⟨e, he, hlabel⟩
    obtain ⟨⟨t, place⟩, ht, rfl⟩ := List.mem_map.1 he
    exact ⟨t, List.fst_mem_of_mem_zipIdx ht, hlabel⟩
  · rintro ⟨t, ht, hlabel⟩
    obtain ⟨place, hplace⟩ := List.mem_iff_getElem?.1 ht
    refine ⟨_, List.mem_map.2 ⟨(t, place), ?_, rfl⟩, hlabel⟩
    exact List.mem_zipIdx_iff_getElem?.2 hplace

/-! ## Nodes and labels -/

/-- The node with a label: it has the position of the label. -/
def nodeOf (labels : List String) (label : String) : NodeId := ⟨labels.idxOf label⟩

/-- The numbers of an edge are those of labels, so no edge is left out. -/
theorem below_of_mem_numbered {e : ListedEdge}
    (he : e ∈ triples.map (numbered (distinctLabels triples))) :
    ListedEdge.Below (distinctLabels triples).length e := by
  obtain ⟨t, ht, rfl⟩ := List.mem_map.1 he
  constructor
  · exact List.idxOf_lt_length_iff.2 (mem_distinctLabels.2 ⟨t, ht, .inl rfl⟩)
  · exact List.idxOf_lt_length_iff.2 (mem_distinctLabels.2 ⟨t, ht, .inr rfl⟩)

theorem toGraph_ofTriples (triples : List Triple) (tieBreak : TieBreak) :
    (ofTriples triples).toGraph tieBreak = ListedEdge.loaded tieBreak (distinctLabels triples)
      (triples.map (numbered (distinctLabels triples))) := by
  rw [← edges_ofTriples, ← labels_ofTriples]
  rfl

section graph

variable (hg : g = (ofTriples triples).toGraph tieBreak)
include hg

theorem eq_loaded : g = ListedEdge.loaded tieBreak (distinctLabels triples)
    (triples.map (numbered (distinctLabels triples))) :=
  hg.trans (toGraph_ofTriples triples tieBreak)

theorem nodeCount_toGraph : g.nodeCount = (distinctLabels triples).length :=
  ListedEdge.nodeCount_loaded (eq_loaded hg) fun _ => below_of_mem_numbered

/-- The node at a position carries the label at that position. -/
theorem label_toGraph {x : NodeId} (hx : (distinctLabels triples)[x.index]? = some label) :
    Summary.label g x = label := by
  unfold Summary.label
  rw [ListedEdge.node?_loaded (eq_loaded hg) (fun _ => below_of_mem_numbered), hx]
  rfl

/-- Every node has a label of its own. -/
theorem nodeOf_label {x : NodeId} (hx : g.HasNode x) :
    nodeOf (distinctLabels triples) (Summary.label g x) = x := by
  unfold Graph.HasNode at hx
  rw [nodeCount_toGraph hg] at hx
  rw [label_toGraph hg (List.getElem?_eq_getElem hx)]
  exact NodeId.ext ((nodup_eraseDups (mentions triples)).idxOf_getElem x.index hx)

theorem labelEdge_numbered {t : Triple} (ht : t ∈ triples) (place : Nat) :
    Summary.labelEdge g ((numbered (distinctLabels triples) t).placed place) =
      ⟨t.left, t.right, t.weight, place⟩ := by
  have hleft := List.getElem?_idxOf (mem_distinctLabels.2 ⟨t, ht, .inl rfl⟩)
  have hright := List.getElem?_idxOf (mem_distinctLabels.2 ⟨t, ht, .inr rfl⟩)
  have hfirst := label_toGraph hg (x := nodeOf (distinctLabels triples) t.left) hleft
  have hsecond := label_toGraph hg (x := nodeOf (distinctLabels triples) t.right) hright
  -- Both endpoints of the edge are the nodes of its labels.
  show SummaryEdge.mk (Summary.label g (nodeOf (distinctLabels triples) t.left))
    (Summary.label g (nodeOf (distinctLabels triples) t.right)) t.weight place = _
  rw [hfirst, hsecond]

/-- Named by label, the edges of the graph are the written ones. -/
theorem labelEdges_toGraph :
    g.edges.toList.map (Summary.labelEdge g) = writtenEdges triples := by
  rw [ListedEdge.edges_loaded (eq_loaded hg) fun _ => below_of_mem_numbered, List.zipIdx_map,
    List.map_map, List.map_map]
  apply List.map_congr_left
  rintro ⟨t, place⟩ ht
  exact labelEdge_numbered hg (List.fst_mem_of_mem_zipIdx ht) place

/-- The labels of the nodes are those that are mentioned. -/
theorem labels_toGraph : Summary.labelsOf (writtenEdges triples) =
    Summary.label g '' firstHandles g.nodeCount := by
  rw [nodeCount_toGraph hg]
  ext label
  rw [mem_labelsOf_writtenEdges]
  constructor
  · intro hlabel
    exact ⟨nodeOf _ label, List.idxOf_lt_length_iff.2 hlabel,
      label_toGraph hg (List.getElem?_idxOf hlabel)⟩
  · rintro ⟨x, hx, rfl⟩
    rw [label_toGraph hg (List.getElem?_eq_getElem hx)]
    exact List.getElem_mem hx

/-- The summary of the drained graph describes the written edges. -/
theorem describes_traverse (source : String) {forest : Forest Int}
    (hforest : g.traverse.answer = .ok forest) :
    Summary.Describes tieBreak (writtenEdges triples)
      (.ofForest source g.traverse.graph forest) := by
  have hloaded := eq_loaded hg
  have hedges : ∀ e ∈ g.edges, g.joinsNodes e = true :=
    fun _ => ListedEdge.joinsNodes_loaded hloaded fun _ => below_of_mem_numbered
  have hdescribes := Summary.describes_ofForest source (ListedEdge.lawful_loaded hloaded)
    (ListedEdge.unmerged_loaded hloaded) hedges (fun _ => nodeOf_label hg)
    (labelEdges_toGraph hg ▸ labels_toGraph hg) hforest
  rw [labelEdges_toGraph hg, ListedEdge.tieBreak_loaded hloaded] at hdescribes
  exact hdescribes

end graph

end SpanForest.EdgeList
