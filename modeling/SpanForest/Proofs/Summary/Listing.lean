import SpanForest.Proofs.Summary.Described

/-! # The nodes of a summary

    A summary counts components and lists nodes. The count comes from the edges
    of the forest, the list from the links of the partition that is left. Both
    tell the same components: each is represented by one of its labels, which
    stands alone in the list, while the others refer to it.

    * **`entry`**: the entry of a label, which says what represents the label.
    * **`ListsNodes`**: what a list of entries says of edges by label.
    * **`nodeTexts_eq`**: the entries of a lawful graph.
    * **`classes_traverse`**: draining a graph leaves its components as sets.
    * **`listsNodes_ofForest`**: the summary of a drained graph lists its nodes.
-/

namespace SpanForest.Summary

variable {g : Graph String Int} {x y : NodeId} {place : String → NodeId}
  {name root : String}

/-! ## Entries -/

/-- A label that represents itself stands alone. Any other one is followed by
    its representative. -/
def entry (label root : String) : String :=
  if root = label then label else label ++ " (" ++ root ++ ")"

theorem entry_ne_label (h : root ≠ name) : entry name root ≠ name := by
  intro heq
  rw [entry, if_neg h] at heq
  have hlength := congrArg String.length heq
  simp only [String.length_append] at hlength
  have htwo : " (".length = 2 := by decide
  omega

theorem entry_eq_label_iff : entry name root = name ↔ root = name := by
  constructor
  · intro h
    by_contra hne
    exact entry_ne_label hne h
  · intro h
    rw [entry, if_pos h]

/-- The label of the node that represents the node of a label. -/
def representative (g : Graph String Int) (place : String → NodeId) (name : String) : String :=
  label g (g.partition.find (place name))

/-- A summary lists labels with their representatives. -/
structure ListsNodes (edges : List SummaryEdge) (labels : List String)
    (representative : String → String) (s : Summary) : Prop where
  /-- No label is listed twice. -/
  nodup : labels.Nodup
  /-- There is one entry for each label, in the same order. -/
  nodes_eq : s.nodes = labels.map fun label => entry label (representative label)
  /-- A label is represented by a label that stands alone. -/
  represented : ∀ label ∈ labels, representative label ∈ labels ∧
    entry (representative label) (representative (representative label)) = representative label
  /-- Two labels have the same representative when edges link them. -/
  linked_iff : ∀ a ∈ labels, ∀ b ∈ labels,
    representative a = representative b ↔ linkedLabels edges a b
  /-- As many labels stand alone as there are components. -/
  count_eq : (labels.zip s.nodes).countP (fun (label, text) => text == label) = s.componentCount

/-! ## The entries of a graph -/

section lawful

variable (hg : g.Lawful)
include hg

theorem node?_eq (hx : g.HasNode x) : g.node? x = some ⟨x, label g x⟩ := by
  obtain ⟨data, hnode⟩ := hg.exists_node? hx
  rw [label, hnode]
  rfl

/-- The nodes are those of the handles that have been issued. -/
theorem nodes_eq : g.nodes.toList = g.partition.handles.map fun x => ⟨x, label g x⟩ := by
  apply List.ext_getElem
  · simp [Partition.handles, hg.size_eq, Graph.nodeCount]
  · intro k hk _
    have hnode : g.nodes[k]? = some ⟨⟨k⟩, label g ⟨k⟩⟩ := node?_eq hg (x := ⟨k⟩) hk
    obtain ⟨_, heq⟩ := Array.getElem?_eq_some_iff.1 hnode
    simpa [Partition.handles] using heq

theorem labels_eq : g.nodes.toList.map Node.data = g.partition.handles.map (label g) := by
  rw [nodes_eq hg, List.map_map]
  rfl

theorem hasNode_of_mem_handles (hx : x ∈ g.partition.handles) : g.HasNode x :=
  hg.issued_iff.1 (Partition.mem_handles.1 hx)

/-- What represents a node is a node. -/
theorem find_mem_handles (hx : x ∈ g.partition.handles) :
    g.partition.find x ∈ g.partition.handles :=
  Partition.mem_handles.2 (hg.wellLinked.issued_find_iff.2 (Partition.mem_handles.1 hx))

/-- A node is shown with what represents it. -/
theorem display?_eq (hx : x ∈ g.partition.handles) : g.display? x = some ⟨⟨x, label g x⟩,
    if g.partition.find x = x then none
    else some ⟨g.partition.find x, label g (g.partition.find x)⟩⟩ := by
  have hnode := node?_eq hg (hasNode_of_mem_handles hg hx)
  have hroot := node?_eq hg (hasNode_of_mem_handles hg (find_mem_handles hg hx))
  simp only [Graph.display?, hnode, hroot, Option.map_some]

/-! ### Labels that belong to one node each -/

variable (hplace : ∀ x, g.HasNode x → place (label g x) = x)
include hplace

theorem label_inj (hx : x ∈ g.partition.handles) (hy : y ∈ g.partition.handles) :
    label g x = label g y ↔ x = y := by
  constructor
  · intro h
    rw [← hplace x (hasNode_of_mem_handles hg hx), h, hplace y (hasNode_of_mem_handles hg hy)]
  · exact congrArg _

theorem representative_label (hx : x ∈ g.partition.handles) :
    representative g place (label g x) = label g (g.partition.find x) := by
  rw [representative, hplace x (hasNode_of_mem_handles hg hx)]

/-- The entries are those of the labels and what represents them. -/
theorem nodeTexts_eq : nodeTexts g = (g.nodes.toList.map Node.data).map fun label =>
    entry label (representative g place label) := by
  rw [labels_eq hg, List.map_map, nodeTexts, nodes_eq hg, List.filterMap_map,
    ← List.filterMap_eq_map]
  apply List.filterMap_congr
  intro x hx
  show ((g.display? x).map fun d => (d.write fun text => ⟨text, false⟩).text) =
    some (entry (label g x) (representative g place (label g x)))
  rw [display?_eq hg hx, representative_label hg hplace hx, entry]
  have hsame := label_inj hg hplace (find_mem_handles hg hx) hx
  by_cases h : g.partition.find x = x
  · rw [if_pos h, if_pos (hsame.2 h)]
    rfl
  · rw [if_neg h, if_neg (mt hsame.1 h), String.append_assoc, String.append_assoc]
    rfl

/-- A label stands alone when its node represents itself. -/
theorem countP_alone : ((g.nodes.toList.map Node.data).zip (nodeTexts g)).countP
    (fun (label, text) => text == label) = g.partition.componentCount := by
  have hzip : (g.nodes.toList.map Node.data).zip (nodeTexts g) = g.partition.handles.map
      fun x => (label g x, entry (label g x)
        (representative g place (label g x))) := by
    rw [nodeTexts_eq hg hplace, labels_eq hg, List.map_map, List.zip_map']
    rfl
  rw [hzip, List.countP_map, Partition.componentCount]
  apply List.countP_congr
  intro x hx
  show (entry (label g x) (representative g place (label g x)) ==
    label g x) = true ↔ g.partition.isRepresentative x = true
  rw [beq_iff_eq, entry_eq_label_iff, representative_label hg hplace hx,
    label_inj hg hplace (find_mem_handles hg hx) hx, hg.wellLinked.isRepresentative_iff]

/-- When the sets of a graph are linked by edges, its entries are those of the
    components of these edges. -/
theorem listsNodes_of_classes {ends : List (Edge Int)} {s : Summary}
    (hends : ∀ e ∈ ends, g.joinsNodes e = true)
    (hclasses : g.partition.classes = linked ⊥ ends) (hnodes : s.nodes = nodeTexts g)
    (hcount : s.componentCount = g.partition.componentCount) :
    ListsNodes (ends.map (labelEdge g)) (g.nodes.toList.map Node.data) (representative g place)
      s where
  nodup := by
    rw [labels_eq hg]
    exact g.partition.nodup_handles.map_on fun x hx y hy => (label_inj hg hplace hx hy).1
  nodes_eq := hnodes.trans (nodeTexts_eq hg hplace)
  represented := by
    rw [labels_eq hg]
    intro name hname
    obtain ⟨x, hx, rfl⟩ := List.mem_map.1 hname
    have hroot := find_mem_handles hg hx
    rw [representative_label hg hplace hx, representative_label hg hplace hroot,
      hg.wellLinked.find_find, entry_eq_label_iff]
    exact ⟨List.mem_map_of_mem hroot, rfl⟩
  linked_iff := by
    rw [labels_eq hg]
    intro a ha b hb
    obtain ⟨x, hx, rfl⟩ := List.mem_map.1 ha
    obtain ⟨y, hy, rfl⟩ := List.mem_map.1 hb
    rw [representative_label hg hplace hx, representative_label hg hplace hy,
      label_inj hg hplace (find_mem_handles hg hx) (find_mem_handles hg hy),
      linkedLabels_iff hplace hends (hasNode_of_mem_handles hg hx) (hasNode_of_mem_handles hg hy),
      ← hclasses, Partition.classes_iff]
  count_eq := by
    rw [hnodes, hcount]
    exact countP_alone hg hplace

end lawful

/-! ## The summary of a drained graph -/

section drained

variable {forest : Forest Int} (hg : g.Lawful) (hunmerged : g.Unmerged)
  (hedges : ∀ e ∈ g.edges, g.joinsNodes e = true)
include hg

theorem lawful_traverse : g.traverse.graph.Lawful :=
  ((Traversal.start g).finish_turns g).lawful hg

include hunmerged hedges

/-- Draining a graph leaves its components as sets. -/
theorem classes_traverse : g.traverse.graph.partition.classes = linked ⊥ g.edges.toList := by
  have hheld : ∀ e ∈ g.tieBreak.arrange g.edges.toList, g.partition.holds e = true :=
    fun _ => hg.holds_of_mem_arrange hedges
  have hclasses : g.partition.classes = ⊥ := hunmerged
  rw [g.partition_traverse, Partition.classes_absorb_of_holds hg.wellLinked hheld, hclasses,
    linked_perm (perm_arrange g.tieBreak g.edges.toList)]

/-- There are as many representatives left as the forest has components. -/
theorem componentCount_traverse (hforest : g.traverse.answer = .ok forest) :
    forest.componentCount = g.traverse.graph.partition.componentCount := by
  have hlast := lawful_traverse hg
  rw [hlast.wellLinked.componentCount_eq_classCount, classes_traverse hg hunmerged hedges,
    hlast.size_eq, (labelEdge_traverse g).1,
    (Graph.componentCount_forest hg hunmerged hedges hforest).1]
  rfl

/-- The summary of a drained graph lists its nodes. -/
theorem listsNodes_ofForest (source : String)
    (hplace : ∀ x, g.HasNode x → place (label g x) = x)
    (hforest : g.traverse.answer = .ok forest) :
    ListsNodes (g.edges.toList.map (labelEdge g)) (g.nodes.toList.map Node.data)
      (representative g.traverse.graph place) (ofForest source g.traverse.graph forest) := by
  obtain ⟨hnodeCount, -, hlabelEdge⟩ := labelEdge_traverse g
  have hsame : g.traverse.graph.HasNode = g.HasNode := by
    funext x
    rw [Graph.HasNode, Graph.HasNode, hnodeCount]
  have hplace' : ∀ x, g.traverse.graph.HasNode x →
      place (label g.traverse.graph x) = x := by
    rw [hsame, label_traverse]
    exact hplace
  have hends : ∀ e ∈ g.edges.toList, g.traverse.graph.joinsNodes e = true := by
    intro e he
    rw [Graph.joinsNodes_iff, hsame, ← Graph.joinsNodes_iff]
    exact hedges e (Array.mem_toList_iff.1 he)
  rw [← hlabelEdge, ← nodes_traverse g]
  exact listsNodes_of_classes (lawful_traverse hg) hplace' hends
    (classes_traverse hg hunmerged hedges) rfl (componentCount_traverse hg hunmerged hedges hforest)

end drained

end SpanForest.Summary
