import SpanForest.Proofs.EdgeList.Graph
import SpanForest.Proofs.EdgeList.Grammar

/-! # Nothing is lost in building

    The graph of a list leaves out every edge whose numbers are not those of
    labels. A list that was read from a file has no such edge, for its edges
    are numbered along with its labels, and so the graph has all of them.

    * **`WellNumbered`**: labels and numbers that fit each other.
    * **`Makes`**: a graph that holds all of a list, each thing at its place.
    * **`size_le_of_parse`**: a file is longer than its list, so that counting
      the additions stays exact for every file that has a length of 64 bits.
    * **`parse_toGraph_makes`**: the main result.
-/

namespace SpanForest.EdgeList

open Text

variable {line bytes : List UInt8} {file : List (List UInt8)} {triples : List Triple}
  {list : EdgeList} {t : Triple} {tieBreak : TieBreak}

/-- The labels of a list are told apart by their numbers, and its edges have no
    other numbers. -/
structure WellNumbered (list : EdgeList) : Prop where
  /-- No label is listed twice. -/
  nodup : list.labels.toList.Nodup
  /-- The numbers of an edge are those of labels. -/
  below : ∀ e ∈ list.edges, e.left < list.labels.size ∧ e.right < list.labels.size

/-- A graph holds all of a list and nothing else. -/
structure Makes (list : EdgeList) (tieBreak : TieBreak) (g : Graph String Int) : Prop where
  /-- Node `k` carries label `k`. -/
  nodes_eq : g.nodes = list.labels.mapIdx fun k label => ⟨⟨k⟩, label⟩
  /-- Edge `k` has the endpoints and the weight of the listed edge `k`. -/
  edges_eq : g.edges = list.edges.mapIdx fun k e => ⟨⟨e.left⟩, ⟨e.right⟩, e.weight, k⟩
  /-- Every node and every edge has been counted, up to the limit. -/
  count_eq : g.modificationCount =
    min (list.labels.size + list.edgeCount) Graph.modificationLimit
  /-- Every node represents itself. -/
  alone : ∀ x, g.HasNode x → g.partition.find x = x
  /-- The tie-break is the one that was asked for. -/
  tieBreak_eq : g.tieBreak = tieBreak

/-! ## Numbers of labels -/

theorem wellNumbered_ofTriples (triples : List Triple) : (ofTriples triples).WellNumbered where
  nodup := labels_ofTriples triples ▸ nodup_eraseDups (mentions triples)
  below := by
    intro e he
    rw [← Array.mem_toList_iff, edges_ofTriples] at he
    rw [← Array.length_toList, labels_ofTriples]
    exact below_of_mem_numbered he

/-! ## The graph of well-numbered edges -/

theorem makes_toGraph (h : list.WellNumbered) (tieBreak : TieBreak) :
    list.Makes tieBreak (list.toGraph tieBreak) := by
  have hg : list.toGraph tieBreak =
      ListedEdge.loaded tieBreak list.labels.toList list.edges.toList := rfl
  have hbelow : ∀ e ∈ list.edges.toList, ListedEdge.Below list.labels.toList.length e :=
    fun e he => h.below e (Array.mem_toList_iff.1 he)
  have hnodes : (list.toGraph tieBreak).nodes =
      list.labels.mapIdx fun k label => ⟨⟨k⟩, label⟩ := by
    apply Array.toList_inj.1
    rw [ListedEdge.nodes_loaded hg hbelow, Array.toList_mapIdx]
  have hedges : (list.toGraph tieBreak).edges =
      list.edges.mapIdx fun k e => ⟨⟨e.left⟩, ⟨e.right⟩, e.weight, k⟩ := by
    apply Array.toList_inj.1
    rw [ListedEdge.edges_loaded hg hbelow, Array.toList_mapIdx, List.mapIdx_eq_zipIdx_map]
    rfl
  have hnodeCount : (list.toGraph tieBreak).nodeCount = list.labels.size :=
    (congrArg Array.size hnodes).trans Array.size_mapIdx
  have hedgeCount : (list.toGraph tieBreak).edgeCount = list.edgeCount :=
    (congrArg Array.size hedges).trans Array.size_mapIdx
  refine ⟨hnodes, hedges, ?_, fun x _ => ListedEdge.find_loaded hg x,
    ListedEdge.tieBreak_loaded hg⟩
  rw [(ListedEdge.lawful_loaded hg).count_eq, hnodeCount, hedgeCount]

/-! ## Files are longer than their lists -/

/-- Every character of a text takes at least one byte. -/
theorem length_le_length_encode (cs : List Char) :
    cs.length ≤ (encode (String.ofList cs)).length := by
  induction cs with
  | nil => exact Nat.zero_le _
  | cons c cs ih =>
    rw [encode_ofList] at ih ⊢
    rw [List.flatMap_cons, List.length_append, List.length_cons, String.length_utf8EncodeChar]
    have hpos := c.utf8Size_pos
    omega

/-- An edge takes one byte for each of its fields, at least. -/
theorem three_le_of_states (h : States line (some t)) : 3 ≤ line.length := by
  cases h with
  | @edge text left right weight value htext hfields _ _ =>
    have hlength := length_fields_le (text.takeWhile (· ≠ '#'))
    have hthree : (fields (text.takeWhile (· ≠ '#'))).length = 3 := congrArg List.length hfields
    have htake : (text.takeWhile (· ≠ '#')).length ≤ text.length :=
      (List.takeWhile_sublist _).length_le
    have hencode := length_le_length_encode text
    rw [htext] at hencode
    omega

theorem three_mul_length_le (h : Enumerates file triples) :
    3 * triples.length ≤ (file.map List.length).sum := by
  induction file generalizing triples with
  | nil =>
    obtain ⟨stated, hstated, rfl⟩ := h
    obtain rfl := List.forall₂_nil_left_iff.1 hstated
    exact Nat.le_refl 0
  | cons line file ih =>
    obtain ⟨found, later, hfound, hlater, rfl⟩ := enumerates_cons_iff.1 h
    have hle := ih hlater
    rw [List.length_append, List.map_cons, List.sum_cons]
    cases found with
    | none =>
      rw [Option.toList_none, List.length_nil]
      omega
    | some t =>
      have hline := three_le_of_states hfound
      rw [Option.toList_some, List.length_singleton]
      omega

/-- The lines of a file are no longer than the file. -/
theorem sum_lines_le (bytes : List UInt8) :
    ((lines bytes).map List.length).sum ≤ bytes.length := by
  induction bytes with
  | nil => exact Nat.le_refl 0
  | cons b bytes ih =>
    have hfold : lines (b :: bytes) = consByte b (lines bytes) := rfl
    rw [hfold, List.length_cons]
    unfold consByte
    split
    · rw [List.map_cons, List.sum_cons, List.length_nil]
      omega
    · cases hlines : lines bytes with
      | nil => simp
      | cons first later =>
        rw [hlines, List.map_cons, List.sum_cons] at ih
        rw [List.map_cons, List.sum_cons, List.length_cons]
        omega

/-- An edge mentions two labels, so there are at most twice as many labels. -/
theorem length_distinctLabels_le (triples : List Triple) :
    (distinctLabels triples).length ≤ 2 * triples.length := by
  have hmentions : (mentions triples).length = 2 * triples.length := by
    induction triples with
    | nil => rfl
    | cons t triples ih =>
      rw [mentions, List.flatMap_cons, List.length_append, List.length_cons]
      rw [mentions] at ih
      simp only [ih, List.length_cons, List.length_nil]
      omega
  have hsub : distinctLabels triples ⊆ mentions triples := fun _ => List.mem_eraseDups.1
  have hle := ((nodup_eraseDups (mentions triples)).subperm hsub).length_le
  rwa [hmentions] at hle

/-- A file has at least one byte for each label and each edge of its list. -/
theorem size_le_of_parse (hparse : parse bytes = .ok list) :
    list.labels.size + list.edgeCount ≤ bytes.length := by
  obtain ⟨triples, hlists, rfl⟩ := parse_eq_ok_iff.1 hparse
  have hlabels : (ofTriples triples).labels.size = (distinctLabels triples).length := by
    rw [← labels_ofTriples, Array.length_toList]
  have hedges : (ofTriples triples).edgeCount = triples.length := by
    rw [edgeCount, ← Array.length_toList, edges_ofTriples, List.length_map]
  have hmentioned := length_distinctLabels_le triples
  have hwritten := three_mul_length_le hlists
  have hfile := sum_lines_le bytes
  rw [lines_eq] at hfile
  omega

/-! ## The main result -/

/-- The labels of a list that was read are distinct, and the numbers of its
    edges are those of labels. So its graph has a node for each label and an
    edge for each listed edge, whatever the tie-break is, and the labels of
    their endpoints are the written ones. As long as the length of the file is
    a number of 64 bits, the graph counts all of them exactly. -/
theorem parse_toGraph_makes (hparse : parse bytes = .ok list) (tieBreak : TieBreak) :
    list.WellNumbered ∧ list.Makes tieBreak (list.toGraph tieBreak) ∧
    (bytes.length ≤ Graph.modificationLimit →
      (list.toGraph tieBreak).modificationCount = list.labels.size + list.edgeCount) ∧
    ∃ triples, Lists bytes triples ∧
      (list.toGraph tieBreak).edges.toList.map (Summary.labelEdge (list.toGraph tieBreak)) =
        writtenEdges triples := by
  have hsize := size_le_of_parse hparse
  obtain ⟨triples, hlists, rfl⟩ := parse_eq_ok_iff.1 hparse
  have hnumbered := wellNumbered_ofTriples triples
  have hmakes := makes_toGraph hnumbered tieBreak
  refine ⟨hnumbered, hmakes, ?_, triples, hlists, labelEdges_toGraph rfl⟩
  intro hlength
  rw [hmakes.count_eq]
  exact Nat.min_eq_left (hsize.trans hlength)

/-- A label that comes back, an edge that comes back the other way round, and a
    loop whose label comes first on its line. -/
theorem parse_toGraph_makes_of_repeated_labels :
    let bytes := encode "# towns\nb a 2\na b 2 # again\nc c 0\n"
    let list : EdgeList := ⟨#["b", "a", "c"], #[⟨0, 1, 2⟩, ⟨1, 0, 2⟩, ⟨2, 2, 0⟩]⟩
    let g := list.toGraph .latestFirst
    parse bytes = .ok list ∧ list.WellNumbered ∧
      g.nodes = #[⟨⟨0⟩, "b"⟩, ⟨⟨1⟩, "a"⟩, ⟨⟨2⟩, "c"⟩] ∧
      g.edges = #[⟨⟨0⟩, ⟨1⟩, 2, 0⟩, ⟨⟨1⟩, ⟨0⟩, 2, 1⟩, ⟨⟨2⟩, ⟨2⟩, 0, 2⟩] ∧
      g.modificationCount = 6 ∧ ∀ x, g.HasNode x → g.partition.find x = x := by
  intro bytes list g
  have hparse : parse bytes = .ok list := by
    unfold bytes list
    decide +kernel
  obtain ⟨hnumbered, hmakes, hcount, -⟩ := parse_toGraph_makes hparse .latestFirst
  have hlength : bytes.length ≤ Graph.modificationLimit := by
    have hbytes : bytes.length = 34 := by
      unfold bytes
      decide +kernel
    rw [hbytes]
    decide
  refine ⟨hparse, hnumbered, ?_, ?_, hcount hlength, hmakes.alone⟩
  · rw [hmakes.nodes_eq]
    rfl
  · rw [hmakes.edges_eq]
    rfl

end SpanForest.EdgeList
