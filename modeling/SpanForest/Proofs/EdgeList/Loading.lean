import SpanForest.EdgeList
import SpanForest.Proofs.Selection.Rearrangement
import SpanForest.Proofs.Session.Interference

/-! # Graphs of numbered edges

    A graph is made from payloads and numbered edges by additions alone. When
    the numbers are those of payloads, nothing is left out: the nodes are the
    payloads and the edges are the given ones, in order, and no two nodes are
    merged yet.

    * **`placed`**: an edge at its place.
    * **`nodes_loaded`**, **`edges_loaded`**: the nodes and the edges.
    * **`unmerged_loaded`**, **`find_loaded`**: no node is merged with another.
-/

namespace SpanForest

namespace ListedEdge

variable {α : Type u} {payloads : List α} {edges : List ListedEdge} {count : Nat}
  {tieBreak : TieBreak}

/-! ## Additions -/

/-- Both numbers of an edge are below the given count. -/
def Below (count : Nat) (e : ListedEdge) : Prop := e.left < count ∧ e.right < count

/-- A numbered edge as the edge of a graph, at its place in the order of
    insertion. -/
def placed (e : ListedEdge) (place : Nat) : Edge Int := ⟨⟨e.left⟩, ⟨e.right⟩, e.weight, place⟩

/-- No edge with numbers below the count is left out. -/
theorem filterMap_addition? (h : ∀ e ∈ edges, Below count e) :
    edges.filterMap (addition? count) =
      edges.map fun e => (.addEdge ⟨e.left⟩ ⟨e.right⟩ e.weight : Action α Int) := by
  rw [← List.filterMap_eq_map]
  apply List.filterMap_congr
  intro e he
  exact if_pos (h e he)

theorem adds_of_mem_additions {action : Action α Int} (h : action ∈ additions payloads edges) :
    action.adds = true := by
  unfold additions at h
  rcases List.mem_append.1 h with h | h
  · obtain ⟨data, -, rfl⟩ := List.mem_map.1 h
    rfl
  · obtain ⟨e, -, he⟩ := List.mem_filterMap.1 h
    unfold addition? at he
    split at he
    · obtain rfl := Option.some.inj he
      rfl
    · cases he

end ListedEdge

/-! ## Running additions -/

namespace Session

variable {α : Type u} {payloads : List α} {edges : List ListedEdge} {s : Session α Int}

/-- The graph of a session after additions of nodes. -/
theorem run_addNodes (s : Session α Int) (payloads : List α) :
    let g := (s.run (payloads.map .addNode)).session.graph
    (g.nodes.toList.map Node.data = s.graph.nodes.toList.map Node.data ++ payloads) ∧
      g.edges = s.graph.edges := by
  induction payloads generalizing s with
  | nil => exact ⟨(List.append_nil _).symm, rfl⟩
  | cons data rest ih =>
    obtain ⟨hnodes, hedges⟩ := ih (s.step (.addNode data)).session
    refine ⟨hnodes.trans ?_, hedges⟩
    show (s.graph.nodes.push _).toList.map Node.data ++ rest = _
    rw [Array.toList_push, List.map_append, List.append_assoc]
    rfl

/-- The graph of a session after additions of edges. -/
theorem run_addEdges (s : Session α Int) (edges : List ListedEdge) :
    let g := (s.run (edges.map fun e =>
      .addEdge ⟨e.left⟩ ⟨e.right⟩ e.weight)).session.graph
    g.nodes = s.graph.nodes ∧ g.edges.toList = s.graph.edges.toList ++
      (edges.zipIdx s.graph.edgeCount).map fun (e, place) => e.placed place := by
  induction edges generalizing s with
  | nil => exact ⟨rfl, (List.append_nil _).symm⟩
  | cons e rest ih =>
    obtain ⟨hnodes, hedges⟩ := ih (s.step (.addEdge ⟨e.left⟩ ⟨e.right⟩ e.weight)).session
    refine ⟨hnodes, hedges.trans ?_⟩
    have hcount : (s.step (.addEdge ⟨e.left⟩ ⟨e.right⟩ e.weight)).session.graph.edgeCount =
        s.graph.edgeCount + 1 := Array.size_push ..
    rw [hcount]
    show (s.graph.edges.push _).toList ++ _ = _
    rw [Array.toList_push, List.zipIdx_cons, List.map_cons, List.append_assoc]
    rfl

end Session

namespace ListedEdge

variable {α : Type u} {payloads : List α} {edges : List ListedEdge} {tieBreak : TieBreak}
  {g : Graph α Int}

/-- The graph that additions make of payloads and numbered edges. -/
def loaded (tieBreak : TieBreak) (payloads : List α) (edges : List ListedEdge) : Graph α Int :=
  (Session.reached tieBreak (additions payloads edges)).graph

section loaded

variable (hg : g = loaded tieBreak payloads edges)
include hg

theorem lawful_loaded : g.Lawful := hg ▸ Session.lawful_reached ..

theorem tieBreak_loaded : g.tieBreak = tieBreak := hg ▸ Session.tieBreak_reached ..

/-- No node is merged with another. -/
theorem unmerged_loaded : g.Unmerged :=
  hg ▸ Session.unmerged_reached fun _ => adds_of_mem_additions

/-- Every handle represents itself, for it is in one class with what represents
    it. -/
theorem find_loaded (x : NodeId) : g.partition.find x = x := by
  have hclasses : g.partition.classes = ⊥ := unmerged_loaded hg
  have hsame := Partition.classes_iff.2 ((lawful_loaded hg).wellLinked.find_find x)
  rwa [hclasses] at hsame

variable (hbelow : ∀ e ∈ edges, Below payloads.length e)
include hbelow

theorem graph_loaded : g.nodes.toList.map Node.data = payloads ∧
    g.edges.toList = edges.zipIdx.map fun (e, place) => e.placed place := by
  -- The session between the additions of nodes and those of edges.
  let s : Session α Int := ((Session.empty tieBreak).run (payloads.map .addNode)).session
  obtain ⟨hdata, hnone⟩ := (Session.empty tieBreak : Session α Int).run_addNodes payloads
  obtain ⟨hnodes, hedges⟩ := s.run_addEdges edges
  have hsession : g = (s.run (edges.map fun e =>
      .addEdge ⟨e.left⟩ ⟨e.right⟩ e.weight)).session.graph := by
    rw [hg, loaded, Session.reached, additions, filterMap_addition? hbelow, Session.run_append]
  have hempty : s.graph.edges = #[] := hnone
  have hcount : s.graph.edgeCount = 0 := congrArg Array.size hempty
  rw [hempty, hcount] at hedges
  rw [hsession, hnodes]
  exact ⟨hdata, hedges⟩

theorem nodeCount_loaded : g.nodeCount = payloads.length := by
  have hlength := congrArg List.length (graph_loaded hg hbelow).1
  rw [List.length_map, Array.length_toList] at hlength
  exact hlength

/-- Node `k` carries payload `k`. -/
theorem node?_loaded (x : NodeId) :
    g.node? x = payloads[x.index]?.map fun data => ⟨x, data⟩ := by
  have hdata := congrArg (fun list => list[x.index]?) (graph_loaded hg hbelow).1
  simp only [List.getElem?_map, Array.getElem?_toList] at hdata
  unfold Graph.node?
  rw [← hdata]
  cases hnode : g.nodes[x.index]? with
  | none => rfl
  | some node =>
    have hid := (lawful_loaded hg).nodes_numbered x.index node hnode
    obtain ⟨id, data⟩ := node
    obtain rfl : id = x := hid
    rfl

theorem nodes_loaded : g.nodes.toList = payloads.mapIdx fun k data => ⟨⟨k⟩, data⟩ := by
  apply List.ext_getElem?
  intro k
  rw [List.getElem?_mapIdx, Array.getElem?_toList]
  exact node?_loaded hg hbelow ⟨k⟩

theorem edges_loaded : g.edges.toList = edges.zipIdx.map fun (e, place) => e.placed place :=
  (graph_loaded hg hbelow).2

/-- Every edge joins two nodes. -/
theorem joinsNodes_loaded {e : Edge Int} (he : e ∈ g.edges) : g.joinsNodes e = true := by
  rw [← Array.mem_toList_iff, edges_loaded hg hbelow] at he
  obtain ⟨⟨listed, place⟩, hlisted, rfl⟩ := List.mem_map.1 he
  have hmem : listed ∈ edges := List.fst_mem_of_mem_zipIdx hlisted
  rw [Graph.joinsNodes_iff]
  unfold Graph.HasNode
  rw [nodeCount_loaded hg hbelow]
  exact hbelow listed hmem

end loaded

end ListedEdge

end SpanForest
