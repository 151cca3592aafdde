import SpanForest.Proofs.Session.Additions
import SpanForest.Proofs.Session.Interference
import SpanForest.Proofs.Session.Mirror

/-! # The books of a graph

    A graph keeps its nodes, its edges and a partition apart from each other, and
    counts its additions. Each operation writes some of these, and traversals
    reach into the partition whenever they are asked. The books agree all the
    same, and what has been entered stays.

    * **`Graph.Bookkept`**: how the books agree; **`Graph.Lawful.bookkept`**:
      those of every lawful graph do.
    * **`nodes_step`**, **`edges_step`**: what one action enters.
    * **`entries_reached`**: what a whole history enters, one action after
      another.
    * **`nodes_reached`**, **`edges_reached`**: the nodes and edges are those
      that were added, numbered in order.
    * **`bookkept_reached`**: the main result.
-/

namespace SpanForest

variable {α : Type u} {ω : Type v}

/-! ## Counting representatives -/

namespace Partition

variable {p : Partition} {x : NodeId}

theorem componentCount_le_size (p : Partition) : p.componentCount ≤ p.size := by
  unfold componentCount
  have hle := List.countP_le_length (p := p.isRepresentative) (l := p.handles)
  simpa [handles] using hle

/-- A handle has a representative, so there is a class. -/
theorem WellLinked.componentCount_pos (hp : p.WellLinked) (hx : p.Issued x) :
    0 < p.componentCount := by
  have hroot : p.find x ∈ p.handles := mem_handles.2 (hp.issued_find_iff.2 hx)
  have hself : p.isRepresentative (p.find x) = true :=
    hp.isRepresentative_iff.2 (hp.find_find x)
  exact List.countP_pos_iff.2 ⟨p.find x, hroot, hself⟩

/-- The parents that are stored have been issued. -/
theorem WellLinked.issued_of_mem_slots {slot : Slot} (hp : p.WellLinked)
    (hslot : slot ∈ p.slots) : p.Issued slot.parent := by
  obtain ⟨k, hk⟩ := Array.mem_iff_getElem?.1 hslot
  obtain ⟨hissued, -⟩ := Array.getElem?_eq_some_iff.1 hk
  have hparent : p.parent ⟨k⟩ = slot.parent := by simp [parent, hk]
  rw [← hparent]
  exact hp.issued_parent hissued

end Partition

/-! ## Books that agree -/

namespace Graph

variable {g : Graph α ω}

/-- The books of a graph agree. -/
structure Bookkept (g : Graph α ω) : Prop where
  /-- The partition has one slot for each node. -/
  slots_size : g.partition.slots.size = g.nodes.size
  /-- A node has the handle of its place. -/
  node_id : ∀ (k : Nat) (node : Node α), g.nodes[k]? = some node → node.id = ⟨k⟩
  /-- An edge has the number of its place. -/
  edge_sequence : ∀ (k : Nat) (e : Edge ω), g.edges[k]? = some e → e.sequence = k
  /-- Every parent that is stored is the handle of a node. -/
  parent_mem : ∀ slot ∈ g.partition.slots, ∃ node ∈ g.nodes, node.id = slot.parent
  /-- All additions are counted, up to the limit. -/
  modificationCount_eq : g.modificationCount = min (g.nodeCount + g.edgeCount) (2 ^ 64 - 1)
  /-- Where there is a node, there is a set. -/
  one_le_componentCount : 0 < g.nodeCount → 1 ≤ g.partition.componentCount
  /-- There are no more sets than nodes. -/
  componentCount_le : g.partition.componentCount ≤ g.nodeCount

theorem Lawful.bookkept (hg : g.Lawful) : g.Bookkept where
  slots_size := hg.size_eq
  node_id := hg.nodes_numbered
  edge_sequence := hg.edges_numbered
  parent_mem := by
    intro slot hslot
    have hnode := hg.issued_iff.1 (hg.wellLinked.issued_of_mem_slots hslot)
    obtain ⟨data, hdata⟩ := hg.exists_node? hnode
    exact ⟨_, Array.mem_of_getElem? hdata, rfl⟩
  modificationCount_eq := hg.count_eq
  one_le_componentCount := by
    intro hpos
    have hfirst : g.partition.Issued ⟨0⟩ := hg.issued_iff.2 hpos
    exact hg.wellLinked.componentCount_pos hfirst
  componentCount_le := by
    have hle := g.partition.componentCount_le_size
    rwa [hg.size_eq] at hle

end Graph

/-! ## Entries -/

/-- The payload of the node that an action adds. -/
def Action.payload? : Action α ω → Option α
  | .addNode data => some data
  | _ => none

/-- What is numbered in order keeps its number when more follows. -/
theorem mapIdx_isPrefix {β : Type w} {γ : Type x} (enter : Nat → β → γ) (entries later : List β) :
    entries.mapIdx enter <+: (entries ++ later).mapIdx enter := by
  rw [List.mapIdx_append]
  exact List.prefix_append _ _

namespace Session

variable [Ord ω]

/-- An action enters a node if it adds one, and under the next number. -/
theorem nodes_step (s : Session α ω) (action : Action α ω) (hs : s.graph.Lawful) :
    (s.step action).session.graph.nodes.toList = s.graph.nodes.toList ++
      action.payload?.toList.map fun data => ⟨⟨s.graph.nodes.toList.length⟩, data⟩ := by
  cases action with
  | addNode data =>
    have hnext : s.graph.nextNode = ⟨s.graph.nodes.toList.length⟩ := NodeId.ext hs.size_eq
    show (s.graph.nodes.push ⟨s.graph.nextNode, data⟩).toList = _
    rw [Array.toList_push, hnext]
    rfl
  | addEdge first second weight => exact (List.append_nil _).symm
  | _ =>
    rw [s.step_graph_eq rfl]
    exact (List.append_nil _).symm

/-- An action enters an edge if it adds one, and under the next number. -/
theorem edges_step (s : Session α ω) (action : Action α ω) :
    (s.step action).session.graph.edges.toList = s.graph.edges.toList ++
      action.stated?.toList.map fun e => ⟨e.1, e.2.1, e.2.2, s.graph.edges.toList.length⟩ := by
  cases action with
  | addEdge first second weight =>
    show (s.graph.edges.push _).toList = _
    rw [Array.toList_push]
    rfl
  | addNode data => exact (List.append_nil _).symm
  | _ =>
    rw [s.step_graph_eq rfl]
    exact (List.append_nil _).symm

theorem reached_concat (tieBreak : TieBreak) (history : List (Action α ω))
    (action : Action α ω) : reached tieBreak (history ++ [action]) =
      ((reached tieBreak history).step action).session := by
  unfold reached
  rw [run_append]
  rfl

/-- A list that starts empty, and to which every action appends its entry under
    the next number, holds all entries of a history, numbered in order. -/
theorem entries_reached {β : Type w} {γ : Type x} (list : Session α ω → List γ)
    (entered? : Action α ω → Option β) (enter : Nat → β → γ) {tieBreak : TieBreak}
    (hempty : list (empty tieBreak) = [])
    (hstep : ∀ (s : Session α ω) (action : Action α ω), s.graph.Lawful →
      list (s.step action).session =
        list s ++ (entered? action).toList.map (enter (list s).length))
    (history : List (Action α ω)) :
    list (reached tieBreak history) = (history.filterMap entered?).mapIdx enter := by
  induction history using List.reverseRecOn with
  | nil => exact hempty
  | append_singleton history action ih =>
    have hlength : (list (reached tieBreak history)).length =
        (history.filterMap entered?).length := by rw [ih, List.length_mapIdx]
    rw [reached_concat, hstep _ action (lawful_reached tieBreak history), hlength, ih,
      List.filterMap_append, List.mapIdx_append]
    cases h : entered? action <;> simp [h]

/-- The nodes of a graph are those that were added, numbered in order. -/
theorem nodes_reached (tieBreak : TieBreak) (history : List (Action α ω)) :
    (reached tieBreak history).graph.nodes.toList =
      (history.filterMap Action.payload?).mapIdx fun k data => ⟨⟨k⟩, data⟩ :=
  entries_reached (fun s => s.graph.nodes.toList) Action.payload? _ rfl nodes_step history

/-- The edges of a graph are those that were added, numbered in order. -/
theorem edges_reached (tieBreak : TieBreak) (history : List (Action α ω)) :
    (reached tieBreak history).graph.edges.toList =
      (history.filterMap Action.stated?).mapIdx fun k e => ⟨e.1, e.2.1, e.2.2, k⟩ :=
  entries_reached (fun s => s.graph.edges.toList) Action.stated? _ rfl
    (fun s action _ => s.edges_step action) history

/-! ## The main result -/

/-- Whatever happens in a session, the books of its graph agree. The nodes and
    edges are those that were added, numbered in order, and nothing that comes
    later changes what is there. -/
theorem bookkept_reached (tieBreak : TieBreak) (history : List (Action α ω)) :
    (reached tieBreak history).graph.Bookkept ∧
    (reached tieBreak history).graph.nodes.toList =
      ((history.filterMap Action.payload?).mapIdx fun k data => ⟨⟨k⟩, data⟩) ∧
    (reached tieBreak history).graph.edges.toList =
      ((history.filterMap Action.stated?).mapIdx fun k e => ⟨e.1, e.2.1, e.2.2, k⟩) ∧
    ∀ later,
      (reached tieBreak history).graph.nodes.toList <+:
        (reached tieBreak (history ++ later)).graph.nodes.toList ∧
      (reached tieBreak history).graph.edges.toList <+:
        (reached tieBreak (history ++ later)).graph.edges.toList := by
  have hlawful : (reached tieBreak history).graph.Lawful := lawful_reached tieBreak history
  refine ⟨hlawful.bookkept, nodes_reached tieBreak history, edges_reached tieBreak history, ?_⟩
  intro later
  simp only [nodes_reached, edges_reached, List.filterMap_append]
  exact ⟨mapIdx_isPrefix _ _ _, mapIdx_isPrefix _ _ _⟩

/-- Merges and traversals in between, and an edge to a handle that is no node,
    leave the numbers of what is added. -/
example : (reached .latestFirst [.addNode 'a', .addEdge ⟨0⟩ ⟨9⟩ 3, .start, .pull 0, .addNode 'b',
      .union ⟨1⟩ ⟨0⟩, .finish 0] : Session Char Int).graph.nodes = #[⟨⟨0⟩, 'a'⟩, ⟨⟨1⟩, 'b'⟩] := by
  cbv

end Session

end SpanForest
