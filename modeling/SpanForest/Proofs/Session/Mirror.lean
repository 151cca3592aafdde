import SpanForest.Proofs.Partition.History
import SpanForest.Proofs.Selection.Mirror
import SpanForest.Proofs.Session.Lone

/-! # Sessions in a mirror

    Two graphs are built with the same nodes and the same merges. One gets its
    edges in the opposite order and prefers the earliest of equally heavy
    edges, where the other one prefers the latest. Traversals of both, each
    left alone, hand out mirror images and merge the same sets in the same way.

    * **`Builds`**: what a history that builds a graph does; **`built_reached`**:
      the partition and the edges that it leaves.
    * **`Graph.edges_mirror`**: the edges of the two graphs are mirror images.
    * **`Mirrored`**: the relation between the sessions; **`Mirrored.step`** and
      **`Mirrored.run`**: questions keep it.
    * **`latestFirst_mirrors`**: the main result.
-/

namespace SpanForest

variable {α : Type u} {ω : Type v}

/-! ## Building graphs -/

/-- The action adds something to the graph, or merges two sets of it. -/
def Action.builds : Action α ω → Bool
  | .addNode _ | .addEdge _ _ _ | .union _ _ => true
  | _ => false

/-- What the action requests of the partition. -/
def Action.request? : Action α ω → Option Partition.Request
  | .addNode _ => some .makeSet
  | .union a b => some (.union a b)
  | _ => none

/-- What is said of the edge that the action adds. -/
def Action.stated? : Action α ω → Option (NodeId × NodeId × ω)
  | .addEdge first second weight => some (first, second, weight)
  | _ => none

/-- A history builds a graph: it makes the given requests of its partition and
    adds the given edges, each in the given order, and does nothing else. -/
structure Builds (history : List (Action α ω)) (requests : List Partition.Request)
    (edges : List (NodeId × NodeId × ω)) : Prop where
  /-- No traversal is begun or asked. -/
  builds : ∀ action ∈ history, action.builds = true
  /-- Nodes are added and sets are merged in this order. -/
  requests_eq : history.filterMap Action.request? = requests
  /-- Edges are added in this order, before or after any of the requests. -/
  edges_eq : history.filterMap Action.stated? = edges

namespace Session

variable [Ord ω] {s s' : Session α ω} {requests : List Partition.Request}
  {edges : List (NodeId × NodeId × ω)} {history : List (Action α ω)} {action : Action α ω}

/-- What the session of a graph that was built looks like. -/
structure Built (s : Session α ω) (requests : List Partition.Request)
    (edges : List (NodeId × NodeId × ω)) : Prop where
  /-- The partition has answered the requests. -/
  partition_eq : s.graph.partition = Partition.empty.replay requests
  /-- The graph has the edges. -/
  stated_eq : s.graph.edges.toList.map Edge.stated = edges
  /-- No traversal has begun. -/
  traversals_eq : s.traversals = #[]

namespace Built

theorem step (h : s.Built requests edges) (haction : action.builds = true) :
    (s.step action).session.Built (requests ++ action.request?.toList)
      (edges ++ action.stated?.toList) := by
  cases action with
  | addNode data =>
    refine ⟨?_, h.stated_eq.trans (List.append_nil _).symm, h.traversals_eq⟩
    show s.graph.partition.makeSet = Partition.empty.replay (requests ++ [.makeSet])
    rw [Partition.replay_concat, ← h.partition_eq]
    rfl
  | addEdge first second weight =>
    refine ⟨?_, ?_, h.traversals_eq⟩
    · show s.graph.partition = Partition.empty.replay (requests ++ [])
      rw [List.append_nil, h.partition_eq]
    · show (s.graph.edges.push _).toList.map Edge.stated = edges ++ [(first, second, weight)]
      rw [Array.toList_push, List.map_append, h.stated_eq]
      rfl
  | union a b =>
    refine ⟨?_, h.stated_eq.trans (List.append_nil _).symm, h.traversals_eq⟩
    show s.graph.partition.union a b = Partition.empty.replay (requests ++ [.union a b])
    rw [Partition.replay_concat, ← h.partition_eq]
    rfl
  | _ => exact absurd haction Bool.false_ne_true

theorem run (h : s.Built requests edges) (hbuilds : ∀ action ∈ history, action.builds = true) :
    (s.run history).session.Built (requests ++ history.filterMap Action.request?)
      (edges ++ history.filterMap Action.stated?) := by
  induction history generalizing s requests edges with
  | nil => simpa [Session.run] using h
  | cons action rest ih =>
    obtain ⟨haction, hrest⟩ := List.forall_mem_cons.1 hbuilds
    have hlast := ih (h.step haction) hrest
    simp only [List.filterMap_eq_flatMap_toList, List.flatMap_cons, List.append_assoc] at hlast ⊢
    exact hlast

omit [Ord ω] in
theorem edgeCount_eq (h : s.Built requests edges) : s.graph.edgeCount = edges.length := by
  rw [← h.stated_eq, List.length_map, Array.length_toList]
  rfl

/-- The first traversal that begins has the number zero. -/
theorem started (h : s.Built requests edges) :
    (s.step .start).session.traversals[0]? = some (.start s.graph) := by
  show (s.traversals.push _)[0]? = _
  rw [h.traversals_eq]
  rfl

end Built

theorem built_reached (tieBreak : TieBreak) (h : Builds history requests edges) :
    (reached tieBreak history).Built requests edges := by
  have hempty : (empty tieBreak : Session α ω).Built [] [] := ⟨rfl, rfl, rfl⟩
  have hlast := hempty.run h.builds
  rw [h.requests_eq, h.edges_eq] at hlast
  exact hlast

end Session

/-! ## Two graphs -/

section graphs

variable {g g' : Graph α ω} (hg : g.Lawful) (hg' : g'.Lawful)
  (hstated : g'.edges.toList.map Edge.stated = (g.edges.toList.map Edge.stated).reverse)
include hg hg' hstated

/-- Edges that were added in the opposite order are mirror images. -/
theorem Graph.edges_mirror :
    g'.edges.toList = (g.edges.toList.map (Edge.mirror g.edgeCount)).reverse := by
  have hcount : g'.edgeCount = g.edgeCount := by
    simpa [edgeCount] using congrArg List.length hstated
  apply Edge.list_eq_of_stated
  · rw [hstated, List.map_reverse, List.map_map]
    rfl
  · -- Counted from the end and read backwards, the places are 0, 1, 2 and so on.
    have hplaces : (g.edges.toList.map (Edge.mirror g.edgeCount)).map Edge.sequence =
        (List.range g.edgeCount).map (g.edgeCount - 1 - ·) := by
      rw [← hg.map_sequence, List.map_map, List.map_map]
      rfl
    rw [hg'.map_sequence, hcount, List.map_reverse, hplaces]
    apply List.ext_getElem <;> grind

/-- With opposite tie-breaks the mirror images are examined in the same order. -/
theorem Graph.arrange_mirror [Ord ω] [Std.TransOrd ω] (htie : g.tieBreak = .latestFirst)
    (htie' : g'.tieBreak = .insertionOrder) :
    g'.tieBreak.arrange g'.edges.toList =
      (g.tieBreak.arrange g.edges.toList).map (Edge.mirror g.edgeCount) := by
  have hbelow : ∀ e ∈ g.edges.toList, e.sequence < g.edgeCount := fun _ => hg.sequence_lt
  have harranged := hg.arranged
  have harranged' := hg'.arranged
  rw [htie] at harranged
  rw [htie'] at harranged'
  rw [htie, htie']
  apply harranged'.unique
  apply harranged.mirror hbelow
  rw [edges_mirror hg hg' hstated]
  exact List.reverse_perm _

end graphs

/-! ## Two traversals -/

/-- Whether the action takes an edge from a traversal. -/
def Action.takes : Action α ω → Bool
  | .pull _ | .next _ => true
  | _ => false

namespace Session

variable {s s' : Session α ω} {n number : Nat} {p : Partition} {order : List (Edge ω)}
  {action : Action α ω} {uses : List (Action α ω)}

/-- In both sessions a traversal is left alone. They began with the same
    partition, examine mirror images, and have handed out mirror images. -/
structure Mirrored (n number : Nat) (p : Partition) (order : List (Edge ω)) (s s' : Session α ω)
    (t t' : Traversal ω) : Prop where
  /-- The first traversal. -/
  left : s.traversals[number]? = some t
  /-- The second traversal. -/
  right : s'.traversals[number]? = some t'
  /-- The first one is left alone. -/
  alone_left : Traversal.Alone p order t s.graph
  /-- The second one is left alone with the mirrored edges. -/
  alone_right : Traversal.Alone p (order.map (Edge.mirror n)) t' s'.graph
  /-- The second one has handed out the mirrored edges. -/
  emitted_eq : t'.emitted.toList = t.emitted.toList.map (Edge.mirror n)

/-- An action that takes an edge takes the next one. -/
theorem Follows.handedOut_step [Ord ω] {handed reference : List (Edge ω)}
    (h : s.Follows number handed reference) (hask : action.asks number = true) :
    (s.step action).answer.handedOut =
      if action.takes then reference[handed.length]?.toList else [] := by
  cases action with
  | hasNext k =>
    obtain rfl := beq_iff_eq.1 hask
    rw [h.answer_hasNext]
    rfl
  | pull k =>
    obtain rfl := beq_iff_eq.1 hask
    rw [h.answer_pull]
    cases reference[handed.length]? <;> rfl
  | next k =>
    obtain rfl := beq_iff_eq.1 hask
    rw [h.answer_next]
    cases reference[handed.length]? <;> rfl
  | _ => exact absurd hask Bool.false_ne_true

namespace Mirrored

variable {t t' : Traversal ω} (h : Mirrored n number p order s s' t t')
include h

/-- The edges handed out are all that has changed the partitions. -/
theorem partition_eq : s'.graph.partition = s.graph.partition := by
  rw [h.alone_right.partition_eq, h.emitted_eq, Partition.absorb_mirror, h.alone_left.partition_eq]

variable [Ord ω]

/-- The same question hands out mirror images. -/
theorem handedOut_step (hask : action.asks number = true) :
    (s'.step action).answer.handedOut =
      (s.step action).answer.handedOut.map (Edge.mirror n) := by
  have hleft := follows_of_alone h.left h.alone_left
  have hright := follows_of_alone h.right h.alone_right
  rw [Partition.sift_mirror, h.emitted_eq] at hright
  rw [hleft.handedOut_step hask, hright.handedOut_step hask, List.length_map, List.getElem?_map]
  split
  · exact Option.toList_map ..
  · rfl

theorem step (hask : action.asks number = true) :
    ∃ u u', Mirrored n number p order (s.step action).session (s'.step action).session u u' := by
  obtain ⟨u, hu, halone, hemitted⟩ := alone_step hask h.left h.alone_left
  obtain ⟨u', hu', halone', hemitted'⟩ := alone_step hask h.right h.alone_right
  refine ⟨u, u', hu, hu', halone, halone', ?_⟩
  rw [hemitted, hemitted', h.emitted_eq, h.handedOut_step hask, List.map_append]

theorem run (hasks : ∀ action ∈ uses, action.asks number = true) :
    (s'.run uses).answer.flatMap Answer.handedOut =
        ((s.run uses).answer.flatMap Answer.handedOut).map (Edge.mirror n) ∧
      ∃ u u', Mirrored n number p order (s.run uses).session (s'.run uses).session u u' := by
  induction uses generalizing s s' t t' with
  | nil => exact ⟨rfl, t, t', h⟩
  | cons action rest ih =>
    obtain ⟨hask, hrest⟩ := List.forall_mem_cons.1 hasks
    obtain ⟨u, u', hstep⟩ := h.step hask
    obtain ⟨hlater, hlast⟩ := ih hstep hrest
    refine ⟨?_, hlast⟩
    show (s'.step action).answer.handedOut ++ _ = ((s.step action).answer.handedOut ++ _).map _
    rw [List.map_append, ← h.handedOut_step hask]
    exact congrArg _ hlater

/-- Finishing both traversals sums up mirror images, and leaves one partition. -/
theorem finish : ∃ forest forest',
    (s.step (.finish number)).answer = .forest (.ok forest) ∧
      (s'.step (.finish number)).answer = .forest (.ok forest') ∧
      forest.edges.toList = p.sift order ∧
      forest'.edges.toList = forest.edges.toList.map (Edge.mirror n) ∧
      (s'.step (.finish number)).session.graph.partition =
        (s.step (.finish number)).session.graph.partition := by
  obtain ⟨forest, hanswer, hedges⟩ := (follows_of_alone h.left h.alone_left).answer_finish
  obtain ⟨forest', hanswer', hedges'⟩ := (follows_of_alone h.right h.alone_right).answer_finish
  refine ⟨forest, forest', hanswer, hanswer', hedges, ?_, ?_⟩
  · rw [hedges, hedges', Partition.sift_mirror]
  · rw [Session.step, Session.step, ask_of_some h.left, ask_of_some h.right]
    show (t'.finish s'.graph).graph.partition = (t.finish s.graph).graph.partition
    rw [h.alone_left.partition_finish, h.alone_right.partition_finish, Partition.absorb_mirror]

end Mirrored

/-! ## The main result -/

section main

variable [Ord ω] [Std.TransOrd ω] {requests : List Partition.Request}
  {edges : List (NodeId × NodeId × ω)}

theorem mirrored_start (hs : s.Built requests edges) (hs' : s'.Built requests edges.reverse)
    (hlawful : s.graph.Lawful) (hlawful' : s'.graph.Lawful)
    (htie : s.graph.tieBreak = .latestFirst) (htie' : s'.graph.tieBreak = .insertionOrder) :
    Mirrored edges.length 0 s.graph.partition (s.graph.tieBreak.arrange s.graph.edges.toList)
      (s.step .start).session (s'.step .start).session (.start s.graph) (.start s'.graph) where
  left := hs.started
  right := hs'.started
  alone_left := Traversal.alone_start s.graph
  alone_right := by
    have hstated : s'.graph.edges.toList.map Edge.stated =
        (s.graph.edges.toList.map Edge.stated).reverse := by
      rw [hs.stated_eq, hs'.stated_eq]
    have hstart := Traversal.alone_start s'.graph
    rw [Graph.arrange_mirror hlawful hlawful' hstated htie htie', hs.edgeCount_eq,
      hs'.partition_eq, ← hs.partition_eq] at hstart
    exact hstart
  emitted_eq := rfl

/-- Two histories build graphs with the same nodes and merges, and with the same
    edges in opposite orders. A traversal that prefers the latest edge in the
    first graph and one that prefers the earliest edge in the second graph are
    asked the same questions. At any time they have handed out mirror images,
    in the same order, and the partitions are the same, with every parent and
    every rank; and so it is after both are drained. -/
theorem latestFirst_mirrors {history history' uses : List (Action α ω)}
    (hbuilds : Builds history requests edges) (hbuilds' : Builds history' requests edges.reverse)
    (huses : ∀ action ∈ uses, action.asks 0 = true) :
    let latest := ((reached .latestFirst history).step .start).session.run uses
    let earliest := ((reached .insertionOrder history').step .start).session.run uses
    let drained := latest.session.step (.finish 0)
    let drained' := earliest.session.step (.finish 0)
    earliest.answer.flatMap Answer.handedOut =
        (latest.answer.flatMap Answer.handedOut).map (Edge.mirror edges.length) ∧
      earliest.session.graph.partition = latest.session.graph.partition ∧
      ∃ forest forest',
        drained.answer = .forest (.ok forest) ∧ drained'.answer = .forest (.ok forest') ∧
          forest'.edges.toList = forest.edges.toList.map (Edge.mirror edges.length) ∧
          (∀ e ∈ forest.edges.toList, e.sequence < edges.length) ∧
          drained'.session.graph.partition = drained.session.graph.partition := by
  intro latest earliest drained drained'
  have hlawful := lawful_reached .latestFirst history
  have hbuilt := built_reached .latestFirst hbuilds
  have hstart := mirrored_start hbuilt (built_reached .insertionOrder hbuilds') hlawful
    (lawful_reached _ _) (tieBreak_reached _ _) (tieBreak_reached _ _)
  obtain ⟨hhanded, t, t', hlast⟩ := hstart.run huses
  obtain ⟨forest, forest', hanswer, hanswer', hsift, hedges, hpartition⟩ := hlast.finish
  refine ⟨hhanded, hlast.partition_eq, forest, forest', hanswer, hanswer', hedges, ?_, hpartition⟩
  intro e he
  rw [hsift] at he
  have hmem := (perm_arrange _ _).subset ((Partition.sift_sublist _ _).subset he)
  rw [← hbuilt.edgeCount_eq]
  exact hlawful.sequence_lt hmem

/-- All weights are equal, one edge has an endpoint that is no node, and the
    first merge comes too early. The places 3, 2, 1 become 0, 1, 2. -/
theorem latestFirst_mirrors_of_tied_edges :
    let history : List (Action Unit Int) :=
      [.union ⟨0⟩ ⟨1⟩, .addNode (), .addNode (), .addEdge ⟨0⟩ ⟨1⟩ 5, .addEdge ⟨1⟩ ⟨2⟩ 5,
        .addNode (), .addNode (), .union ⟨2⟩ ⟨3⟩, .addEdge ⟨3⟩ ⟨0⟩ 5, .addEdge ⟨0⟩ ⟨9⟩ 5]
    let history' : List (Action Unit Int) :=
      [.addEdge ⟨0⟩ ⟨9⟩ 5, .addEdge ⟨3⟩ ⟨0⟩ 5, .union ⟨0⟩ ⟨1⟩, .addNode (), .addNode (),
        .addNode (), .addNode (), .union ⟨2⟩ ⟨3⟩, .addEdge ⟨1⟩ ⟨2⟩ 5, .addEdge ⟨0⟩ ⟨1⟩ 5]
    let latest := ((reached .latestFirst history).step .start).session.run [.pull 0, .hasNext 0]
    let earliest :=
      ((reached .insertionOrder history').step .start).session.run [.pull 0, .hasNext 0]
    ∃ forest forest',
      (latest.session.step (.finish 0)).answer = .forest (.ok forest) ∧
        (earliest.session.step (.finish 0)).answer = .forest (.ok forest') ∧
        forest.edges.toList = [⟨⟨0⟩, ⟨9⟩, 5, 3⟩, ⟨⟨3⟩, ⟨0⟩, 5, 2⟩, ⟨⟨1⟩, ⟨2⟩, 5, 1⟩] ∧
        forest'.edges.toList = [⟨⟨0⟩, ⟨9⟩, 5, 0⟩, ⟨⟨3⟩, ⟨0⟩, 5, 1⟩, ⟨⟨1⟩, ⟨2⟩, 5, 2⟩] ∧
        (earliest.session.step (.finish 0)).session.graph.partition =
          (latest.session.step (.finish 0)).session.graph.partition := by
  intro history history' latest earliest
  let edges : List (NodeId × NodeId × Int) :=
    [(⟨0⟩, ⟨1⟩, 5), (⟨1⟩, ⟨2⟩, 5), (⟨3⟩, ⟨0⟩, 5), (⟨0⟩, ⟨9⟩, 5)]
  have hbuilds : Builds history
      [.union ⟨0⟩ ⟨1⟩, .makeSet, .makeSet, .makeSet, .makeSet, .union ⟨2⟩ ⟨3⟩] edges :=
    ⟨by decide, rfl, rfl⟩
  have hbuilds' : Builds history'
      [.union ⟨0⟩ ⟨1⟩, .makeSet, .makeSet, .makeSet, .makeSet, .union ⟨2⟩ ⟨3⟩] edges.reverse :=
    ⟨by decide, rfl, rfl⟩
  have huses : ∀ action ∈ [Action.pull 0, .hasNext 0],
      Action.asks (α := Unit) (ω := Int) 0 action = true := by decide
  obtain ⟨-, -, forest, forest', hanswer, hanswer', hedges, -, hpartition⟩ :=
    latestFirst_mirrors hbuilds hbuilds' huses
  have hforest : (latest.session.step (.finish 0)).answer = .forest (.ok
      ⟨#[⟨⟨0⟩, ⟨9⟩, 5, 3⟩, ⟨⟨3⟩, ⟨0⟩, 5, 2⟩, ⟨⟨1⟩, ⟨2⟩, 5, 1⟩], 1, 4⟩) := by cbv
  obtain rfl := Except.ok.inj (Answer.forest.inj (hanswer.symm.trans hforest))
  exact ⟨_, forest', hanswer, hanswer', rfl, hedges, hpartition⟩

end main

end Session

end SpanForest
