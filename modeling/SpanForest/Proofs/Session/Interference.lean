import SpanForest.Proofs.Linking.Components
import SpanForest.Proofs.Session.Moves
import SpanForest.Proofs.Traversal.Alone
import SpanForest.Proofs.Traversal.Reports

/-! # A traversal among any other actions

    While a traversal goes on, others may merge sets, and they may merge the
    endpoints of its pending edge before it hands that edge out. Then it is
    not true that each edge handed out merges two sets. It is true that each
    edge joins two components of the traversal's own edges, and this is why
    the summary of a finished traversal counts components correctly.

    * **`OwnForest`**: what holds of the traversal. Its own edges, the pending
      one included, close no cycle, and those handed out are merged.
    * **`OwnForest.turn`**: its own turns keep this. That the merges of others
      keep it as well is **`OwnForest.mono`**.
    * **`Watched`**: the same, of a session.
    * **`interfered_summary`**: the main result.
-/

namespace SpanForest

variable {α : Type u} {ω : Type v}

/-! ## One traversal -/

/-- The edge found by looking ahead joins two sets, so it closes no cycle with
    edges that are merged. -/
theorem Traversal.independent_advance {t : Traversal ω} {p : Partition} {e : Edge ω}
    {merged : List (Edge ω)} (he : (t.advance p).pending = some e)
    (hmerged : ∀ e ∈ merged, p.classes e.first e.second) (h : Independent ⊥ merged) :
    Independent ⊥ (merged ++ [e]) := by
  refine independent_concat.2 ⟨h, ?_⟩
  have hapart := Partition.sameSet_eq_false_iff.1 (not_sameSet_of_advance he)
  have hle : linked ⊥ merged ≤ p.classes := linked_le_iff.2 ⟨bot_le, hmerged⟩
  exact fun hlinked => hapart (hle hlinked)

/-- A traversal of the edges in `snapshot` has reported what is in `past`, and
    its graph has the classes `s` now. -/
structure OwnForest (snapshot : List (Edge ω)) (s : Setoid NodeId) (t : Traversal ω)
    (past : List Notice) : Prop where
  /-- All edges are taken from the snapshot. -/
  taken : ∀ e ∈ t.emitted.toList ++ (t.pending.toList ++ t.queue), e ∈ snapshot
  /-- What was handed out is merged. -/
  merged : ∀ e ∈ t.emitted.toList, s e.first e.second
  /-- What was handed out or is pending closes no cycle. -/
  independent : Independent ⊥ (t.emitted.toList ++ t.pending.toList)
  /-- What was handed out was reported, in this order. -/
  reported : t.emitted.toList.map Edge.acceptance = past.filter Notice.isAcceptance

namespace OwnForest

variable {snapshot : List (Edge ω)} {s s' : Setoid NodeId} {t t' : Traversal ω}
  {past notices : List Notice} {p : Partition} {g g' : Graph α ω} {e : Edge ω}

theorem emitted_independent (h : OwnForest snapshot s t past) :
    Independent ⊥ t.emitted.toList :=
  (independent_append.1 h.independent).1

/-- Merges by others do no harm. -/
theorem mono (h : OwnForest snapshot s t past) (hs : s ≤ s') : OwnForest snapshot s' t past where
  taken := h.taken
  merged := fun e he => hs (h.merged e he)
  independent := h.independent
  reported := h.reported

/-- The edge found by looking ahead joins two sets, so it joins two components
    of what was handed out and merged before. -/
theorem advance (htaken : ∀ e ∈ t.emitted.toList ++ t.queue, e ∈ snapshot)
    (hmerged : ∀ e ∈ t.emitted.toList, p.classes e.first e.second)
    (hindependent : Independent ⊥ t.emitted.toList)
    (hreported : t.emitted.toList.map Edge.acceptance = past.filter Notice.isAcceptance) :
    OwnForest snapshot p.classes (t.advance p) past where
  taken := by
    intro e he
    apply htaken
    rw [t.queue_eq_advance p]
    rcases List.mem_append.1 he with he | he
    · exact List.mem_append_left _ he
    · exact List.mem_append_right _ (List.mem_append_right _ he)
  merged := hmerged
  independent := by
    show Independent ⊥ (t.emitted.toList ++ (t.advance p).pending.toList)
    cases he : (t.advance p).pending with
    | none => rwa [Option.toList_none, List.append_nil]
    | some e => exact Traversal.independent_advance he hmerged hindependent
  reported := hreported

theorem start [Ord ω] (g : Graph α ω) :
    OwnForest g.edges.toList g.partition.classes (.start g) (Traversal.startNotices g) := by
  refine advance ?_ ?_ (independent_nil ⊥) (Traversal.filter_startNotices g).symm
  · intro e he
    exact (List.mergeSort_perm g.edges.toList _).mem_iff.1 he
  · intro e he
    exact absurd he List.not_mem_nil

theorem emit (h : OwnForest snapshot g.partition.classes t past) (hg : g.Lawful)
    (hnodes : ∀ e ∈ snapshot, g.joinsNodes e = true) (he : t.pending = some e) :
    OwnForest snapshot (t.emit g e).graph.partition.classes (t.emit g e).traversal
      (past ++ (t.emit g e).notices) := by
  have htaken := h.taken
  have hindependent := h.independent
  rw [he] at htaken hindependent
  have hjoins : g.joinsNodes e = true := by
    refine hnodes e (htaken e ?_)
    exact List.mem_append_right _ List.mem_cons_self
  -- Both endpoints are nodes, so after the merge they are in one set, whether
  -- or not they were before.
  have hself := hg.classes_union_self hjoins
  have hpushed : (t.emitted.push e).toList = t.emitted.toList ++ [e] := Array.toList_push
  refine advance (t := { t with emitted := t.emitted.push e }) ?_ ?_ ?_ ?_
  · intro e' he'
    rw [hpushed, List.append_assoc] at he'
    exact htaken e' he'
  · intro e' he'
    rw [hpushed, List.mem_append] at he'
    show (g.partition.union e.first e.second).classes e'.first e'.second
    rcases he' with he' | he'
    · exact hg.wellLinked.classes_le_union _ _ (h.merged e' he')
    · obtain rfl := List.mem_singleton.1 he'
      exact hself
  · rw [hpushed]
    exact hindependent
  · rw [hpushed, List.map_append, h.reported, List.filter_append, Traversal.filter_emitNotices]
    rfl

theorem turn (h : OwnForest snapshot g.partition.classes t past) (hg : g.Lawful)
    (hnodes : ∀ e ∈ snapshot, g.joinsNodes e = true) (hturn : t.Turn g notices t' g') :
    OwnForest snapshot g'.partition.classes t' (past ++ notices) := by
  cases hturn with
  | refuse _ =>
    refine ⟨h.taken, h.merged, h.independent, ?_⟩
    rw [List.filter_append, h.reported]
    exact (List.append_nil _).symm
  | fuse _ =>
    rw [List.append_nil]
    exact ⟨h.taken, h.merged, h.independent, h.reported⟩
  | emit e _ he => exact h.emit hg hnodes he

end OwnForest

/-! ## Its session -/

namespace Session

variable [Ord ω]

/-- The traversal of the given number took its edges from `snapshot`, which
    join nodes, and has reported what is in `past`. -/
structure Watched (snapshot : List (Edge ω)) (number : Nat) (s : Session α ω)
    (past : List Notice) : Prop where
  /-- The graph is lawful. -/
  lawful : s.graph.Lawful
  /-- The edges of the snapshot join nodes. -/
  joins : ∀ e ∈ snapshot, s.graph.joinsNodes e = true
  /-- There is such a traversal, and its own edges form a forest. -/
  ownForest : ∃ t, s.traversals[number]? = some t ∧
    OwnForest snapshot s.graph.partition.classes t past

namespace Watched

variable {snapshot : List (Edge ω)} {number : Nat} {s s' : Session α ω} {past : List Notice}

theorem start (hs : s.graph.Lawful) (hnodes : ∀ e ∈ s.graph.edges, s.graph.joinsNodes e = true) :
    Watched s.graph.edges.toList s.traversals.size (s.step .start).session
      (s.step .start).notices where
  lawful := hs
  joins := by
    intro e he
    exact hnodes e (Array.mem_toList_iff.1 he)
  ownForest := ⟨.start s.graph, Array.getElem?_push_size, .start s.graph⟩

/-- Every move keeps this, whoever makes it. -/
theorem move {agent : Agent} {notices : List Notice} (hmove : Move s agent notices s')
    (h : Watched snapshot number s past) :
    Watched snapshot number s' (if agent = .traversal number then past ++ notices else past) := by
  obtain ⟨t, ht, hforest⟩ := h.ownForest
  refine ⟨hmove.lawful h.lawful, fun e he => hmove.joinsNodes (h.joins e he), ?_⟩
  by_cases hagent : agent = .traversal number
  · rw [if_pos hagent]
    obtain ⟨t', ht', hturn⟩ := hmove.own_turn hagent ht
    exact ⟨t', ht', hforest.turn h.lawful h.joins hturn⟩
  · rw [if_neg hagent]
    exact ⟨t, hmove.getElem?_traversals hagent ht, hforest.mono (hmove.classes_le h.lawful)⟩

theorem run (h : Watched snapshot number s past) (actions : List (Action α ω)) :
    Watched snapshot number (s.run actions).session (past ++ noticesOf number s actions) :=
  history_induction number (fun _ => True) (Watched snapshot number)
    (fun hmove _ hs => hs.move hmove) (fun _ _ _ => trivial) past h

/-- A traversal is watched from its beginning on. -/
theorem run_start (hs : s.graph.Lawful)
    (hnodes : ∀ e ∈ s.graph.edges, s.graph.joinsNodes e = true) (later : List (Action α ω)) :
    Watched s.graph.edges.toList s.traversals.size (s.run (.start :: later)).session
      (noticesOf s.traversals.size s (.start :: later)) := by
  have hagent : s.agent .start = .traversal s.traversals.size := rfl
  rw [noticesOf, if_pos hagent]
  exact (start hs hnodes).run later

end Watched

/-! ## Finishing -/

theorem run_append (s : Session α ω) (first later : List (Action α ω)) :
    (s.run (first ++ later)).session = ((s.run first).session.run later).session := by
  induction first generalizing s with
  | nil => rfl
  | cons action rest ih => exact ih (s.step action).session

/-- The forest of a finished traversal sums up its edges on all nodes. -/
theorem forest_of_answer {s : Session α ω} {number : Nat} {f : Forest ω} (hs : s.graph.Lawful)
    (h : (s.step (.finish number)).answer = .forest (.ok f)) :
    ∃ t, (s.step (.finish number)).session.traversals[number]? = some t ∧
      f = .ofEdges t.emitted s.graph.nodeCount := by
  rw [step] at h ⊢
  cases ht : s.traversals[number]? with
  | none =>
    rw [ask, ht] at h
    cases h
  | some t =>
    rw [ask, ht] at h ⊢
    have hfinish : (t.finish s.graph).answer = .ok f := Answer.forest.inj h
    rw [← hs.size_eq]
    exact ⟨_, getElem?_setIfInBounds_self ht _, Traversal.forest_of_finish hfinish⟩

/-! ## The main result -/

/-- Whatever happens in a session after a traversal of edges between nodes has
    begun, the edges that it has handed out close no cycle. When finishing it
    succeeds, the forest has all edges that the traversal ever handed out, in
    that order, and its counts are those of the graph with these edges. -/
theorem interfered_summary {tieBreak : TieBreak} {history later : List (Action α ω)}
    {s s' : Session α ω} {number : Nat} (hs : s = reached tieBreak history)
    (hnumber : number = s.traversals.size)
    (hnodes : ∀ e ∈ s.graph.edges, s.graph.joinsNodes e = true)
    (hs' : s' = (s.run (.start :: later)).session) :
    (∃ t, s'.traversals[number]? = some t ∧ CycleFree ⊥ t.emitted.toList ∧
      t.emitted.toList.map Edge.acceptance =
        (noticesOf number s (.start :: later)).filter Notice.isAcceptance) ∧
    ∀ f, (s'.step (.finish number)).answer = .forest (.ok f) →
      f.edges.toList ⊆ s.graph.edges.toList ∧
      f.edges.toList.map Edge.acceptance =
        (noticesOf number s (.start :: later ++ [.finish number])).filter Notice.isAcceptance ∧
      CycleFree ⊥ f.edges.toList ∧
      f.nodeCount = s'.graph.nodeCount ∧
      f.componentCount = components f.nodeCount f.edges.toList ∧
      f.componentCount + f.edges.size = f.nodeCount ∧
      (f.isTree = true ↔ 0 < f.nodeCount ∧
        ∀ x y, s'.graph.HasNode x → s'.graph.HasNode y → linked ⊥ f.edges.toList x y) := by
  have hlawful : s.graph.Lawful := hs ▸ lawful_reached tieBreak history
  subst hnumber
  have hbefore := Watched.run_start hlawful hnodes later
  rw [← hs'] at hbefore
  refine ⟨?_, ?_⟩
  · obtain ⟨t, ht, hforest⟩ := hbefore.ownForest
    exact ⟨t, ht, independent_iff_cycleFree.1 hforest.emitted_independent, hforest.reported⟩
  · intro f hanswer
    -- Finishing is one more action of the history.
    have hafter := Watched.run_start hlawful hnodes (later ++ [.finish s.traversals.size])
    have hlast : (s.run (.start :: (later ++ [.finish s.traversals.size]))).session =
        (s'.step (.finish s.traversals.size)).session := by
      rw [hs', ← List.cons_append, run_append]
      rfl
    rw [hlast] at hafter
    obtain ⟨t, ht, hforest⟩ := hafter.ownForest
    obtain ⟨t', ht', rfl⟩ := forest_of_answer hbefore.lawful hanswer
    obtain rfl := Option.some.inj (ht.symm.trans ht')
    have hindependent := hforest.emitted_independent
    have hsubset : ∀ e ∈ t.emitted.toList, e ∈ s.graph.edges.toList := by
      intro e he
      exact hforest.taken e (List.mem_append_left _ he)
    have hbounds : ∀ e ∈ t.emitted.toList,
        e.first.index < s'.graph.nodeCount ∧ e.second.index < s'.graph.nodeCount := by
      intro e he
      exact Graph.joinsNodes_iff.1 (hbefore.joins e (hsubset e he))
    exact ⟨hsubset, hforest.reported, independent_iff_cycleFree.1 hindependent, rfl,
      Forest.componentCount_ofEdges hindependent hbounds,
      Forest.componentCount_add_size hindependent hbounds,
      Forest.isTree_ofEdges_iff hindependent hbounds⟩

/-- The endpoints of a pending edge are merged from outside. It is handed out
    all the same, and leaves one component. -/
theorem interfered_summary_of_merged_pending :
    let s : Session Unit Int :=
      reached .insertionOrder [.addNode (), .addNode (), .addEdge ⟨0⟩ ⟨1⟩ 3]
    let s' := (s.run [.start, .union ⟨0⟩ ⟨1⟩]).session
    ∃ f, (s'.step (.finish 0)).answer = .forest (.ok f) ∧
      f.edges = #[⟨⟨0⟩, ⟨1⟩, 3, 0⟩] ∧ components 2 f.edges.toList = 1 ∧
      ∀ x y, s'.graph.HasNode x → s'.graph.HasNode y → linked ⊥ f.edges.toList x y := by
  intro s s'
  have hnodes : ∀ e ∈ s.graph.edges, s.graph.joinsNodes e = true := by decide
  have hanswer : (s'.step (.finish 0)).answer = .forest (.ok ⟨#[⟨⟨0⟩, ⟨1⟩, 3, 0⟩], 1, 2⟩) := by cbv
  obtain ⟨-, hfinish⟩ := interfered_summary rfl rfl hnodes rfl
  obtain ⟨-, -, -, -, hcount, -, htree⟩ := hfinish _ hanswer
  exact ⟨_, hanswer, rfl, hcount.symm, (htree.1 rfl).2⟩

end Session

end SpanForest
