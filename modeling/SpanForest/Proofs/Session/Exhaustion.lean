import SpanForest.Proofs.Arrangement
import SpanForest.Proofs.Session.Additions
import SpanForest.Proofs.Traversal.Examination

/-! # An exhausted traversal has spanned its graph

    A traversal skips an edge only while its endpoints are in one set, and
    merges the endpoints of every edge that it hands out. No set is ever
    divided. So when nothing is left to hand out, the endpoints of every edge
    are in one set for good, whoever merged them, and a traversal that begins
    later skips all edges at once.

    * **`Traversal.Settled`**: an edge is left to examine, or its endpoints are
      in one set. Turns and the moves of others keep this.
    * **`Course`**, **`run_course`**: single changes one after another, each of
      which is as promised.
    * **`ConfirmsSkips`**: the promise that what is reported as skipped has its
      endpoints in one set.
    * **`BeginsSpent`**: a traversal that begins now has nothing to do.
    * **`exhausted_spans`**: the main result.
-/

namespace SpanForest

variable {α : Type u} {ω : Type v}

/-! ## Settled edges -/

namespace Traversal

variable {t t' : Traversal ω} {g g' : Graph α ω} {e : Edge ω} {edges : List (Edge ω)}
  {notices : List Notice}

theorem mem_prepare_queue [Ord ω] : e ∈ (prepare g).queue ↔ e ∈ g.edges :=
  (perm_arrange g.tieBreak g.edges.toList).mem_iff.trans Array.mem_toList_iff

/-- At its beginning a traversal has skipped an edge, or it has the edge left. -/
theorem mem_edges_iff [Ord ω] :
    e ∈ g.edges ↔ e ∈ (prepare g).skipped g.partition ∨ e ∈ (start g).unexamined := by
  rw [← mem_prepare_queue, (prepare g).queue_eq_advance g.partition]
  exact List.mem_append

/-- The edges join nodes, and those that the traversal has examined have their
    endpoints in one set. -/
structure Settled (edges : List (Edge ω)) (t : Traversal ω) (g : Graph α ω) : Prop where
  /-- The edges join nodes. -/
  joins : ∀ e ∈ edges, g.joinsNodes e = true
  /-- What has been examined is linked. -/
  linked : ∀ e ∈ edges, e ∈ t.unexamined ∨ g.partition.classes e.first e.second
  /-- When nothing is pending, nothing is left. -/
  ended : t.pending = none → t.queue = []

namespace Settled

theorem start [Ord ω] (g : Graph α ω) (hnodes : ∀ e ∈ g.edges, g.joinsNodes e = true) :
    Settled g.edges.toList (.start g) g where
  joins := fun e he => hnodes e (Array.mem_toList_iff.1 he)
  linked := by
    intro e he
    rcases mem_edges_iff.1 (Array.mem_toList_iff.1 he) with hskipped | hleft
    · exact .inr (Partition.sameSet_iff.1 (sameSet_of_mem_skipped hskipped))
    · exact .inl hleft
  ended := queue_of_advance_none

/-- An edge that is examined in a turn was skipped, with its endpoints in one
    set, or handed out, with its endpoints merged. -/
theorem turn (h : Settled edges t g) (hg : g.Lawful) (hturn : t.Turn g notices t' g') :
    Settled edges t' g' := by
  obtain ⟨fresh, hpasses, hfresh⟩ := hturn.passes
  refine ⟨?_, ?_, hpasses.ended h.ended⟩
  · rw [hturn.joinsNodes_eq]
    exact h.joins
  · intro e he
    rcases h.linked e he with hleft | hlinked
    -- It was left before; either this turn examined it, or it is left still.
    · rw [hpasses.split] at hleft
      rcases List.mem_append.1 hleft with hexamined | hleft
      · obtain ⟨v, hv, rfl⟩ := List.mem_map.1 hexamined
        have hverdict := hfresh v hv
        split at hverdict
        · rw [hverdict]
          exact .inr (hg.classes_union_self (h.joins v.edge he))
        · exact .inr (Partition.sameSet_iff.1 hverdict)
      · exact .inl hleft
    · exact .inr (hturn.classes_le hg hlinked)

/-- When nothing is pending, all edges are linked. -/
theorem of_ended (h : Settled edges t g) (hend : t.pending = none) :
    ∀ e ∈ edges, g.partition.classes e.first e.second := by
  have hnone : t.unexamined = [] := by
    rw [unexamined, hend, h.ended hend]
    rfl
  intro e he
  refine (h.linked e he).resolve_left ?_
  rw [hnone]
  exact List.not_mem_nil

end Settled

/-! ## Spent traversals -/

/-- Nothing is left when a traversal begins on a graph whose edges all have
    their endpoints in one set. -/
theorem unexamined_start [Ord ω] (h : ∀ e ∈ g.edges, g.partition.classes e.first e.second) :
    (start g).unexamined = [] := by
  have hnone : (prepare g).queue.dropWhile (isRedundant g.partition) = [] := by
    rw [List.dropWhile_eq_nil_iff]
    intro e he
    exact Partition.sameSet_iff.2 (h e (mem_prepare_queue.1 he))
  rw [start, advance, hnone]
  rfl

theorem pending_of_unexamined (h : t.unexamined = []) : t.pending = none := by
  cases he : t.pending with
  | none => rfl
  | some e =>
    rw [unexamined, he] at h
    cases h

/-- When nothing is left, a turn leaves the graph as it is. -/
theorem Turn.graph_eq (hturn : t.Turn g notices t' g') (h : t.unexamined = []) : g' = g := by
  cases hturn with
  | refuse _ => rfl
  | fuse _ => rfl
  | emit e _ he =>
    rw [pending_of_unexamined h] at he
    cases he

theorem Turn.unexamined_eq (hturn : t.Turn g notices t' g') (h : t.unexamined = []) :
    t'.unexamined = [] := by
  have hsub := hturn.unexamined_subset
  rw [h] at hsub
  exact List.subset_nil.1 hsub

end Traversal

namespace Session

variable [Ord ω] {s s' s'' : Session α ω} {agent : Agent} {notices later : List Notice}
  {actions : List (Action α ω)} {number : Nat}

/-! ## Courses -/

/-- A course of single changes, by any agents, in which each change is as
    promised: of every change, the promise is about what it reports and the
    session right after it. -/
inductive Course (Promise : List Notice → Session α ω → Prop) :
    Session α ω → List Notice → Session α ω → Prop where
  | refl (s : Session α ω) : Course Promise s [] s
  | head {s s' s'' : Session α ω} {agent : Agent} {first later : List Notice} :
      Move s agent first s' → Promise first s' → Course Promise s' later s'' →
      Course Promise s (first ++ later) s''

variable {Promise : List Notice → Session α ω → Prop}

theorem Course.trans (h : Course Promise s notices s') (h' : Course Promise s' later s'') :
    Course Promise s (notices ++ later) s'' := by
  induction h with
  | refl => exact h'
  | head hmove hpromise _ ih =>
    rw [List.append_assoc]
    exact .head hmove hpromise (ih h')

/-- If every move keeps an invariant and, under this invariant, its promise, then
    every run is a course. -/
theorem run_course (Inv : Session α ω → Prop)
    (hmove : ∀ {s agent notices s'}, Move s agent notices s' → Inv s →
      Inv s' ∧ Promise notices s')
    (hs : Inv s) (actions : List (Action α ω)) :
    Course Promise s (s.run actions).notices (s.run actions).session := by
  -- First the moves of one action, then the actions of the run.
  have hmoves : ∀ {s agent notices s'}, Moves agent s notices s' → Inv s →
      Inv s' ∧ Course Promise s notices s' := by
    intro s agent notices s' h hs
    induction h with
    | refl s => exact ⟨hs, .refl s⟩
    | head hone _ ih =>
      obtain ⟨hnext, hpromise⟩ := hmove hone hs
      obtain ⟨hlast, hcourse⟩ := ih hnext
      exact ⟨hlast, .head hone hpromise hcourse⟩
  induction actions generalizing s with
  | nil => exact .refl s
  | cons action rest ih =>
    obtain ⟨hnext, hcourse⟩ := hmoves (s.step_moves action) hs
    exact hcourse.trans (ih hnext)

/-! ## Skipping rightly -/

/-- Every edge that is reported as skipped is an edge of the graph, and has its
    endpoints in one set. -/
def ConfirmsSkips (notices : List Notice) (s : Session α ω) : Prop :=
  ∀ k, .edgeSkipped k ∈ notices →
    ∃ e, s.graph.edges[k]? = some e ∧ s.graph.partition.sameSet e.first e.second = true

/-- The graph is lawful, and what traversals have left to examine are edges of
    it. -/
structure LeftInGraph (s : Session α ω) : Prop where
  /-- The graph is lawful. -/
  lawful : s.graph.Lawful
  /-- What is left is an edge. -/
  left : ∀ t ∈ s.traversals, ∀ e ∈ t.unexamined, e ∈ s.graph.edges

theorem LeftInGraph.move (h : LeftInGraph s) (hmove : Move s agent notices s') :
    LeftInGraph s' := by
  refine ⟨hmove.lawful h.lawful, ?_⟩
  have hkept : ∀ t ∈ s.traversals, ∀ e ∈ t.unexamined, e ∈ s'.graph.edges := by
    intro t ht e he
    exact hmove.mem_edges (h.left t ht e he)
  -- Only a beginning and a turn change the traversals.
  cases hmove with
  | start =>
    intro t ht
    rcases Array.mem_push.1 ht with ht | rfl
    · exact hkept t ht
    · intro e he
      exact Traversal.mem_edges_iff.2 (.inr he)
  | turn ht₀ hturn =>
    intro t ht
    rcases Array.mem_or_eq_of_mem_setIfInBounds ht with ht | rfl
    · exact hkept t ht
    · intro e he
      exact hkept _ (Array.mem_of_getElem? ht₀) e (hturn.unexamined_subset he)
  | _ => exact hkept

theorem LeftInGraph.confirmsSkips (h : LeftInGraph s) (hmove : Move s agent notices s') :
    ConfirmsSkips notices s' := by
  intro k hk
  have hlawful := hmove.lawful h.lawful
  cases hmove with
  | addNode _ | addEdge _ _ _ => cases List.mem_singleton.1 hk
  | union _ _ => cases hk
  | start =>
    obtain ⟨e, hskip, rfl⟩ :=
      Traversal.exists_skip_of_reported (Traversal.verdicts_startNotices s.graph) hk
    have hskipped := Traversal.mem_skipped_of_skip hskip
    have hedge := Traversal.mem_edges_iff.2 (.inl hskipped)
    exact ⟨e, hlawful.getElem?_sequence hedge, Traversal.sameSet_of_mem_skipped hskipped⟩
  | turn ht hturn =>
    obtain ⟨e, he, rfl, hsame⟩ := hturn.skipped hk
    have hedge := h.left _ (Array.mem_of_getElem? ht) e he
    have hkept := (Move.turn ht hturn).mem_edges hedge
    exact ⟨e, hlawful.getElem?_sequence hkept, hsame⟩

theorem leftInGraph_reached (tieBreak : TieBreak) (history : List (Action α ω)) :
    LeftInGraph (reached tieBreak history) :=
  run_induction (fun _ => True) LeftInGraph (fun hmove _ hs => hs.move hmove)
    (fun _ _ _ => trivial)
    ⟨Graph.lawful_empty tieBreak, fun _ ht => absurd ht (Array.not_mem_empty _)⟩

/-! ## Settled edges in a history -/

/-- What is linked stays linked. -/
theorem classes_le_run (hs : s.graph.Lawful) (actions : List (Action α ω)) :
    s.graph.partition.classes ≤ (s.run actions).session.graph.partition.classes := by
  have hboth : (s.run actions).session.graph.Lawful ∧
      s.graph.partition.classes ≤ (s.run actions).session.graph.partition.classes := by
    refine run_induction (fun _ => True)
      (fun s' => s'.graph.Lawful ∧ s.graph.partition.classes ≤ s'.graph.partition.classes)
      ?_ (fun _ _ _ => trivial) ⟨hs, le_rfl⟩
    rintro s₁ agent notices s₂ hmove - ⟨hs₁, hle⟩
    exact ⟨hmove.lawful hs₁, hle.trans (hmove.classes_le hs₁)⟩
  exact hboth.2

theorem exists_settled (hs : s.graph.Lawful)
    (hnodes : ∀ e ∈ s.graph.edges, s.graph.joinsNodes e = true) (later : List (Action α ω)) :
    ∃ t, (s.run (.start :: later)).session.traversals[s.traversals.size]? = some t ∧
      Traversal.Settled s.graph.edges.toList t (s.run (.start :: later)).session.graph := by
  refine traversal_induction_start (fun t g _ => Traversal.Settled s.graph.edges.toList t g)
    ?_ ?_ later hs (.start s.graph hnodes)
  · intro t t' g g' notices past hg hturn h
    exact h.turn hg hturn
  · intro s₁ s₂ agent notices t past hs₁ hmove h
    refine ⟨fun e he => hmove.joinsNodes (h.joins e he), fun e he => ?_, h.ended⟩
    exact (h.linked e he).imp_right fun hlinked => hmove.classes_le hs₁ hlinked

/-! ## Traversals that begin spent -/

/-- A traversal that begins now has nothing to hand out, and says so until the
    next addition. Neither its beginning nor its use changes the graph. -/
structure BeginsSpent (s : Session α ω) : Prop where
  /-- The beginning changes nothing. -/
  graph_start : (s.step .start).session.graph = s.graph
  /-- Nothing is ever left. -/
  remaining_eq : ∀ after : List (Action α ω), ∃ t,
    (s.run (.start :: after)).session.traversals[s.traversals.size]? = some t ∧ t.remaining = 0
  /-- This is what it answers, until the next addition. -/
  answer_hasNext : ∀ after : List (Action α ω), (∀ action ∈ after, action.adds = false) →
    ((s.run (.start :: after)).session.step (.hasNext s.traversals.size)).answer =
      .available (.ok false)
  /-- Whatever it is asked changes nothing. -/
  graph_step : ∀ (after : List (Action α ω)) (action : Action α ω) (s' : Session α ω),
    s' = (s.run (.start :: after)).session → s'.agent action = .traversal s.traversals.size →
    (s'.step action).session.graph = s'.graph

/-- Moves of a traversal that has nothing left change nothing. -/
theorem Moves.graph_eq {t : Traversal ω} (h : Moves (.traversal number) s notices s')
    (ht : s.traversals[number]? = some t) (hnone : t.unexamined = []) : s'.graph = s.graph := by
  induction h generalizing t with
  | refl => rfl
  | head hmove _ ih =>
    obtain ⟨t', ht', hturn⟩ := hmove.own_turn rfl ht
    rw [ih ht' (hturn.unexamined_eq hnone), hturn.graph_eq hnone]

theorem exists_spent (hs : s.graph.Lawful)
    (hlinked : ∀ e ∈ s.graph.edges, s.graph.partition.classes e.first e.second)
    (after : List (Action α ω)) :
    ∃ t, (s.run (.start :: after)).session.traversals[s.traversals.size]? = some t ∧
      t.unexamined = [] :=
  traversal_induction_start (fun t _ _ => t.unexamined = [])
    (fun _ hturn h => hturn.unexamined_eq h) (fun _ _ h => h) after hs (Traversal.unexamined_start hlinked)

theorem beginsSpent (hs : s.graph.Lawful)
    (hlinked : ∀ e ∈ s.graph.edges, s.graph.partition.classes e.first e.second) :
    BeginsSpent s where
  graph_start := rfl
  remaining_eq := by
    intro after
    obtain ⟨t, ht, hnone⟩ := exists_spent hs hlinked after
    refine ⟨t, ht, ?_⟩
    rw [← t.length_unexamined, hnone]
    rfl
  answer_hasNext := by
    intro after hafter
    obtain ⟨t, ht, hnone⟩ := exists_spent hs hlinked after
    obtain ⟨t', ht', hexpected⟩ := exists_expected hs after
    obtain rfl := Option.some.inj (ht.symm.trans ht')
    have hcurrent : (s.run (.start :: after)).session.graph.modificationCount = t.expected := by
      rw [run_start_graph_eq s hafter, hexpected]
    rw [step, ask_of_some ht, Traversal.hasNext_of_current hcurrent,
      Traversal.pending_of_unexamined hnone]
    rfl
  graph_step := by
    rintro after action s' rfl hagent
    obtain ⟨t, ht, hnone⟩ := exists_spent hs hlinked after
    have hmoves := (s.run (.start :: after)).session.step_moves action
    rw [hagent] at hmoves
    exact hmoves.graph_eq ht hnone

/-! ## The main result -/

/-- A traversal of edges between nodes goes on without additions, while anything
    else may happen. Whenever an edge is skipped, its endpoints are in one set
    at that moment. Once the traversal says that nothing is left, the endpoints
    of all edges are in one set for good, and until the next addition every
    traversal that begins has nothing to do. -/
theorem exhausted_spans {tieBreak : TieBreak} {history later : List (Action α ω)}
    {s s' : Session α ω} {number : Nat} (hs : s = reached tieBreak history)
    (hnumber : number = s.traversals.size)
    (hnodes : ∀ e ∈ s.graph.edges, s.graph.joinsNodes e = true)
    (hlater : ∀ action ∈ later, action.adds = false)
    (hs' : s' = (s.run (.start :: later)).session) :
    Course ConfirmsSkips s (s.run (.start :: later)).notices s' ∧
    ((s'.step (.hasNext number)).answer = .available (.ok false) →
      (∀ (forever : List (Action α ω)), ∀ e ∈ s'.graph.edges,
        (s'.run forever).session.graph.partition.sameSet e.first e.second = true) ∧
      ∀ between : List (Action α ω), (∀ action ∈ between, action.adds = false) →
        BeginsSpent (s'.run between).session) := by
  have hleft : LeftInGraph s := hs ▸ leftInGraph_reached tieBreak history
  have hlawful := hleft.lawful
  have hlawful' : s'.graph.Lawful := hs' ▸ lawful_run hlawful (.start :: later)
  refine ⟨?_, fun hanswer => ?_⟩
  · rw [hs']
    refine run_course LeftInGraph (fun hmove h => ?_) hleft (.start :: later)
    exact ⟨h.move hmove, h.confirmsSkips hmove⟩
  · obtain ⟨t, ht, hend⟩ := pending_of_answer hanswer
    obtain ⟨t', ht', hsettled⟩ := exists_settled hlawful hnodes later
    rw [← hs', ← hnumber] at ht'
    rw [← hs'] at hsettled
    obtain rfl := Option.some.inj (ht.symm.trans ht')
    have hedges : s'.graph.edges = s.graph.edges := by
      rw [hs', run_start_graph_eq s hlater]
    have hlinked : ∀ e ∈ s'.graph.edges, s'.graph.partition.classes e.first e.second := by
      intro e he
      rw [hedges] at he
      exact hsettled.of_ended hend e (Array.mem_toList_iff.2 he)
    refine ⟨fun forever e he => ?_, fun between hbetween => ?_⟩
    · exact Partition.sameSet_iff.2 (classes_le_run hlawful' forever (hlinked e he))
    · refine beginsSpent (lawful_run hlawful' between) fun e he => ?_
      rw [run_graph_eq s' hbetween] at he
      exact classes_le_run hlawful' between (hlinked e he)

/-- The endpoints of the pending edge are merged from outside, and another
    traversal hands out the edge behind it. What remains is to hand out an edge
    that merges nothing and to skip the rest. -/
theorem exhausted_spans_of_merged_pending :
    let s : Session Unit Int := reached .insertionOrder
      [.addNode (), .addNode (), .addNode (), .addEdge ⟨0⟩ ⟨1⟩ 3, .addEdge ⟨1⟩ ⟨2⟩ 5,
        .addEdge ⟨2⟩ ⟨0⟩ 7]
    let actions : List (Action Unit Int) := [.start, .union ⟨0⟩ ⟨1⟩, .start, .pull 1, .pull 0]
    let s' := (s.run actions).session
    (s'.step (.hasNext 0)).answer = .available (.ok false) ∧
      Course ConfirmsSkips s (s.run actions).notices s' ∧
      (∀ forever : List (Action Unit Int),
        (s'.run forever).session.graph.partition.sameSet ⟨2⟩ ⟨0⟩ = true) ∧
      BeginsSpent (s'.run [.union ⟨0⟩ ⟨2⟩]).session := by
  intro s actions s'
  have hnodes : ∀ e ∈ s.graph.edges, s.graph.joinsNodes e = true := by decide
  have hlater : ∀ action ∈ [.union ⟨0⟩ ⟨1⟩, .start, .pull 1, .pull 0],
      Action.adds (α := Unit) (ω := Int) action = false := by decide
  have hanswer : (s'.step (.hasNext 0)).answer = .available (.ok false) := by cbv
  have hedge : s'.graph.edges[2]? = some ⟨⟨2⟩, ⟨0⟩, 7, 2⟩ := by cbv
  have hs' : s' = (s.run (.start :: [.union ⟨0⟩ ⟨1⟩, .start, .pull 1, .pull 0])).session := rfl
  obtain ⟨hcourse, hend⟩ := exhausted_spans (s := s) rfl rfl hnodes hlater hs'
  obtain ⟨hlinked, hspent⟩ := hend hanswer
  refine ⟨hanswer, hcourse, fun forever => ?_, ?_⟩
  · exact hlinked forever _ (Array.mem_of_getElem? hedge)
  · exact hspent [.union ⟨0⟩ ⟨2⟩] (by decide)

end Session

end SpanForest
