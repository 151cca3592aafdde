import Mathlib.Data.List.TakeWhile
import SpanForest.Proofs.Selection.Sift
import SpanForest.Proofs.Traversal.Turns

/-! # A traversal that is left alone

    While nothing but one traversal changes its graph, the place that it has
    reached in the order of examination determines everything: what it has
    handed out, what is pending, and how the nodes are partitioned.

    * **`queue_eq_advance`** and the lemmas after it: what looking ahead does
      to the queue.
    * **`Alone`**: the relation between traversal, graph and place.
    * **`alone_start`**, **`Alone.turn`**: it holds at the beginning and is
      kept by every turn.
    * **`Alone.next_kept`**: so the pending edge is the next one that sifting
      keeps.
    * **`Alone.partition_eq`**: nothing but the edges handed out determines the
      partition.
    * **`Graph.answer_traverse`**, **`Graph.partition_traverse`**: and the forest
      of a new traversal has all of them.
-/

namespace SpanForest

variable {α : Type u} {ω : Type v}

namespace Traversal

variable {t t' : Traversal ω} {g g' : Graph α ω} {e : Edge ω}

/-! ## Looking ahead -/

/-- Looking ahead divides the queue. -/
theorem queue_eq_advance (t : Traversal ω) (p : Partition) :
    t.queue = t.skipped p ++ ((t.advance p).pending.toList ++ (t.advance p).queue) := by
  have hsplit : t.queue.takeWhile (isRedundant p) ++ t.queue.dropWhile (isRedundant p) = t.queue :=
    List.takeWhile_append_dropWhile
  have hrest : (t.advance p).pending.toList ++ (t.advance p).queue =
      t.queue.dropWhile (isRedundant p) := by
    rw [advance]
    cases t.queue.dropWhile (isRedundant p) <;> rfl
  rw [hrest]
  exact hsplit.symm

/-- Edges are passed over only while their endpoints are in one set. -/
theorem sameSet_of_mem_skipped {p : Partition} (he : e ∈ t.skipped p) :
    p.sameSet e.first e.second = true := by
  have h : isRedundant p e = true := List.mem_takeWhile_imp he
  exact h

/-- The edge that becomes pending joins two sets at that moment. -/
theorem not_sameSet_of_advance {p : Partition} (he : (t.advance p).pending = some e) :
    p.sameSet e.first e.second = false := by
  have hhead : (t.queue.dropWhile (isRedundant p)).head? = some e := he
  have hnot := List.head?_dropWhile_not (isRedundant p) t.queue
  rw [hhead] at hnot
  simpa [isRedundant] using hnot

/-- When no edge becomes pending, none is left. -/
theorem queue_of_advance_none {p : Partition} (h : (t.advance p).pending = none) :
    (t.advance p).queue = [] := by
  have hnil : t.queue.dropWhile (isRedundant p) = [] := List.head?_eq_none_iff.1 h
  simp [advance, hnil]

/-! ## The place that a traversal has reached -/

/-- Nothing but this traversal has changed the graph since the partition was
    `p`, and it has reached some place in the order of examination. -/
structure Alone (p : Partition) (order : List (Edge ω)) (t : Traversal ω) (g : Graph α ω) :
    Prop where
  /-- No addition has been made. -/
  current : g.modificationCount = t.expected
  /-- The edges before the place have been examined, and nothing else has
      changed the partition. -/
  place : ∃ examined, order = examined ++ (t.pending.toList ++ t.queue) ∧
    g.partition = p.absorb examined ∧ t.emitted.toList = p.sift examined
  /-- The pending edge joins two sets. -/
  fresh : ∀ e, t.pending = some e → g.partition.sameSet e.first e.second = false
  /-- When nothing is pending, nothing is left. -/
  ended : t.pending = none → t.queue = []
  /-- The stream ends after the last edge. -/
  fused_ended : t.fused = true → t.pending = none

theorem alone_start [Ord ω] (g : Graph α ω) :
    Alone g.partition (g.tieBreak.arrange g.edges.toList) (start g) g where
  current := rfl
  place := by
    refine ⟨(prepare g).skipped g.partition, (prepare g).queue_eq_advance g.partition, ?_, ?_⟩
    · exact (Partition.absorb_of_sameSet fun _ he => sameSet_of_mem_skipped he).symm
    · exact (Partition.sift_eq_nil fun _ he => sameSet_of_mem_skipped he).symm
  fresh := fun _ he => not_sameSet_of_advance he
  ended := queue_of_advance_none
  fused_ended := fun h => absurd h Bool.false_ne_true

namespace Alone

variable {p : Partition} {order : List (Edge ω)}

theorem emit (h : Alone p order t g) (he : t.pending = some e) :
    Alone p order (t.emit g e).traversal (t.emit g e).graph where
  current := h.current
  place := by
    -- The place moves behind the edge and all that is skipped after it.
    obtain ⟨examined, horder, hpartition, hemitted⟩ := h.place
    let pushed : Traversal ω := { t with emitted := t.emitted.push e }
    have hskipped : ∀ e' ∈ pushed.skipped (g.union e.first e.second).partition,
        (p.absorb (examined ++ [e])).sameSet e'.first e'.second = true := by
      intro e' he'
      rw [Partition.absorb_append, ← hpartition]
      exact sameSet_of_mem_skipped he'
    refine ⟨examined ++ [e] ++ pushed.skipped (g.union e.first e.second).partition, ?_, ?_, ?_⟩
    · have hqueue := pushed.queue_eq_advance (g.union e.first e.second).partition
      rw [horder, he, List.append_assoc, List.append_assoc]
      exact congrArg (fun queue => examined ++ ([e] ++ queue)) hqueue
    · rw [Partition.absorb_append, Partition.absorb_of_sameSet hskipped, Partition.absorb_append,
        ← hpartition]
      rfl
    · have hjoins := h.fresh e he
      rw [hpartition] at hjoins
      rw [Partition.sift_append, Partition.sift_eq_nil hskipped, Partition.sift_append,
        Partition.sift_cons_of_not_sameSet hjoins, ← hemitted]
      simp [Traversal.emit, advance]
  fresh := fun _ he' => not_sameSet_of_advance he'
  ended := queue_of_advance_none
  fused_ended := by
    intro hfused
    have hnone := h.fused_ended hfused
    rw [he] at hnone
    exact absurd hnone (by simp)

theorem turn {notices : List Notice} (h : Alone p order t g) (hturn : t.Turn g notices t' g') :
    Alone p order t' g' := by
  cases hturn with
  | refuse hstale => exact absurd h.current hstale
  | fuse hend =>
    have hnone : t.pending = none := hend.resolve_right fun hstale => hstale h.current
    exact ⟨h.current, h.place, h.fresh, h.ended, fun _ => hnone⟩
  | emit e _ he => exact h.emit he

theorem turns {notices : List Notice} (h : Alone p order t g) (hturns : t.Turns g notices t' g') :
    Alone p order t' g' :=
  hturns.induction (Alone p order) (fun hturn hinv => Alone.turn hinv hturn) h

/-- What sifting keeps is what has been handed out and what is still kept of
    the rest. -/
theorem sift_eq (h : Alone p order t g) :
    p.sift order = t.emitted.toList ++ g.partition.sift (t.pending.toList ++ t.queue) := by
  obtain ⟨examined, horder, hpartition, hemitted⟩ := h.place
  rw [hpartition, hemitted]
  exact horder ▸ Partition.sift_append p examined _

theorem emitted_isPrefix (h : Alone p order t g) : t.emitted.toList <+: p.sift order :=
  ⟨_, h.sift_eq.symm⟩

/-- The pending edge is the next one that sifting keeps. -/
theorem next_kept (h : Alone p order t g) :
    (p.sift order)[t.emitted.toList.length]? = t.pending := by
  rw [h.sift_eq, List.getElem?_append_right (Nat.le_refl _), Nat.sub_self]
  cases he : t.pending with
  | none =>
    rw [h.ended he]
    rfl
  | some e =>
    -- The pending edge joins two sets, so sifting keeps it first.
    have hjoins := h.fresh e he
    rw [Option.toList_some, List.singleton_append, Partition.sift_cons_of_not_sameSet hjoins]
    rfl

/-- When nothing is pending, everything that sifting keeps was handed out. -/
theorem emitted_eq_sift (h : Alone p order t g) (hend : t.pending = none) :
    t.emitted.toList = p.sift order := by
  rw [h.sift_eq, hend, h.ended hend]
  exact (List.append_nil _).symm

/-- Only what has been handed out has changed the partition. -/
theorem partition_eq (h : Alone p order t g) : g.partition = p.absorb t.emitted.toList := by
  obtain ⟨examined, -, hpartition, hemitted⟩ := h.place
  rw [hpartition, hemitted, Partition.absorb_sift]

/-- Finishing merges along all edges. -/
theorem partition_finish (h : Alone p order t g) :
    (t.finish g).graph.partition = p.absorb order := by
  have hlast := h.turns (t.drain_turns g)
  obtain ⟨-, hend⟩ := drain_of_current h.current
  show (t.drain g).graph.partition = _
  rw [hlast.partition_eq, hlast.emitted_eq_sift hend, Partition.absorb_sift]

/-- Finishing succeeds and sums up all that sifting keeps. -/
theorem answer_finish (h : Alone p order t g) :
    ∃ forest, (t.finish g).answer = .ok forest ∧ forest.edges.toList = p.sift order := by
  have hlast := h.turns (t.drain_turns g)
  obtain ⟨hanswer, hend⟩ := drain_of_current h.current
  refine ⟨.ofEdges (t.drain g).traversal.emitted (t.drain g).graph.partition.size, ?_,
    hlast.emitted_eq_sift hend⟩
  simp only [finish, Reply.map, hanswer]
  rfl

end Alone

end Traversal

/-- Draining a new traversal succeeds and sums up all that sifting keeps. -/
theorem Graph.answer_traverse [Ord ω] (g : Graph α ω) :
    ∃ forest, g.traverse.answer = .ok forest ∧
      forest.edges.toList = g.partition.sift (g.tieBreak.arrange g.edges.toList) :=
  (Traversal.alone_start g).answer_finish

/-- Draining a new traversal merges along all edges. -/
theorem Graph.partition_traverse [Ord ω] (g : Graph α ω) :
    g.traverse.graph.partition = g.partition.absorb (g.tieBreak.arrange g.edges.toList) :=
  (Traversal.alone_start g).partition_finish

end SpanForest
