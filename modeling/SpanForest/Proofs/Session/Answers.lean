import SpanForest.Proofs.Session.Examination

/-! # What one traversal answers

    Several traversals are asked in turn, and others act in between. Here the
    answers of one of them are picked out, in the order of its questions.

    * **`Traversal.Answers`**: the replies that a traversal can give.
    * **`step_answers`**: an action on a traversal is answered by one of them.
    * **`answersOf`**: the answers of one traversal in the course of a history.
    * **`answers_induction`**: what its replies keep, and the moves of others
      keep, whole histories keep, together with all its answers.
    * **`tallied`**: the edges handed out, as told by a list of answers.
-/

namespace SpanForest

variable {α : Type u} {ω : Type v}

/-! ## Replies -/

namespace Traversal

variable {t : Traversal ω} {g : Graph α ω} {reply : Reply α ω (Answer ω)}

/-- The replies of a traversal to the questions that actions put to it. -/
inductive Answers (t : Traversal ω) (g : Graph α ω) : Reply α ω (Answer ω) → Prop where
  | hasNext : Answers t g ((t.hasNext g).map .available)
  | pull : Answers t g ((t.pull g).map .pulled)
  | next : Answers t g ((t.next g).map .item)
  | finish : Answers t g ((t.finish g).map .forest)

theorem Answers.turns (h : t.Answers g reply) :
    t.Turns g reply.notices reply.traversal reply.graph := by
  cases h with
  | hasNext => exact t.hasNext_turns g
  | pull => exact t.pull_turns g
  | next => exact t.next_turns g
  | finish => exact t.finish_turns g

/-- A traversal keeps a record of all edges that its answers hand out. -/
theorem Answers.emitted (h : t.Answers g reply) :
    reply.traversal.emitted.toList = reply.answer.tally t.emitted.toList := by
  cases h with
  | hasNext => exact congrArg Array.toList emitted_hasNext
  | pull => exact emitted_pull.trans (Answer.tally_pulled _ _).symm
  | next => exact emitted_next.trans (Answer.tally_item _ _).symm
  | finish => exact t.emitted_finish g

end Traversal

/-! ## Tallies -/

/-- The edges handed out, as told by a list of answers. -/
def tallied (answers : List (Answer ω)) : List (Edge ω) := answers.foldl Answer.tally []

theorem tallied_concat (answers : List (Answer ω)) (answer : Answer ω) :
    tallied (answers ++ [answer]) = answer.tally (tallied answers) :=
  List.foldl_concat ..

/-- An answer that leaves the tally as it is hands nothing out. -/
theorem Answer.handedOut_of_tally {answer : Answer ω} {handed : List (Edge ω)}
    (h : answer.tally handed = handed) : answer.handedOut = [] := by
  cases answer with
  | pulled result =>
    rw [tally_pulled] at h
    exact List.append_right_eq_self.1 h
  | item result =>
    rw [tally_item] at h
    exact List.append_right_eq_self.1 h
  | _ => rfl

/-! ## Histories -/

namespace Session

variable [Ord ω] {s : Session α ω} {t : Traversal ω} {number : Nat} {action : Action α ω}

/-- An action on a traversal is one of the questions that it can reply to. -/
theorem step_answers (hown : s.agent action = .traversal number)
    (ht : s.traversals[number]? = some t) :
    ∃ reply, t.Answers s.graph reply ∧ s.step action =
      { answer := reply.answer
        session := ⟨reply.graph, s.traversals.setIfInBounds number reply.traversal⟩
        notices := reply.notices } := by
  obtain rfl | rfl | rfl | rfl := question_of_agent hown ht
  · refine ⟨_, .hasNext, ?_⟩
    rw [step, ask_of_some ht]
  · refine ⟨_, .pull, ?_⟩
    rw [step, ask_of_some ht]
  · refine ⟨_, .next, ?_⟩
    rw [step, ask_of_some ht]
  · refine ⟨_, .finish, ?_⟩
    rw [step, ask_of_some ht]

/-- What one traversal answers in the course of the actions, its beginning
    included. -/
def answersOf (number : Nat) (s : Session α ω) : List (Action α ω) → List (Answer ω)
  | [] => []
  | action :: rest =>
    (if s.agent action = .traversal number then [(s.step action).answer] else [])
      ++ answersOf number (s.step action).session rest

section watched

variable (Inv : Traversal ω → Graph α ω → List (Answer ω) → Prop)
  (hanswer : ∀ {t g reply past}, g.Lawful → t.Answers g reply → Inv t g past →
    Inv reply.traversal reply.graph (past ++ [reply.answer]))
  (hother : ∀ {s s' : Session α ω} {agent notices t past}, s.graph.Lawful →
    Move s agent notices s' → Inv t s.graph past → Inv t s'.graph past)
include hanswer hother

/-- A property of a traversal, its graph and all its answers, which its own
    replies keep and the moves of others keep, is kept by whole histories. -/
theorem answers_induction {past : List (Answer ω)} (actions : List (Action α ω))
    (hs : s.graph.Lawful) (ht : s.traversals[number]? = some t) (hinv : Inv t s.graph past) :
    ∃ t', (s.run actions).session.traversals[number]? = some t' ∧
      Inv t' (s.run actions).session.graph (past ++ answersOf number s actions) := by
  induction actions generalizing s t past with
  | nil => exact ⟨t, ht, by simpa [answersOf, run] using hinv⟩
  | cons action rest ih =>
    have hs' : (s.step action).session.graph.Lawful := lawful_run hs [action]
    rw [answersOf, ← List.append_assoc]
    by_cases hown : s.agent action = .traversal number
    · obtain ⟨reply, hreply, hstep⟩ := step_answers hown ht
      have ht' : (s.step action).session.traversals[number]? = some reply.traversal := by
        rw [hstep]
        exact getElem?_setIfInBounds_self ht _
      have hinv' : Inv reply.traversal (s.step action).session.graph
          (past ++ [(s.step action).answer]) := by
        rw [hstep]
        exact hanswer hs hreply hinv
      rw [if_pos hown]
      exact ih hs' ht' hinv'
    · rw [if_neg hown, List.append_nil]
      -- The moves of somebody else, one after another.
      have hmoves : ∀ {s s' : Session α ω} {agent notices}, Moves agent s notices s' →
          s.graph.Lawful → Inv t s.graph past → Inv t s'.graph past := by
        intro s s' agent notices h
        induction h with
        | refl s =>
          intro _ hs
          exact hs
        | head hone _ ih =>
          intro hlawful hs
          exact ih (hone.lawful hlawful) (hother hlawful hone hs)
      have hafter := s.step_moves action
      exact ih hs' (hafter.getElem?_traversals hown ht) (hmoves hafter hs hinv)

/-- The same from the beginning of the traversal on. -/
theorem answers_induction_start (later : List (Action α ω)) (hs : s.graph.Lawful)
    (hinv : Inv (.start s.graph) s.graph [.traversal s.traversals.size]) :
    ∃ t, (s.run (.start :: later)).session.traversals[s.traversals.size]? = some t ∧
      Inv t (s.run (.start :: later)).session.graph
        (answersOf s.traversals.size s (.start :: later)) := by
  have hagent : s.agent .start = .traversal s.traversals.size := rfl
  have hbegun : (s.step .start).session.traversals[s.traversals.size]? = some (.start s.graph) :=
    Array.getElem?_push_size
  rw [answersOf, if_pos hagent]
  exact answers_induction (s := (s.step .start).session) Inv hanswer hother later hs hbegun hinv

end watched

end Session

end SpanForest
