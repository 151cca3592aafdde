import SpanForest.Proofs.Graph.Lawful
import SpanForest.Proofs.Traversal.Turns
import SpanForest.Session

/-! # The single changes of a session

    An action may change a session many times, as when a traversal is drained
    while others look on. Every change is one of a few moves, and every move
    has an agent: an addition, a merge from outside, or one of the traversals.

    * **`pending_of_answer`**: what the answer of a traversal tells of it.
    * **`Move`**: what a single change does and reports.
    * **`step_moves`**: an action consists of moves of one agent.
    * **`history_induction`**: what all moves keep, whole histories keep,
      together with all that one traversal has reported.
    * **`Move.classes_le`** and the lemmas beside it: what moves leave as it
      is.
    * **`traversal_induction`**: what turns of one traversal and moves of
      others keep of it, histories keep.
    * **`reached`**: the session that a history leads to, and
      **`lawful_reached`**: its graph is lawful.
-/

namespace SpanForest

/-- Who brings a change about. -/
inductive Agent where
  /-- A node or an edge is added. -/
  | addition
  /-- Two sets are merged from outside. -/
  | merge
  /-- A traversal begins or is asked. -/
  | traversal (number : Nat)
deriving DecidableEq

variable {α : Type u} {ω : Type v}

/-! ## What turns leave as it is -/

namespace Traversal

variable {t t' : Traversal ω} {g g' : Graph α ω} {notices : List Notice}

theorem Turn.lawful (h : t.Turn g notices t' g') (hg : g.Lawful) : g'.Lawful := by
  cases h with
  | refuse _ => exact hg
  | fuse _ => exact hg
  | emit e _ _ => exact hg.union e.first e.second

theorem Turns.lawful (h : t.Turns g notices t' g') (hg : g.Lawful) : g'.Lawful :=
  h.induction (fun _ g => g.Lawful) (fun hturn hg => hturn.lawful hg) hg

/-- No turn divides a set. -/
theorem Turn.classes_le (h : t.Turn g notices t' g') (hg : g.Lawful) :
    g.partition.classes ≤ g'.partition.classes := by
  cases h with
  | refuse _ => exact le_rfl
  | fuse _ => exact le_rfl
  | emit e _ _ => exact hg.wellLinked.classes_le_union e.first e.second

theorem Turn.joinsNodes_eq (h : t.Turn g notices t' g') : g'.joinsNodes = g.joinsNodes := by
  cases h <;> rfl

end Traversal

namespace Session

/-- Who acts in an action. A traversal brings about its own beginning. -/
def agent (s : Session α ω) : Action α ω → Agent
  | .addNode _ | .addEdge _ _ _ => .addition
  | .union _ _ => .merge
  | .start => .traversal s.traversals.size
  | .hasNext number | .pull number | .next number | .finish number => .traversal number

/-- A traversal that has begun acts only when it is asked. -/
theorem question_of_agent {s : Session α ω} {action : Action α ω} {number : Nat}
    {t : Traversal ω} (hown : s.agent action = .traversal number)
    (ht : s.traversals[number]? = some t) :
    action = .hasNext number ∨ action = .pull number ∨ action = .next number ∨
      action = .finish number := by
  cases action with
  | addNode _ | addEdge _ _ _ | union _ _ => cases hown
  | start =>
    -- A traversal that begins has a number that none has yet.
    obtain rfl := Agent.traversal.inj hown
    rw [Array.getElem?_eq_none (Nat.le_refl _)] at ht
    cases ht
  | hasNext n | pull n | next n | finish n =>
    obtain rfl := Agent.traversal.inj hown
    simp

/-- Replacing a traversal by itself changes nothing. -/
theorem setIfInBounds_self {ts : Array (Traversal ω)} {number : Nat} {t : Traversal ω}
    (h : ts[number]? = some t) : ts.setIfInBounds number t = ts := by
  apply Array.ext_getElem?
  intro i
  rw [Array.getElem?_setIfInBounds]
  split
  · rename_i hi
    subst hi
    rw [h]
    split
    · rfl
    · rename_i hout
      rw [Array.getElem?_eq_none (Nat.le_of_not_lt hout)] at h
      exact h
  · rfl

theorem getElem?_setIfInBounds_self {ts : Array (Traversal ω)} {number : Nat}
    {t : Traversal ω} (h : ts[number]? = some t) (t' : Traversal ω) :
    (ts.setIfInBounds number t')[number]? = some t' := by
  obtain ⟨hlt, -⟩ := Array.getElem?_eq_some_iff.1 h
  exact Array.getElem?_setIfInBounds_self_of_lt hlt

theorem getElem?_push_of_some {ts : Array (Traversal ω)} {number : Nat} {t : Traversal ω}
    (h : ts[number]? = some t) (t' : Traversal ω) : (ts.push t')[number]? = some t := by
  obtain ⟨hlt, -⟩ := Array.getElem?_eq_some_iff.1 h
  rwa [Array.getElem?_push_lt hlt, ← Array.getElem?_eq_getElem hlt]

/-! ## Questions -/

section questions

variable {s : Session α ω} {number : Nat} {t : Traversal ω}

theorem ask_of_some {β : Type w} (ht : s.traversals[number]? = some t) (absent : β)
    (question : Traversal ω → Graph α ω → Reply α ω β) :
    s.ask number absent question =
      { answer := (question t s.graph).answer
        session := ⟨(question t s.graph).graph,
          s.traversals.setIfInBounds number (question t s.graph).traversal⟩
        notices := (question t s.graph).notices } := by
  rw [ask, ht]

/-- A traversal that answers that no edge is left has none pending. -/
theorem pending_of_answer [Ord ω]
    (h : (s.step (.hasNext number)).answer = .available (.ok false)) :
    ∃ t, s.traversals[number]? = some t ∧ t.pending = none := by
  cases ht : s.traversals[number]? with
  | none =>
    rw [step, ask, ht] at h
    cases h
  | some t =>
    refine ⟨t, rfl, ?_⟩
    rw [step, ask_of_some ht] at h
    have hanswer : (t.hasNext s.graph).answer = .ok false := Answer.available.inj h
    by_cases hcurrent : s.graph.modificationCount = t.expected
    · rw [Traversal.hasNext_of_current hcurrent] at hanswer
      exact Option.not_isSome_iff_eq_none.1 (Bool.eq_false_iff.1 (Except.ok.inj hanswer))
    · rw [Traversal.hasNext_of_stale hcurrent] at hanswer
      cases hanswer

end questions

/-! ## Moves -/

section moves

variable [Ord ω]

/-- A single change of a session, with its agent and its report. -/
inductive Move (s : Session α ω) : Agent → List Notice → Session α ω → Prop where
  /-- A node is added. -/
  | addNode (data : α) :
      Move s .addition [(s.graph.addNode data).modified] { s with graph := s.graph.addNode data }
  /-- An edge is added. -/
  | addEdge (first second : NodeId) (weight : ω) :
      Move s .addition [(s.graph.addEdge first second weight).modified]
        { s with graph := s.graph.addEdge first second weight }
  /-- Two sets are merged. -/
  | union (a b : NodeId) : Move s .merge [] { s with graph := s.graph.union a b }
  /-- A traversal begins. -/
  | start :
      Move s (.traversal s.traversals.size) (Traversal.startNotices s.graph)
        { s with traversals := s.traversals.push (.start s.graph) }
  /-- A traversal takes a turn. -/
  | turn {number : Nat} {t t' : Traversal ω} {g' : Graph α ω} {notices : List Notice} :
      s.traversals[number]? = some t → t.Turn s.graph notices t' g' →
      Move s (.traversal number) notices ⟨g', s.traversals.setIfInBounds number t'⟩

/-- Any number of moves of one agent, one after another. -/
inductive Moves (agent : Agent) : Session α ω → List Notice → Session α ω → Prop where
  | refl (s : Session α ω) : Moves agent s [] s
  | head {s s' s'' : Session α ω} {first later : List Notice} :
      Move s agent first s' → Moves agent s' later s'' → Moves agent s (first ++ later) s''

theorem Move.moves {s s' : Session α ω} {agent : Agent} {notices : List Notice}
    (h : Move s agent notices s') : Moves agent s notices s' := by
  have hone := Moves.head h (.refl s')
  rwa [List.append_nil] at hone

/-- Turns of a traversal are moves of its session. -/
theorem moves_of_turns {ts : Array (Traversal ω)} {number : Nat} {t t' : Traversal ω}
    {g g' : Graph α ω} {notices : List Notice} (h : t.Turns g notices t' g')
    (ht : ts[number]? = some t) :
    Moves (.traversal number) ⟨g, ts⟩ notices ⟨g', ts.setIfInBounds number t'⟩ := by
  induction h generalizing ts with
  | refl t g =>
    rw [setIfInBounds_self ht]
    exact .refl _
  | head hturn _ ih =>
    -- Of two replacements of the traversal only the later one remains.
    have hrest := ih (getElem?_setIfInBounds_self ht _)
    rw [Array.setIfInBounds_setIfInBounds] at hrest
    exact .head (.turn ht hturn) hrest

/-- A question that is answered in turns is answered in moves. -/
theorem ask_moves {β : Type w} (s : Session α ω) (number : Nat) (absent : β)
    (question : Traversal ω → Graph α ω → Reply α ω β)
    (h : ∀ (t : Traversal ω) (g : Graph α ω),
      t.Turns g (question t g).notices (question t g).traversal (question t g).graph) :
    Moves (.traversal number) s (s.ask number absent question).notices
      (s.ask number absent question).session := by
  unfold ask
  cases ht : s.traversals[number]? with
  | none => exact .refl s
  | some t => exact moves_of_turns (h t s.graph) ht

/-- An action consists of moves of its agent. -/
theorem step_moves (s : Session α ω) (action : Action α ω) :
    Moves (s.agent action) s (s.step action).notices (s.step action).session := by
  cases action with
  | addNode data => exact (Move.addNode data).moves
  | addEdge first second weight => exact (Move.addEdge first second weight).moves
  | union a b => exact (Move.union a b).moves
  | start => exact Move.start.moves
  | hasNext number => exact s.ask_moves number _ _ fun t g => t.hasNext_turns g
  | pull number => exact s.ask_moves number _ _ fun t g => t.pull_turns g
  | next number => exact s.ask_moves number _ _ fun t g => t.next_turns g
  | finish number => exact s.ask_moves number _ _ fun t g => t.finish_turns g

/-! ## Histories -/

/-- What the traversal of the given number reports in the course of the
    actions, its beginning included. -/
def noticesOf (number : Nat) (s : Session α ω) : List (Action α ω) → List Notice
  | [] => []
  | action :: rest =>
    (if s.agent action = .traversal number then (s.step action).notices else [])
      ++ noticesOf number (s.step action).session rest

/-- What moves keep of a session and of all that one traversal has reported so
    far, whole histories keep. Only moves of the agents that act count. -/
theorem history_induction (number : Nat) (allowed : Agent → Prop)
    (Inv : Session α ω → List Notice → Prop)
    (hmove : ∀ {s agent notices s' past}, Move s agent notices s' → allowed agent → Inv s past →
      Inv s' (if agent = .traversal number then past ++ notices else past))
    {s : Session α ω} {actions : List (Action α ω)}
    (hallowed : ∀ action ∈ actions, ∀ s : Session α ω, allowed (s.agent action))
    (past : List Notice) (hinv : Inv s past) :
    Inv (s.run actions).session (past ++ noticesOf number s actions) := by
  -- First the moves of one action, then the actions of the history.
  have hmoves : ∀ {s s' agent notices past}, Moves agent s notices s' → allowed agent →
      Inv s past → Inv s' (if agent = .traversal number then past ++ notices else past) := by
    intro s s' agent notices past h hagent
    induction h generalizing past with
    | refl s =>
      intro hs
      simpa using hs
    | head hone _ ih =>
      intro hs
      have hlast := ih (hmove hone hagent hs)
      split at hlast
      · rename_i hown
        rwa [if_pos hown, ← List.append_assoc]
      · rename_i hother
        rwa [if_neg hother]
  induction actions generalizing s past with
  | nil => simpa [run, noticesOf] using hinv
  | cons action rest ih =>
    have hfirst := hmoves (s.step_moves action) (hallowed action List.mem_cons_self s) hinv
    have hrest := ih (fun a ha => hallowed a (List.mem_cons_of_mem action ha)) _ hfirst
    have hnotices : (if s.agent action = .traversal number then past ++ (s.step action).notices
        else past) ++ noticesOf number (s.step action).session rest =
        past ++ noticesOf number s (action :: rest) := by
      rw [noticesOf]
      split <;> simp
    rwa [hnotices] at hrest

/-- What all moves of the agents that act keep of a session, histories keep. -/
theorem run_induction (allowed : Agent → Prop) (Inv : Session α ω → Prop)
    (hmove : ∀ {s agent notices s'}, Move s agent notices s' → allowed agent → Inv s → Inv s')
    {s : Session α ω} {actions : List (Action α ω)}
    (hallowed : ∀ action ∈ actions, ∀ s : Session α ω, allowed (s.agent action))
    (hinv : Inv s) : Inv (s.run actions).session := by
  -- The report of some traversal comes along, and the invariant ignores it.
  exact history_induction 0 allowed (fun s _ => Inv s)
    (fun h hagent hs => hmove h hagent hs) hallowed [] hinv

end moves

/-! ## What moves leave as it is -/

section frame

variable [Ord ω] {s s' : Session α ω} {agent : Agent} {notices : List Notice}

theorem Move.lawful (h : Move s agent notices s') (hs : s.graph.Lawful) : s'.graph.Lawful := by
  cases h with
  | addNode data => exact hs.addNode data
  | addEdge first second weight => exact hs.addEdge first second weight
  | union a b => exact hs.union a b
  | start => exact hs
  | turn _ hturn => exact hturn.lawful hs

theorem Move.tieBreak_eq (h : Move s agent notices s') :
    s'.graph.tieBreak = s.graph.tieBreak := by
  cases h with
  | turn _ hturn => cases hturn <;> rfl
  | _ => rfl

/-- No move divides a set. -/
theorem Move.classes_le (h : Move s agent notices s') (hs : s.graph.Lawful) :
    s.graph.partition.classes ≤ s'.graph.partition.classes := by
  cases h with
  | addNode data => exact hs.wellLinked.classes_makeSet.ge
  | addEdge first second weight => exact le_rfl
  | union a b => exact hs.wellLinked.classes_le_union a b
  | start => exact le_rfl
  | turn _ hturn => exact hturn.classes_le hs

/-- No move removes a node. -/
theorem Move.hasNode {x : NodeId} (h : Move s agent notices s') (hx : s.graph.HasNode x) :
    s'.graph.HasNode x := by
  cases h with
  | addNode data =>
    unfold Graph.HasNode Graph.nodeCount at hx ⊢
    simp only [Graph.addNode, Graph.countModification, Array.size_push]
    omega
  | turn _ hturn => cases hturn <;> exact hx
  | _ => exact hx

/-- No move removes an edge. -/
theorem Move.mem_edges {e : Edge ω} (h : Move s agent notices s') (he : e ∈ s.graph.edges) :
    e ∈ s'.graph.edges := by
  cases h with
  | addEdge first second weight => exact Array.mem_push.2 (.inl he)
  | turn _ hturn => cases hturn <;> exact he
  | _ => exact he

theorem Move.joinsNodes {e : Edge ω} (h : Move s agent notices s')
    (he : s.graph.joinsNodes e = true) : s'.graph.joinsNodes e = true := by
  obtain ⟨hfirst, hsecond⟩ := Graph.joinsNodes_iff.1 he
  exact Graph.joinsNodes_iff.2 ⟨h.hasNode hfirst, h.hasNode hsecond⟩

/-- A traversal changes only by its own moves. -/
theorem Move.getElem?_traversals {number : Nat} {t : Traversal ω} (h : Move s agent notices s')
    (hagent : agent ≠ .traversal number) (ht : s.traversals[number]? = some t) :
    s'.traversals[number]? = some t := by
  cases h with
  | start => exact getElem?_push_of_some ht _
  | turn _ _ =>
    have hne := fun h => hagent (congrArg Agent.traversal h)
    rwa [Array.getElem?_setIfInBounds_ne hne]
  | _ => exact ht

theorem Moves.getElem?_traversals {number : Nat} {t : Traversal ω}
    (h : Moves agent s notices s') (hagent : agent ≠ .traversal number)
    (ht : s.traversals[number]? = some t) : s'.traversals[number]? = some t := by
  induction h with
  | refl => exact ht
  | head hmove _ ih => exact ih (hmove.getElem?_traversals hagent ht)

/-- A move of a traversal that has begun before is one of its turns. -/
theorem Move.own_turn {number : Nat} {t : Traversal ω} (h : Move s agent notices s')
    (hagent : agent = .traversal number) (ht : s.traversals[number]? = some t) :
    ∃ t', s'.traversals[number]? = some t' ∧ t.Turn s.graph notices t' s'.graph := by
  cases h with
  | start =>
    -- A traversal that begins has a number that none has yet.
    obtain rfl := Agent.traversal.inj hagent
    rw [Array.getElem?_eq_none (Nat.le_refl _)] at ht
    cases ht
  | turn ht' hturn =>
    obtain rfl := Agent.traversal.inj hagent
    obtain rfl := Option.some.inj (ht.symm.trans ht')
    exact ⟨_, getElem?_setIfInBounds_self ht _, hturn⟩
  | _ => cases hagent

end frame

/-! ## One traversal in a history -/

section watched

variable [Ord ω] {s s' : Session α ω} {number : Nat}

/-- A property of a traversal, its graph and all that it has reported, which
    its own turns keep and the moves of others keep, is kept by whole histories. -/
theorem traversal_induction (Inv : Traversal ω → Graph α ω → List Notice → Prop)
    (hturn : ∀ {t t' g g' notices past}, g.Lawful → t.Turn g notices t' g' → Inv t g past →
      Inv t' g' (past ++ notices))
    (hother : ∀ {s s' : Session α ω} {agent notices t past}, s.graph.Lawful →
      Move s agent notices s' → Inv t s.graph past → Inv t s'.graph past)
    {t : Traversal ω} {past : List Notice} (actions : List (Action α ω))
    (hs : s.graph.Lawful) (ht : s.traversals[number]? = some t) (hinv : Inv t s.graph past) :
    ∃ t', (s.run actions).session.traversals[number]? = some t' ∧
      Inv t' (s.run actions).session.graph (past ++ noticesOf number s actions) := by
  have hallowed : ∀ action ∈ actions, Session α ω → True := fun _ _ _ => trivial
  have hall := history_induction number (fun _ => True)
    (fun s past => s.graph.Lawful ∧ ∃ t, s.traversals[number]? = some t ∧ Inv t s.graph past)
    ?_ hallowed past ⟨hs, t, ht, hinv⟩
  · exact hall.2
  · rintro s agent notices s' past hmove - ⟨hs, t, ht, hinv⟩
    refine ⟨hmove.lawful hs, ?_⟩
    by_cases hown : agent = .traversal number
    · rw [if_pos hown]
      obtain ⟨t', ht', hturned⟩ := hmove.own_turn hown ht
      exact ⟨t', ht', hturn hs hturned hinv⟩
    · rw [if_neg hown]
      exact ⟨t, hmove.getElem?_traversals hown ht, hother hs hmove hinv⟩

/-- The same from the beginning of the traversal on. -/
theorem traversal_induction_start (Inv : Traversal ω → Graph α ω → List Notice → Prop)
    (hturn : ∀ {t t' g g' notices past}, g.Lawful → t.Turn g notices t' g' → Inv t g past →
      Inv t' g' (past ++ notices))
    (hother : ∀ {s s' : Session α ω} {agent notices t past}, s.graph.Lawful →
      Move s agent notices s' → Inv t s.graph past → Inv t s'.graph past)
    (later : List (Action α ω)) (hs : s.graph.Lawful)
    (hinv : Inv (.start s.graph) s.graph (Traversal.startNotices s.graph)) :
    ∃ t, (s.run (.start :: later)).session.traversals[s.traversals.size]? = some t ∧
      Inv t (s.run (.start :: later)).session.graph
        (noticesOf s.traversals.size s (.start :: later)) := by
  have hagent : s.agent .start = .traversal s.traversals.size := rfl
  have hbegun : (s.step .start).session.traversals[s.traversals.size]? = some (.start s.graph) :=
    Array.getElem?_push_size
  rw [noticesOf, if_pos hagent]
  exact traversal_induction (s := (s.step .start).session) Inv hturn hother later hs hbegun hinv

end watched

/-! ## Sessions that are reached -/

/-- The session that a history leads to from the empty graph. -/
def reached [Ord ω] (tieBreak : TieBreak) (history : List (Action α ω)) : Session α ω :=
  ((empty tieBreak).run history).session

/-- Whatever happens in a session, its graph stays lawful. -/
theorem lawful_run [Ord ω] {s : Session α ω} (hs : s.graph.Lawful) (actions : List (Action α ω)) :
    (s.run actions).session.graph.Lawful :=
  run_induction (fun _ => True) (fun s => s.graph.Lawful)
    (fun h _ hs => h.lawful hs) (fun _ _ _ => trivial) hs

theorem lawful_reached [Ord ω] (tieBreak : TieBreak) (history : List (Action α ω)) :
    (reached tieBreak history).graph.Lawful :=
  lawful_run (Graph.lawful_empty tieBreak) history

theorem tieBreak_reached [Ord ω] (tieBreak : TieBreak) (history : List (Action α ω)) :
    (reached tieBreak history).graph.tieBreak = tieBreak :=
  run_induction (fun _ => True) (fun s => s.graph.tieBreak = tieBreak)
    (fun h _ hs => h.tieBreak_eq.trans hs) (fun _ _ _ => trivial) rfl

end Session

end SpanForest
