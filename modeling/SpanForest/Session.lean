import SpanForest.Traversal

/-! # Sessions

    A graph changes while traversals of it are under way. A session is a
    graph together with all traversals begun on it, and its history is a list
    of actions: additions, merges, beginnings, and questions to one of the
    traversals.

    * **`Session.step`**: one action, with its answer and its report.
    * **`Session.run`**: a list of actions.
    * **`Session.take`**: repeated pulls from the stream of one traversal.
-/

namespace SpanForest

/-- A graph and the traversals begun on it, numbered in the order of their
    beginnings. A finished traversal stays, drained. -/
structure Session (α : Type u) (ω : Type v) where
  /-- The graph. -/
  graph : Graph α ω
  /-- The traversals. -/
  traversals : Array (Traversal ω) := #[]

/-- Something that can be done in a session. -/
inductive Action (α : Type u) (ω : Type v) where
  /-- Adds a node. -/
  | addNode (data : α)
  /-- Adds an edge. -/
  | addEdge (first second : NodeId) (weight : ω)
  /-- Merges the sets of two nodes. -/
  | union (a b : NodeId)
  /-- Begins a traversal. -/
  | start
  /-- Asks a traversal whether an edge is left. -/
  | hasNext (traversal : Nat)
  /-- Asks a traversal for an edge. -/
  | pull (traversal : Nat)
  /-- Asks a traversal for the next item of its stream. -/
  | next (traversal : Nat)
  /-- Drains a traversal and sums it up. -/
  | finish (traversal : Nat)
deriving DecidableEq

/-- The answer to an action. -/
inductive Answer (ω : Type v) where
  /-- The handle of the new node. -/
  | node (id : NodeId)
  /-- The new edge. -/
  | edge (e : Edge ω)
  /-- Whether two sets were merged. -/
  | merged (joined : Bool)
  /-- The number of the new traversal. -/
  | traversal (number : Nat)
  /-- Whether an edge is left. -/
  | available (result : Except Failure Bool)
  /-- The edge handed out. -/
  | pulled (result : Except Failure (Edge ω))
  /-- The next item of the stream. -/
  | item (result : Option (Except Failure (Edge ω)))
  /-- The forest of the drained traversal. -/
  | forest (result : Except Failure (Forest ω))
  /-- There is no traversal of that number. -/
  | noTraversal

/-- What an action leads to. -/
structure Outcome (α : Type u) (ω : Type v) (β : Type w) where
  /-- The answer. -/
  answer : β
  /-- The session afterwards. -/
  session : Session α ω
  /-- What was reported, in order. -/
  notices : List Notice := []

namespace Session

variable {α : Type u} {ω : Type v}

/-- The session on an empty graph. -/
def empty (tieBreak : TieBreak := default) : Session α ω := ⟨.empty tieBreak, #[]⟩

/-- The session on a graph of which no traversal has begun. -/
def ofGraph (g : Graph α ω) : Session α ω := ⟨g, #[]⟩

/-! ## Asking one traversal -/

/-- Puts a question to a traversal and keeps the traversal and the graph as
    they are after the reply. -/
def ask (s : Session α ω) (number : Nat) (absent : β)
    (question : Traversal ω → Graph α ω → Reply α ω β) : Outcome α ω β :=
  match s.traversals[number]? with
  | none => { answer := absent, session := s }
  | some t =>
    let reply := question t s.graph
    { answer := reply.answer
      session := ⟨reply.graph, s.traversals.setIfInBounds number reply.traversal⟩
      notices := reply.notices }

/-! ## Actions -/

/-- Performs one action. -/
def step [Ord ω] (s : Session α ω) : Action α ω → Outcome α ω (Answer ω)
  | .addNode data =>
    let ⟨graph, traversals⟩ := s
    let node := graph.nextNode
    let graph := graph.addNode data
    { answer := .node node, session := ⟨graph, traversals⟩, notices := [graph.modified] }
  | .addEdge first second weight =>
    let ⟨graph, traversals⟩ := s
    let edge := graph.nextEdge first second weight
    let graph := graph.addEdge first second weight
    { answer := .edge edge, session := ⟨graph, traversals⟩, notices := [graph.modified] }
  | .union a b =>
    { answer := .merged (s.graph.partition.joins a b)
      session := { s with graph := s.graph.union a b } }
  | .start =>
    { answer := .traversal s.traversals.size
      session := { s with traversals := s.traversals.push (.start s.graph) }
      notices := Traversal.startNotices s.graph }
  | .hasNext number =>
    s.ask number .noTraversal fun t g => (t.hasNext g).map .available
  | .pull number =>
    s.ask number .noTraversal fun t g => (t.pull g).map .pulled
  | .next number =>
    s.ask number .noTraversal fun t g => (t.next g).map .item
  | .finish number =>
    s.ask number .noTraversal fun t g => (t.finish g).map .forest

/-- Performs actions one after another and collects their answers. -/
def run [Ord ω] (s : Session α ω) : List (Action α ω) → Outcome α ω (List (Answer ω))
  | [] => { answer := [], session := s }
  | action :: rest =>
    let ⟨answer, session, notices⟩ := s.step action
    let later := session.run rest
    { answer := answer :: later.answer
      session := later.session
      notices := notices ++ later.notices }

/-! ## Streams -/

/-- Takes at most `count` items from the stream of a traversal, and stops
    where the stream ends. -/
def take (s : Session α ω) (number : Nat) : Nat → Outcome α ω (List (Except Failure (Edge ω)))
  | 0 => { answer := [], session := s }
  | count + 1 =>
    let here := s.ask number none Traversal.next
    match here.answer with
    | none => { answer := [], session := here.session, notices := here.notices }
    | some item =>
      let later := here.session.take number count
      { answer := item :: later.answer
        session := later.session
        notices := here.notices ++ later.notices }

/-- Drops `count` items from the stream of a traversal and takes the one
    behind them; nothing when the stream ends before. -/
def nth (s : Session α ω) (number count : Nat) :
    Outcome α ω (Option (Except Failure (Edge ω))) :=
  let dropped := s.take number count
  if dropped.answer.length < count then
    { answer := none, session := dropped.session, notices := dropped.notices }
  else
    let here := dropped.session.ask number none Traversal.next
    { here with notices := dropped.notices ++ here.notices }

/-- How many items at most the stream of a traversal still has. -/
def streamBound (s : Session α ω) (number : Nat) : Nat :=
  s.traversals[number]?.elim 0 fun t => t.sizeHint.2

/-- Takes all items that the stream of a traversal still has, and meets its
    end. -/
def takeAll (s : Session α ω) (number : Nat) :
    Outcome α ω (List (Except Failure (Edge ω))) :=
  s.take number (s.streamBound number + 1)

end Session

end SpanForest
