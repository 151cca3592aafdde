import SpanForest.EdgeList
import SpanForest.Traversal.Failure

/-! # Synthetic graphs

    Graphs for measurements are made at random: a path through all nodes in a
    random order, so that the graph is connected, and further edges between
    random nodes, which may repeat and may be loops.

    * **`RandomSource`**: what is asked of a source of randomness. Nothing
      else about it is used, so all that is said of the generated graphs
      holds for every source.
    * **`SyntheticPlan.generate`**: the graph of a plan, or what is wrong
      with the plan.
    * **`SyntheticGraph.load`**: the session on the graph.
    * **`RandomSource.congruential`**: a source for repeatable measurements.
-/

namespace SpanForest

/-! ## Randomness -/

/-- A source of randomness with states of type `σ`. -/
structure RandomSource (σ : Type) where
  /-- A number below a positive bound. -/
  below : Nat → σ → Nat × σ
  /-- A list in another order. -/
  shuffle : {α : Type} → List α → σ → List α × σ
  /-- A drawn number stays below its bound. -/
  below_lt : ∀ {bound : Nat} (s : σ), 0 < bound → (below bound s).1 < bound
  /-- A shuffled list has the same members, each as often. -/
  shuffle_perm : ∀ {α : Type} (items : List α) (s : σ), (shuffle items s).1.Perm items

namespace RandomSource

/-- The multiplier of the congruential source. -/
def multiplier : Nat := 6364136223846793005

/-- The increment of the congruential source. -/
def increment : Nat := 1442695040888963407

/-- The next state of the congruential source. -/
def advance (s : Nat) : Nat := (s * multiplier + increment) % Nat.pow 2 64

/-- So many states of the congruential source, one after another, and the
    state behind them. -/
def states : Nat → Nat → List Nat × Nat
  | 0, s => ([], s)
  | count + 1, s =>
    let (later, last) := states count (advance s)
    (s :: later, last)

theorem length_states (count s : Nat) : (states count s).1.length = count := by
  induction count generalizing s with
  | zero => rfl
  | succ count ih => simp [states, ih]

/-- A linear congruential source. The high bits of its states are the random
    ones; lists are put into the order of such bits. -/
def congruential : RandomSource Nat where
  below bound s := (s / Nat.pow 2 33 % bound, advance s)
  shuffle items s :=
    let (keys, last) := states items.length s
    let keyed := items.zip keys
    ((keyed.mergeSort fun a b => a.2 / Nat.pow 2 33 ≤ b.2 / Nat.pow 2 33).map (·.1), last)
  below_lt _ positive := Nat.mod_lt _ positive
  shuffle_perm items s := by
    refine (List.Perm.map _ (List.mergeSort_perm _ _)).trans ?_
    rw [List.map_fst_zip (Nat.le_of_eq (length_states _ _).symm)]

end RandomSource

/-! ## Plans -/

/-- What a synthetic graph should be like. -/
structure SyntheticPlan where
  /-- The number of nodes. -/
  nodeCount : Nat
  /-- How many random edges there are for each node, beside the path. -/
  edgesPerNode : Nat
  /-- The largest weight; the smallest is one. -/
  maxWeight : Int
deriving DecidableEq

/-- Why a plan cannot be carried out. -/
inductive SyntheticFault where
  /-- There are no nodes. -/
  | zeroNodes
  /-- There are no weights to choose from. -/
  | emptyWeightRange (maxWeight : Int)
  /-- The edges are too many to count. -/
  | edgeCountOverflow (nodeCount edgesPerNode : Nat)
deriving DecidableEq

/-- The sentence that reports a fault. -/
def SyntheticFault.message : SyntheticFault → String
  | .zeroNodes => "node_count must be greater than zero"
  | .emptyWeightRange maxWeight => "max_weight must be positive, got " ++ toString maxWeight
  | .edgeCountOverflow nodeCount edgesPerNode =>
    toString nodeCount ++ " nodes with " ++ toString edgesPerNode
      ++ " edges each overflows usize"

/-- A generated graph: its nodes are numbered, its edges listed. -/
structure SyntheticGraph where
  /-- The number of nodes. -/
  nodeCount : Nat
  /-- The edges between them. -/
  edges : List ListedEdge
deriving DecidableEq

namespace SyntheticPlan

/-- The number of random edges, if the plan can be carried out. -/
def extraEdges (plan : SyntheticPlan) : Except SyntheticFault Nat :=
  let extra := plan.nodeCount * plan.edgesPerNode
  if plan.nodeCount = 0 then .error .zeroNodes
  else if plan.maxWeight < 1 then .error (.emptyWeightRange plan.maxWeight)
  else if WordRange.nat64.contains extra then .ok extra
  else .error (.edgeCountOverflow plan.nodeCount plan.edgesPerNode)

variable {σ : Type}

/-- Draws a weight. -/
def drawWeight (source : RandomSource σ) (plan : SyntheticPlan) (s : σ) : Int × σ :=
  let (w, s) := source.below plan.maxWeight.toNat s
  (w + 1, s)

/-- Joins every node of a list to the one behind it. -/
def drawPath (source : RandomSource σ) (plan : SyntheticPlan) :
    List Nat → σ → List ListedEdge × σ
  | left :: right :: rest, s =>
    let (weight, s) := drawWeight source plan s
    let (path, s) := drawPath source plan (right :: rest) s
    (⟨left, right, weight⟩ :: path, s)
  | _, s => ([], s)

/-- Draws so many edges between any two nodes. -/
def drawExtra (source : RandomSource σ) (plan : SyntheticPlan) :
    Nat → σ → List ListedEdge × σ
  | 0, s => ([], s)
  | count + 1, s =>
    let (left, s) := source.below plan.nodeCount s
    let (right, s) := source.below plan.nodeCount s
    let (weight, s) := drawWeight source plan s
    let (extra, s) := drawExtra source plan count s
    (⟨left, right, weight⟩ :: extra, s)

/-- The graph of a plan: a path through all nodes in random order and the
    further edges, all of them in random order. -/
def generate (source : RandomSource σ) (plan : SyntheticPlan) (s : σ) :
    Except SyntheticFault SyntheticGraph :=
  plan.extraEdges.map fun extra =>
    let (order, s) := source.shuffle (List.range plan.nodeCount) s
    let (path, s) := drawPath source plan order s
    let (further, s) := drawExtra source plan extra s
    ⟨plan.nodeCount, (source.shuffle (path ++ further) s).1⟩

/-- Whether an edge joins nodes of the plan at a weight of the plan. -/
def admits (plan : SyntheticPlan) (e : ListedEdge) : Bool :=
  decide (e.left < plan.nodeCount) && decide (e.right < plan.nodeCount)
    && decide (1 ≤ e.weight) && decide (e.weight ≤ plan.maxWeight)

end SyntheticPlan

namespace SyntheticGraph

/-- The number of edges. -/
def edgeCount (g : SyntheticGraph) : Nat := g.edges.length

/-- The session on a generated graph, whose nodes carry their numbers. -/
def load (g : SyntheticGraph) (tieBreak : TieBreak) : Outcome Nat Int (List (Answer Int)) :=
  (Session.empty tieBreak).run (ListedEdge.additions (List.range g.nodeCount) g.edges)

end SyntheticGraph

/-! ## Measurements -/

/-- Why a measurement cannot be set up. -/
inductive SetupFault where
  /-- The graph cannot be made. -/
  | synthetic (fault : SyntheticFault)
  /-- The traversal fails. -/
  | traversal (failure : Failure)
deriving DecidableEq

/-- The sentence that reports a fault. -/
def SetupFault.message : SetupFault → String
  | .synthetic fault => "synthetic graph generation failed: " ++ fault.message
  | .traversal failure => "Kruskal iteration failed: " ++ failure.message

/-- The size of the graph of a measurement. -/
structure MeasurementSize where
  /-- The number of nodes. -/
  nodeCount : Nat
  /-- How many random edges there are for each node. -/
  edgesPerNode : Nat
deriving DecidableEq

namespace MeasurementSize

/-- The name of a size in a table of measurements. -/
def label (size : MeasurementSize) : String :=
  "n=" ++ toString size.nodeCount ++ ",d=" ++ toString size.edgesPerNode

instance : Inspect MeasurementSize :=
  ⟨fun size => Inspect.record "GraphBenchParams"
    [("node_count", inspect size.nodeCount), ("edges_per_node", inspect size.edgesPerNode)]⟩

end MeasurementSize

end SpanForest
