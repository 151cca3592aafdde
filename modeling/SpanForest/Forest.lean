import SpanForest.Edge
import SpanForest.WordRange

/-! # Spanning forests

    A drained traversal leaves a forest: the edges it handed out, in that
    order, and the counts of nodes and components. Each edge joined two
    components, so there are as many components as nodes less edges.
-/

namespace SpanForest

/-- What a drained traversal has found. -/
structure Forest (ω : Type u) where
  /-- The edges, in the order in which they were handed out. -/
  edges : Array (Edge ω)
  /-- The number of components that the edges leave. -/
  componentCount : Nat
  /-- The number of nodes. -/
  nodeCount : Nat
deriving DecidableEq

namespace Forest

variable {ω : Type u}

/-- The forest of the given edges on so many nodes. -/
def ofEdges (edges : Array (Edge ω)) (nodeCount : Nat) : Forest ω :=
  ⟨edges, nodeCount - edges.size, nodeCount⟩

/-- A forest is a tree when it leaves one component. -/
def isTree (f : Forest ω) : Bool := f.componentCount == 1

/-- The weights of the edges, in the order in which they were handed out. -/
def weights (f : Forest ω) : List ω := f.edges.toList.map Edge.weight

/-- The exact sum of the weights. -/
def total (f : Forest Int) : Int := f.weights.foldr (· + ·) 0

/-- Whether no edge is heavier than the one handed out after it. -/
def isSorted (f : Forest Int) : Bool :=
  (f.weights.zip f.weights.tail).all fun pair => pair.1 ≤ pair.2

/-- The sum of the weights, taken in words of the given range; nothing when a
    partial sum does not fit. -/
def wordTotal? (range : WordRange) (f : Forest Int) : Option Int :=
  range.sum? f.weights

end Forest

end SpanForest
