import SpanForest.NodeId

/-! # Edges and the order of their examination

    An edge joins two nodes at a price, its weight. Weights are compared by
    their `Ord` instance; among edges of equal weight the place in the order
    of insertion decides.

    * **`TieBreak`**: which of several edges of equal weight comes first.
    * **`Edge.compareUnder`**: the order in which a traversal examines edges.
    * **`TieBreak.arrange`**: a list of edges in that order.
-/

namespace SpanForest

/-! ## Tie-breaking -/

/-- Which of several edges of equal weight is examined first. -/
inductive TieBreak where
  /-- The edge that was added first. -/
  | insertionOrder
  /-- The edge that was added last. -/
  | latestFirst
deriving DecidableEq

namespace TieBreak

/-- Without a choice, edges added earlier are examined earlier. -/
instance : Inhabited TieBreak := ⟨.insertionOrder⟩

/-- Orders two places in the order of insertion. -/
def compareSequence : TieBreak → Nat → Nat → Ordering
  | .insertionOrder, a, b => compare a b
  | .latestFirst, a, b => compare b a

end TieBreak

/-! ## Edges -/

/-- An undirected edge. -/
structure Edge (ω : Type u) where
  /-- The endpoint that was named first. -/
  first : NodeId
  /-- The endpoint that was named second. -/
  second : NodeId
  /-- The price of the edge. -/
  weight : ω
  /-- The number of edges that were added before this one. -/
  sequence : Nat
deriving DecidableEq

namespace Edge

variable {ω : Type u}

/-- Both endpoints, in the order in which they were named. -/
def endpoints (e : Edge ω) : NodeId × NodeId := (e.first, e.second)

variable [Ord ω]

/-- Orders two edges by weight alone. -/
def compareWeight (a b : Edge ω) : Ordering :=
  compare a.weight b.weight

/-- Orders two edges by weight and, where the weights are equal, by the
    tie-break. Different edges of one graph are never equal in this order,
    since they differ in sequence. -/
def compareUnder (tieBreak : TieBreak) (a b : Edge ω) : Ordering :=
  (a.compareWeight b).then (tieBreak.compareSequence a.sequence b.sequence)

end Edge

/-- The edges in the order in which a traversal examines them. -/
def TieBreak.arrange [Ord ω] (tieBreak : TieBreak) (edges : List (Edge ω)) : List (Edge ω) :=
  edges.mergeSort fun a b => (a.compareUnder tieBreak b).isLE

end SpanForest
