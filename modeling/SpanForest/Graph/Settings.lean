import SpanForest.Graph

/-! # Settings of a new graph

    Before a graph is built one may choose its tie-break, and say how many
    nodes and edges to expect. The expectations change nothing that can be
    observed of the graph.
-/

namespace SpanForest

/-- The settings from which a graph is built. -/
structure GraphSettings where
  /-- How many nodes to expect. -/
  nodeCapacity : Nat := 0
  /-- How many edges to expect. -/
  edgeCapacity : Nat := 0
  /-- The tie-break of the graph's traversals. -/
  tieBreak : TieBreak := default
deriving DecidableEq

namespace GraphSettings

instance : Inhabited GraphSettings := ⟨{}⟩

/-- A change of one setting. -/
inductive Change where
  | nodeCapacity (count : Nat)
  | edgeCapacity (count : Nat)
  | tieBreak (choice : TieBreak)
deriving DecidableEq

/-- Replaces one setting. -/
def apply (s : GraphSettings) : Change → GraphSettings
  | .nodeCapacity count => { s with nodeCapacity := count }
  | .edgeCapacity count => { s with edgeCapacity := count }
  | .tieBreak choice => { s with tieBreak := choice }

/-- The settings before any of the given changes, and after each of them. -/
def history (changes : List Change) : List GraphSettings :=
  changes.scanl apply default

/-- The empty graph with these settings. -/
def build (s : GraphSettings) : Graph α ω := .empty s.tieBreak

end GraphSettings

end SpanForest
