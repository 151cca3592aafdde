import SpanForest.Edge

/-! # What operations report

    Beside its answer, an operation on a graph or a traversal reports what it
    did, as a list of notices in the order of the events.

    The notices between `traversalOpens` and `traversalOpened` belong to the
    beginning of one traversal.
-/

namespace SpanForest

/-- Something that an operation did or found. -/
inductive Notice where
  /-- A node or an edge was added; the counts are those after the addition. -/
  | graphModified (nodes edges modificationCount : Nat)
  /-- A traversal handed out an edge and merged the sets of its endpoints. -/
  | edgeAccepted (first second : NodeId) (sequence : Nat)
  /-- A traversal passed over an edge whose endpoints are in one set. -/
  | edgeSkipped (sequence : Nat)
  /-- A traversal noticed an addition that was made after it began. -/
  | additionNoticed (expected found : Nat)
  /-- A traversal of a graph with these counts is about to begin. -/
  | traversalOpens (edges modificationCount : Nat) (tieBreak : TieBreak)
  /-- The traversal has begun. -/
  | traversalOpened
deriving DecidableEq

end SpanForest
