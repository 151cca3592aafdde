/-! # Node handles

    A handle names a node by its position in the order of insertion. It
    means something only to the partition or graph that issued it: everywhere
    else it is *foreign*, and every operation says what it does with one.

    * **`NodeId`**: the handle, compared by position.
    * **`NodeId.label`**: its short text, `n3`.
-/

namespace SpanForest

/-- The handle of a node: its position in the order of insertion. -/
structure NodeId where
  /-- The position, counted from zero. -/
  index : Nat
deriving DecidableEq, Inhabited

namespace NodeId

/-- Handles are ordered by position. -/
instance : Ord NodeId where
  compare a b := compare a.index b.index

/-- The short text of a handle: the letter `n` and its position. -/
def label (x : NodeId) : String :=
  "n" ++ toString x.index

@[ext] theorem ext {a b : NodeId} (h : a.index = b.index) : a = b := by
  cases a
  cases b
  exact congrArg NodeId.mk h

end NodeId

end SpanForest
