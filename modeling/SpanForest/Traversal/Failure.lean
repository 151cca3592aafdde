import SpanForest.Text.Inspect

/-! # Why a traversal yields no edge

    * **`Failure`**: the two causes. Both are final for the traversal that
      met them.
    * **`Failure.code`**: the kind of a cause, with a name that programs can
      rely on; **`Failure.message`**: the sentence for people.
-/

namespace SpanForest

/-- Why a traversal cannot answer. -/
inductive Failure where
  /-- Every edge of the forest has been handed out. -/
  | exhausted
  /-- The graph gained a node or an edge after the traversal began. -/
  | concurrentModification (expected found : Nat)
deriving DecidableEq

namespace Failure

/-- The kind of a failure, without its particulars. -/
inductive Code where
  | exhausted
  | concurrentModification
deriving DecidableEq

/-- The name of a kind of failure, which never changes. -/
def Code.name : Code → String
  | .exhausted => "KRUSKAL_ITERATOR_EXHAUSTED"
  | .concurrentModification => "KRUSKAL_CONCURRENT_MODIFICATION"

instance : Inspect Code :=
  ⟨fun | .exhausted => "Exhausted" | .concurrentModification => "ConcurrentModification"⟩

/-- The kind of a failure. -/
def code : Failure → Code
  | .exhausted => .exhausted
  | .concurrentModification _ _ => .concurrentModification

/-- The sentence that reports a failure. -/
def message : Failure → String
  | .exhausted => "the Kruskal iterator has no remaining edges"
  | .concurrentModification expected found =>
    "graph was modified after the iterator was created (expected modification count "
      ++ toString expected ++ ", found " ++ toString found ++ ")"

instance : Inspect Failure where
  inspect
    | .exhausted => "Exhausted"
    | .concurrentModification expected found =>
      Inspect.record "ConcurrentModification"
        [("expected", inspect expected), ("found", inspect found)]

end Failure

end SpanForest
