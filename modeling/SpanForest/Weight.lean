import SpanForest.Text.Inspect

/-! # Weights of particular kinds

    Whole numbers, texts and pairs serve as weights as they are. Two more
    kinds have uses of their own.

    * **`Reversed`**: weights compared in reverse, so that forests are built
      from the largest weight downwards.
    * **`Unweighted`**: no weight at all; the tie-break alone decides.
-/

namespace SpanForest

/-- A whole number, where the larger one counts as the lesser. -/
structure Reversed where
  /-- The number. -/
  value : Int
deriving DecidableEq

namespace Reversed

instance : Ord Reversed where
  compare a b := compare b.value a.value

instance : Inspect Reversed :=
  ⟨fun w => "Reverse(" ++ toString w.value ++ ")"⟩

end Reversed

/-- The weight of edges that have none. -/
inductive Unweighted where
  /-- The only value. -/
  | unweighted
deriving DecidableEq

namespace Unweighted

instance : Ord Unweighted where
  compare _ _ := .eq

instance : Inspect Unweighted :=
  ⟨fun _ => "()"⟩

end Unweighted

end SpanForest
