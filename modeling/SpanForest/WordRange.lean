/-! # Ranges of machine words

    Weights, totals and counts are whole numbers; where they are kept in
    words of a fixed size, a range says which numbers the word can hold.

    * **`contains`**: whether a number fits.
    * **`clamp`**: the nearest number that fits.
    * **`sum?`**: a sum all of whose partial sums fit, or nothing.
    * **`saturatingSum`**: a sum that is pulled back into the range after
      each step.
-/

namespace SpanForest

/-- The whole numbers from `least` to `greatest`. -/
structure WordRange where
  /-- The smallest number of the range. -/
  least : Int
  /-- The largest number of the range. -/
  greatest : Int
deriving DecidableEq

namespace WordRange

/-- Signed words of 64 bits. -/
def int64 : WordRange := ⟨-Int.pow 2 63, Int.pow 2 63 - 1⟩

/-- Unsigned words of 64 bits. -/
def nat64 : WordRange := ⟨0, Int.pow 2 64 - 1⟩

/-- Unsigned words of 32 bits. -/
def nat32 : WordRange := ⟨0, Int.pow 2 32 - 1⟩

/-- Unsigned words of 8 bits. -/
def nat8 : WordRange := ⟨0, Int.pow 2 8 - 1⟩

/-- Whether a number fits. -/
def contains (range : WordRange) (n : Int) : Bool :=
  decide (range.least ≤ n) && decide (n ≤ range.greatest)

/-- The number of the range that is nearest to the given one. -/
def clamp (range : WordRange) (n : Int) : Int :=
  max range.least (min n range.greatest)

/-- Adds the numbers from left to right, starting with zero; nothing when a
    partial sum does not fit. -/
def sum? (range : WordRange) (numbers : List Int) : Option Int :=
  numbers.foldlM (fun total n =>
    if range.contains (total + n) then some (total + n) else none) 0

/-- Adds the numbers from left to right, starting with zero and pulling every
    partial sum back into the range. -/
def saturatingSum (range : WordRange) (numbers : List Int) : Int :=
  numbers.foldl (fun total n => range.clamp (total + n)) 0

theorem contains_iff {range : WordRange} {n : Int} :
    range.contains n = true ↔ range.least ≤ n ∧ n ≤ range.greatest := by
  simp [contains]

end WordRange

end SpanForest
