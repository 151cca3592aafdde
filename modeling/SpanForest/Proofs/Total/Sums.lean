import Mathlib.Algebra.Order.Ring.Int
import Mathlib.Data.List.Pairwise
import SpanForest.WordRange

/-! # Sums of ascending numbers

    Numbers in ascending order are added up in words of a fixed size. The
    partial sums go down as long as the numbers are negative and up from then
    on, so that the sum of the negative numbers is the lowest of them, and the
    last one is the highest that comes after it. These two decide everything.

    * **`belowZero`**, **`aboveZero`**: the negative and the positive part of
      a sum.
    * **`saturatingSum_of_ascending`**: a saturating sum is pulled back at most
      twice, once at either end of the range.
    * **`saturatingSum_eq_clamp_iff`**: so it may end above the nearest number
      to the exact sum, but only after it was pulled up.
    * **`sum?_of_ascending`**: a checked sum fails when its lowest or its last
      partial sum does not fit, and is exact otherwise.
-/

namespace SpanForest

namespace WordRange

variable {range : WordRange} {numbers rest : List Int} {n start : Int}

/-! ## The two parts of a sum -/

/-- The sum of the negative numbers. -/
def belowZero (numbers : List Int) : Int := (numbers.filter (· < 0)).sum

/-- The sum of the positive numbers. -/
def aboveZero (numbers : List Int) : Int := (numbers.filter (0 < ·)).sum

theorem belowZero_cons (n : Int) (rest : List Int) :
    belowZero (n :: rest) = min n 0 + belowZero rest := by
  unfold belowZero
  by_cases hn : n < 0
  · rw [List.filter_cons_of_pos (by simpa using hn), List.sum_cons]
    omega
  · rw [List.filter_cons_of_neg (by simpa using hn)]
    omega

theorem aboveZero_cons (n : Int) (rest : List Int) :
    aboveZero (n :: rest) = max n 0 + aboveZero rest := by
  unfold aboveZero
  by_cases hn : 0 < n
  · rw [List.filter_cons_of_pos (by simpa using hn), List.sum_cons]
    omega
  · rw [List.filter_cons_of_neg (by simpa using hn)]
    omega

theorem belowZero_add_aboveZero (numbers : List Int) :
    belowZero numbers + aboveZero numbers = numbers.sum := by
  induction numbers with
  | nil => rfl
  | cons n rest ih =>
    rw [belowZero_cons, aboveZero_cons, List.sum_cons]
    omega

theorem belowZero_nonpos (numbers : List Int) : belowZero numbers ≤ 0 := by
  induction numbers with
  | nil => exact Int.le_refl 0
  | cons n rest ih =>
    rw [belowZero_cons]
    omega

theorem aboveZero_nonneg (numbers : List Int) : 0 ≤ aboveZero numbers := by
  induction numbers with
  | nil => exact Int.le_refl 0
  | cons n rest ih =>
    rw [aboveZero_cons]
    omega

theorem belowZero_of_nonneg (h : ∀ n ∈ numbers, 0 ≤ n) : belowZero numbers = 0 := by
  have hnone : numbers.filter (· < 0) = [] := by
    rw [List.filter_eq_nil_iff]
    intro n hn
    simpa using h n hn
  rw [belowZero, hnone]
  rfl

/-- In ascending order, no negative number comes behind another one. -/
theorem belowZero_of_ascending (h : (n :: rest).Pairwise (· ≤ ·)) (hn : 0 ≤ n) :
    belowZero rest = 0 := by
  apply belowZero_of_nonneg
  intro m hm
  exact hn.trans ((List.pairwise_cons.1 h).1 m hm)

/-! ## Saturating sums -/

/-- From a number of the range on, negative numbers pull the sum down to the
    least number of the range, and positive ones pull it up to the greatest. -/
theorem foldl_clamp_of_ascending (hstart : range.contains start = true)
    (h : numbers.Pairwise (· ≤ ·)) :
    numbers.foldl (fun total n => range.clamp (total + n)) start =
      min range.greatest (max range.least (start + belowZero numbers) + aboveZero numbers) := by
  induction numbers generalizing start with
  | nil =>
    obtain ⟨hleast, hgreatest⟩ := contains_iff.1 hstart
    show start = min range.greatest (max range.least (start + 0) + 0)
    omega
  | cons n rest ih =>
    obtain ⟨hleast, hgreatest⟩ := contains_iff.1 hstart
    have hnext : range.contains (range.clamp (start + n)) = true := by
      rw [contains_iff, clamp]
      omega
    have hbelow := belowZero_nonpos rest
    have habove := aboveZero_nonneg rest
    rw [List.foldl_cons, ih hnext (List.pairwise_cons.1 h).2, belowZero_cons, aboveZero_cons]
    unfold clamp
    rcases Int.lt_or_le n 0 with hn | hn
    · omega
    -- From here on nothing is negative.
    · have hnone := belowZero_of_ascending h hn
      omega

variable (hzero : range.contains 0 = true) (hnumbers : numbers.Pairwise (· ≤ ·))
include hzero hnumbers

theorem saturatingSum_of_ascending : range.saturatingSum numbers =
    min range.greatest (max range.least (belowZero numbers) + aboveZero numbers) := by
  have hsum := foldl_clamp_of_ascending hzero hnumbers
  rwa [Int.zero_add] at hsum

/-- The saturating sum is the number of the range that is nearest to the exact
    sum, unless it was pulled up from below the range and has not reached the
    upper end after that. -/
theorem saturatingSum_eq_clamp_iff (hproper : range.least < range.greatest) :
    range.saturatingSum numbers = range.clamp numbers.sum ↔
      range.least ≤ belowZero numbers ∨ aboveZero numbers = 0 ∨
        range.greatest ≤ numbers.sum := by
  obtain ⟨hleast, hgreatest⟩ := contains_iff.1 hzero
  have hparts := belowZero_add_aboveZero numbers
  have hbelow := belowZero_nonpos numbers
  have habove := aboveZero_nonneg numbers
  rw [saturatingSum_of_ascending hzero hnumbers]
  unfold clamp
  omega

/-! ## Checked sums -/

omit hzero hnumbers in
/-- The next partial sum fits, and so do the lowest and the last one after it,
    when the lowest and the last one fit beforehand. -/
theorem fits_cons_iff (hstart : range.contains start = true)
    (h : (n :: rest).Pairwise (· ≤ ·)) :
    (range.contains (start + n) = true ∧
      range.least ≤ start + n + belowZero rest ∧ start + n + rest.sum ≤ range.greatest) ↔
    range.least ≤ start + belowZero (n :: rest) ∧ start + (n :: rest).sum ≤ range.greatest := by
  obtain ⟨hleast, hgreatest⟩ := contains_iff.1 hstart
  have hparts := belowZero_add_aboveZero rest
  have hbelow := belowZero_nonpos rest
  have habove := aboveZero_nonneg rest
  rw [contains_iff, belowZero_cons, List.sum_cons]
  rcases Int.lt_or_le n 0 with hn | hn
  · omega
  -- From here on nothing is negative.
  · have hnone := belowZero_of_ascending h hn
    omega

omit hzero in
/-- From a number of the range on, the checked sum fits when the lowest and the
    last partial sum do. -/
theorem foldlM_contains_of_ascending (hstart : range.contains start = true) :
    numbers.foldlM (fun total n =>
        if range.contains (total + n) then some (total + n) else none) start =
      if range.least ≤ start + belowZero numbers ∧ start + numbers.sum ≤ range.greatest then
        some (start + numbers.sum)
      else none := by
  induction numbers generalizing start with
  | nil =>
    have hfits := contains_iff.1 hstart
    show some start = if range.least ≤ start + 0 ∧ start + 0 ≤ range.greatest then
      some (start + 0) else none
    rw [Int.add_zero, if_pos hfits]
  | cons n rest ih =>
    have hiff := fits_cons_iff hstart hnumbers
    rw [List.foldlM_cons]
    cases hnext : range.contains (start + n) with
    | true =>
      rw [hnext, eq_self, true_and] at hiff
      show rest.foldlM _ (start + n) = _
      rw [ih (List.pairwise_cons.1 hnumbers).2 hnext, if_congr hiff rfl rfl, List.sum_cons,
        Int.add_assoc]
    | false =>
      rw [hnext, Bool.false_eq_true, false_and, false_iff] at hiff
      rw [if_neg hiff]
      rfl

/-- The checked sum fails when its lowest or its last partial sum does not fit,
    and is exact otherwise. -/
theorem sum?_of_ascending : range.sum? numbers =
    if belowZero numbers < range.least ∨ range.greatest < numbers.sum then none
    else some numbers.sum := by
  have hsum := foldlM_contains_of_ascending hnumbers hzero
  rw [Int.zero_add, Int.zero_add] at hsum
  refine hsum.trans ?_
  by_cases hfails : belowZero numbers < range.least ∨ range.greatest < numbers.sum
  · rw [if_pos hfails, if_neg (by omega)]
  · rw [if_neg hfails, if_pos (by omega)]

/-- Without negative numbers, the last partial sum alone decides. -/
theorem sum?_of_nonneg (hnonneg : ∀ n ∈ numbers, 0 ≤ n) : range.sum? numbers =
    if range.greatest < numbers.sum then none else some numbers.sum := by
  have hleast := (contains_iff.1 hzero).1
  have hnever : ¬ belowZero numbers < range.least := by
    rw [belowZero_of_nonneg hnonneg]
    omega
  rw [sum?_of_ascending hzero hnumbers]
  exact if_congr (or_iff_right hnever) rfl rfl

end WordRange

end SpanForest
