import Mathlib.Data.List.Basic
import Mathlib.Data.List.Induction
import Mathlib.Tactic.IntervalCases
import SpanForest.Text.Integer

/-! # The texts of whole numbers

    A number is read digit by digit, and each digit is held against the range.
    Here the number is read as a whole, and the range is asked once.

    * **`Numeral`**: the texts of a number, with signs and leading zeros.
    * **`append_eq_ok_iff`**: the digits are read to the end exactly when the
      whole number is in the range. Whatever was read before it is nearer to
      zero, so no beginning of an admitted text leads out of the range.
    * **`read_eq_ok_iff`**: reading accepts the texts of the numbers in range,
      and **`read_eq_ok_iff_unsigned`** where the range starts at zero.
    * **`plainDecimal_iff`**: decimal writing puts no zeros in front, and
      **`numeral_toString`**: what it writes is a text of the number.
    * **`Numeral.value_unique`**: a text stands for one number, so
      **`toString_injective`**: a number can be told from what is written.
-/

namespace SpanForest.Text

variable {c : Char} {cs digits : List Char} {range : WordRange} {negative : Bool} {value : Int}

/-! ## Numerals -/

/-- One or more decimal digits that stand for the given number. -/
def Decimal (digits : List Char) (n : Nat) : Prop :=
  digits ≠ [] ∧ (∀ c ∈ digits, c.isDigit = true) ∧ Nat.ofDigitChars 10 digits 0 = n

instance (digits : List Char) (n : Nat) : Decidable (Decimal digits n) :=
  haveI := List.decidableBAll (fun c => c.isDigit = true) digits
  decidable_of_iff (digits ≠ [] ∧ (∀ c ∈ digits, c.isDigit = true) ∧
    Nat.ofDigitChars 10 digits 0 = n) Iff.rfl

/-- The texts of a whole number: an optional sign, then decimal digits. -/
inductive Numeral : List Char → Int → Prop where
  /-- Without a sign. -/
  | bare {digits n} : Decimal digits n → Numeral digits n
  /-- With a plus sign. -/
  | plus {digits n} : Decimal digits n → Numeral ('+' :: digits) n
  /-- With a minus sign. -/
  | minus {digits n} : Decimal digits n → Numeral ('-' :: digits) (-n)

/-- The texts of a number where no number is below zero: an optional plus sign,
    then decimal digits. Not even zero is written with a minus sign. -/
inductive UnsignedNumeral : List Char → Nat → Prop where
  /-- Without a sign. -/
  | bare {digits n} : Decimal digits n → UnsignedNumeral digits n
  /-- With a plus sign. -/
  | plus {digits n} : Decimal digits n → UnsignedNumeral ('+' :: digits) n

/-- A number with its sign apart. -/
def signed (negative : Bool) (n : Nat) : Int := if negative then -n else n

/-! ## Digits -/

theorem isDigit_iff : c.isDigit = true ↔ '0' ≤ c ∧ c ≤ '9' := by
  rw [Char.isDigit, Bool.and_eq_true, decide_eq_true_eq, decide_eq_true_eq]
  exact Iff.rfl

namespace Integer

theorem digit?_of_isDigit (h : c.isDigit = true) : digit? c = some (c.toNat - '0'.toNat) := by
  unfold digit?
  rw [if_pos (isDigit_iff.1 h)]

theorem digit?_of_not_isDigit (h : ¬ c.isDigit = true) : digit? c = none := by
  unfold digit?
  rw [if_neg (mt isDigit_iff.2 h)]

theorem append_cons (h : c.isDigit = true) (range : WordRange) (negative : Bool) (n : Nat)
    (rest : List Char) : append range negative (signed negative n) (c :: rest) =
      if range.contains (signed negative (10 * n + (c.toNat - '0'.toNat))) then
        append range negative (signed negative (10 * n + (c.toNat - '0'.toNat))) rest
      else .error (if negative then .tooSmall else .tooLarge) := by
  have hnext : (if negative then signed negative n * 10 - ((c.toNat - '0'.toNat : Nat) : Int)
      else signed negative n * 10 + ((c.toNat - '0'.toNat : Nat) : Int)) =
        signed negative (10 * n + (c.toNat - '0'.toNat)) := by
    cases negative <;> simp only [signed, if_true, if_false, Bool.false_eq_true] <;> omega
  rw [append, digit?_of_isDigit h]
  simp only [hnext]

/-- Digits that follow lead away from zero. -/
theorem le_ofDigitChars (digits : List Char) (n : Nat) : n ≤ Nat.ofDigitChars 10 digits n := by
  induction digits generalizing n with
  | nil => exact Nat.le_refl n
  | cons c rest ih =>
    rw [Nat.ofDigitChars_cons]
    have hle := ih (10 * n + (c.toNat - '0'.toNat))
    omega

/-- What is nearer to zero than a number of the range lies in the range. -/
theorem contains_signed_of_le (hzero : range.contains 0 = true) {m n : Nat} (hle : m ≤ n)
    (h : range.contains (signed negative n) = true) :
    range.contains (signed negative m) = true := by
  rw [WordRange.contains_iff] at *
  cases negative <;> simp only [signed, if_true, if_false, Bool.false_eq_true] at * <;> omega

/-- Digits are appended to the end exactly when all characters are digits and
    the whole number lies in the range. -/
theorem append_eq_ok_iff (hzero : range.contains 0 = true) {n : Nat}
    (hn : range.contains (signed negative n) = true) :
    append range negative (signed negative n) digits = .ok value ↔
      (∀ c ∈ digits, c.isDigit = true) ∧
      signed negative (Nat.ofDigitChars 10 digits n) = value ∧ range.contains value = true := by
  induction digits generalizing n with
  | nil =>
    rw [append, Nat.ofDigitChars_nil, Except.ok.injEq]
    constructor
    · rintro rfl
      exact ⟨fun c hc => (List.not_mem_nil hc).elim, rfl, hn⟩
    · rintro ⟨-, hvalue, -⟩
      exact hvalue
  | cons c rest ih =>
    rw [List.forall_mem_cons, Nat.ofDigitChars_cons]
    by_cases hc : c.isDigit = true
    · rw [append_cons hc]
      by_cases hnext : range.contains (signed negative (10 * n + (c.toNat - '0'.toNat))) = true
      · rw [if_pos hnext, ih hnext, and_iff_right hc]
      · rw [if_neg hnext]
        constructor
        · intro h
          cases h
        · rintro ⟨-, rfl, hvalue⟩
          -- The whole number would lie even further out.
          exact absurd (contains_signed_of_le hzero (le_ofDigitChars rest _) hvalue) hnext
    · rw [append, digit?_of_not_isDigit hc]
      constructor
      · intro h
        cases h
      · rintro ⟨⟨hdigit, -⟩, -⟩
        exact absurd hdigit hc

/-! ## Reading -/

/-- Reading digits from zero accepts the decimal numbers of the range. -/
theorem append_zero_eq_ok_iff (hzero : range.contains 0 = true) (hne : digits ≠ []) :
    append range negative 0 digits = .ok value ↔
      (∃ n, Decimal digits n ∧ value = signed negative n) ∧ range.contains value = true := by
  have hstart : (0 : Int) = signed negative 0 := by cases negative <;> rfl
  rw [hstart, append_eq_ok_iff hzero (hstart ▸ hzero)]
  constructor
  · rintro ⟨hdigits, rfl, hvalue⟩
    exact ⟨⟨_, ⟨hne, hdigits, rfl⟩, rfl⟩, hvalue⟩
  · rintro ⟨⟨_, ⟨-, hdigits, rfl⟩, rfl⟩, hvalue⟩
    exact ⟨hdigits, rfl, hvalue⟩

/-- A sign is no digit, so a text that begins with one is read in one way. -/
theorem not_decimal_cons (hc : c.isDigit = false) (n : Nat) : ¬ Decimal (c :: cs) n := by
  rintro ⟨-, hdigits, -⟩
  rw [hdigits c List.mem_cons_self] at hc
  cases hc

theorem numeral_plus_iff : Numeral ('+' :: digits) value ↔ ∃ n, Decimal digits n ∧ value = n := by
  constructor
  · intro h
    cases h with
    | bare hbare => exact absurd hbare (not_decimal_cons (by decide) _)
    | plus h => exact ⟨_, h, rfl⟩
  · rintro ⟨n, h, rfl⟩
    exact .plus h

theorem numeral_minus_iff :
    Numeral ('-' :: digits) value ↔ ∃ n, Decimal digits n ∧ value = -(n : Int) := by
  constructor
  · intro h
    cases h with
    | bare hbare => exact absurd hbare (not_decimal_cons (by decide) _)
    | minus h => exact ⟨_, h, rfl⟩
  · rintro ⟨n, h, rfl⟩
    exact .minus h

theorem numeral_bare_iff (hplus : ∀ digits, cs ≠ '+' :: digits)
    (hminus : ∀ digits, cs ≠ '-' :: digits) :
    Numeral cs value ↔ ∃ n, Decimal cs n ∧ value = n := by
  constructor
  · intro h
    cases h with
    | bare h => exact ⟨_, h, rfl⟩
    | plus _ => exact absurd rfl (hplus _)
    | minus _ => exact absurd rfl (hminus _)
  · rintro ⟨n, h, rfl⟩
    exact .bare h

theorem not_decimal_nil (n : Nat) : ¬ Decimal [] n := fun h => h.1 rfl

/-- In a range on both sides of zero, reading accepts the texts of the numbers
    in the range. -/
theorem read_eq_ok_iff (hzero : range.contains 0 = true) (hleast : range.least < 0) :
    read range cs = .ok value ↔ Numeral cs value ∧ range.contains value = true := by
  fun_cases read range cs with
  | case1 =>
    rw [numeral_bare_iff (by simp) (by simp)]
    simp [not_decimal_nil]
  | case2 digits hempty =>
    obtain rfl := List.isEmpty_iff.1 hempty
    rw [numeral_plus_iff]
    simp [not_decimal_nil]
  | case3 digits hempty =>
    have hne : digits ≠ [] := fun h => hempty (List.isEmpty_iff.2 h)
    rw [append_zero_eq_ok_iff hzero hne, numeral_plus_iff]
    rfl
  | case4 digits hrefused =>
    have hempty : digits = [] := by
      rw [Bool.or_eq_true, decide_eq_true_eq, List.isEmpty_iff] at hrefused
      exact hrefused.resolve_right (by omega)
    subst hempty
    rw [numeral_minus_iff]
    simp [not_decimal_nil]
  | case5 digits hrefused =>
    have hne : digits ≠ [] := by
      rintro rfl
      exact hrefused rfl
    rw [append_zero_eq_ok_iff hzero hne, numeral_minus_iff]
    rfl
  | case6 digits hne hplus hminus =>
    rw [append_zero_eq_ok_iff hzero hne, numeral_bare_iff hplus hminus]
    rfl

/-! ### Ranges that start at zero -/

theorem unsignedNumeral_plus_iff {n : Nat} :
    UnsignedNumeral ('+' :: digits) n ↔ Decimal digits n := by
  constructor
  · intro h
    cases h with
    | bare hbare => exact absurd hbare (not_decimal_cons (by decide) _)
    | plus h => exact h
  · exact .plus

theorem unsignedNumeral_bare_iff (hplus : ∀ digits, cs ≠ '+' :: digits) {n : Nat} :
    UnsignedNumeral cs n ↔ Decimal cs n := by
  constructor
  · intro h
    cases h with
    | bare h => exact h
    | plus _ => exact absurd rfl (hplus _)
  · exact .bare

/-- In a range that starts at zero, reading accepts the unsigned texts of the
    numbers in the range. -/
theorem read_eq_ok_iff_unsigned (hzero : range.contains 0 = true) (hleast : 0 ≤ range.least) :
    read range cs = .ok value ↔
      (∃ n, UnsignedNumeral cs n ∧ value = n) ∧ range.contains value = true := by
  fun_cases read range cs with
  | case1 =>
    simp [unsignedNumeral_bare_iff, not_decimal_nil]
  | case2 digits hempty =>
    obtain rfl := List.isEmpty_iff.1 hempty
    simp [unsignedNumeral_plus_iff, not_decimal_nil]
  | case3 digits hempty =>
    have hne : digits ≠ [] := fun h => hempty (List.isEmpty_iff.2 h)
    rw [append_zero_eq_ok_iff hzero hne]
    simp only [unsignedNumeral_plus_iff]
    rfl
  | case4 digits hrefused =>
    -- The minus sign is no digit, and nothing else admits it.
    have hminus : ('-' : Char).isDigit = false := by decide
    simp [unsignedNumeral_bare_iff, not_decimal_cons hminus]
  | case5 digits hrefused =>
    exact absurd (by simp [hleast]) hrefused
  | case6 digits hne hplus hminus =>
    rw [append_zero_eq_ok_iff hzero hne]
    simp only [unsignedNumeral_bare_iff hplus]
    rfl

end Integer

/-! ## Writing -/

theorem decimal_toDigits (n : Nat) : Decimal (Nat.toDigits 10 n) n :=
  ⟨Nat.toDigits_ne_nil, fun _ hc => Nat.isDigit_of_mem_toDigits (by decide) (by decide) hc,
    Nat.ofDigitChars_ten_toDigits⟩

/-- The decimal digits of a number, without a zero in front of other digits. -/
structure PlainDecimal (digits : List Char) (n : Nat) : Prop where
  /-- They stand for the number. -/
  decimal : Decimal digits n
  /-- The only text that begins with a zero is that of zero. -/
  head : digits.head? = some '0' → digits = ['0']

theorem digitChar_of_isDigit (h : c.isDigit = true) :
    c.toNat - '0'.toNat < 10 ∧ Nat.digitChar (c.toNat - '0'.toNat) = c := by
  obtain ⟨hlow, hhigh⟩ := isDigit_iff.1 h
  have hlow : 48 ≤ c.toNat := hlow
  have hhigh : c.toNat ≤ 57 := hhigh
  have hc : c = Char.ofNat c.toNat := (Char.ofNat_toNat c).symm
  show c.toNat - 48 < 10 ∧ _
  refine ⟨by omega, ?_⟩
  rw [hc]
  generalize c.toNat = k at hlow hhigh
  interval_cases k <;> rfl

/-- There is one way to write a number without zeros in front. -/
theorem PlainDecimal.eq_toDigits {n : Nat} (h : PlainDecimal digits n) :
    digits = Nat.toDigits 10 n := by
  induction digits using List.reverseRecOn generalizing n with
  | nil => exact absurd rfl h.decimal.1
  | append_singleton front c ih =>
    obtain ⟨⟨-, hdigits, hvalue⟩, hhead⟩ := h
    obtain ⟨hfront, hc⟩ := List.forall_mem_append.1 hdigits
    obtain ⟨hlt, hchar⟩ := digitChar_of_isDigit (hc c (List.mem_singleton_self c))
    rw [Nat.ofDigitChars_append, Nat.ofDigitChars_cons, Nat.ofDigitChars_nil] at hvalue
    by_cases hnil : front = []
    · subst hnil
      rw [Nat.ofDigitChars_nil, Nat.mul_zero, Nat.zero_add] at hvalue
      rw [← hvalue, Nat.toDigits_of_lt_base hlt, hchar]
      rfl
    · -- The digits in front begin with no zero, so they stand for more than zero.
      have hne : front.head? ≠ some '0' := by
        intro hzero
        have hall := hhead (by rw [List.head?_append, hzero]; rfl)
        have hlength := congrArg List.length hall
        simp at hlength
        exact hnil hlength
      have hplain := ih ⟨⟨hnil, hfront, rfl⟩, fun hzero => absurd hzero hne⟩
      have hpos : 0 < Nat.ofDigitChars 10 front 0 := by
        rw [Nat.pos_iff_ne_zero]
        intro hzero
        rw [hzero] at hplain
        exact hne (by rw [hplain]; rfl)
      rw [← hvalue, ← Nat.toDigits_append_toDigits (by decide) hpos hlt, ← hplain,
        Nat.toDigits_of_lt_base hlt, hchar]

theorem head?_toDigits (n : Nat) (h : (Nat.toDigits 10 n).head? = some '0') :
    Nat.toDigits 10 n = ['0'] := by
  induction n using Nat.strongRecOn with
  | ind n ih =>
    by_cases hlt : n < 10
    · rw [Nat.toDigits_of_lt_base hlt] at h ⊢
      rw [Option.some.inj h]
    · have hle : 10 ≤ n := by omega
      rw [Nat.toDigits_of_base_le (by decide) hle,
        List.head?_append_of_ne_nil _ Nat.toDigits_ne_nil] at h
      have hvalue := congrArg (Nat.ofDigitChars 10 · 0) (ih (n / 10) (by omega) h)
      simp only [Nat.ofDigitChars_ten_toDigits] at hvalue
      have hzero : n / 10 = 0 := hvalue
      omega

/-- Decimal writing puts no zeros in front. -/
theorem plainDecimal_iff {n : Nat} : PlainDecimal digits n ↔ digits = Nat.toDigits 10 n := by
  constructor
  · exact PlainDecimal.eq_toDigits
  · rintro rfl
    exact ⟨decimal_toDigits n, head?_toDigits n⟩

/-- The decimal writing of a number is a text of it. -/
theorem numeral_toString (value : Int) : Numeral (toString value).toList value := by
  rw [Int.toString_eq_repr, Int.repr_eq_if]
  split
  · rename_i hvalue
    have h := Numeral.bare (decimal_toDigits value.toNat)
    rw [Int.toNat_of_nonneg hvalue] at h
    rw [Nat.toList_repr]
    exact h
  · rename_i hvalue
    have h := Numeral.minus (decimal_toDigits (-value).toNat)
    rw [Int.toNat_of_nonneg (by omega), Int.neg_neg] at h
    rw [String.toList_append, Nat.toList_repr]
    exact h

/-- A text stands for one number: reading it in a range of both finds both. -/
theorem Numeral.value_unique {value' : Int} (h : Numeral cs value) (h' : Numeral cs value') :
    value = value' := by
  have hboth : ∃ range : WordRange, range.least < 0 ∧ range.contains 0 = true ∧
      range.contains value = true ∧ range.contains value' = true := by
    refine ⟨⟨min (-1) (min value value'), max 0 (max value value')⟩, ?_⟩
    simp only [WordRange.contains_iff]
    omega
  obtain ⟨range, hleast, hzero, hvalue, hvalue'⟩ := hboth
  have hread := (Integer.read_eq_ok_iff hzero hleast).2 ⟨h, hvalue⟩
  have hread' := (Integer.read_eq_ok_iff hzero hleast).2 ⟨h', hvalue'⟩
  exact Except.ok.inj (hread.symm.trans hread')

theorem toString_injective : Function.Injective (toString : Int → String) := by
  intro value value' h
  have htext := numeral_toString value
  rw [h] at htext
  exact htext.value_unique (numeral_toString value')

theorem toString_nat_injective : Function.Injective (toString : Nat → String) := by
  intro n n' h
  exact Int.ofNat_inj.1 (toString_injective h)

end SpanForest.Text
