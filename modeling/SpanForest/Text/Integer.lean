import SpanForest.WordRange

/-! # Reading whole numbers

    A whole number is written as an optional sign and one or more decimal
    digits. A minus sign is admitted where the range has negative numbers.

    * **`Integer.read`**: the number, or the first fault met from left to
      right. At each character a character that is no digit comes before a
      digit that leads out of the range.
    * **`IntegerFault`**: what can be wrong.
-/

namespace SpanForest.Text

/-- Why a text is no number of a range. -/
inductive IntegerFault where
  /-- There is no character at all. -/
  | empty
  /-- A character is no digit, or a sign stands alone. -/
  | invalidDigit
  /-- The number lies above the range. -/
  | tooLarge
  /-- The number lies below the range. -/
  | tooSmall
deriving DecidableEq

/-- The wording of a fault. -/
def IntegerFault.message : IntegerFault → String
  | .empty => "cannot parse integer from empty string"
  | .invalidDigit => "invalid digit found in string"
  | .tooLarge => "number too large to fit in target type"
  | .tooSmall => "number too small to fit in target type"

namespace Integer

/-- The value of a decimal digit. -/
def digit? (c : Char) : Option Nat :=
  if '0' ≤ c ∧ c ≤ '9' then some (c.toNat - '0'.toNat) else none

/-- Appends digits, from left to right, to a number that has been read; a
    negative number grows downwards. -/
def append (range : WordRange) (negative : Bool) (value : Int) :
    List Char → Except IntegerFault Int
  | [] => .ok value
  | c :: rest =>
    match digit? c with
    | none => .error .invalidDigit
    | some d =>
      let next := if negative then value * 10 - d else value * 10 + d
      if range.contains next then append range negative next rest
      else .error (if negative then .tooSmall else .tooLarge)

/-- Reads a number of the range. -/
def read (range : WordRange) : List Char → Except IntegerFault Int
  | [] => .error .empty
  | '+' :: digits =>
    if digits.isEmpty then .error .invalidDigit else append range false 0 digits
  | '-' :: digits =>
    if digits.isEmpty || decide (0 ≤ range.least) then .error .invalidDigit
    else append range true 0 digits
  | digits => append range false 0 digits

end Integer

end SpanForest.Text
