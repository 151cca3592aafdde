/-! # Classes of characters

    A class of characters is stored as the code points at which membership
    changes, in increasing order and starting from "not a member". Large
    classes become short in this form, since their members lie together.

    * **`CharClass`**: a class in this form.
    * **`CharClass.contains`**: membership.
-/

namespace SpanForest.Text

/-- A class of characters. -/
structure CharClass where
  /-- The code points at which membership changes, in increasing order. -/
  boundaries : Array Nat
deriving DecidableEq

/-- A character is a member when an odd number of boundaries lie at or below
    it, so that the place of the first boundary above it is odd. -/
def CharClass.contains (k : CharClass) (c : Char) : Bool :=
  k.boundaries.findIdx (c.toNat < ·) % 2 == 1

end SpanForest.Text
