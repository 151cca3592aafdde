/-! # White space

    Fields of an edge list are separated, and values of variables trimmed, by
    the characters of the Unicode property `White_Space`.

    * **`blankRanges`**: the table of the property.
    * **`words`**: the maximal runs of characters outside the property.
    * **`trim`**: a text without the white space at its two ends.
-/

namespace SpanForest.Text

/-- The code points of the property `White_Space`, as inclusive ranges. -/
def blankRanges : List (Nat × Nat) :=
  [(0x9, 0xd), (0x20, 0x20), (0x85, 0x85), (0xa0, 0xa0), (0x1680, 0x1680), (0x2000, 0x200a),
   (0x2028, 0x2029), (0x202f, 0x202f), (0x205f, 0x205f), (0x3000, 0x3000)]

/-- Whether a character is white space. -/
def isBlank (c : Char) : Bool :=
  blankRanges.any fun range => range.1 ≤ c.toNat && c.toNat ≤ range.2

/-! ## Words -/

/-- Reading from the right, the word that is still open at the left edge and
    the complete words behind it. -/
def wordsFrom (c : Char) : List Char × List (List Char) → List Char × List (List Char)
  | ([], complete) => if isBlank c then ([], complete) else ([c], complete)
  | (current, complete) =>
    if isBlank c then ([], current :: complete) else (c :: current, complete)

/-- The maximal runs of characters that are not white space, in order. -/
def words (cs : List Char) : List (List Char) :=
  match cs.foldr wordsFrom ([], []) with
  | ([], complete) => complete
  | (current, complete) => current :: complete

/-! ## Trimming -/

/-- A text without the white space at its beginning. -/
def trimLeft (cs : List Char) : List Char :=
  cs.dropWhile isBlank

/-- A text without the white space at its end. -/
def trimRight (cs : List Char) : List Char :=
  (trimLeft cs.reverse).reverse

/-- A text without the white space at its beginning and at its end. -/
def trim (cs : List Char) : List Char :=
  trimRight (trimLeft cs)

end SpanForest.Text
