/-! # Text in bytes

    File contents, arguments and variables arrive as bytes, which need not be
    UTF-8. One function divides any byte string into well-formed characters
    and malformed stretches; the readings below are views of its answer.

    * **`pieces`**: the division. A malformed stretch is as long as it can be
      while it is the beginning of some well-formed character, and one byte
      long otherwise.
    * **`decode?`**: the text, when nothing is malformed.
    * **`decodeLossy`**: the text with one replacement character for each
      malformed stretch.
-/

namespace SpanForest.Text

/-- The ranges of the bytes that follow a leading byte, or nothing when no
    character begins with that byte. The first range excludes overlong forms,
    surrogates, and what lies beyond the last code point. -/
def continuationRanges (lead : UInt8) : Option (List (UInt8 × UInt8)) :=
  let any : UInt8 × UInt8 := (0x80, 0xbf)
  if lead ≤ 0x7f then some []
  else if lead < 0xc2 then none
  else if lead ≤ 0xdf then some [any]
  else if lead = 0xe0 then some [(0xa0, 0xbf), any]
  else if lead = 0xed then some [(0x80, 0x9f), any]
  else if lead ≤ 0xef then some [any, any]
  else if lead = 0xf0 then some [(0x90, 0xbf), any, any]
  else if lead ≤ 0xf3 then some [any, any, any]
  else if lead = 0xf4 then some [(0x80, 0x8f), any, any]
  else none

/-- The longest beginning of the bytes that lies in the given ranges, one byte
    for each range. -/
def takeFitting : List (UInt8 × UInt8) → List UInt8 → List UInt8
  | (low, high) :: ranges, b :: rest =>
    if low ≤ b ∧ b ≤ high then b :: takeFitting ranges rest else []
  | _, _ => []

/-- The character that a leading byte and its continuation bytes stand for:
    the low bits of the leading byte, then six bits from each other. -/
def assemble (lead : UInt8) (rest : List UInt8) : Char :=
  let payload := if rest.isEmpty then lead.toNat else lead.toNat % Nat.pow 2 (6 - rest.length)
  Char.ofNat (rest.foldl (fun value b => value * 64 + b.toNat % 64) payload)

/-- A part of a byte string. -/
inductive Piece where
  /-- The encoding of a character. -/
  | scalar (c : Char)
  /-- Bytes that encode nothing. -/
  | malformed (bytes : List UInt8)
deriving DecidableEq

/-- Divides a byte string into characters and malformed stretches. -/
def pieces : List UInt8 → List Piece
  | [] => []
  | lead :: rest =>
    match continuationRanges lead with
    | none => .malformed [lead] :: pieces rest
    | some ranges =>
      let taken := takeFitting ranges rest
      let piece :=
        if taken.length = ranges.length then .scalar (assemble lead taken)
        else .malformed (lead :: taken)
      piece :: pieces (rest.drop taken.length)
termination_by bytes => bytes.length
decreasing_by all_goals simp only [List.length_cons, List.length_drop]; omega

/-- The character of a well-formed piece. -/
def Piece.char? : Piece → Option Char
  | .scalar c => some c
  | .malformed _ => none

/-- The text that the bytes encode, if they are UTF-8 throughout. -/
def decode? (bytes : List UInt8) : Option (List Char) :=
  (pieces bytes).mapM Piece.char?

/-- The text that the bytes encode, with one replacement character for each
    malformed stretch. -/
def decodeLossy (bytes : List UInt8) : String :=
  String.ofList ((pieces bytes).map fun piece => piece.char?.getD '\uFFFD')

/-- The bytes that encode a text. -/
def encode (s : String) : List UInt8 :=
  s.toUTF8.toList

end SpanForest.Text
