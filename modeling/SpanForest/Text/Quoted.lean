import SpanForest.Text.Unprintable
import SpanForest.Text.Utf8

/-! # Quoted text

    Diagnostics show a text between double quotes, so that its ends and every
    character in it can be told.

    * A quote and a backslash are written after a backslash; line feed, tab,
      carriage return and the null character by their letters.
    * Any other character without a visible form is written by its number.
    * **`quote`** shows a text, **`quoteBytes`** shows bytes that may be no
      text at all. The latter writes each malformed byte by two upper-case
      hexadecimal digits.
-/

namespace SpanForest.Text

/-- The digits of a number to base sixteen, in lower case. -/
def hexadecimal (n : Nat) : String :=
  String.ofList (Nat.toDigits 16 n)

/-- The visible form of a character between quotes. -/
def escapeChar (c : Char) : String :=
  match c with
  | '"' => "\\\""
  | '\\' => "\\\\"
  | '\n' => "\\n"
  | '\r' => "\\r"
  | '\t' => "\\t"
  | '\x00' => "\\0"
  | c =>
    if isUnprintable c then "\\u\x7b" ++ hexadecimal c.toNat ++ "\x7d"
    else String.singleton c

/-- A text between double quotes. -/
def quote (s : String) : String :=
  "\"" ++ String.join (s.toList.map escapeChar) ++ "\""

/-- A byte as two upper-case hexadecimal digits. -/
def byteHexadecimal (b : UInt8) : String :=
  let digits := (hexadecimal b.toNat).toUpper
  if b < 16 then "0" ++ digits else digits

/-- The visible form of a part of a byte string between quotes. -/
def escapePiece : Piece → String
  | .scalar c => escapeChar c
  | .malformed bytes => String.join (bytes.map fun b => "\\x" ++ byteHexadecimal b)

/-- Bytes between double quotes. -/
def quoteBytes (bytes : List UInt8) : String :=
  "\"" ++ String.join ((pieces bytes).map escapePiece) ++ "\""

end SpanForest.Text
