import SpanForest.EdgeList
import SpanForest.SystemFault
import SpanForest.Text.Blank
import SpanForest.Text.Integer
import SpanForest.Text.Utf8

/-! # Reading edge lists

    An edge list is a text with one edge a line: two labels and a weight,
    separated by white space. What follows a number sign is a comment. Lines
    without any field are passed over.

    * **`lines`**: the lines of a file; a line feed ends a line.
    * **`readLine`**: one line, on its own.
    * **`EdgeList.parse`**: a whole file. The first faulty line decides, and
      nothing behind it is looked at.
-/

namespace SpanForest

/-! ## Faults -/

/-- Why a line cannot be read. -/
inductive ReadFault where
  /-- The bytes of the line are not UTF-8. -/
  | notText
  /-- The operating system does not hand the line over. -/
  | system (fault : SystemFault)
deriving DecidableEq

/-- The sentence for a reading fault. -/
def ReadFault.message : ReadFault → String
  | .notText => "stream did not contain valid UTF-8"
  | .system fault => fault.message

/-- What is wrong with a line. -/
inductive LineFault where
  /-- The line cannot be read. -/
  | unreadable (cause : ReadFault)
  /-- The line has so many fields, and not three. -/
  | fieldCount (found : Nat)
  /-- The third field is not a weight. -/
  | invalidWeight (raw : String) (cause : Text.IntegerFault)
deriving DecidableEq

/-- A faulty line of an edge list. -/
structure EdgeListError where
  /-- The number of the line, counted from one. -/
  line : Nat
  /-- What is wrong with it. -/
  fault : LineFault
deriving DecidableEq

/-- The sentence that reports a faulty line. -/
def EdgeListError.message (e : EdgeListError) : String :=
  match e.fault with
  | .unreadable cause => "failed to read line " ++ toString e.line ++ ": " ++ cause.message
  | .fieldCount found =>
    "line " ++ toString e.line ++ ": expected `left right weight`, found " ++ toString found
      ++ " field(s)"
  | .invalidWeight raw cause =>
    "line " ++ toString e.line ++ ": invalid weight `" ++ raw ++ "`: " ++ cause.message

/-- The sentence for the cause of a fault, where it has a cause of its own. -/
def LineFault.cause? : LineFault → Option String
  | .unreadable cause => some cause.message
  | .fieldCount _ => none
  | .invalidWeight _ cause => some cause.message

namespace EdgeList

/-! ## Lines -/

/-- The byte that ends a line. -/
def lineFeed : UInt8 := 0x0a

/-- Puts a byte in front of the lines that follow it. -/
def consByte (b : UInt8) (following : List (List UInt8)) : List (List UInt8) :=
  if b = lineFeed then [] :: following
  else match following with
    | [] => [[b]]
    | line :: rest => (b :: line) :: rest

/-- The lines of a file, without the line feeds that end them. A line feed at
    the very end opens no further line. -/
def lines (bytes : List UInt8) : List (List UInt8) :=
  bytes.foldr consByte []

/-- A line without its comment. -/
def withoutComment (line : List Char) : List Char :=
  line.takeWhile (· != '#')

/-- Reads the edge of a line of text; nothing on a line without fields. -/
def readText (line : List Char) : Except LineFault (Option Triple) :=
  match Text.words (withoutComment line) with
  | [] => .ok none
  | [left, right, weight] =>
    match Text.Integer.read .int64 weight with
    | .ok value => .ok (some ⟨String.ofList left, String.ofList right, value⟩)
    | .error cause => .error (.invalidWeight (String.ofList weight) cause)
  | fields => .error (.fieldCount fields.length)

/-- Reads the edge of a line. -/
def readLine (line : List UInt8) : Except LineFault (Option Triple) :=
  match Text.decode? line with
  | none => .error (.unreadable .notText)
  | some text => readText text

/-! ## Files -/

/-- Appends the edges of consecutive lines, the first of which has the given
    number. -/
def readLines (number : Nat) (d : Draft) : List (List UInt8) → Except EdgeListError Draft
  | [] => .ok d
  | line :: rest =>
    match readLine line with
    | .error fault => .error ⟨number, fault⟩
    | .ok none => readLines (number + 1) d rest
    | .ok (some t) => readLines (number + 1) (d.insert t) rest

/-- Reads a whole file. -/
def parse (bytes : List UInt8) : Except EdgeListError EdgeList :=
  (readLines 1 {} (lines bytes)).map Draft.list

end EdgeList

end SpanForest
