import SpanForest.Text.Utf8

/-! # Paths

    A path is a sequence of names between slashes. Doubled slashes, slashes
    at the end and the name `.` say nothing about where it leads.

    * **`Path.steps`**: the names that lead somewhere.
    * **`Path.stem?`**: the last name without its extension.
-/

namespace SpanForest.Path

/-- The byte of the character `/`. -/
def slash : UInt8 := 0x2f

/-- The byte of the character `.`. -/
def dot : UInt8 := 0x2e

/-- The name that stands for the directory itself. -/
def here : List UInt8 := [dot]

/-- The name that stands for the directory above. -/
def up : List UInt8 := [dot, dot]

/-- Puts a byte in front of the names that follow it. -/
def consByte (b : UInt8) (following : List (List UInt8)) : List (List UInt8) :=
  if b = slash then [] :: following
  else match following with
    | [] => [[b]]
    | name :: rest => (b :: name) :: rest

/-- The parts of a path between its slashes; there is one more than there are
    slashes. -/
def parts (path : List UInt8) : List (List UInt8) :=
  path.foldr consByte [[]]

/-- Whether a path begins at the root. -/
def isAbsolute (path : List UInt8) : Bool :=
  path.head? == some slash

/-- The names of a path that lead somewhere. -/
def steps (path : List UInt8) : List (List UInt8) :=
  (parts path).filter fun name => !name.isEmpty && name != here

/-- Whether a path can only lead to a directory, by the way it ends. -/
def namesDirectory (path : List UInt8) : Bool :=
  match (parts path).getLast? with
  | some name => name.isEmpty || name == here
  | none => false

/-- The name of what a path leads to; none when it ends by going up. -/
def name? (path : List UInt8) : Option (List UInt8) :=
  (steps path).getLast?.filter (· != up)

/-- A name up to its last dot. A dot at the beginning does not count. -/
def withoutExtension (name : List UInt8) : List UInt8 :=
  match name.reverse.dropWhile (· != dot) with
  | [] => name
  | _ :: before => if before.isEmpty then name else before.reverse

/-- The last name of a path without its extension. -/
def stem? (path : List UInt8) : Option (List UInt8) :=
  (name? path).map withoutExtension

end SpanForest.Path
