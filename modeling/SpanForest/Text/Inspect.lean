import SpanForest.Text.Quoted

/-! # Values in one line

    Diagnostics show structured values in one line, in a form that names
    every part.

    * **`Inspect`**: the types whose values can be shown so.
    * **`Inspect.record`**: `Name { field: value, field: value }`; an open
      record ends in `..` to say that parts are left out.
    * **`Inspect.sequence`**: `[first, second]`.
-/

namespace SpanForest

/-- A type whose values have a form in one line. -/
class Inspect (α : Type u) where
  /-- The form of a value in one line. -/
  inspect : α → String

export Inspect (inspect)

namespace Inspect

/-- A sequence of forms between square brackets. -/
def sequence (items : List String) : String :=
  "[" ++ ", ".intercalate items ++ "]"

/-- The named parts of a record, with their forms. -/
def parts (fields : List (String × String)) : String :=
  ", ".intercalate (fields.map fun field => field.1 ++ ": " ++ field.2)

/-- A record that shows all its parts. -/
def record (name : String) (fields : List (String × String)) : String :=
  name ++ " \x7b " ++ parts fields ++ " \x7d"

/-- A record that has more parts than it shows. -/
def openRecord (name : String) (fields : List (String × String)) : String :=
  name ++ " \x7b " ++ parts fields ++ ", .. \x7d"

instance : Inspect Nat := ⟨toString⟩

instance : Inspect Int := ⟨toString⟩

instance : Inspect Bool := ⟨toString⟩

instance : Inspect String := ⟨Text.quote⟩

instance : Inspect Unit := ⟨fun _ => "()"⟩

instance [Inspect α] [Inspect β] : Inspect (α × β) :=
  ⟨fun pair => "(" ++ inspect pair.1 ++ ", " ++ inspect pair.2 ++ ")"⟩

instance [Inspect α] : Inspect (Option α) :=
  ⟨fun | none => "None" | some a => "Some(" ++ inspect a ++ ")"⟩

instance [Inspect α] : Inspect (List α) :=
  ⟨fun items => sequence (items.map inspect)⟩

instance [Inspect α] : Inspect (Array α) :=
  ⟨fun items => inspect items.toList⟩

end Inspect

end SpanForest
