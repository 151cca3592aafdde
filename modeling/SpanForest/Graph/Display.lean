import SpanForest.Graph

/-! # Nodes shown with their representatives

    A node that represents its set is shown as its payload alone. Any other
    node is shown as its payload followed by that of its representative in
    parentheses, which makes the sets visible.

    * **`Written`**: what a formatter wrote, and whether it then failed. A
      failure keeps what was written before it and stops the rest.
    * **`NodeDisplay`**: a node with what is shown beside it.
-/

namespace SpanForest

/-! ## Writing that may fail -/

/-- The outcome of writing a text. -/
structure Written where
  /-- What was written. -/
  text : String
  /-- Whether writing stopped there with a failure. -/
  failed : Bool := false
deriving DecidableEq

namespace Written

/-- Writes a second text behind the first, unless the first one failed. -/
def andThen (w rest : Written) : Written :=
  if w.failed then w else ⟨w.text ++ rest.text, rest.failed⟩

end Written

/-! ## Displays -/

/-- A node, and its representative unless that is the node itself. -/
structure NodeDisplay (α : Type u) where
  /-- The node to show. -/
  node : Node α
  /-- The node that represents it, if it is another one. -/
  representative : Option (Node α)
deriving DecidableEq

namespace NodeDisplay

/-- Writes a display with the given way to write payloads. -/
def write (d : NodeDisplay α) (format : α → Written) : Written :=
  match d.representative with
  | none => format d.node.data
  | some r => (format d.node.data).andThen <| .andThen ⟨" (", false⟩ <|
      (format r.data).andThen ⟨")", false⟩

end NodeDisplay

/-- The display of a node; nothing for a handle that is no node. -/
def Graph.display? (g : Graph α ω) (x : NodeId) : Option (NodeDisplay α) :=
  (g.node? x).map fun node =>
    let representative := g.partition.find x
    ⟨node, if representative = x then none else g.node? representative⟩

end SpanForest
