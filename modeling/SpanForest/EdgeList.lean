import SpanForest.Session

/-! # Edge lists

    An edge list names nodes by labels. Labels are numbered in the order of
    first appearance, so that the nodes of the resulting graph have the same
    handles whenever the list is the same.

    * **`Triple`**: an edge as it is written, with the labels of its ends.
    * **`EdgeList`**: the distinct labels, and the edges by label number.
    * **`EdgeList.Draft`**: a list that is being written, with an index of its
      labels.
    * **`EdgeList.ofTriples`**: the list of given edges.
    * **`EdgeList.load`**: the session on the graph of a list.
-/

namespace SpanForest

/-- An edge as it is written: two labels and a weight. -/
structure Triple where
  /-- The label of the first endpoint. -/
  left : String
  /-- The label of the second endpoint. -/
  right : String
  /-- The weight. -/
  weight : Int
deriving DecidableEq

/-- An edge between numbered labels. -/
structure ListedEdge where
  /-- The number of the first label. -/
  left : Nat
  /-- The number of the second label. -/
  right : Nat
  /-- The weight. -/
  weight : Int
deriving DecidableEq

namespace ListedEdge

/-- The addition of an edge, if its numbers are below the given count. -/
def addition? (count : Nat) (e : ListedEdge) : Option (Action α Int) :=
  if e.left < count ∧ e.right < count then some (.addEdge ⟨e.left⟩ ⟨e.right⟩ e.weight)
  else none

/-- The additions that make a graph on an empty one: a node for every payload,
    then the edges between them by number. -/
def additions (payloads : List α) (edges : List ListedEdge) : List (Action α Int) :=
  payloads.map .addNode ++ edges.filterMap (addition? payloads.length)

end ListedEdge

/-- Labels and the edges between them. -/
structure EdgeList where
  /-- The labels, in the order of first appearance. -/
  labels : Array String := #[]
  /-- The edges, in the order in which they are written. -/
  edges : Array ListedEdge := #[]
deriving DecidableEq

namespace EdgeList

/-! ## Numbering labels -/

/-- A list that is being written, with an index of its labels. -/
structure Draft where
  /-- The list so far. -/
  list : EdgeList := {}
  /-- The number of every label. -/
  index : List (String × Nat) := []

namespace Draft

/-- The number of a label: the one that it has, or else the next one, under
    which the label is appended. -/
def intern (d : Draft) (label : String) : Nat × Draft :=
  match d.index.lookup label with
  | some position => (position, d)
  | none =>
    let position := d.list.labels.size
    (position,
      { list := { d.list with labels := d.list.labels.push label }
        index := (label, position) :: d.index })

/-- Appends an edge; its left label is numbered before its right one. -/
def insert (d : Draft) (t : Triple) : Draft :=
  let (left, d) := d.intern t.left
  let (right, d) := d.intern t.right
  { d with list.edges := d.list.edges.push ⟨left, right, t.weight⟩ }

/-- Appends one edge after another. -/
def insertAll (d : Draft) (triples : List Triple) : Draft :=
  triples.foldl insert d

theorem insertAll_append (d : Draft) (triples later : List Triple) :
    d.insertAll (triples ++ later) = (d.insertAll triples).insertAll later :=
  List.foldl_append

end Draft

/-- The list of the given edges. -/
def ofTriples (triples : List Triple) : EdgeList :=
  (Draft.insertAll {} triples).list

/-- The number of edges. -/
def edgeCount (list : EdgeList) : Nat := list.edges.size

/-! ## Graphs of lists -/

/-- The additions that make the graph of a list: a node for every label, then
    the edges. -/
def additions (list : EdgeList) : List (Action String Int) :=
  ListedEdge.additions list.labels.toList list.edges.toList

/-- The session on the graph of a list, with the report of building it. -/
def load (list : EdgeList) (tieBreak : TieBreak) : Outcome String Int (List (Answer Int)) :=
  (Session.empty tieBreak).run list.additions

/-- The graph of a list. -/
def toGraph (list : EdgeList) (tieBreak : TieBreak) : Graph String Int :=
  (list.load tieBreak).session.graph

end EdgeList

end SpanForest
