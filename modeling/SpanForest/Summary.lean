import SpanForest.Graph.Display
import SpanForest.Session
import SpanForest.Text.Json
import SpanForest.Text.Utf8
import SpanForest.WordRange

/-! # Summaries of forests

    The answer to somebody who handed in an edge list: the edges of the
    minimum spanning forest by label, the counts, and every node with the one
    that represents its component.

    * **`Summary.ofForest`**: the summary of a drained graph.
    * **`Summary.render`**: a summary as text or as JSON. In the text each
      part has a line of its own, and tabs separate what is read by column.
-/

namespace SpanForest

/-- An edge of a forest, by label. -/
structure SummaryEdge where
  /-- The label of the first endpoint. -/
  first : String
  /-- The label of the second endpoint. -/
  second : String
  /-- The weight. -/
  weight : Int
  /-- The number of edges written before this one. -/
  sequence : Nat
deriving DecidableEq

/-- The forest of one edge list. -/
structure Summary where
  /-- Where the edge list came from. -/
  source : String
  /-- The number of distinct labels. -/
  nodeCount : Nat
  /-- The number of edges of the list. -/
  edgeCount : Nat
  /-- The number of components. -/
  componentCount : Nat
  /-- The sum of the weights of the forest, kept within 64 bits. -/
  totalWeight : Int
  /-- Whether there is one component. -/
  isTree : Bool
  /-- The edges of the forest, in the order in which they were found. -/
  edges : List SummaryEdge
  /-- Every node with its representative. -/
  nodes : List String
deriving DecidableEq

/-- The forms in which a summary is rendered. -/
inductive SummaryFormat where
  /-- Lines for people. -/
  | text
  /-- One JSON document. -/
  | json
deriving DecidableEq

namespace Summary

/-! ## Making summaries -/

/-- The label of a node; a handle that is no node goes by its own text. -/
def label (g : Graph String Int) (x : NodeId) : String :=
  (g.node? x).elim x.label Node.data

/-- An edge by label. -/
def labelEdge (g : Graph String Int) (e : Edge Int) : SummaryEdge :=
  ⟨label g e.first, label g e.second, e.weight, e.sequence⟩

/-- Every node of a graph, shown with its representative. -/
def nodeTexts (g : Graph String Int) : List String :=
  g.nodes.toList.filterMap fun node =>
    (g.display? node.id).map fun d => (d.write fun text => ⟨text, false⟩).text

/-- The summary of a graph from which the given forest was drained. -/
def ofForest (source : String) (g : Graph String Int) (forest : Forest Int) : Summary :=
  { source
    nodeCount := g.nodeCount
    edgeCount := g.edgeCount
    componentCount := forest.componentCount
    totalWeight := WordRange.int64.saturatingSum forest.weights
    isTree := forest.isTree
    edges := forest.edges.toList.map (labelEdge g)
    nodes := nodeTexts g }

/-! ## Rendering -/

/-- The line of an edge. -/
def edgeLine (e : SummaryEdge) : String :=
  e.first ++ " -- " ++ e.second ++ "\t" ++ toString e.weight

/-- The lines of a summary. -/
def textLines (s : Summary) : List String :=
  ["source: " ++ s.source,
    "nodes: " ++ toString s.nodeCount,
    "components: " ++ toString s.componentCount,
    "total weight: " ++ toString s.totalWeight]
    ++ s.edges.map edgeLine ++ s.nodes.map ("node\t" ++ ·)

/-- The document of an edge. -/
def edgeDocument (e : SummaryEdge) : Text.Json :=
  .object
    [("from", .text e.first), ("to", .text e.second), ("weight", .number e.weight),
      ("sequence", .number e.sequence)]

/-- The document of a summary. -/
def document (s : Summary) : Text.Json :=
  .object
    [("source", .text s.source),
      ("node_count", .number s.nodeCount),
      ("edge_count", .number s.edgeCount),
      ("component_count", .number s.componentCount),
      ("total_weight", .number s.totalWeight),
      ("is_tree", .flag s.isTree),
      ("edges", .list (s.edges.map edgeDocument)),
      ("nodes", .list (s.nodes.map .text))]

/-- A summary in the requested form; every line ends in a line feed. -/
def render (s : Summary) : SummaryFormat → String
  | .text => String.join (s.textLines.map (· ++ "\n"))
  | .json => s.document.pretty ++ "\n"

end Summary

/-! ## Writing to a limited place -/

/-- A text did not fit into the place it was written to. -/
structure WriteFault where
  /-- The bytes that were written, as many as fit. -/
  written : List UInt8
deriving DecidableEq

/-- The sentence for a text that did not fit. -/
def WriteFault.message (_ : WriteFault) : String := "failed to write whole buffer"

/-- Writes a text to a place that holds `limit` bytes. -/
def writeWithin (limit : Nat) (s : String) : Except WriteFault String :=
  let bytes := Text.encode s
  if bytes.length ≤ limit then .ok s else .error ⟨bytes.take limit⟩

end SpanForest
