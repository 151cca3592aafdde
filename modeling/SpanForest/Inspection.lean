import SpanForest.Graph.Display
import SpanForest.Graph.Settings
import SpanForest.Forest
import SpanForest.Text.Inspect

/-! # The one-line forms of partitions, graphs and forests

    Every type is shown under the name that diagnostics use for it, with its
    parts in the order in which they are declared. A graph and a display of a
    node leave parts out and say so.
-/

namespace SpanForest

instance : Inspect NodeId :=
  ⟨fun x => "NodeId(" ++ toString x.index ++ ")"⟩

instance : Inspect Slot :=
  ⟨fun slot => Inspect.record "Slot"
    [("parent", inspect slot.parent), ("rank", inspect slot.rank)]⟩

instance : Inspect Partition :=
  ⟨fun p => Inspect.record "DisjointSet" [("slots", inspect p.slots)]⟩

instance : Inspect TieBreak :=
  ⟨fun | .insertionOrder => "InsertionOrder" | .latestFirst => "LatestFirst"⟩

instance [Inspect ω] : Inspect (Edge ω) :=
  ⟨fun e => Inspect.record "Edge"
    [("node1", inspect e.first), ("node2", inspect e.second), ("weight", inspect e.weight),
      ("sequence", inspect e.sequence)]⟩

instance [Inspect α] : Inspect (Node α) :=
  ⟨fun node => Inspect.record "Node" [("id", inspect node.id), ("data", inspect node.data)]⟩

instance [Inspect α] [Inspect ω] : Inspect (Graph α ω) :=
  ⟨fun g => Inspect.openRecord "Graph"
    [("nodes", inspect g.nodes), ("edges", inspect g.edges),
      ("modification_count", inspect g.modificationCount), ("tie_break", inspect g.tieBreak)]⟩

instance : Inspect GraphSettings :=
  ⟨fun s => Inspect.record "GraphBuilder"
    [("node_capacity", inspect s.nodeCapacity), ("edge_capacity", inspect s.edgeCapacity),
      ("tie_break", inspect s.tieBreak)]⟩

instance : Inspect (NodeDisplay α) :=
  ⟨fun d => Inspect.openRecord "NodeDisplay"
    [("node", inspect d.node.id), ("representative", inspect (d.representative.map Node.id))]⟩

instance [Inspect ω] : Inspect (Forest ω) :=
  ⟨fun f => Inspect.record "SpanningForest"
    [("edges", inspect f.edges), ("component_count", inspect f.componentCount),
      ("node_count", inspect f.nodeCount)]⟩

end SpanForest
