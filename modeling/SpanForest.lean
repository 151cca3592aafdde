import SpanForest.Main
import SpanForest.RunProfile
import SpanForest.Synthetic
import SpanForest.Trace.Recorder
import SpanForest.Weight
import SpanForest.Proofs.Partition.Ranks
import SpanForest.Proofs.Selection.Rearrangement
import SpanForest.Proofs.Session.Cooperation
import SpanForest.Proofs.Session.Interference
import SpanForest.Proofs.Session.Lone
import SpanForest.Proofs.Session.Lookahead
import SpanForest.Proofs.Traversal.Examination
import SpanForest.Proofs.Session.Examination
import SpanForest.Proofs.Session.Additions
import SpanForest.Proofs.Session.Exhaustion
import SpanForest.Proofs.Session.Strays
import SpanForest.Proofs.Session.Endings
import SpanForest.Proofs.EdgeList.Layout
import SpanForest.Proofs.Command.Answer
import SpanForest.Proofs.Command.Total
import SpanForest.Proofs.Selection.Mirror
import SpanForest.Proofs.Session.Mirror
import SpanForest.Proofs.Command.Listing
import SpanForest.Proofs.Partition.Adoption
import SpanForest.Proofs.Session.Failures
import SpanForest.Proofs.Graph.Display
import SpanForest.Proofs.Session.SizeHints
import SpanForest.Proofs.EdgeList.Building
import SpanForest.Proofs.Synthetic.Draws
import SpanForest.Proofs.Synthetic.Tree
import SpanForest.Proofs.Summary.Rendering
import SpanForest.Proofs.Command.Rendering
import SpanForest.Proofs.Trace.Fields
import SpanForest.Proofs.Trace.Recorder
import SpanForest.Proofs.Overrides
import SpanForest.Proofs.Session.Bookkeeping
