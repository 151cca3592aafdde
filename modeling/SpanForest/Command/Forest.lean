import SpanForest.Command.Arguments
import SpanForest.Command.FileTree
import SpanForest.EdgeList.Reader
import SpanForest.Summary
import SpanForest.Trace

/-! # The command `forest`

    Reads an edge list, drains a traversal of its graph, and sums up.

    * **`CommandFault`**: what can go wrong, with its sentence and the
      sentences of its causes.
    * **`ForestCommand.run`**: the answer of the command and its trace. Each
      of the two spans around the work reports a fault once more.
-/

namespace SpanForest

/-! ## Faults -/

/-- Why the command has no answer. -/
inductive CommandFault where
  /-- The file cannot be opened. -/
  | unopened (path : Argument) (cause : SystemFault)
  /-- The file is no edge list. -/
  | edgeList (path : Argument) (cause : EdgeListError)
  /-- The traversal fails. -/
  | traversal (cause : Failure)
deriving DecidableEq

namespace CommandFault

/-- The sentence that reports a fault; it ends with that of the cause. -/
def message : CommandFault → String
  | .unopened path cause => "failed to open `" ++ Text.decodeLossy path ++ "`: " ++ cause.message
  | .edgeList path cause => "invalid edge list `" ++ Text.decodeLossy path ++ "`: " ++ cause.message
  | .traversal cause => cause.message

/-- The sentences of a fault and of its causes, each followed by its cause. -/
def chain (fault : CommandFault) : List String :=
  fault.message :: match fault with
    | .unopened _ cause => [cause.message]
    | .edgeList _ cause => cause.message :: cause.fault.cause?.toList
    | .traversal _ => []

end CommandFault

/-! ## Running the command -/

/-- A summary in the form that was asked for. -/
structure CommandAnswer where
  /-- The form. -/
  format : SummaryFormat
  /-- The summary. -/
  summary : Summary
deriving DecidableEq

namespace ForestCommand

/-- The name of the source in a summary: the stem of the path, where that is
    a text. -/
def source (c : ForestCommand) : String :=
  (((Path.stem? c.path).bind Text.decode?).map String.ofList).getD "edges"

/-- The edge list of an opened file. A file that cannot be read fails at its
    first line. -/
def readOpened (c : ForestCommand) : Except SystemFault Opened → Except CommandFault EdgeList
  | .error fault => .error (.unopened c.path fault)
  | .ok (.unreadable fault) => .error (.edgeList c.path ⟨1, .unreadable (.system fault)⟩)
  | .ok (.content bytes) =>
    match EdgeList.parse bytes with
    | .ok list => .ok list
    | .error fault => .error (.edgeList c.path fault)

/-- Traverses the graph of an edge list and sums up. -/
def traverse (c : ForestCommand) (list : EdgeList) :
    Except CommandFault Summary × List Notice :=
  let loaded := list.load c.tieBreak
  let reply := loaded.session.graph.traverse
  let answer : Except CommandFault Summary := match reply.answer with
    | .ok forest => .ok (.ofForest c.source reply.graph forest)
    | .error failure => .error (.traversal failure)
  (answer, loaded.notices ++ reply.notices)

/-- The event that reports a fault within a span. -/
def faultEvent (fault : CommandFault) : Event :=
  ⟨.error, .command, [("error", .text fault.message)]⟩

/-- The event that reports success. -/
def completedEvent (s : Summary) : Event :=
  .saying .info .command "command completed"
    [("nodes", .natural s.nodeCount), ("forest_edges", .natural s.edges.length),
      ("components", .natural s.componentCount)]

/-- The event within the inner span that tells how the work ended. -/
def endEvent : Except CommandFault Summary → Event
  | .ok s => completedEvent s
  | .error fault => faultEvent fault

/-- The event within the outer span that tells of a fault. -/
def outerEvents : Except CommandFault Summary → Trace
  | .ok _ => []
  | .error fault => [.happens (faultEvent fault)]

/-- The span around the work. -/
def innerSpan (c : ForestCommand) : Span :=
  { name := "cli.forest"
    level := .info
    origin := .command
    fields := [("path", .text (Text.decodeLossy c.path)), ("tie_break", .text c.tieBreak.word)]
    belated := true }

/-- The span around the command. -/
def outerSpan : Span :=
  { name := "cli.run"
    level := .info
    origin := .command
    fields := [("command", .text "forest")]
    belated := true }

/-- Runs the command on what opening its path has led to. -/
def run (c : ForestCommand) (opened : Except SystemFault Opened) :
    Except CommandFault CommandAnswer × Trace :=
  let (outcome, notices) := match c.readOpened opened with
    | .ok list => c.traverse list
    | .error fault => (.error fault, [])
  let inner : Trace := Trace.ofNotices notices ++ [.happens (endEvent outcome)]
  let trace := (inner.within c.innerSpan ++ outerEvents outcome).within outerSpan
  (outcome.map fun summary => ⟨c.format, summary⟩, trace)

end ForestCommand

end SpanForest
