import SpanForest.Decimal.Shortest
import SpanForest.Inspection
import SpanForest.Notice
import SpanForest.Text.Quoted

/-! # Traces

    A trace tells what a program did: events one after another, some of them
    within spans that open and close around them.

    * **`Level`**: how much an event or a span matters.
    * **`Value`**: what a field of an event or a span can hold.
    * **`Moment`**: a step of a trace; a span closes in the reverse order of
      opening.
    * **`Notice.moment`**: how the notices of graphs and traversals appear in
      a trace.
-/

namespace SpanForest

/-! ## Levels -/

/-- How much something matters, the most important first. -/
inductive Level where
  | error
  | warn
  | info
  | debug
  | trace
deriving DecidableEq

namespace Level

/-- All levels, the most important first. -/
def all : List Level := [.error, .warn, .info, .debug, .trace]

/-- How verbose a record must be to show a level: one for the most important,
    and one more for each that follows. -/
def verbosity : Level → Nat
  | .error => 1
  | .warn => 2
  | .info => 3
  | .debug => 4
  | .trace => 5

/-- The name of a level. -/
def name : Level → String
  | .error => "ERROR"
  | .warn => "WARN"
  | .info => "INFO"
  | .debug => "DEBUG"
  | .trace => "TRACE"

/-- The level of a given name. -/
def ofName? (s : String) : Option Level :=
  all.find? fun level => level.name == s

end Level

/-! ## Fields -/

/-- A fault of any kind, as far as a trace can tell of it. -/
structure TracedFault where
  /-- The sentence that reports the fault. -/
  message : String
  /-- The one-line form of the fault. -/
  inspection : String
deriving DecidableEq

/-- What a field holds. -/
inductive Value where
  /-- A text, also one by which something is displayed. -/
  | text (s : String)
  /-- A count. -/
  | natural (n : Nat)
  /-- A whole number. -/
  | integer (n : Int)
  /-- A truth value. -/
  | flag (b : Bool)
  /-- A measurement. -/
  | real (x : Binary64)
  /-- Something of any kind, as far as it can be inspected. -/
  | inspected (inspection : String)
  /-- A fault. -/
  | fault (f : TracedFault)
deriving DecidableEq

/-- The value of what can be inspected. -/
def Value.inspecting [Inspect α] (a : α) : Value := .inspected (inspect a)

/-- The text of a value. A fault is reported by its sentence. -/
def Value.render : Value → String
  | .text s => s
  | .natural n => toString n
  | .integer n => toString n
  | .flag b => toString b
  | .real x => x.text
  | .inspected inspection => inspection
  | .fault f => f.message

/-- Named values, in the order in which they were given. -/
abbrev Fields := List (String × Value)

/-! ## Events and spans -/

/-- The part of the program that an event or a span comes from. -/
inductive Origin where
  /-- Graphs. -/
  | graph
  /-- Traversals. -/
  | traversal
  /-- The commands of the command line. -/
  | command
  /-- The program as a whole. -/
  | program
  /-- The profiles of property-test runs. -/
  | profile
deriving DecidableEq

/-- The name by which a log filter refers to a part of the program. -/
def Origin.target : Origin → String
  | .graph => "kruskal_core::graph"
  | .traversal => "kruskal_core::kruskal"
  | .command => "kruskal_cli::cli::commands"
  | .program => "kruskal"
  | .profile => "kruskal_test_support::ci::property_test_profile"

/-- Something that happened. -/
structure Event where
  /-- How much it matters. -/
  level : Level
  /-- Where it happened. -/
  origin : Origin
  /-- What is known of it. -/
  fields : Fields
deriving DecidableEq

/-- A stretch of the program's work. -/
structure Span where
  /-- The name of the work. -/
  name : String
  /-- How much it matters. -/
  level : Level
  /-- Where it is done. -/
  origin : Origin
  /-- What is known of it. -/
  fields : Fields
  /-- Whether that is known only after the span has opened. -/
  belated : Bool := false
deriving DecidableEq

/-- What is known of a span when it opens. -/
def Span.known (s : Span) : Fields :=
  if s.belated then [] else s.fields

/-- A step of a trace. -/
inductive Moment where
  /-- A span opens within those that are open. -/
  | opens (span : Span)
  /-- The innermost open span closes. -/
  | closes
  /-- An event happens within the open spans. -/
  | happens (event : Event)
deriving DecidableEq

/-- The steps of a program's work, in order. -/
abbrev Trace := List Moment

/-- A trace within one more span. -/
def Trace.within (t : Trace) (span : Span) : Trace :=
  .opens span :: t ++ [.closes]

/-! ## Notices in a trace -/

/-- An event with a sentence and further fields. -/
def Event.saying (level : Level) (origin : Origin) (message : String) (fields : Fields) : Event :=
  ⟨level, origin, ("message", .text message) :: fields⟩

/-- The step of a trace that shows a notice. -/
def Notice.moment : Notice → Moment
  | .graphModified nodes edges modificationCount =>
    .happens <| .saying .trace .graph "graph modified"
      [("nodes", .natural nodes), ("edges", .natural edges),
        ("modification_count", .natural modificationCount)]
  | .edgeAccepted first second sequence =>
    .happens <| .saying .debug .traversal "accepted forest edge"
      [("node1", .text first.label), ("node2", .text second.label),
        ("sequence", .natural sequence)]
  | .edgeSkipped sequence =>
    .happens <| .saying .trace .traversal "skipping edge that would close a cycle"
      [("sequence", .natural sequence)]
  | .additionNoticed expected found =>
    .happens <| .saying .warn .traversal
      "graph modified while a Kruskal iterator was outstanding"
      [("expected", .natural expected), ("found", .natural found)]
  | .traversalOpens edges modificationCount tieBreak =>
    .opens
      { name := "kruskal.iter"
        level := .debug
        origin := .traversal
        fields := [("edges", .natural edges), ("modification_count", .natural modificationCount),
          ("tie_break", .inspecting tieBreak)] }
  | .traversalOpened => .closes

/-- The trace that shows a list of notices. -/
def Trace.ofNotices (notices : List Notice) : Trace :=
  notices.map Notice.moment

end SpanForest
