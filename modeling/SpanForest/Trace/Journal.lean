import SpanForest.Text.Json
import SpanForest.Trace.Filter

/-! # Journals

    A journal writes a record for every event of a trace that its filter lets
    through, and one for every such span when it closes. Spans that the
    filter holds back leave no mark, not even around the events in them.

    * **`LogRecord`**: a record, with the spans that were open.
    * **`Journal.ofTrace`**: the records of a trace, in order.
-/

namespace SpanForest

/-- An entry of a journal. -/
structure LogRecord where
  /-- The level of the event, or of the span that closed. -/
  level : Level
  /-- Where it comes from. -/
  origin : Origin
  /-- What is known of it. -/
  fields : Fields
  /-- The innermost open span, or the span that closed. -/
  span : Option Span
  /-- The open spans, outermost first; a span that closed is not among them.
      None for an event outside all spans. -/
  spans : Option (List Span)
deriving DecidableEq

namespace Journal

/-- An open span, as the journal sees it. -/
structure OpenSpan where
  /-- The span. -/
  span : Span
  /-- Whether the filter lets the span through. -/
  visible : Bool
  /-- How much at least is logged within it. -/
  verbosity : Verbosity
deriving DecidableEq

/-- Whether some open span lets a level through. -/
def letsThrough (stack : List OpenSpan) (level : Level) : Bool :=
  stack.any fun s => level.verbosity ≤ s.verbosity

/-- Whether an event is logged within the given open spans. -/
def logsEvent (f : LogFilter) (stack : List OpenSpan) (e : Event) : Bool :=
  e.level.verbosity ≤ f.limit && (f.admitsEvent e || letsThrough stack e.level)

/-- Whether a span is logged within the given open spans. -/
def logsSpan (f : LogFilter) (stack : List OpenSpan) (s : Span) : Bool :=
  s.level.verbosity ≤ f.limit
    && (!(f.enclosing s).isEmpty || f.admitsSpan s || letsThrough stack s.level)

/-- The open span that an opening makes. What is not logged lets nothing
    through either. -/
def opening (f : LogFilter) (stack : List OpenSpan) (span : Span) : OpenSpan :=
  if logsSpan f stack span then ⟨span, true, f.verbosityWithin span⟩ else ⟨span, false, 0⟩

/-- The spans that can be seen, innermost first. -/
def visibleSpans (stack : List OpenSpan) : List Span :=
  (stack.filter OpenSpan.visible).map OpenSpan.span

/-- The record of an event. -/
def eventRecord (stack : List OpenSpan) (e : Event) : LogRecord :=
  match visibleSpans stack with
  | [] => ⟨e.level, e.origin, e.fields, none, none⟩
  | inner :: outer => ⟨e.level, e.origin, e.fields, some inner, some (inner :: outer).reverse⟩

/-- The record of a span that closes within the given ones. -/
def closeRecord (outer : List OpenSpan) (span : Span) : LogRecord :=
  ⟨span.level, span.origin, [("message", .text "close")], some span,
    some (visibleSpans outer).reverse⟩

/-- The records of a trace within the given open spans. -/
def records (f : LogFilter) : List OpenSpan → Trace → List LogRecord
  | _, [] => []
  | stack, .opens span :: rest => records f (opening f stack span :: stack) rest
  | [], .closes :: rest => records f [] rest
  | s :: outer, .closes :: rest =>
    if s.visible then closeRecord outer s.span :: records f outer rest
    else records f outer rest
  | stack, .happens e :: rest =>
    if logsEvent f stack e then eventRecord stack e :: records f stack rest
    else records f stack rest

/-- The records of a trace. -/
def ofTrace (f : LogFilter) (t : Trace) : List LogRecord :=
  records f [] t

end Journal

/-! ## Records as documents -/

/-- The document of a value. -/
def Value.document : Value → Text.Json
  | .natural n => .number n
  | .integer n => .number n
  | .flag b => .flag b
  | v => .text v.render

/-- The document of fields. -/
def Fields.document (fields : Fields) : Text.Json :=
  .object (fields.map fun field => (field.1, field.2.document))

/-- The document of a span: its fields and its name. -/
def Span.document (span : Span) : Text.Json :=
  .object <|
    span.fields.map (fun field => (field.1, field.2.document)) ++ [("name", .text span.name)]

/-- The document of a record. -/
def LogRecord.document (r : LogRecord) : Text.Json :=
  .object <|
    [("level", .text r.level.name), ("fields", Fields.document r.fields)]
      ++ (r.span.toList.map fun span => ("span", span.document))
      ++ (r.spans.toList.map fun spans => ("spans", .list (spans.map Span.document)))

/-- The line that shows a record to people: its level, the open spans, where it
    comes from, and what is known of it. -/
def LogRecord.line (r : LogRecord) : String :=
  let spans := (r.spans.getD []).map fun span => span.name ++ ":"
  let fields := r.fields.map fun field => field.1 ++ "=" ++ field.2.render
  " ".intercalate (r.level.name :: spans ++ (r.origin.target ++ ":") :: fields)

end SpanForest
