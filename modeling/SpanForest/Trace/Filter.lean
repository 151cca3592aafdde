import SpanForest.Text.Utf8
import SpanForest.Trace.Filter.Directive

/-! # Log filters

    A filter says which events and spans are logged. It is a list of
    directives between commas.

    * Of the directives that mean an event or a span for itself, the most
      specific one says how much is logged of it.
    * A directive that names a span, or asks for a field, lets through the
      spans that it means, and sets how much at least is logged within them.
    * Nothing is logged that is more verbose than every directive.

    A text with a faulty directive is no filter, and the default takes its
    place. A text without any directive lets nothing through.
-/

namespace SpanForest

/-- A list of directives. -/
structure LogFilter where
  /-- The directives, in the order in which they are written. -/
  directives : List Directive
deriving DecidableEq

namespace LogFilter

/-! ## Reading -/

/-- The filter in force without any other: everything up to information. -/
def default : LogFilter := ⟨[⟨{}, Level.info.verbosity⟩]⟩

/-- The texts between the commas of a text. -/
def splitCommas (cs : List Char) : List (List Char) :=
  cs.foldr (fun c following =>
    if c = ',' then [] :: following
    else match following with
      | [] => [[c]]
      | part :: rest => (c :: part) :: rest) [[]]

/-- Reads a filter. Nothing between two commas is no directive. -/
def read? (cs : List Char) : Option LogFilter :=
  let written := (splitCommas cs).filter fun part => !part.isEmpty
  (written.mapM Directive.read?).map LogFilter.mk

/-- The filter that the value of a variable sets; the default when the value
    is unset, no text or no filter. -/
def ofVariable (value : Option (List UInt8)) : LogFilter :=
  ((value.bind Text.decode?).bind read?).getD default

/-! ## Directives in force -/

/-- Of directives with the same reach the last one counts. -/
def lastOfEach : List Directive → List Directive
  | [] => []
  | d :: later =>
    if later.any (·.reach == d.reach) then lastOfEach later else d :: lastOfEach later

/-- The directives that count. -/
def inForce (f : LogFilter) : List Directive :=
  lastOfEach f.directives

/-- The greatest of some verbosities. -/
def greatest (ds : List Directive) : Verbosity :=
  (ds.map Directive.verbosity).max?.getD 0

/-- The bound of everything that is logged. It is the greatest verbosity that
    is written, in force or not; a filter that tests values has to look at
    everything. -/
def limit (f : LogFilter) : Verbosity :=
  if f.directives.any (·.reach.testsValue) then .everything else greatest f.directives

/-! ## Events and spans for themselves -/

/-- The more specific of two directives. -/
def moreSpecific (chosen : Option Directive) (d : Directive) : Option Directive :=
  if chosen.all (d.reach.compareSpecificity ·.reach != .lt) then some d else chosen

/-- How much is logged by the most specific of the direct directives that
    cover something. -/
def directVerbosity (f : LogFilter) (covers : Reach → Bool) : Verbosity :=
  let candidates := f.inForce.filter fun d => d.reach.isDirect && covers d.reach
  (candidates.foldl moreSpecific none).elim 0 Directive.verbosity

/-- Whether an event is logged for itself. -/
def admitsEvent (f : LogFilter) (e : Event) : Bool :=
  e.level.verbosity ≤ f.directVerbosity (·.coversEvent e)

/-- Whether a span is logged for itself. Fields are not asked for. -/
def admitsSpan (f : LogFilter) (s : Span) : Bool :=
  s.level.verbosity ≤ f.directVerbosity (·.coversOrigin s.origin)

/-! ## Spans with everything in them -/

/-- The directives that mean a span together with everything in it. -/
def enclosing (f : LogFilter) (s : Span) : List Directive :=
  f.inForce.filter fun d => d.reach.isEnclosing && d.reach.coversSpan s

/-- How much at least is logged within a span. -/
def verbosityWithin (f : LogFilter) (s : Span) : Verbosity :=
  greatest ((f.enclosing s).filter (·.reach.acceptsSpan s))

end LogFilter

end SpanForest
