import SpanForest.Text.Alphanumeric
import SpanForest.Text.Blank
import SpanForest.Text.Integer
import SpanForest.Text.Pattern
import SpanForest.Trace

/-! # Directives of log filters

    A directive says how much is logged of some part of a trace. It is written
    `target[span{field=value}]=level`, and everything but one part may be left
    out.

    * **`Verbosity`**: how much is logged, with its names.
    * **`ValueTest`**, **`FieldTest`**: what is asked of a field.
    * **`Reach`**: the part of a trace that a directive is about.
    * **`Directive.read?`**: a directive from its text.
-/

namespace SpanForest

/-! ## Verbosity -/

/-- How much is logged: the verbosity of the least important level that is let
    through, or zero for nothing. -/
abbrev Verbosity := Nat

namespace Verbosity

/-- The verbosity that lets everything through. -/
def everything : Verbosity := Level.trace.verbosity

/-- The verbosity that a word names: a level in letters of either case, the
    word `off`, or the number itself. -/
def ofWord? (word : List Char) : Option Verbosity :=
  match Text.Integer.read .nat64 word with
  | .ok n => if n ≤ everything then some n.toNat else none
  | .error _ =>
    let name := String.ofList (word.map Char.toUpper)
    if name = "OFF" then some 0 else (Level.ofName? name).map Level.verbosity

end Verbosity

/-! ## Tests of fields -/

/-- What the value of a field must be. -/
inductive ValueTest where
  /-- A truth value. -/
  | flag (b : Bool)
  /-- A number that is not negative. -/
  | natural (n : Nat)
  /-- A number written with a minus sign. -/
  | integer (n : Int)
  /-- A measurement. -/
  | real (x : Binary64)
  /-- A text at whose end the search for a pattern completes. -/
  | pattern (written : List Char) (p : Text.Pattern)
deriving DecidableEq

namespace ValueTest

/-- Reads a test: a truth value or a number where the text is one, and
    otherwise a pattern. -/
def read? (written : List Char) : Option ValueTest :=
  if written = ['t', 'r', 'u', 'e'] then some (.flag true)
  else if written = ['f', 'a', 'l', 's', 'e'] then some (.flag false)
  else match Text.Integer.read .nat64 written, Text.Integer.read .int64 written with
    | .ok n, _ => some (.natural n.toNat)
    | _, .ok n => some (.integer n)
    | _, _ =>
      match Binary64.read? (String.ofList written) with
      | some x => some (.real x)
      | none => (Text.Pattern.read? written).map (.pattern written)

/-- Whether a value passes a test. A value of another kind does not. -/
def accepts : ValueTest → Value → Bool
  | .flag b, .flag v => b == v
  | .natural n, .natural v => n == v
  | .natural n, .integer v => (n : Int) == v
  | .integer n, .integer v => n == v
  | .real x, .real v => decide (x = v)
  | .pattern _ p, .text s => p.matchesToEnd s
  | .pattern _ p, .inspected inspection => p.matchesToEnd inspection
  | .pattern _ p, .fault f => p.matchesToEnd f.message
  | _, _ => false

end ValueTest

/-- What is asked of a field: that it is there, and what its value must be. -/
structure FieldTest where
  /-- The name of the field. -/
  name : String
  /-- The test of its value, if there is one. -/
  value : Option ValueTest
deriving DecidableEq

namespace FieldTest

/-- Reads a test: a name, or a name and a value with the sign `=` between
    them. A second such sign ends the value. -/
def read? (written : List Char) : Option FieldTest :=
  let name := written.takeWhile (· != '=')
  match written.drop name.length with
  | [] => if name.isEmpty then none else some ⟨String.ofList name, none⟩
  | _ :: rest =>
    (ValueTest.read? (rest.takeWhile (· != '='))).map fun test => ⟨String.ofList name, some test⟩

/-- Whether a field of that name is among some fields. -/
def isAmong (t : FieldTest) (fields : Fields) : Bool :=
  fields.any (·.1 == t.name)

/-- Whether the value of the field passes. -/
def accepts (t : FieldTest) (fields : Fields) : Bool :=
  t.value.all fun test => (fields.lookup t.name).any test.accepts

end FieldTest

/-! ## Reach -/

/-- The part of a trace that a directive is about. -/
structure Reach where
  /-- How the names of the parts of the program must begin. -/
  target : List Char := []
  /-- The name of the span, if it matters. -/
  span : Option String := none
  /-- What is asked of a field, if anything. -/
  field : Option FieldTest := none
deriving DecidableEq

namespace Reach

/-- Whether a part of the program is meant. -/
def coversOrigin (r : Reach) (origin : Origin) : Bool :=
  r.target.isPrefixOf origin.target.toList

/-- Whether an event is meant: one that has the field. -/
def coversEvent (r : Reach) (e : Event) : Bool :=
  r.coversOrigin e.origin && r.field.all (·.isAmong e.fields)

/-- Whether a span is meant: one of the name that has the field. -/
def coversSpan (r : Reach) (s : Span) : Bool :=
  r.coversOrigin s.origin && r.span.all (· == s.name) && r.field.all (·.isAmong s.fields)

/-- Whether a span passes the test of its value, as far as the value is known
    when the span opens. -/
def acceptsSpan (r : Reach) (s : Span) : Bool :=
  r.field.all (·.accepts s.known)

/-- Whether the value of a field is tested. -/
def testsValue (r : Reach) : Bool :=
  r.field.any (·.value.isSome)

/-- Whether events and spans are meant for themselves: no span is named, and
    no value is tested. -/
def isDirect (r : Reach) : Bool :=
  r.span.isNone && !r.testsValue

/-- Whether spans are meant together with everything in them. -/
def isEnclosing (r : Reach) : Bool :=
  r.span.isSome || r.field.isSome

/-- Compares two direct reaches that cover one event or span: the longer target
    is the more specific one, then a field is more specific than none, and of
    two fields the one with the greater name. -/
def compareSpecificity (a b : Reach) : Ordering :=
  (compare a.target.length b.target.length).then
    (compare (a.field.elim "" FieldTest.name) (b.field.elim "" FieldTest.name))

end Reach

/-! ## Directives -/

/-- A directive. -/
structure Directive where
  /-- What it is about. -/
  reach : Reach
  /-- How much is logged of that. -/
  verbosity : Verbosity
deriving DecidableEq

namespace Directive

/-- Whether a directive may begin with a character. -/
def mayBegin (c : Char) : Bool :=
  ['-', ':', '_'].contains c || Text.isAlphanumeric c

/-- The first place at or behind the given one where a character is wanted. -/
def seek (cs : List Char) (start : Nat) (wanted : Char → Bool) : Nat :=
  start + ((cs.drop start).takeWhile fun c => !wanted c).length

/-- The characters from one place up to another. -/
def slice (cs : List Char) (start stop : Nat) : List Char :=
  (cs.drop start).take (stop - start)

/-! ### Reading

    The signs between the parts of a directive are looked for in the text
    without the white space around it, and the parts are cut from the text as
    it is written, at the same places. So white space in front displaces every
    part, which makes most directives faulty, and white space behind belongs
    to the last part. -/

/-- Reads what follows the reach: nothing, which means that everything is
    logged, or the sign `=` and a level, which may be left out too. -/
def readEnd? (written looked : List Char) (start : Nat) (reach : Reach) : Option Directive :=
  match looked.drop start with
  | [] => some ⟨reach, .everything⟩
  | '=' :: _ =>
    let word := written.drop (start + 1)
    if word.isEmpty then some ⟨reach, .everything⟩
    else (Verbosity.ofWord? word).map (⟨reach, ·⟩)
  | _ => none

/-- Reads what follows the brace that opens the test of a field. -/
def readField? (written looked : List Char) (start : Nat) (reach : Reach) : Option Directive :=
  let stop := seek looked start (· == '\x7d')
  match looked.drop stop with
  | _ :: ']' :: _ => do
    let field ← FieldTest.read? (slice written start stop)
    readEnd? written looked (stop + 2) { reach with field := some field }
  | _ => none

/-- Reads what follows the bracket that opens the name of a span. An empty
    name in front of the test of a field means any span. -/
def readSpan? (written looked : List Char) (start : Nat) (target : List Char) :
    Option Directive :=
  let stop := seek looked start fun c => c == ']' || c == '\x7b'
  let name := slice written start stop
  match looked.drop stop with
  | [] => none
  | ']' :: _ => readEnd? written looked (stop + 1) { target, span := some (String.ofList name) }
  | _ :: _ =>
    let span := if name.isEmpty then none else some (String.ofList name)
    readField? written looked (stop + 1) { target, span }

/-- Reads a directive. A single word is a level if it can be one, and
    otherwise a target of which everything is logged. -/
def read? (written : List Char) : Option Directive :=
  let looked := Text.trim written
  match looked with
  | [] => none
  | '[' :: _ => readSpan? written looked 1 []
  | c :: _ =>
    if mayBegin c then
      let stop := seek looked 0 fun c => c == '=' || c == '['
      let target := slice written 0 stop
      match looked.drop stop with
      | [] =>
        match Verbosity.ofWord? written with
        | some verbosity => some ⟨{}, verbosity⟩
        | none => some ⟨{ target := written }, .everything⟩
      | '[' :: _ => readSpan? written looked (stop + 1) target
      | _ => readEnd? written looked stop { target }
    else none

end Directive

end SpanForest
