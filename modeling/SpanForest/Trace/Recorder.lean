import SpanForest.Trace.Registry

/-! # Recorders

    A recorder keeps every event and every closed span, with all values as
    texts, so that one can ask afterwards what happened.

    * **`Record`**: what has been recorded. **`Record.spanOpened`**,
      **`Record.spanGiven`**, **`Record.spanClosed`** and
      **`Record.eventHappened`**: what a recorder does when it is told of
      something. The values of an open span lie with the span in a registry.
    * **`Record.spanNamed?`**, **`Record.eventsAt`**, **`Record.hasMessage`**:
      questions to a record.
    * **`Recording.step`**: one thing that happens, as the recorder and its
      registry are told of it. A program holds a span by a handle, up to its
      closing; spans are numbered from zero as they open.
    * **`Recorder`**: a recording over the registry of the program, and
      **`Recorder.ofTrace`**: the recording of a trace.
-/

namespace SpanForest

/-- The texts of named values; a name occurs once. -/
abbrev FieldTexts := List (String × String)

namespace FieldTexts

/-- Gives a field a value in place of any it has. -/
def put (fields : FieldTexts) (name value : String) : FieldTexts :=
  if fields.any (·.1 == name) then
    fields.map fun field => if field.1 == name then (name, value) else field
  else fields ++ [(name, value)]

/-- The value of a field. -/
def get? (fields : FieldTexts) (name : String) : Option String :=
  fields.lookup name

/-- Gives fields values one after another. -/
def collect (texts : FieldTexts) (fields : Fields) : FieldTexts :=
  fields.foldl (fun texts field => texts.put field.1 field.2.render) texts

/-- The texts of fields; of several values of one field the last. -/
def ofFields (fields : Fields) : FieldTexts := collect [] fields

end FieldTexts

/-- A span in a record, or on its way there. -/
structure RecordedSpan where
  /-- The name of the span. -/
  name : String
  /-- The values that it was given. -/
  fields : FieldTexts
deriving DecidableEq

/-- An event in a record. -/
structure RecordedEvent where
  /-- How much the event matters. -/
  level : Level
  /-- The part of the program that it comes from. -/
  target : String
  /-- Its values. -/
  fields : FieldTexts
deriving DecidableEq

/-- The sentence of an event. -/
def RecordedEvent.message? (e : RecordedEvent) : Option String :=
  e.fields.get? "message"

/-! ## Records -/

/-- What has been recorded. -/
structure Record where
  /-- The closed spans, in the order of closing. -/
  spans : Array RecordedSpan := #[]
  /-- The events, in order. -/
  events : Array RecordedEvent := #[]
deriving DecidableEq

namespace Record

section registry

variable (registry : SpanRegistry σ ι RecordedSpan)

/-- A span has opened: its name and its values are left with it. -/
def spanOpened (s : σ) (id : ι) (name : String) (fields : Fields) : σ :=
  match registry.held? s id with
  | none => s
  | some _ => registry.leave s id (some ⟨name, .ofFields fields⟩)

/-- A span is given values: they join those that are left with it. -/
def spanGiven (s : σ) (id : ι) (fields : Fields) : σ :=
  match registry.held? s id with
  | some (some span) =>
    registry.leave s id (some { span with fields := span.fields.collect fields })
  | _ => s

/-- A span closes: what is left with it is taken from there and recorded. -/
def spanClosed (r : Record) (s : σ) (id : ι) : Record × σ :=
  match registry.held? s id with
  | some (some span) => ({ r with spans := r.spans.push span }, registry.leave s id none)
  | _ => (r, s)

end registry

/-- An event happens, and is recorded. -/
def eventHappened (r : Record) (level : Level) (target : String) (fields : Fields) : Record :=
  { r with events := r.events.push ⟨level, target, .ofFields fields⟩ }

/-! ### Questions -/

/-- The first closed span of the given name. -/
def spanNamed? (r : Record) (name : String) : Option RecordedSpan :=
  r.spans.find? (·.name == name)

/-- The events of exactly the given level, in order. -/
def eventsAt (r : Record) (level : Level) : List RecordedEvent :=
  r.events.toList.filter (·.level == level)

/-- Whether an event of exactly the given level says the given sentence. -/
def hasMessage (r : Record) (level : Level) (message : String) : Bool :=
  r.events.any fun e => e.level == level && e.message? == some message

end Record

/-! ## Recordings -/

/-- Something to record. -/
inductive Recorder.Action where
  /-- A span opens. -/
  | openSpan (name : String) (declared : List String) (fields : Fields)
  /-- A span is given a value. -/
  | record (number : Nat) (field : String) (value : Value)
  /-- A span closes. -/
  | close (number : Nat)
  /-- An event happens, in some part of the program. -/
  | event (level : Level) (fields : Fields) (target : String := "")
deriving DecidableEq

/-- A span as a program holds it while it is open. -/
structure SpanHandle (ι : Type) where
  /-- The identifier of the span. -/
  id : ι
  /-- The names of the fields that the span declares. -/
  declared : List String

/-- A recording under way, over a registry with states of type `σ`. -/
structure Recording (σ ι : Type) extends Record where
  /-- The state of the registry. -/
  registered : σ
  /-- The handles of the spans by number; none for those that have closed. -/
  opened : Array (Option (SpanHandle ι)) := #[]

namespace Recording

variable (registry : SpanRegistry σ ι RecordedSpan)

/-- The recording before anything has happened. -/
def start : Recording σ ι := { registered := registry.empty }

/-- The handle of a span that is open. -/
def handle? (r : Recording σ ι) (number : Nat) : Option (SpanHandle ι) :=
  r.opened[number]?.join

/-- One thing that happens. The registry takes in a span before the recorder is
    told of it, passes on the values for it, and forgets it after the recorder
    was told of its end. -/
def step (r : Recording σ ι) : Recorder.Action → Recording σ ι
  | .openSpan name declared fields =>
    let (id, s) := registry.register r.registered
    { r with
      registered := Record.spanOpened registry s id name fields
      opened := r.opened.push (some ⟨id, declared⟩) }
  | .record number field value =>
    match r.handle? number with
    | none => r
    | some handle =>
      let passed := registry.forward handle.declared [(field, value)]
      { r with registered := Record.spanGiven registry r.registered handle.id passed }
  | .close number =>
    match r.handle? number with
    | none => r
    | some handle =>
      let (record, s) := r.toRecord.spanClosed registry r.registered handle.id
      { toRecord := record
        registered := registry.forget s handle.id
        opened := r.opened.setIfInBounds number none }
  | .event level fields target => { r with toRecord := r.eventHappened level target fields }

/-- Several things that happen in order. -/
def run (r : Recording σ ι) (actions : List Recorder.Action) : Recording σ ι :=
  actions.foldl (step registry) r

/-- The recording that a history leads to. -/
def reached (history : List Recorder.Action) : Recording σ ι :=
  (start registry).run registry history

instance : Inspect (Recording σ ι) :=
  ⟨fun r => Inspect.record "RecordingLayer"
    [("spans", inspect r.spans.size), ("events", inspect r.events.size)]⟩

end Recording

/-! ## Recording a trace -/

/-- A recording over the registry of the program. -/
abbrev Recorder : Type := Recording (Array (Option (Option RecordedSpan))) Nat

namespace Recorder

instance : EmptyCollection Recorder := ⟨.start .slots⟩

/-- Records one thing. -/
def step (r : Recorder) (action : Action) : Recorder := Recording.step .slots r action

/-- The actions that record a trace, given the number of spans opened so far
    and the numbers of those that are open, innermost first. -/
def actionsOfTrace (count : Nat) (stack : List Nat) : Trace → List Action
  | [] => []
  | .opens span :: rest =>
    .openSpan span.name (span.fields.map (·.1)) span.fields
      :: actionsOfTrace (count + 1) (count :: stack) rest
  | .closes :: rest =>
    match stack with
    | [] => actionsOfTrace count [] rest
    | number :: outer => .close number :: actionsOfTrace count outer rest
  | .happens event :: rest =>
    .event event.level event.fields event.origin.target :: actionsOfTrace count stack rest

/-- The record of a whole trace. -/
def ofTrace (t : Trace) : Recorder :=
  .reached .slots (actionsOfTrace 0 [] t)

end Recorder

end SpanForest
