import SpanForest.Trace.Recorder

/-! # What is left with open spans

    While a span is open, its name and its values lie in a registry. All that is
    known of the registry are its laws. They keep the spans apart: a span that
    opens gets an identifier that no open span has, and what is left with one
    span is not touched by what happens in another.

    * **`Record.held?_spanOpened`**, **`Record.held?_spanGiven`**,
      **`Record.spanClosed_of_held`**: what a recorder does with one span.
    * **`Kept`**: every handle leads to an entry of its own; **`Kept.run`**: so
      it is at any time.
    * **`openSpan?`**: what is left with the span of a number. **`Kept.opened`**,
      **`Kept.given`**, **`Kept.closed`**: how it changes.
-/

namespace SpanForest

variable {σ ι : Type} {registry : SpanRegistry σ ι RecordedSpan}

/-! ## One span -/

namespace Record

variable {s : σ} {id other : ι} {entry : Option RecordedSpan} {span : RecordedSpan}

theorem held?_spanOpened (h : registry.held? s id = some entry) (name : String)
    (fields : Fields) : registry.held? (spanOpened registry s id name fields) id =
      some (some ⟨name, .ofFields fields⟩) := by
  rw [spanOpened, h]
  exact (registry.held?_leave_self ..).trans (by rw [h]; rfl)

theorem held?_spanOpened_ne (hother : other ≠ id) (name : String) (fields : Fields) :
    registry.held? (spanOpened registry s id name fields) other = registry.held? s other := by
  unfold spanOpened
  split
  · rfl
  · exact registry.held?_leave_ne hother

theorem held?_spanGiven (h : registry.held? s id = some (some span)) (fields : Fields) :
    registry.held? (spanGiven registry s id fields) id =
      some (some { span with fields := span.fields.collect fields }) := by
  rw [spanGiven, h]
  exact (registry.held?_leave_self ..).trans (by rw [h]; rfl)

theorem held?_spanGiven_ne (hother : other ≠ id) (fields : Fields) :
    registry.held? (spanGiven registry s id fields) other = registry.held? s other := by
  unfold spanGiven
  split
  · exact registry.held?_leave_ne hother
  · rfl

theorem spanClosed_of_held (h : registry.held? s id = some (some span)) (r : Record) :
    r.spanClosed registry s id =
      ({ r with spans := r.spans.push span }, registry.leave s id none) := by
  rw [spanClosed, h]

end Record

/-! ## Handles -/

namespace Recording

variable {r : Recording σ ι} {n m number : Nat} {handle handle' : SpanHandle ι}

theorem handle?_openSpan (registry : SpanRegistry σ ι RecordedSpan) (r : Recording σ ι)
    (name : String) (declared : List String) (fields : Fields) (n : Nat) :
    (r.step registry (.openSpan name declared fields)).handle? n =
      if n = r.opened.size then some ⟨(registry.register r.registered).1, declared⟩
      else r.handle? n := by
  show ((r.opened.push _)[n]?).join = _
  rw [Array.getElem?_push]
  split <;> rfl

theorem handle?_record (registry : SpanRegistry σ ι RecordedSpan) (r : Recording σ ι)
    (number : Nat) (field : String) (value : Value) (n : Nat) :
    (r.step registry (.record number field value)).handle? n = r.handle? n := by
  rw [step]
  cases r.handle? number <;> rfl

theorem handle?_close (registry : SpanRegistry σ ι RecordedSpan) (r : Recording σ ι)
    (number n : Nat) : (r.step registry (.close number)).handle? n =
      if number = n then none else r.handle? n := by
  rw [step]
  cases hnumber : r.handle? number with
  | none =>
    by_cases heq : number = n
    · rw [if_pos heq, ← heq]
      exact hnumber
    · rw [if_neg heq]
  | some handle =>
    show ((r.opened.setIfInBounds number none)[n]?).join = _
    rw [Array.getElem?_setIfInBounds]
    split
    · split <;> rfl
    · rfl

theorem handle?_of_size_le (h : r.opened.size ≤ n) : r.handle? n = none := by
  rw [handle?, Array.getElem?_eq_none h]
  rfl

theorem size_step (r : Recording σ ι) (a : Recorder.Action) :
    (r.step registry a).opened.size = r.opened.size + if a matches .openSpan .. then 1 else 0 := by
  cases a with
  | openSpan name declared fields => exact Array.size_push ..
  | record number field value =>
    rw [step]
    cases r.handle? number <;> rfl
  | close number =>
    rw [step]
    cases r.handle? number with
    | none => rfl
    | some handle => exact Array.size_setIfInBounds ..
  | event level fields target => rfl

/-! ## Entries -/

/-- Every handle leads to an entry of its own. -/
structure Kept (registry : SpanRegistry σ ι RecordedSpan) (r : Recording σ ι) : Prop where
  /-- There is an entry. -/
  entry : ∀ {n handle}, r.handle? n = some handle →
    ∃ span, registry.held? r.registered handle.id = some (some span)
  /-- No two open spans have one identifier. -/
  apart : ∀ {n m handle handle'}, r.handle? n = some handle → r.handle? m = some handle' →
    handle.id = handle'.id → n = m

/-- An open span, with the fields that it may be given. -/
structure OpenSpan where
  /-- The names of the fields. -/
  declared : List String
  /-- What is recorded when the span closes. -/
  content : RecordedSpan

/-- What is left with the open span of a number. -/
def openSpan? (registry : SpanRegistry σ ι RecordedSpan) (r : Recording σ ι) (n : Nat) :
    Option OpenSpan :=
  (r.handle? n).bind fun handle =>
    (registry.held? r.registered handle.id).join.map fun content => ⟨handle.declared, content⟩

/-- An open span that is given values. -/
def OpenSpan.give (s : OpenSpan) (fields : Fields) : OpenSpan :=
  { s with content.fields := s.content.fields.collect fields }

namespace Kept

/-- A span that opens gets an identifier that no open span has. -/
theorem id_ne_fresh (hr : Kept registry r) (h : r.handle? n = some handle) :
    handle.id ≠ (registry.register r.registered).1 := by
  intro heq
  obtain ⟨span, hspan⟩ := hr.entry h
  rw [heq, registry.held?_fresh] at hspan
  cases hspan

theorem id_ne (hr : Kept registry r) (h : r.handle? n = some handle)
    (h' : r.handle? m = some handle') (hne : m ≠ n) : handle.id ≠ handle'.id :=
  fun heq => hne (hr.apart h h' heq).symm

/-- What is left with an open span stays when another one opens. -/
theorem held?_openSpan (hr : Kept registry r) (h : r.handle? n = some handle) (name : String)
    (declared : List String) (fields : Fields) :
    registry.held? (r.step registry (.openSpan name declared fields)).registered handle.id =
      registry.held? r.registered handle.id := by
  have hne := hr.id_ne_fresh h
  exact (Record.held?_spanOpened_ne hne ..).trans (registry.held?_register_ne hne)

theorem held?_openSpan_fresh (r : Recording σ ι) (name : String) (declared : List String)
    (fields : Fields) :
    registry.held? (r.step registry (.openSpan name declared fields)).registered
      (registry.register r.registered).1 = some (some ⟨name, .ofFields fields⟩) :=
  Record.held?_spanOpened (registry.held?_register_self _) ..

/-- It stays when another one is given a value. -/
theorem held?_record_ne (hr : Kept registry r) (h : r.handle? n = some handle)
    (hne : number ≠ n) (field : String) (value : Value) :
    registry.held? (r.step registry (.record number field value)).registered handle.id =
      registry.held? r.registered handle.id := by
  rw [step]
  cases hnumber : r.handle? number with
  | none => rfl
  | some handle' => exact Record.held?_spanGiven_ne (hr.id_ne h hnumber hne) _

theorem held?_record_self {span : RecordedSpan} (h : r.handle? n = some handle)
    (hspan : registry.held? r.registered handle.id = some (some span)) (field : String)
    (value : Value) :
    registry.held? (r.step registry (.record n field value)).registered handle.id =
      some (some { span with
        fields := span.fields.collect (registry.forward handle.declared [(field, value)]) }) := by
  rw [step, h]
  exact Record.held?_spanGiven hspan _

/-- It stays when another one closes. -/
theorem held?_close (hr : Kept registry r) (h : r.handle? n = some handle) (hne : number ≠ n) :
    registry.held? (r.step registry (.close number)).registered handle.id =
      registry.held? r.registered handle.id := by
  rw [step]
  cases hnumber : r.handle? number with
  | none => rfl
  | some handle' =>
    have hid := hr.id_ne h hnumber hne
    -- The recorder takes its entry from the other span, which is then forgotten.
    obtain ⟨span, hspan⟩ := hr.entry hnumber
    simp only [Record.spanClosed_of_held hspan]
    rw [registry.held?_forget_ne hid, registry.held?_leave_ne hid]

theorem start : Kept registry (Recording.start registry) where
  entry h := by cases h
  apart h := by cases h

theorem step (hr : Kept registry r) (a : Recorder.Action) : Kept registry (r.step registry a) := by
  cases a with
  | openSpan name declared fields =>
    refine ⟨?_, ?_⟩
    · intro n handle h
      rw [handle?_openSpan] at h
      split at h
      -- The new span has its entry from the recorder, the others keep theirs.
      · obtain rfl := Option.some.inj h
        exact ⟨_, held?_openSpan_fresh r name declared fields⟩
      · rw [hr.held?_openSpan h]
        exact hr.entry h
    · intro n m handle handle' h h' heq
      rw [handle?_openSpan] at h h'
      split at h <;> split at h'
      · rename_i hn hm
        exact hn.trans hm.symm
      · obtain rfl := Option.some.inj h
        exact absurd heq.symm (hr.id_ne_fresh h')
      · obtain rfl := Option.some.inj h'
        exact absurd heq (hr.id_ne_fresh h)
      · exact hr.apart h h' heq
  | record number field value =>
    refine ⟨?_, ?_⟩
    · intro n handle h
      rw [handle?_record] at h
      obtain ⟨span, hspan⟩ := hr.entry h
      -- Only the entry of the span that is given the value changes.
      by_cases hne : number = n
      · subst hne
        exact ⟨_, held?_record_self h hspan field value⟩
      · rw [hr.held?_record_ne h hne]
        exact ⟨span, hspan⟩
    · intro n m handle handle' h h'
      rw [handle?_record] at h h'
      exact hr.apart h h'
  | close number =>
    refine ⟨?_, ?_⟩
    · intro n handle h
      rw [handle?_close] at h
      split at h
      · cases h
      · rename_i hne
        rw [hr.held?_close h hne]
        exact hr.entry h
    · intro n m handle handle' h h'
      rw [handle?_close] at h h'
      split at h <;> split at h'
      · cases h
      · cases h
      · cases h'
      · exact hr.apart h h'
  | event level fields target => exact ⟨hr.entry, hr.apart⟩

theorem run (hr : Kept registry r) (h : List Recorder.Action) :
    Kept registry (r.run registry h) := by
  induction h generalizing r with
  | nil => exact hr
  | cons a rest ih => exact ih (hr.step a)

/-! ## Open spans -/

theorem openSpan?_of_held {span : RecordedSpan} (h : r.handle? n = some handle)
    (hspan : registry.held? r.registered handle.id = some (some span)) :
    r.openSpan? registry n = some ⟨handle.declared, span⟩ := by
  rw [openSpan?, h, Option.bind_some, hspan]
  rfl

theorem openSpan?_of_none (h : r.handle? n = none) : r.openSpan? registry n = none := by
  rw [openSpan?, h]
  rfl

/-- Two recordings agree on a span when they agree on its handle, and on what is
    left with it. -/
theorem openSpan?_congr {r' : Recording σ ι} (hhandle : r'.handle? n = r.handle? n)
    (hheld : ∀ handle, r.handle? n = some handle →
      registry.held? r'.registered handle.id = registry.held? r.registered handle.id) :
    r'.openSpan? registry n = r.openSpan? registry n := by
  unfold openSpan?
  rw [hhandle]
  cases h : r.handle? n with
  | none => rfl
  | some handle => rw [Option.bind_some, Option.bind_some, hheld handle h]

theorem opened (hr : Kept registry r) (name : String) (declared : List String) (fields : Fields)
    (n : Nat) : (r.step registry (.openSpan name declared fields)).openSpan? registry n =
      if n = r.opened.size then some ⟨declared, ⟨name, .ofFields fields⟩⟩
      else r.openSpan? registry n := by
  have hhandle := handle?_openSpan registry r name declared fields n
  split
  · rename_i hn
    rw [if_pos hn] at hhandle
    exact openSpan?_of_held hhandle (held?_openSpan_fresh r name declared fields)
  · rename_i hn
    rw [if_neg hn] at hhandle
    exact openSpan?_congr hhandle fun _ h => hr.held?_openSpan h name declared fields

theorem given (hr : Kept registry r) (number : Nat) (field : String) (value : Value) (n : Nat) :
    (r.step registry (.record number field value)).openSpan? registry n =
      if number = n then (r.openSpan? registry n).map fun s =>
        s.give (registry.forward s.declared [(field, value)])
      else r.openSpan? registry n := by
  have hhandle := handle?_record registry r number field value n
  split
  · rename_i hn
    subst hn
    cases h : r.handle? number with
    | none => rw [openSpan?_of_none h, openSpan?_of_none (hhandle.trans h), Option.map_none]
    | some handle =>
      obtain ⟨span, hspan⟩ := hr.entry h
      rw [openSpan?_of_held h hspan,
        openSpan?_of_held (hhandle.trans h) (held?_record_self h hspan field value)]
      rfl
  · rename_i hn
    exact openSpan?_congr hhandle fun _ h => hr.held?_record_ne h hn field value

theorem closed (hr : Kept registry r) (number n : Nat) :
    (r.step registry (.close number)).openSpan? registry n =
      if number = n then none else r.openSpan? registry n := by
  have hhandle := handle?_close registry r number n
  split
  · rename_i hn
    rw [if_pos hn] at hhandle
    exact openSpan?_of_none hhandle
  · rename_i hn
    rw [if_neg hn] at hhandle
    exact openSpan?_congr hhandle fun _ h => hr.held?_close h hn

/-! ## The record -/

/-- Values that are given are not recorded yet. -/
theorem toRecord_record (r : Recording σ ι) (number : Nat) (field : String) (value : Value) :
    (r.step registry (.record number field value)).toRecord = r.toRecord := by
  rw [Recording.step]
  cases r.handle? number <;> rfl

/-- What is left with a span is recorded when the span closes. -/
theorem toRecord_close (hr : Kept registry r) (number : Nat) :
    (r.step registry (.close number)).toRecord =
      { r.toRecord with
        spans := r.spans ++ ((r.openSpan? registry number).map (·.content)).toArray } := by
  rw [Recording.step]
  cases h : r.handle? number with
  | none =>
    rw [openSpan?_of_none h]
    simp
  | some handle =>
    obtain ⟨span, hspan⟩ := hr.entry h
    rw [openSpan?_of_held h hspan]
    simp [Record.spanClosed_of_held hspan]

end Kept

end Recording

end SpanForest
