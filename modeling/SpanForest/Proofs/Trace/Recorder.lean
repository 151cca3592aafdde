import SpanForest.Proofs.Trace.Fields
import SpanForest.Proofs.Trace.History
import SpanForest.Proofs.Trace.Registry

/-! # What a record tells

    A record can be told from the history alone, whatever registry the spans of
    this history are in.

    * **`Faithful`**: what a record tells of a history.
    * **`openSpan?_reached`**: with an open span lies what it has been given so
      far.
    * **`spans_reached`**: the closed spans, in the order of closing.
    * **`reached_faithful`**: the main result, the whole record and what it
      answers.
-/

namespace SpanForest.Recorder

open Recording (OpenSpan Kept reached)

variable {σ ι : Type} {registry : SpanRegistry σ ι RecordedSpan} {h : List Action} {a : Action}
  {n : Nat} {l : Life} {s : RecordedSpan} {closed : List Nat}

/-! ## Telling -/

/-- A record tells of a span: it has its name and for each field the last value
    that the span is given. -/
structure Life.Tells (l : Life) (n : Nat) (s : RecordedSpan) : Prop where
  name_eq : s.name = l.name
  fields : s.fields.Tell (l.given n)

/-- A record tells of the closed span of a number. -/
def TellsSpan (h : List Action) (n : Nat) (s : RecordedSpan) : Prop :=
  ∃ l, Opens h n l ∧ .close n ∈ l.later ∧ l.Tells n s

/-- The level of an event. -/
def Action.level? : Action → Option Level
  | .event level _ _ => some level
  | _ => none

/-- A record tells of an event: it has its level and origin, and for each field
    the last value. -/
inductive TellsEvent : Action → RecordedEvent → Prop where
  | intro {level : Level} {fields : Fields} {target : String} {texts : FieldTexts} :
      texts.Tell fields → TellsEvent (.event level fields target) ⟨level, target, texts⟩

/-- A record tells a history. -/
structure Faithful (h : List Action) (r : Record) : Prop where
  /-- There is a record of each closed span and of no other, in the order of
      closing. -/
  spans : ∃ closed, ClosingOrder h closed ∧ List.Forall₂ (TellsSpan h) closed r.spans.toList
  /-- There is a record of each event, in order. -/
  events : List.Forall₂ TellsEvent (h.filter fun a => a.level?.isSome) r.events.toList
  /-- A name leads to the first closed span that has it. -/
  spanNamed?_eq_some : ∀ name s, r.spanNamed? name = some s ↔
    ∃ earlier later, r.spans.toList = earlier ++ s :: later ∧ s.name = name ∧
      ∀ other ∈ earlier, other.name ≠ name
  /-- It leads nowhere when no closed span has it. -/
  spanNamed?_eq_none : ∀ name, r.spanNamed? name = none ↔
    ∀ n l, Opens h n l → .close n ∈ l.later → l.name ≠ name
  /-- A level leads to its events, in order. -/
  eventsAt : ∀ level,
    List.Forall₂ TellsEvent (h.filter fun a => a.level? == some level) (r.eventsAt level)
  /-- A sentence has been said when it is the text of the message of an event. -/
  hasMessage_iff : ∀ level message, r.hasMessage level message = true ↔
    ∃ fields target value, .event level fields target ∈ h ∧
      fields.lastValue? "message" = some value ∧ value.Shown message

/-- A record of what a span has been given so far tells of it. -/
theorem Life.tells (l : Life) (n : Nat) : l.Tells n ⟨l.name, .ofFields (l.given n)⟩ where
  name_eq := rfl
  fields := FieldTexts.tell_ofFields _

theorem TellsSpan.concat (htells : TellsSpan h n s) (a : Action) : TellsSpan (h ++ [a]) n s := by
  obtain ⟨l, hopens, hclose, hname, hfields⟩ := htells
  refine ⟨l.extend a, hopens.extend a, Life.close_mem_extend.2 (.inl hclose), hname, ?_⟩
  rw [l.given_extend_of_mem hclose]
  exact hfields

/-! ## Open spans -/

/-- What is left with a span while it has not closed. -/
def Life.kept (l : Life) (n : Nat) : OpenSpan := ⟨l.declared, ⟨l.name, .ofFields (l.given n)⟩⟩

theorem Life.kept_extend (hopen : .close n ∉ l.later) (hgift : gift? n l.declared a = none) :
    (l.extend a).kept n = l.kept n := by
  unfold Life.kept
  rw [l.given_extend_of_not_mem hopen, hgift, Option.toList_none, List.append_nil]
  rfl

theorem Life.kept_extend_record (registry : SpanRegistry σ ι RecordedSpan)
    (hopen : .close n ∉ l.later) (field : String) (value : Value) :
    (l.extend (.record n field value)).kept n =
      (l.kept n).give (registry.forward l.declared [(field, value)]) := by
  rw [registry.forward_eq]
  by_cases hdeclared : field ∈ l.declared
  · have hpassed : [(field, value)].filter (fun f => l.declared.contains f.1) =
        [(field, value)] := by simp [hdeclared]
    unfold Life.kept OpenSpan.give
    rw [l.given_extend_of_not_mem hopen, gift?, if_pos ⟨rfl, hdeclared⟩, Option.toList_some,
      FieldTexts.ofFields_append, hpassed]
    rfl
  · have hpassed : [(field, value)].filter (fun f => l.declared.contains f.1) = [] := by
      simp [hdeclared]
    have hgift : gift? n l.declared (.record n field value) = none :=
      if_neg fun h => hdeclared h.2
    rw [l.kept_extend hopen hgift, hpassed]
    rfl

section step

variable {r : Recording σ ι} (hr : Kept registry r)
include hr

/-- With a span that has closed nothing is left again. -/
theorem openSpan?_step_of_none (hn : n < r.opened.size) (hnone : r.openSpan? registry n = none)
    (a : Action) : (r.step registry a).openSpan? registry n = none := by
  cases a with
  | openSpan name declared fields =>
    rw [hr.opened, if_neg hn.ne]
    exact hnone
  | record number field value =>
    rw [hr.given, hnone]
    exact ite_self none
  | close number =>
    rw [hr.closed, hnone]
    exact ite_self none
  | event level fields target => exact hnone

/-- An open span is given its value, or is closed. -/
theorem openSpan?_step_of_some (hopen : .close n ∉ l.later) (hn : n < r.opened.size)
    (hsome : r.openSpan? registry n = some (l.kept n)) (a : Action) :
    (r.step registry a).openSpan? registry n =
      if a = .close n then none else some ((l.extend a).kept n) := by
  cases a with
  | openSpan name declared fields =>
    rw [hr.opened, if_neg hn.ne, if_neg nofun, l.kept_extend hopen rfl]
    exact hsome
  | record number field value =>
    rw [hr.given, hsome]
    by_cases heq : number = n
    · subst heq
      rw [if_pos rfl, if_neg nofun, l.kept_extend_record registry hopen]
      rfl
    · have hgift : gift? n l.declared (.record number field value) = none :=
        if_neg fun h => heq h.1
      rw [if_neg heq, if_neg nofun, l.kept_extend hopen hgift]
  | close number =>
    rw [hr.closed, hsome, l.kept_extend hopen rfl]
    simp only [Action.close.injEq]
  | event level fields target =>
    rw [if_neg nofun, l.kept_extend hopen rfl]
    exact hsome

end step

/-! ### All steps -/

theorem reached_concat (h : List Action) (a : Action) :
    reached registry (h ++ [a]) = (reached registry h).step registry a := List.foldl_concat ..

theorem kept_reached (registry : SpanRegistry σ ι RecordedSpan) (h : List Action) :
    Kept registry (reached registry h) := Kept.start.run h

theorem size_reached (registry : SpanRegistry σ ι RecordedSpan) (h : List Action) :
    (reached registry h).opened.size = openedCount h := by
  induction h using List.reverseRecOn with
  | nil => rfl
  | append_singleton h a ih =>
    rw [reached_concat, Recording.size_step, ih, openedCount_concat]
    cases a <;> rfl

/-- With an open span lies what it has been given so far; with a closed one lies
    nothing. -/
theorem openSpan?_reached (registry : SpanRegistry σ ι RecordedSpan) (hopens : Opens h n l) :
    (reached registry h).openSpan? registry n =
      if .close n ∈ l.later then none else some (l.kept n) := by
  induction h using List.reverseRecOn generalizing l with
  | nil => exact absurd hopens.lt (Nat.not_lt_zero n)
  | append_singleton h a ih =>
    have hr := kept_reached registry h
    rw [reached_concat]
    obtain ⟨l', hl', rfl⟩ | ⟨rfl, hnil, rfl⟩ := opens_concat_cases hopens
    -- The span was there before the last action, or it opens by this action.
    · have hkept := ih hl'
      have hn : n < (reached registry h).opened.size :=
        hl'.lt.trans_eq (size_reached registry h).symm
      by_cases hclose : .close n ∈ l'.later
      · rw [if_pos hclose] at hkept
        rw [if_pos (Life.close_mem_extend.2 (.inl hclose))]
        exact openSpan?_step_of_none hr hn hkept a
      · rw [if_neg hclose] at hkept
        rw [openSpan?_step_of_some hr hclose hn hkept]
        simp only [Life.close_mem_extend, hclose, false_or]
    · rw [hr.opened, size_reached, if_pos rfl, hnil, if_neg List.not_mem_nil, Life.kept,
        Life.given, hnil, List.takeWhile_nil, List.filterMap_nil, List.append_nil]

/-- A span with which nothing is left has closed. -/
theorem closed_of_openSpan?_eq_none (hn : n < openedCount h)
    (hnone : (reached registry h).openSpan? registry n = none) : Closed h n := by
  obtain ⟨l, hopens⟩ := exists_opens hn
  by_contra hopen
  have hkept := openSpan?_reached registry hopens
  rw [if_neg fun hclose => hopen ⟨l, hopens, hclose⟩, hnone] at hkept
  cases hkept

/-- A span with which something is left has opened and not closed. -/
theorem opens_of_openSpan?_eq_some {span : OpenSpan}
    (hsome : (reached registry h).openSpan? registry n = some span) :
    ¬ Closed h n ∧ ∃ l, Opens h n l ∧ .close n ∉ l.later ∧ span = l.kept n := by
  have hopen : ¬ Closed h n := by
    rintro ⟨l, hopens, hclose⟩
    have hkept := openSpan?_reached registry hopens
    rw [if_pos hclose, hsome] at hkept
    cases hkept
  have hn : n < openedCount h := by
    rw [← size_reached registry]
    by_contra hle
    rw [Kept.openSpan?_of_none (Recording.handle?_of_size_le (not_lt.1 hle))] at hsome
    cases hsome
  obtain ⟨l, hopens⟩ := exists_opens hn
  have hclose : .close n ∉ l.later := fun hclose => hopen ⟨l, hopens, hclose⟩
  have hkept := openSpan?_reached registry hopens
  rw [if_neg hclose, hsome] at hkept
  exact ⟨hopen, l, hopens, hclose, Option.some.inj hkept⟩

/-! ## Closed spans -/

/-- Where an action closes no span, what is told of closed spans stays. -/
theorem spans_concat (hsame : ∀ n, a = .close n → n < openedCount h → Closed h n)
    (horder : ClosingOrder h closed) {spans : List RecordedSpan}
    (htells : List.Forall₂ (TellsSpan h) closed spans) :
    ClosingOrder (h ++ [a]) closed ∧ List.Forall₂ (TellsSpan (h ++ [a])) closed spans :=
  ⟨horder.concat hsame, htells.imp fun _ _ htells => htells.concat a⟩

/-- A span that is closed is told of with all that it has been given. -/
theorem TellsSpan.close (hopens : Opens h n l) (hopen : .close n ∉ l.later) :
    TellsSpan (h ++ [.close n]) n (l.kept n).content := by
  refine ⟨_, hopens.extend _, Life.close_mem_extend.2 (.inr rfl), ?_⟩
  have hkept : (l.extend (.close n)).kept n = l.kept n := l.kept_extend hopen rfl
  rw [← hkept]
  exact Life.tells _ n

/-- The closed spans are told of in the order of closing. -/
theorem spans_reached (registry : SpanRegistry σ ι RecordedSpan) (h : List Action) :
    ∃ closed, ClosingOrder h closed ∧
      List.Forall₂ (TellsSpan h) closed (reached registry h).spans.toList := by
  induction h using List.reverseRecOn with
  | nil =>
    have hnone : ∀ n, ¬ Closed [] n := by
      rintro n ⟨l, hopens, -⟩
      exact absurd hopens.lt (Nat.not_lt_zero n)
    exact ⟨[], ⟨List.nodup_nil, fun n => iff_of_false List.not_mem_nil (hnone n), .nil⟩, .nil⟩
  | append_singleton h a ih =>
    obtain ⟨closed, horder, htells⟩ := ih
    rw [reached_concat]
    cases a with
    | openSpan name declared fields => exact ⟨closed, spans_concat (by simp) horder htells⟩
    | record number field value =>
      rw [Kept.toRecord_record]
      exact ⟨closed, spans_concat (by simp) horder htells⟩
    | event level fields target => exact ⟨closed, spans_concat (by simp) horder htells⟩
    | close number =>
      rw [(kept_reached registry h).toRecord_close]
      cases hspan : (reached registry h).openSpan? registry number with
      | none =>
        -- There is no such span, or it has closed before.
        refine ⟨closed, spans_concat ?_ horder (by simpa using htells)⟩
        rintro n hclose hn
        obtain rfl := Action.close.inj hclose
        exact closed_of_openSpan?_eq_none hn hspan
      | some span =>
        -- What was left with the span becomes the last record.
        obtain ⟨hopen, l, hopens, hclose, rfl⟩ := opens_of_openSpan?_eq_some hspan
        refine ⟨closed ++ [number], horder.close hopens.lt hopen, ?_⟩
        have hbefore : List.Forall₂ (TellsSpan (h ++ [.close number])) closed
            (reached registry h).spans.toList := htells.imp fun _ _ htells => htells.concat _
        simpa using List.rel_append hbefore (.cons (TellsSpan.close hopens hclose) .nil)

/-! ## Events -/

/-- What is recorded of an action. -/
def event? : Action → Option RecordedEvent
  | .event level fields target => some ⟨level, target, .ofFields fields⟩
  | _ => none

theorem events_reached (registry : SpanRegistry σ ι RecordedSpan) (h : List Action) :
    (reached registry h).events.toList = h.filterMap event? := by
  induction h using List.reverseRecOn with
  | nil => rfl
  | append_singleton h a ih =>
    rw [reached_concat, List.filterMap_append, ← ih]
    cases a with
    | openSpan name declared fields => exact (List.append_nil _).symm
    | record number field value =>
      rw [Kept.toRecord_record]
      exact (List.append_nil _).symm
    | close number =>
      rw [(kept_reached registry h).toRecord_close]
      exact (List.append_nil _).symm
    | event level fields target => exact Array.toList_push

/-- Events are told of in order. -/
theorem tellsEvents (h : List Action) :
    List.Forall₂ TellsEvent (h.filter fun a => a.level?.isSome) (h.filterMap event?) := by
  induction h with
  | nil => exact .nil
  | cons a h ih =>
    cases a with
    | openSpan name declared fields => exact ih
    | record number field value => exact ih
    | close number => exact ih
    | event level fields target =>
      exact .cons (.intro (FieldTexts.tell_ofFields fields)) ih

theorem TellsEvent.level_eq {e : RecordedEvent} (htells : TellsEvent a e) :
    a.level? = some e.level := by
  cases htells
  rfl

theorem tellsEvents_at (registry : SpanRegistry σ ι RecordedSpan) (h : List Action)
    (level : Level) : List.Forall₂ TellsEvent (h.filter fun a => a.level? == some level)
      ((reached registry h).eventsAt level) := by
  have hsame : (h.filter fun a => a.level?.isSome).filter (fun a => a.level? == some level) =
      h.filter fun a => a.level? == some level := by
    rw [List.filter_filter]
    apply List.filter_congr
    intro a _
    cases a.level? <;> simp
  have htells := List.rel_filter (p := fun a => a.level? == some level)
    (q := fun e => e.level == level) (fun a e htells => by simp [htells.level_eq]) (tellsEvents h)
  rwa [hsame, ← events_reached registry] at htells

/-- Whether a record of an event has a sentence at a level. -/
theorem event?_says_iff {level : Level} {message : String} :
    (∃ e, event? a = some e ∧ (e.level == level && e.message? == some message) = true) ↔
      ∃ fields target value, .event level fields target = a ∧
        fields.lastValue? "message" = some value ∧ value.Shown message := by
  cases a with
  | event level' fields target =>
    have hget := (FieldTexts.tell_ofFields fields).get?_eq_some_iff "message" message
    constructor
    · rintro ⟨e, hevent, hsays⟩
      obtain rfl := Option.some.inj hevent
      rw [Bool.and_eq_true, beq_iff_eq, beq_iff_eq] at hsays
      obtain ⟨rfl, hmessage⟩ := hsays
      obtain ⟨value, hlast, hshown⟩ := hget.1 hmessage
      exact ⟨fields, target, value, rfl, hlast, hshown⟩
    · rintro ⟨fields, target, value, ha, hlast, hshown⟩
      obtain ⟨rfl, rfl, rfl⟩ := Action.event.inj ha
      refine ⟨_, rfl, ?_⟩
      rw [Bool.and_eq_true, beq_iff_eq, beq_iff_eq]
      exact ⟨rfl, hget.2 ⟨value, hlast, hshown⟩⟩
  | openSpan | record | close => simp [event?]

theorem hasMessage_reached_iff (registry : SpanRegistry σ ι RecordedSpan) (h : List Action)
    (level : Level) (message : String) : (reached registry h).hasMessage level message = true ↔
      ∃ fields target value, .event level fields target ∈ h ∧
        fields.lastValue? "message" = some value ∧ value.Shown message := by
  rw [Record.hasMessage, ← Array.any_toList, events_reached, List.any_eq_true]
  constructor
  · rintro ⟨e, he, hsays⟩
    obtain ⟨a, ha, hevent⟩ := List.mem_filterMap.1 he
    obtain ⟨fields, target, value, rfl, hlast⟩ := event?_says_iff.1 ⟨e, hevent, hsays⟩
    exact ⟨fields, target, value, ha, hlast⟩
  · rintro ⟨fields, target, value, ha, hlast⟩
    obtain ⟨e, hevent, hsays⟩ := event?_says_iff.2 ⟨fields, target, value, rfl, hlast⟩
    exact ⟨e, List.mem_filterMap.2 ⟨_, ha, hevent⟩, hsays⟩

/-! ## Names -/

theorem TellsSpan.name_eq (htells : TellsSpan h n s) (hopens : Opens h n l) :
    s.name = l.name := by
  obtain ⟨l', hl', -, htells⟩ := htells
  rw [hopens.unique hl', htells.name_eq]

theorem spanNamed?_reached_eq_none_iff (registry : SpanRegistry σ ι RecordedSpan)
    (h : List Action) (name : String) : (reached registry h).spanNamed? name = none ↔
      ∀ n l, Opens h n l → .close n ∈ l.later → l.name ≠ name := by
  obtain ⟨closed, horder, htells⟩ := spans_reached registry h
  rw [Record.spanNamed?, ← Array.find?_toList, List.find?_eq_none]
  constructor
  · intro hnone n l hopens hclose hname
    have hmem := (horder.mem_iff n).2 ⟨l, hopens, hclose⟩
    obtain ⟨k, hk, rfl⟩ := List.mem_iff_getElem.1 hmem
    have hlength := htells.length_eq
    have hspan := htells.get hk (hlength ▸ hk)
    refine hnone _ (List.getElem_mem (hlength ▸ hk)) ?_
    rw [beq_iff_eq, ← hname]
    exact hspan.name_eq hopens
  · intro hnone s hs hname
    obtain ⟨k, hk, rfl⟩ := List.mem_iff_getElem.1 hs
    obtain ⟨l, hopens, hclose, hspan⟩ := htells.get (htells.length_eq ▸ hk) hk
    exact hnone _ l hopens hclose (hspan.name_eq.symm.trans (beq_iff_eq.1 hname))

/-! ## The main result -/

/-- Whatever the registry and whatever the history, the record is faithful: it
    has the closed spans in the order of closing, each with the last values that
    it was given while it was open, whatever happened in other spans, and the
    events in order; and it answers questions accordingly. -/
theorem reached_faithful (registry : SpanRegistry σ ι RecordedSpan) (h : List Action) :
    Faithful h (reached registry h).toRecord where
  spans := spans_reached registry h
  events := by
    rw [events_reached]
    exact tellsEvents h
  spanNamed?_eq_some name s := by
    rw [Record.spanNamed?, ← Array.find?_toList, List.find?_eq_some_iff_append]
    simp only [beq_iff_eq, Bool.not_eq_true', beq_eq_false_iff_ne]
    constructor
    · rintro ⟨hname, earlier, later, hspans, hearlier⟩
      exact ⟨earlier, later, hspans, hname, hearlier⟩
    · rintro ⟨earlier, later, hspans, hname, hearlier⟩
      exact ⟨hname, earlier, later, hspans, hearlier⟩
  spanNamed?_eq_none := spanNamed?_reached_eq_none_iff registry h
  eventsAt := tellsEvents_at registry h
  hasMessage_iff := hasMessage_reached_iff registry h

/-- Two spans of one name are open at once and close in the other order. A third
    one gets the slot of the one that has closed, and does not close. Values that
    are undeclared, too late, or given to a span that never opens are in no
    record, and a fault is recorded by its sentence. -/
theorem reached_faithful_of_crossed_spans :
    let h : List Action := [.openSpan "work" ["answer", "total"] [("answer", .integer 1)],
      .openSpan "work" ["answer", "total"] [("answer", .integer 2)],
      .record 0 "total" (.natural 7), .record 1 "answer" (.integer (-3)),
      .record 1 "note" (.text "n"), .record 3 "total" (.natural 8), .close 1,
      .openSpan "demo" ["total"] [], .record 2 "total" (.natural 5),
      .event .info [("message", .text "a"), ("message", .fault ⟨"b", "B"⟩)] "kruskal",
      .record 1 "total" (.natural 9), .close 1, .record 0 "total" (.natural 6), .close 0]
    let recorded : List RecordedSpan :=
      [⟨"work", [("answer", "-3")]⟩, ⟨"work", [("answer", "1"), ("total", "6")]⟩]
    (∃ closed, ClosingOrder h closed ∧ List.Forall₂ (TellsSpan h) closed recorded) ∧
      (∀ n l, Opens h n l → .close n ∈ l.later → l.name ≠ "demo") ∧
      ¬ ∃ fields target value, .event .info fields target ∈ h ∧
        fields.lastValue? "message" = some value ∧ value.Shown "B" := by
  intro h recorded
  have hspans : (reached .slots h).spans.toList = recorded := by decide +kernel
  have hnone : (reached .slots h).spanNamed? "demo" = none := by decide +kernel
  have hmessage : (reached .slots h).hasMessage .info "B" = false := by decide +kernel
  have hfaithful := reached_faithful .slots h
  have hclosed := hfaithful.spans
  rw [hspans] at hclosed
  refine ⟨hclosed, (hfaithful.spanNamed?_eq_none "demo").1 hnone, ?_⟩
  rw [← hfaithful.hasMessage_iff, hmessage]
  exact Bool.false_ne_true

end SpanForest.Recorder
