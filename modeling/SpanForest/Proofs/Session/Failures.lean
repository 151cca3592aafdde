import SpanForest.Proofs.Session.Endings

/-! # Failing changes nothing

    A question that fails has done nothing on the way: no set is merged, no edge
    is lost, and nobody else can tell that it was asked. The one exception is
    the stream, which remembers that it has told of its end. Finishing pulls
    many times, but it can only fail before its first pull.

    * **`finish_fails_iff`**: finishing fails at once, or not at all.
    * **`Answers.unchanged`**, **`next_of_failure`**: what a failing reply leaves.
    * **`session_step_of_failure`**: the same of actions.
    * **`withoutFailures`**: the actions that are left when failing questions
      are left out, and **`run_withoutFailures`**: they lead to the same session.
    * **`failing_changes_nothing`**: the main result.
-/

namespace SpanForest

variable {α : Type u} {ω : Type v}

/-! ## Replies -/

namespace Traversal

variable {t : Traversal ω} {g : Graph α ω} {reply : Reply α ω (Answer ω)} {failure : Failure}

/-- Asking whether an edge is left never changes anything. -/
theorem hasNext_unchanged (t : Traversal ω) (g : Graph α ω) :
    (t.hasNext g).traversal = t ∧ (t.hasNext g).graph = g := by
  by_cases h : g.modificationCount = t.expected
  · rw [hasNext_of_current h]
    exact ⟨rfl, rfl⟩
  · rw [hasNext_of_stale h]
    exact ⟨rfl, rfl⟩

/-- A pull takes the pending edge only when it hands it out. -/
theorem pull_of_failure (h : (t.pull g).answer = .error failure) :
    (t.pull g).traversal = t ∧ (t.pull g).graph = g := by
  revert h
  refine t.pull_cases g ?stale ?exhausted ?pending
  case stale =>
    intro _ _
    exact ⟨rfl, rfl⟩
  case exhausted =>
    intro _ _ _
    exact ⟨rfl, rfl⟩
  case pending =>
    intro e _ _ h
    cases h

/-- A stream that yields a failure is thereby ended, and nothing else changes. -/
theorem next_of_failure (h : (t.next g).answer = some (.error failure)) :
    t.fused = false ∧ (t.next g).traversal = t.fuse ∧ (t.next g).graph = g := by
  revert h
  refine t.next_cases g ?fused ?stale ?exhausted ?pending
  case fused =>
    intro _ h
    cases h
  case stale =>
    intro hf _ _
    exact ⟨hf, rfl, rfl⟩
  case exhausted =>
    intro _ _ _ h
    cases h
  case pending =>
    intro e _ _ _ h
    cases h

/-- Finishing fails exactly when there was an addition before it began. -/
theorem finish_fails_iff :
    (∃ failure, (t.finish g).answer = .error failure) ↔ g.modificationCount ≠ t.expected := by
  constructor
  · rintro ⟨failure, h⟩ hcurrent
    rw [answer_finish_of_current hcurrent] at h
    cases h
  · intro h
    rw [finish_of_stale h]
    exact ⟨_, rfl⟩

theorem finish_of_failure (h : (t.finish g).answer = .error failure) : t.finish g = t.stale g :=
  finish_of_stale (finish_fails_iff.1 ⟨failure, h⟩)

/-- A failure that is no item of a stream leaves everything as it was. -/
theorem Answers.unchanged (h : t.Answers g reply) (hfailure : reply.answer.isFailure = true)
    (hitem : reply.answer.item? = none) : reply.traversal = t ∧ reply.graph = g := by
  cases h with
  | hasNext => exact t.hasNext_unchanged g
  | pull =>
    cases hanswer : (t.pull g).answer with
    | ok e => simp [Reply.map, hanswer, Answer.isFailure] at hfailure
    | error failure => exact pull_of_failure hanswer
  -- Whatever the stream answers is an item.
  | next => cases hitem
  | finish =>
    cases hanswer : (t.finish g).answer with
    | ok f => simp [Reply.map, hanswer, Answer.isFailure] at hfailure
    | error failure =>
      rw [finish_of_failure hanswer]
      exact ⟨rfl, rfl⟩

end Traversal

/-! ## Actions -/

namespace Session

variable [Ord ω] {s : Session α ω} {t : Traversal ω} {number : Nat} {action : Action α ω}

/-- Only a traversal fails. -/
theorem exists_traversal_of_failure (h : (s.step action).answer.isFailure = true) :
    ∃ number t, s.agent action = .traversal number ∧ s.traversals[number]? = some t := by
  cases action with
  | addNode _ | addEdge _ _ _ | union _ _ | start => cases h
  | hasNext n | pull n | next n | finish n =>
    cases ht : s.traversals[n]? with
    | none =>
      rw [step, ask, ht] at h
      cases h
    | some t => exact ⟨n, t, rfl, ht⟩

/-- A question that fails outright leaves the session as it was. -/
theorem session_step_of_failure (hfailure : (s.step action).answer.isFailure = true)
    (hitem : (s.step action).answer.item? = none) : (s.step action).session = s := by
  obtain ⟨number, t, hown, ht⟩ := exists_traversal_of_failure hfailure
  obtain ⟨reply, hreply, hstep⟩ := step_answers hown ht
  rw [hstep] at hfailure hitem ⊢
  obtain ⟨htraversal, hgraph⟩ := hreply.unchanged hfailure hitem
  simp only [htraversal, hgraph, setIfInBounds_self ht]

/-! ## Histories -/

/-- The action is a question that fails, and no question to a stream. -/
def failsOutright (s : Session α ω) (action : Action α ω) : Bool :=
  (s.step action).answer.isFailure && !(s.step action).answer.item?.isSome

/-- The actions without the questions that fail, the streams apart. -/
def withoutFailures (s : Session α ω) : List (Action α ω) → List (Action α ω)
  | [] => []
  | action :: rest =>
    let later := withoutFailures (s.step action).session rest
    if s.failsOutright action then later else action :: later

/-- Questions that fail may as well not have been asked. -/
theorem run_withoutFailures (s : Session α ω) (actions : List (Action α ω)) :
    (s.run (s.withoutFailures actions)).session = (s.run actions).session := by
  induction actions generalizing s with
  | nil => rfl
  | cons action rest ih =>
    show (s.run (s.withoutFailures (action :: rest))).session =
      ((s.step action).session.run rest).session
    rw [← ih (s.step action).session, withoutFailures]
    by_cases houtright : s.failsOutright action = true
    · obtain ⟨hfailure, hitem⟩ := Bool.and_eq_true_iff.1 houtright
      have hsame := session_step_of_failure hfailure (by simpa using hitem)
      rw [if_pos houtright, hsame]
    · rw [if_neg houtright]
      rfl

/-! ## The main result -/

/-- In any session, a question to a traversal that fails leaves the session as it
    was, and an item of a stream that is a failure ends this stream and leaves
    all else. Finishing fails exactly when the modification count already differs
    from the one at the beginning of the traversal, and then it reports this
    and nothing more. So all failing questions of a history may be left out. -/
theorem failing_changes_nothing (ht : s.traversals[number]? = some t) :
    (∀ action ∈ questions number, (s.step action).answer.isFailure = true →
      (s.step action).session = s) ∧
    (∀ failure, (s.step (.next number)).answer = .item (some (.error failure)) →
      t.fused = false ∧ (s.step (.next number)).session =
        { s with traversals := s.traversals.setIfInBounds number { t with fused := true } }) ∧
    ((∃ failure, (s.step (.finish number)).answer = .forest (.error failure)) ↔
      s.graph.modificationCount ≠ t.expected) ∧
    (∀ failure, (s.step (.finish number)).answer = .forest (.error failure) →
      (s.step (.finish number)).notices =
        [.additionNoticed t.expected s.graph.modificationCount]) ∧
    ∀ actions, (s.run (s.withoutFailures actions)).session = (s.run actions).session := by
  refine ⟨fun action haction hfailure => ?_, fun failure hanswer => ?_, ?_,
    fun failure hanswer => ?_, s.run_withoutFailures⟩
  · refine session_step_of_failure hfailure ?_
    simp only [questions, List.mem_cons, List.not_mem_nil, or_false] at haction
    rcases haction with rfl | rfl | rfl <;> rw [step, ask_of_some ht] <;> rfl
  · rw [step, ask_of_some ht] at hanswer ⊢
    obtain ⟨hopen, htraversal, hgraph⟩ := Traversal.next_of_failure (Answer.item.inj hanswer)
    refine ⟨hopen, ?_⟩
    simp only [Reply.map, htraversal, hgraph]
    rfl
  · rw [← Traversal.finish_fails_iff, step, ask_of_some ht]
    exact exists_congr fun failure => ⟨Answer.forest.inj, congrArg Answer.forest⟩
  · rw [step, ask_of_some ht] at hanswer ⊢
    simp only [Reply.map, Traversal.finish_of_failure (Answer.forest.inj hanswer)]
    rfl

/-- One of two traversals has handed out an edge and has one pending when a node
    is added. Whatever it is asked, it fails, and the only trace of this is that
    its stream has ended. -/
theorem failing_changes_nothing_of_addition :
    let s : Session Unit Int := reached .insertionOrder
      [.addNode (), .addNode (), .addNode (), .addEdge ⟨0⟩ ⟨1⟩ 3, .addEdge ⟨1⟩ ⟨2⟩ 5, .start,
        .start, .pull 0, .addNode ()]
    let t : Traversal Int := ⟨[], some ⟨⟨1⟩, ⟨2⟩, 5, 1⟩, #[⟨⟨0⟩, ⟨1⟩, 3, 0⟩], 5, false⟩
    s.traversals[0]? = some t ∧ (s.step (.pull 0)).session = s ∧
      (s.step (.finish 0)).answer = .forest (.error (.concurrentModification 5 6)) ∧
      (s.step (.finish 0)).session = s ∧
      (s.step (.finish 0)).notices = [.additionNoticed 5 6] ∧
      (s.run [.hasNext 0, .next 0, .pull 0, .pull 1, .finish 0]).session =
        { s with traversals := s.traversals.setIfInBounds 0 { t with fused := true } } := by
  intro s t
  have ht : s.traversals[0]? = some t := by cbv
  have hpull : (s.step (.pull 0)).answer.isFailure = true := by cbv
  have hfinish : (s.step (.finish 0)).answer = .forest (.error (.concurrentModification 5 6)) := by
    cbv
  have hnext : (s.step (.next 0)).answer = .item (some (.error (.concurrentModification 5 6))) := by
    cbv
  have hcount : s.graph.modificationCount = 6 := by cbv
  have hkept : s.withoutFailures [.hasNext 0, .next 0, .pull 0, .pull 1, .finish 0] =
      [.next 0] := by cbv
  obtain ⟨hquestions, hitem, -, hnotices, hrun⟩ := failing_changes_nothing ht
  have hreport := hnotices _ hfinish
  rw [hcount] at hreport
  refine ⟨ht, hquestions _ (by simp [questions]) hpull, hfinish,
    hquestions _ (by simp [questions]) (congrArg Answer.isFailure hfinish), hreport, ?_⟩
  rw [← hrun, hkept]
  exact (hitem _ hnext).2

end Session

end SpanForest
