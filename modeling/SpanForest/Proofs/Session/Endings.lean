import SpanForest.Proofs.Session.Additions
import SpanForest.Proofs.Session.Answers

/-! # The end of a traversal

    A traversal ends when its edges run out or when an addition is made, and
    neither can be undone: an examined edge is never examined again, and the
    modification count never goes down. So the first failure of a traversal is
    the end of its edges, whoever asks it in whatever way. Its stream tells of
    the end once and then stays empty.

    * **`Spent`**: the traversal has no edge to hand out, now or later.
    * **`Answer.isFailure`**: only a spent traversal fails.
    * **`FailsForGood`**: what has been answered since the first failure.
    * **`streamItems`**, **`Streamed`**: what a stream yields.
    * **`endings_are_final`**: the main result.
-/

namespace SpanForest

variable {α : Type u} {ω : Type v}

/-- The answer is a failure. -/
def Answer.isFailure : Answer ω → Bool
  | .available (.error _) | .pulled (.error _) | .item (some (.error _))
  | .forest (.error _) => true
  | _ => false

/-- The item of a stream that an answer is, if it is one. -/
def Answer.item? : Answer ω → Option (Option (Except Failure (Edge ω)))
  | .item result => some result
  | _ => none

/-! ## Spent traversals -/

namespace Traversal

variable {t t' : Traversal ω} {g g' : Graph α ω} {notices : List Notice} {e : Edge ω}
  {reply : Reply α ω (Answer ω)}

/-- No edge is pending, or there was an addition since the beginning. -/
def Spent (t : Traversal ω) (g : Graph α ω) : Prop :=
  t.pending = none ∨ t.expected < g.modificationCount

/-- A traversal that is not spent has an edge to hand out. -/
theorem spent_or_pending (hexpected : t.expected ≤ g.modificationCount) :
    Spent t g ∨ g.modificationCount = t.expected ∧ ∃ e, t.pending = some e := by
  unfold Spent
  cases he : t.pending with
  | none => exact .inl (.inl rfl)
  | some e =>
    rcases Nat.lt_or_eq_of_le hexpected with hlt | heq
    · exact .inl (.inr hlt)
    · exact .inr ⟨heq.symm, e, rfl⟩

theorem Turn.modificationCount_eq (h : t.Turn g notices t' g') :
    g'.modificationCount = g.modificationCount := by
  cases h <;> rfl

theorem Turn.spent (h : t.Turn g notices t' g') (hspent : Spent t g) :
    Spent t' g' ∧ t'.emitted = t.emitted := by
  cases h with
  | refuse _ => exact ⟨hspent, rfl⟩
  | fuse _ => exact ⟨hspent, rfl⟩
  | emit e hcurrent he =>
    -- Neither reason to be spent allows the traversal to hand out an edge.
    rcases hspent with hnone | hlt
    · rw [he] at hnone
      cases hnone
    · omega

theorem Turns.spent (h : t.Turns g notices t' g') (hspent : Spent t g) :
    Spent t' g' ∧ t'.emitted = t.emitted := by
  refine h.induction (fun t' g' => Spent t' g' ∧ t'.emitted = t.emitted) ?_ ⟨hspent, rfl⟩
  rintro t₁ t₂ g₁ g₂ notices hturn ⟨hspent, hemitted⟩
  obtain ⟨hspent', hemitted'⟩ := hturn.spent hspent
  exact ⟨hspent', hemitted'.trans hemitted⟩

theorem Turns.expected_le (h : t.Turns g notices t' g')
    (hexpected : t.expected ≤ g.modificationCount) : t'.expected ≤ g'.modificationCount := by
  refine h.induction (fun t g => t.expected ≤ g.modificationCount) ?_ hexpected
  intro t₁ t₂ g₁ g₂ notices hturn hle
  rw [hturn.expected_eq, hturn.modificationCount_eq]
  exact hle

/-- What a traversal has handed out stays on record. -/
theorem Turns.emitted_isPrefix (h : t.Turns g notices t' g') :
    t.emitted.toList <+: t'.emitted.toList := by
  refine h.induction (fun t' _ => t.emitted.toList <+: t'.emitted.toList) ?_ (List.prefix_refl _)
  intro t₁ t₂ g₁ g₂ notices hturn hprefix
  cases hturn with
  | refuse _ => exact hprefix
  | fuse _ => exact hprefix
  | emit e _ _ =>
    have hpushed : (t₁.emit g₁ e).traversal.emitted.toList = t₁.emitted.toList ++ [e] :=
      Array.toList_push
    rw [hpushed]
    exact hprefix.trans (List.prefix_append _ _)

/-- A stream that has ended stays so. -/
theorem Turns.fused (h : t.Turns g notices t' g') (hf : t'.fused = false) : t.fused = false := by
  by_contra hfused
  rw [Bool.not_eq_false] at hfused
  have hstays : t'.fused = true := by
    refine h.induction (fun t _ => t.fused = true) ?_ hfused
    intro t₁ t₂ g₁ g₂ notices hturn hf
    cases hturn with
    | refuse _ => exact hf
    | fuse _ => rfl
    | emit e _ _ => exact hf
  rw [hf] at hstays
  cases hstays

/-! ## Failures -/

theorem answer_finish_of_current (h : g.modificationCount = t.expected) :
    (t.finish g).answer =
      .ok (.ofEdges (t.drain g).traversal.emitted (t.drain g).graph.partition.size) := by
  simp only [finish, Reply.map, (drain_of_current h).1]
  rfl

/-- A traversal with an edge to hand out does not fail. -/
theorem Answers.not_isFailure (h : t.Answers g reply) (hcurrent : g.modificationCount = t.expected)
    (he : t.pending = some e) : reply.answer.isFailure = false := by
  cases h with
  | hasNext =>
    rw [hasNext_of_current hcurrent]
    rfl
  | pull =>
    rw [pull_of_pending hcurrent he]
    rfl
  | next =>
    cases hf : t.fused with
    | true =>
      rw [next_of_fused hf]
      rfl
    | false =>
      rw [next_of_pending hf hcurrent he]
      rfl
  | finish =>
    have hanswer := answer_finish_of_current hcurrent
    simp only [Reply.map, hanswer, Answer.isFailure]

theorem Answers.spent_of_isFailure (h : t.Answers g reply)
    (hexpected : t.expected ≤ g.modificationCount) (hfailure : reply.answer.isFailure = true) :
    Spent t g := by
  refine (spent_or_pending hexpected).resolve_right ?_
  rintro ⟨hcurrent, e, he⟩
  rw [h.not_isFailure hcurrent he] at hfailure
  cases hfailure

/-- An answer of a spent traversal adds nothing to what has been handed out. -/
theorem Answers.tally_of_spent (h : t.Answers g reply) (hspent : Spent t g) :
    reply.answer.tally t.emitted.toList = t.emitted.toList := by
  rw [← h.emitted, (h.turns.spent hspent).2]

/-- What a traversal has answered since its first failure. -/
structure FailsForGood (t : Traversal ω) (g : Graph α ω) (answers : List (Answer ω)) : Prop where
  /-- The modification count was never higher than now. -/
  expected_le : t.expected ≤ g.modificationCount
  /-- The answers account for the record of the traversal. -/
  emitted : t.emitted.toList = tallied answers
  /-- After a failure the traversal is spent, and has handed nothing out. -/
  spent : ∀ earlier failed afterwards, answers = earlier ++ failed :: afterwards →
    failed.isFailure = true → Spent t g ∧ tallied answers = tallied earlier ∧
      ∀ answer ∈ afterwards, answer.handedOut = []

theorem failsForGood_start [Ord ω] (g : Graph α ω) (number : Nat) :
    FailsForGood (start g) g [.traversal number] where
  expected_le := Nat.le_refl _
  emitted := rfl
  spent := by
    intro earlier failed afterwards hsplit hfailure
    have hmem : failed ∈ [Answer.traversal number] := by
      rw [hsplit]
      exact List.mem_append_right _ List.mem_cons_self
    obtain rfl := List.mem_singleton.1 hmem
    cases hfailure

namespace FailsForGood

variable {past : List (Answer ω)}

/-- Additions and the moves of others can only spend a traversal. -/
theorem mono (h : FailsForGood t g past) (hle : g.modificationCount ≤ g'.modificationCount) :
    FailsForGood t g' past where
  expected_le := h.expected_le.trans hle
  emitted := h.emitted
  spent := by
    intro earlier failed afterwards hsplit hfailure
    obtain ⟨hspent, hrest⟩ := h.spent earlier failed afterwards hsplit hfailure
    exact ⟨hspent.imp_right fun hlt => hlt.trans_le hle, hrest⟩

theorem answer (h : FailsForGood t g past) (hreply : t.Answers g reply) :
    FailsForGood reply.traversal reply.graph (past ++ [reply.answer]) where
  expected_le := hreply.turns.expected_le h.expected_le
  emitted := by rw [tallied_concat, ← h.emitted, hreply.emitted]
  spent := by
    -- What a spent traversal answers leaves the tally as it is.
    have hidle : Spent t g → Spent reply.traversal reply.graph ∧
        tallied (past ++ [reply.answer]) = tallied past ∧ reply.answer.handedOut = [] := by
      intro hspent
      have htally := hreply.tally_of_spent hspent
      refine ⟨(hreply.turns.spent hspent).1, ?_, Answer.handedOut_of_tally htally⟩
      rw [tallied_concat, ← h.emitted, htally]
    intro earlier failed afterwards hsplit hfailure
    rcases List.eq_nil_or_concat afterwards with rfl | ⟨between, last, rfl⟩
    -- Either this answer is the failure, or the failure came before it.
    · obtain ⟨rfl, hlast⟩ := List.append_inj' hsplit rfl
      obtain rfl := List.singleton_inj.1 hlast
      obtain ⟨hspent, htally, -⟩ := hidle (hreply.spent_of_isFailure h.expected_le hfailure)
      exact ⟨hspent, htally, fun answer hanswer => absurd hanswer List.not_mem_nil⟩
    · rw [List.concat_eq_append, ← List.cons_append, ← List.append_assoc] at hsplit
      obtain ⟨hpast, hlast⟩ := List.append_inj' hsplit rfl
      obtain rfl := List.singleton_inj.1 hlast
      obtain ⟨hspent, hbefore, hnone⟩ := h.spent earlier failed between hpast hfailure
      obtain ⟨hspent', htally, hidle⟩ := hidle hspent
      refine ⟨hspent', htally.trans hbefore, ?_⟩
      intro answer hanswer
      rw [List.concat_eq_append, List.mem_append, List.mem_singleton] at hanswer
      rcases hanswer with hanswer | rfl
      · exact hnone answer hanswer
      · exact hidle

end FailsForGood

/-! ## Streams -/

/-- A stream that yields the edges, then perhaps a refusal, and then nothing. -/
def streamItems (edges : List (Edge ω)) (refusal : Option (Nat × Nat)) (ends : Nat) :
    List (Option (Except Failure (Edge ω))) :=
  edges.map (fun e => some (.ok e))
    ++ refusal.toList.map (fun counts => some (.error (.concurrentModification counts.1 counts.2)))
    ++ List.replicate ends none

theorem streamItems_edge (edges : List (Edge ω)) (e : Edge ω) :
    streamItems edges none 0 ++ [some (.ok e)] = streamItems (edges ++ [e]) none 0 := by
  simp [streamItems]

theorem streamItems_refusal (edges : List (Edge ω)) (expected found : Nat) :
    streamItems edges none 0 ++ [some (.error (.concurrentModification expected found))] =
      streamItems edges (some (expected, found)) 0 := by
  simp [streamItems]

theorem streamItems_end (edges : List (Edge ω)) (refusal : Option (Nat × Nat)) (ends : Nat) :
    streamItems edges refusal ends ++ [none] = streamItems edges refusal (ends + 1) := by
  simp [streamItems, List.replicate_succ']

/-- What the stream of a traversal has yielded. -/
def Streamed (t : Traversal ω) (answers : List (Answer ω)) : Prop :=
  ∃ edges refusal ends, answers.filterMap Answer.item? = streamItems edges refusal ends ∧
    edges.Sublist t.emitted.toList ∧ (t.fused = false → refusal = none ∧ ends = 0)

namespace Streamed

variable {past : List (Answer ω)}

theorem start [Ord ω] (g : Graph α ω) (number : Nat) :
    Streamed (start g) [.traversal number] :=
  ⟨[], none, 0, rfl, List.nil_sublist _, fun _ => ⟨rfl, rfl⟩⟩

/-- Answers that are no items leave the stream as it is. -/
theorem other (h : Streamed t past) (hreply : t.Answers g reply)
    (hother : reply.answer.item? = none) :
    Streamed reply.traversal (past ++ [reply.answer]) := by
  obtain ⟨edges, refusal, ends, hitems, hsub, hopen⟩ := h
  refine ⟨edges, refusal, ends, ?_, ?_, ?_⟩
  · rw [List.filterMap_append, hitems, List.filterMap_cons_none hother]
    exact List.append_nil _
  · exact hsub.trans hreply.turns.emitted_isPrefix.sublist
  · intro hf
    exact hopen (hreply.turns.fused hf)

theorem next (h : Streamed t past) :
    Streamed (t.next g).traversal (past ++ [Answer.item (t.next g).answer]) := by
  obtain ⟨edges, refusal, ends, hitems, hsub, hopen⟩ := h
  have hlater : (past ++ [Answer.item (t.next g).answer]).filterMap Answer.item? =
      streamItems edges refusal ends ++ [(t.next g).answer] := by
    rw [List.filterMap_append, hitems]
    rfl
  unfold Streamed
  rw [hlater]
  refine t.next_cases g ?fused ?stale ?exhausted ?pending
  case fused =>
    intro hf
    refine ⟨edges, refusal, ends + 1, streamItems_end edges refusal ends, hsub, ?_⟩
    intro hopened
    rw [hf] at hopened
    cases hopened
  case stale =>
    intro hf _
    obtain ⟨rfl, rfl⟩ := hopen hf
    exact ⟨edges, _, 0, streamItems_refusal edges _ _, hsub, fun h => by cases h⟩
  case exhausted =>
    intro hf _ _
    obtain ⟨rfl, rfl⟩ := hopen hf
    exact ⟨edges, none, 1, streamItems_end edges none 0, hsub, fun h => by cases h⟩
  case pending =>
    intro e hf _ _
    obtain ⟨rfl, rfl⟩ := hopen hf
    refine ⟨edges ++ [e], none, 0, streamItems_edge edges e, ?_, fun _ => ⟨rfl, rfl⟩⟩
    have hpushed : (t.emit g e).traversal.emitted.toList = t.emitted.toList ++ [e] :=
      Array.toList_push
    show (edges ++ [e]).Sublist (t.emit g e).traversal.emitted.toList
    rw [hpushed]
    exact hsub.append_right [e]

theorem answer (h : Streamed t past) (hreply : t.Answers g reply) :
    Streamed reply.traversal (past ++ [reply.answer]) := by
  cases hreply with
  | hasNext => exact h.other .hasNext rfl
  | pull => exact h.other .pull rfl
  | next => exact h.next
  | finish => exact h.other .finish rfl

end Streamed

end Traversal

/-! ## Histories -/

namespace Session

variable [Ord ω] {s s' : Session α ω} {agent : Agent} {notices : List Notice}

/-- The modification count never goes down. -/
theorem Move.modificationCount_le (h : Move s agent notices s') (hs : s.graph.Lawful) :
    s.graph.modificationCount ≤ s'.graph.modificationCount := by
  have hcount := hs.count_eq
  cases h with
  | addNode data =>
    simp only [Graph.addNode, Graph.countModification]
    omega
  | addEdge first second weight =>
    simp only [Graph.addEdge, Graph.countModification]
    omega
  | turn _ hturn => exact hturn.modificationCount_eq.ge
  | _ => exact Nat.le_refl _

theorem exists_failsForGood (hs : s.graph.Lawful) (later : List (Action α ω)) :
    ∃ t, (s.run (.start :: later)).session.traversals[s.traversals.size]? = some t ∧
      Traversal.FailsForGood t (s.run (.start :: later)).session.graph
        (answersOf s.traversals.size s (.start :: later)) := by
  refine answers_induction_start Traversal.FailsForGood ?_ ?_ later hs ?_
  · intro t g reply past _ hreply h
    exact h.answer hreply
  · intro s s' agent notices t past hlawful hmove h
    exact h.mono (hmove.modificationCount_le hlawful)
  · exact Traversal.failsForGood_start s.graph _

theorem exists_streamed (hs : s.graph.Lawful) (later : List (Action α ω)) :
    ∃ t, (s.run (.start :: later)).session.traversals[s.traversals.size]? = some t ∧
      Traversal.Streamed t (answersOf s.traversals.size s (.start :: later)) := by
  refine answers_induction_start (fun t _ past => Traversal.Streamed t past) ?_ ?_ later hs ?_
  · intro t g reply past _ hreply h
    exact h.answer hreply
  · intro s s' agent notices t past _ _ h
    exact h
  · exact Traversal.Streamed.start s.graph _

/-- A traversal hands out its edges in the order of examination. -/
theorem emitted_ascending [Std.TransOrd ω] {t : Traversal ω} {later : List (Action α ω)}
    (hs : s.graph.Lawful)
    (ht : (s.run (.start :: later)).session.traversals[s.traversals.size]? = some t) :
    t.emitted.toList.Pairwise fun a b => a.compareUnder s.graph.tieBreak b = .lt := by
  obtain ⟨t', ht', verdicts, hexamined⟩ := exists_examined hs later
  obtain rfl := Option.some.inj (ht.symm.trans ht')
  have hall := hs.arranged.ascending
  rw [hexamined.split] at hall
  rw [hexamined.accepted]
  refine hall.sublist ((List.Sublist.map _ List.filter_sublist).trans ?_)
  exact List.sublist_append_left _ _

/-! ## The main result -/

/-- Whatever happens in a session after a traversal has begun, no edge is handed
    out after its first failure, neither by an answer nor in a forest. Its
    stream yields edges in strictly ascending order, then perhaps a refusal
    because of an addition, and then nothing for good. -/
theorem endings_are_final [Std.TransOrd ω] {tieBreak : TieBreak}
    {history later : List (Action α ω)} {number : Nat} {answers : List (Answer ω)}
    (hs : s = reached tieBreak history) (hnumber : number = s.traversals.size)
    (hanswers : answers = answersOf number s (.start :: later)) :
    (∀ earlier failed afterwards, answers = earlier ++ failed :: afterwards →
      failed.isFailure = true →
        (∀ answer ∈ afterwards, answer.handedOut = []) ∧ tallied answers = tallied earlier) ∧
    ∃ edges refusal ends, answers.filterMap Answer.item? =
        Traversal.streamItems edges refusal ends ∧
      edges.Pairwise fun a b => a.compareUnder tieBreak b = .lt := by
  have hlawful : s.graph.Lawful := hs ▸ lawful_reached tieBreak history
  have htie : s.graph.tieBreak = tieBreak := hs ▸ tieBreak_reached tieBreak history
  subst hnumber
  refine ⟨?_, ?_⟩
  · obtain ⟨t, -, hfails⟩ := exists_failsForGood hlawful later
    rw [← hanswers] at hfails
    intro earlier failed afterwards hsplit hfailure
    obtain ⟨-, htally, hnone⟩ := hfails.spent earlier failed afterwards hsplit hfailure
    exact ⟨hnone, htally⟩
  · obtain ⟨t, ht, edges, refusal, ends, hitems, hsub, -⟩ := exists_streamed hlawful later
    rw [← hanswers] at hitems
    have hascending := emitted_ascending hlawful ht
    rw [htie] at hascending
    exact ⟨edges, refusal, ends, hitems, hascending.sublist hsub⟩

/-- An addition ends the stream of a traversal that has an edge left; the next
    item tells of it, and neither the stream nor a pull yields anything more. -/
theorem endings_are_final_of_addition :
    let s : Session Unit Int := reached .latestFirst
      [.addNode (), .addNode (), .addNode (), .addEdge ⟨0⟩ ⟨1⟩ 5, .addEdge ⟨1⟩ ⟨2⟩ 5]
    let actions : List (Action Unit Int) :=
      [.start, .next 0, .union ⟨0⟩ ⟨2⟩, .addNode (), .next 0, .next 0, .pull 0, .finish 0]
    answersOf 0 s actions = [.traversal 0, .item (some (.ok ⟨⟨1⟩, ⟨2⟩, 5, 1⟩))] ++
        .item (some (.error (.concurrentModification 5 6))) ::
          [.item none, .pulled (.error (.concurrentModification 5 6)),
            .forest (.error (.concurrentModification 5 6))] ∧
      tallied (answersOf 0 s actions) = [⟨⟨1⟩, ⟨2⟩, 5, 1⟩] ∧
      ∃ edges refusal ends, (answersOf 0 s actions).filterMap Answer.item? =
          Traversal.streamItems edges refusal ends ∧
        edges.Pairwise fun a b => a.compareUnder .latestFirst b = .lt := by
  intro s actions
  have hsplit : answersOf 0 s actions = [.traversal 0, .item (some (.ok ⟨⟨1⟩, ⟨2⟩, 5, 1⟩))] ++
      .item (some (.error (.concurrentModification 5 6))) ::
        [.item none, .pulled (.error (.concurrentModification 5 6)),
          .forest (.error (.concurrentModification 5 6))] := by cbv
  have hanswers : answersOf 0 s actions = answersOf 0 s (.start ::
      [.next 0, .union ⟨0⟩ ⟨2⟩, .addNode (), .next 0, .next 0, .pull 0, .finish 0]) := rfl
  obtain ⟨hfinal, hstream⟩ := endings_are_final (s := s) rfl rfl hanswers
  exact ⟨hsplit, (hfinal _ _ _ hsplit rfl).2, hstream⟩

end Session

end SpanForest
