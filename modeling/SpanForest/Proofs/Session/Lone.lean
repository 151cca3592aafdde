import SpanForest.Proofs.Selection.Sequential
import SpanForest.Proofs.Session.Moves
import SpanForest.Proofs.Traversal.Alone

/-! # Using one traversal and nothing else

    A traversal is begun in a session with any past, and from then on only
    this traversal is used. Then it hands out what sequential selection keeps
    of the edges, in the same order, however it is asked.

    * **`Action.asks`**: the questions to one traversal, short of finishing it.
    * **`Answer.handedOut`**: the edges that answers hand out.
    * **`Follows`**: where a traversal stands in a list of edges, and what it
      answers there.
    * **`alone_run`**: questions keep a traversal alone, and account for every
      edge.
    * **`lone_follows_selection`**: the main result.
-/

namespace SpanForest

variable {α : Type u} {ω : Type v}

/-! ## Questions and answers -/

/-- The action asks the traversal of this number, and does not finish it. -/
def Action.asks (number : Nat) : Action α ω → Bool
  | .hasNext n | .pull n | .next n => n == number
  | _ => false

/-- The edge that an answer to a question hands out, if it does. -/
def Answer.handedOut : Answer ω → List (Edge ω)
  | .pulled (.ok e) | .item (some (.ok e)) => [e]
  | _ => []

namespace Traversal

variable {t : Traversal ω} {g : Graph α ω}

/-! ## Accounting for edges -/

theorem emitted_hasNext : (t.hasNext g).traversal.emitted = t.emitted := by
  by_cases h : g.modificationCount = t.expected
  · rw [hasNext_of_current h]
  · rw [hasNext_of_stale h]
    rfl

theorem emitted_pull : (t.pull g).traversal.emitted.toList =
    t.emitted.toList ++ (Answer.pulled (t.pull g).answer).handedOut := by
  refine t.pull_cases g ?stale ?exhausted ?pending
  case stale =>
    intro _
    exact (List.append_nil _).symm
  case exhausted =>
    intro _ _
    exact (List.append_nil _).symm
  case pending =>
    intro e _ _
    exact Array.toList_push

theorem emitted_next : (t.next g).traversal.emitted.toList =
    t.emitted.toList ++ (Answer.item (t.next g).answer).handedOut := by
  refine t.next_cases g ?fused ?stale ?exhausted ?pending
  case fused =>
    intro _
    exact (List.append_nil _).symm
  case stale =>
    intro _ _
    exact (List.append_nil _).symm
  case exhausted =>
    intro _ _ _
    exact (List.append_nil _).symm
  case pending =>
    intro e _ _ _
    exact Array.toList_push

end Traversal

namespace Session

variable {s : Session α ω} {t : Traversal ω} {number : Nat} {action : Action α ω}
  {p : Partition} {order : List (Edge ω)}

/-! ## Staying alone -/

variable [Ord ω]

/-- A question keeps a traversal alone and accounts for the edge handed out. -/
theorem alone_step (hask : action.asks number = true) (ht : s.traversals[number]? = some t)
    (h : Traversal.Alone p order t s.graph) :
    ∃ t', (s.step action).session.traversals[number]? = some t' ∧
      Traversal.Alone p order t' (s.step action).session.graph ∧
      t'.emitted.toList = t.emitted.toList ++ (s.step action).answer.handedOut := by
  cases action with
  | hasNext n =>
    obtain rfl := beq_iff_eq.1 hask
    rw [step, ask_of_some ht]
    refine ⟨_, getElem?_setIfInBounds_self ht _, h.turns (t.hasNext_turns s.graph), ?_⟩
    exact (congrArg Array.toList Traversal.emitted_hasNext).trans (List.append_nil _).symm
  | pull n =>
    obtain rfl := beq_iff_eq.1 hask
    rw [step, ask_of_some ht]
    exact ⟨_, getElem?_setIfInBounds_self ht _, h.turns (t.pull_turns s.graph),
      Traversal.emitted_pull⟩
  | next n =>
    obtain rfl := beq_iff_eq.1 hask
    rw [step, ask_of_some ht]
    exact ⟨_, getElem?_setIfInBounds_self ht _, h.turns (t.next_turns s.graph),
      Traversal.emitted_next⟩
  | _ => exact absurd hask Bool.false_ne_true

theorem alone_run {uses : List (Action α ω)} (hask : ∀ action ∈ uses, action.asks number = true)
    (ht : s.traversals[number]? = some t) (h : Traversal.Alone p order t s.graph) :
    ∃ t', (s.run uses).session.traversals[number]? = some t' ∧
      Traversal.Alone p order t' (s.run uses).session.graph ∧
      t'.emitted.toList =
        t.emitted.toList ++ (s.run uses).answer.flatMap Answer.handedOut := by
  induction uses generalizing s t with
  | nil => exact ⟨t, ht, h, (List.append_nil _).symm⟩
  | cons action rest ih =>
    obtain ⟨t₁, ht₁, h₁, hemitted₁⟩ := alone_step (hask action List.mem_cons_self) ht h
    obtain ⟨t', ht', h', hemitted⟩ :=
      ih (fun a ha => hask a (List.mem_cons_of_mem action ha)) ht₁ h₁
    refine ⟨t', ht', h', ?_⟩
    rw [hemitted, hemitted₁, List.append_assoc]
    rfl

/-! ## What a traversal answers when it is alone -/

/-- A traversal has handed out the beginning of a list of edges, and any
    question is answered by what comes next in this list. -/
structure Follows (s : Session α ω) (number : Nat) (handed reference : List (Edge ω)) :
    Prop where
  /-- The list begins with what was handed out. -/
  handed_isPrefix : handed <+: reference
  /-- There is a next edge when the list is longer. -/
  answer_hasNext : (s.step (.hasNext number)).answer =
    .available (.ok (decide (handed.length < reference.length)))
  /-- The next edge is that of the list. -/
  answer_pull : (s.step (.pull number)).answer = .pulled
    (match reference[handed.length]? with
      | some e => .ok e
      | none => .error .exhausted)
  /-- The next item is the next edge, until the list ends. -/
  answer_next : (s.step (.next number)).answer = .item (reference[handed.length]?.map .ok)
  /-- Finishing sums up the whole list. -/
  answer_finish : ∃ forest, (s.step (.finish number)).answer = .forest (.ok forest) ∧
    forest.edges.toList = reference

theorem follows_of_alone (ht : s.traversals[number]? = some t)
    (h : Traversal.Alone p order t s.graph) :
    s.Follows number t.emitted.toList (p.sift order) where
  handed_isPrefix := h.emitted_isPrefix
  answer_hasNext := by
    have hmore : t.pending.isSome = decide (t.emitted.toList.length < (p.sift order).length) := by
      rw [← h.next_kept, Bool.eq_iff_iff]
      simp
    rw [step, ask_of_some ht, Traversal.hasNext_of_current h.current, ← hmore]
    rfl
  answer_pull := by
    rw [step, ask_of_some ht, h.next_kept]
    cases he : t.pending with
    | none => rw [Traversal.pull_of_exhausted h.current he]; rfl
    | some e => rw [Traversal.pull_of_pending h.current he]; rfl
  answer_next := by
    rw [step, ask_of_some ht, h.next_kept]
    cases hf : t.fused with
    | true =>
      rw [Traversal.next_of_fused hf, h.fused_ended hf]
      rfl
    | false =>
      cases he : t.pending with
      | none => rw [Traversal.next_of_exhausted hf h.current he]; rfl
      | some e => rw [Traversal.next_of_pending hf h.current he]; rfl
  answer_finish := by
    obtain ⟨forest, hanswer, hedges⟩ := h.answer_finish
    refine ⟨forest, ?_, hedges⟩
    rw [step, ask_of_some ht]
    exact congrArg Answer.forest hanswer

/-! ## The main result -/

/-- Whatever has happened in a session, a traversal that is begun and then
    used alone hands out the sequential selection of the edges by weight and
    tie-break, in its order, and says when there are no more. -/
theorem lone_follows_selection [Std.TransOrd ω] {tieBreak : TieBreak}
    {history uses : List (Action α ω)} (hs : s = reached tieBreak history)
    (huses : ∀ action ∈ uses, action.asks s.traversals.size = true) :
    ∃ order, Arranged tieBreak s.graph.edges.toList order ∧
      ((s.step .start).session.run uses).session.Follows s.traversals.size
        (((s.step .start).session.run uses).answer.flatMap Answer.handedOut)
        (s.graph.selection order) := by
  have hlawful : s.graph.Lawful := hs ▸ lawful_reached tieBreak history
  have htie : s.graph.tieBreak = tieBreak := hs ▸ tieBreak_reached tieBreak history
  have hbegun : (s.step .start).session.traversals[s.traversals.size]? = some (.start s.graph) :=
    Array.getElem?_push_size
  have hstart := Traversal.alone_start s.graph
  obtain ⟨t, ht, halone, hemitted⟩ := alone_run huses hbegun hstart
  -- It began with nothing emitted, so the answers account for all of it.
  have hhanded : t.emitted.toList =
      ((s.step .start).session.run uses).answer.flatMap Answer.handedOut := hemitted
  refine ⟨_, htie ▸ hlawful.arranged, ?_⟩
  rw [hlawful.selection_eq_sift, ← hhanded, ← htie]
  exact follows_of_alone ht halone

/-- Of two parallel edges the lighter one is handed out first. -/
theorem lone_follows_selection_of_parallel_edges :
    let s : Session Unit Int := reached .latestFirst
      [.addNode (), .addNode (), .addEdge ⟨0⟩ ⟨1⟩ 7, .addEdge ⟨1⟩ ⟨0⟩ (-3)]
    ∃ order, Arranged .latestFirst s.graph.edges.toList order ∧
      ((s.step .start).session.run [.hasNext 0, .pull 0]).session.Follows 0
        [⟨⟨1⟩, ⟨0⟩, -3, 1⟩] (s.graph.selection order) := by
  intro s
  have huses : ∀ action ∈ [Action.hasNext 0, .pull 0],
      Action.asks (α := Unit) (ω := Int) s.traversals.size action = true := by decide
  have hhanded : ((s.step .start).session.run [.hasNext 0, .pull 0]).answer.flatMap
      Answer.handedOut = [⟨⟨1⟩, ⟨0⟩, -3, 1⟩] := by cbv
  have hfollows := lone_follows_selection rfl huses
  rwa [hhanded] at hfollows

end Session

end SpanForest
