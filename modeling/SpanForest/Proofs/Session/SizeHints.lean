import SpanForest.Proofs.Session.Failures

/-! # How long a stream goes on

    A traversal tells how many items its stream still has, at least and at most.
    Whatever others do meanwhile, the least number is right, and no more edges
    come than the greatest number allows. But a refusal may come on top of the
    edges, and the greatest number leaves room for it only when an edge is
    skipped or when there are no edges at all.

    * **`Action.keepsToStream`**: the actions that take nothing from a traversal
      but through its stream.
    * **`Yields`**: what a stream has yielded, and what it can still yield.
    * **`HasYielded.next`**, **`hasYielded_run`**: how this changes with the next
      item, and in the course of a history.
    * **`sizeHint_bounds_stream`**: the main result.
    * **`sizeHint_misses_refusal`**: the greatest number can be too small.
-/

namespace SpanForest

variable {α : Type u} {ω : Type v}

/-- The action does not make the traversal of this number hand out an edge,
    unless it asks for the next item of its stream. -/
def Action.keepsToStream (number : Nat) : Action α ω → Bool
  | .pull n | .finish n => n != number
  | _ => true

namespace Traversal

variable {origin t : Traversal ω} {g : Graph α ω} {edges : List (Edge ω)}
  {refusal : Option (Nat × Nat)} {ends : Nat} {items : List (Option (Except Failure (Edge ω)))}

/-! ## What a stream has yielded -/

/-- Since the traversal was as `origin`, its stream has yielded these edges, then
    perhaps a refusal, and then nothing so many times. -/
structure Yields (origin t : Traversal ω) (edges : List (Edge ω)) (refusal : Option (Nat × Nat))
    (ends : Nat) : Prop where
  /-- The edges were left at the beginning, before those that are left now. -/
  left : (edges ++ t.unexamined).Sublist origin.unexamined
  /-- A stream that goes on has yielded edges only, the pending one first. -/
  opened : t.fused = false → origin.fused = false ∧ refusal = none ∧ ends = 0 ∧
    (edges = [] → t.pending = origin.pending)
  /-- A stream that has ended has yielded an item if an edge was pending. -/
  ended : t.fused = true → origin.sizeHint.1 ≤ edges.length + refusal.toList.length
  /-- A stream that had ended before yields no item. -/
  exhausted : origin.fused = true → edges = [] ∧ refusal = none

/-- Since the traversal was as `origin`, its stream has yielded these items. -/
def HasYielded (origin t : Traversal ω) (items : List (Option (Except Failure (Edge ω)))) : Prop :=
  ∃ edges refusal ends, items = streamItems edges refusal ends ∧
    Yields origin t edges refusal ends

theorem sizeHint_of_fused (h : t.fused = true) : t.sizeHint = (0, 0) := if_pos h

theorem sizeHint_of_not_fused (h : t.fused = false) :
    t.sizeHint = (if t.pending.isSome then 1 else 0, max t.remaining 1) := by
  rw [sizeHint, h]
  rfl

theorem sizeHint_le_one (t : Traversal ω) : t.sizeHint.1 ≤ 1 := by
  cases h : t.fused with
  | true => simp [sizeHint_of_fused h]
  | false =>
    rw [sizeHint_of_not_fused h]
    dsimp only
    split <;> omega

theorem hasYielded_refl (t : Traversal ω) : HasYielded t t [] := by
  refine ⟨[], none, 0, rfl, List.Sublist.refl _, fun h => ⟨h, rfl, rfl, fun _ => rfl⟩, ?_,
    fun _ => ⟨rfl, rfl⟩⟩
  intro h
  simp [sizeHint_of_fused h]

namespace Yields

/-- After nothing at all, the stream still begins with its pending edge. -/
theorem sizeHint_le_length (h : Yields origin t edges refusal ends) (hf : t.fused = false)
    (he : t.pending = none) : origin.sizeHint.1 ≤ edges.length := by
  obtain ⟨horigin, -, -, hpending⟩ := h.opened hf
  cases edges with
  | nil => simp [sizeHint_of_not_fused horigin, ← hpending rfl, he]
  | cons e rest =>
    have hone := origin.sizeHint_le_one
    rw [List.length_cons]
    omega

theorem fuse (h : Yields origin t edges refusal ends) {refusal' : Option (Nat × Nat)} {ends' : Nat}
    (hf : t.fused = false) (hleast : origin.sizeHint.1 ≤ edges.length + refusal'.toList.length) :
    Yields origin t.fuse edges refusal' ends' where
  left := h.left
  opened := fun hfused => by cases hfused
  ended := fun _ => hleast
  exhausted := by
    intro horigin
    rw [(h.opened hf).1] at horigin
    cases horigin

theorem emit (h : Yields origin t edges refusal ends) (hf : t.fused = false) {e : Edge ω}
    (he : t.pending = some e) :
    Yields origin (t.emit g e).traversal (edges ++ [e]) none 0 where
  left := by
    -- What is skipped behind the edge is not left any more.
    have hqueue := { t with emitted := t.emitted.push e }.queue_eq_advance
      (g.union e.first e.second).partition
    have hrest : (t.emit g e).traversal.unexamined.Sublist t.queue := by
      rw [show t.queue = _ from hqueue]
      exact List.sublist_append_right _ _
    have hleft := h.left
    rw [unexamined, he] at hleft
    rw [List.append_assoc]
    exact ((hrest.cons_cons e).append_left edges).trans hleft
  opened := fun _ => ⟨(h.opened hf).1, rfl, rfl, fun hnil => by simp at hnil⟩
  ended := by
    intro hfused
    rw [show t.fused = true from hfused] at hf
    cases hf
  exhausted := by
    intro horigin
    rw [(h.opened hf).1] at horigin
    cases horigin

end Yields

/-- The next item keeps the account of the stream. -/
theorem HasYielded.next (h : HasYielded origin t items) (g : Graph α ω) :
    HasYielded origin (t.next g).traversal (items ++ [(t.next g).answer]) := by
  obtain ⟨edges, refusal, ends, rfl, hyields⟩ := h
  refine t.next_cases g ?fused ?stale ?exhausted ?pending
  case fused =>
    intro hf
    refine ⟨edges, refusal, ends + 1, streamItems_end edges refusal ends, hyields.left, ?_,
      hyields.ended, hyields.exhausted⟩
    intro hopen
    rw [hf] at hopen
    cases hopen
  case stale =>
    intro hf _
    obtain ⟨-, rfl, rfl, -⟩ := hyields.opened hf
    refine ⟨edges, some _, 0, streamItems_refusal edges _ _, hyields.fuse hf ?_⟩
    -- The refusal is itself the item that was promised at least.
    have hone := origin.sizeHint_le_one
    rw [Option.toList_some, List.length_singleton]
    omega
  case exhausted =>
    intro hf _ he
    obtain ⟨-, rfl, rfl, -⟩ := hyields.opened hf
    exact ⟨edges, none, 1, streamItems_end edges none 0,
      hyields.fuse hf (hyields.sizeHint_le_length hf he)⟩
  case pending =>
    intro e hf _ he
    obtain ⟨-, rfl, rfl, -⟩ := hyields.opened hf
    exact ⟨edges ++ [e], none, 0, streamItems_edge edges e, hyields.emit hf he⟩

/-! ## The numbers -/

section bounds

variable (h : Yields origin t edges refusal ends)
include h

theorem Yields.sublist : edges.Sublist origin.unexamined :=
  (List.sublist_append_left _ _).trans h.left

theorem Yields.length_le : edges.length ≤ origin.sizeHint.2 := by
  cases hf : origin.fused with
  | true =>
    rw [(h.exhausted hf).1]
    exact Nat.zero_le _
  | false =>
    have hle := h.sublist.length_le
    rw [length_unexamined] at hle
    rw [sizeHint_of_not_fused hf]
    exact hle.trans (le_max_left _ _)

/-- There is one item too many exactly when a refusal comes on top of all the
    edges that were left. -/
theorem Yields.sizeHint_lt_iff : origin.sizeHint.2 < edges.length + refusal.toList.length ↔
    edges = origin.unexamined ∧ edges ≠ [] ∧ refusal.isSome = true := by
  cases hf : origin.fused with
  | true =>
    obtain ⟨rfl, rfl⟩ := h.exhausted hf
    simp
  | false =>
    have hle := h.sublist.length_le
    have hcount := origin.length_unexamined
    -- What has come is part of what was left, so it is all when there is as much.
    have hall : edges = origin.unexamined ↔ origin.remaining ≤ edges.length := by
      rw [← hcount]
      exact ⟨fun heq => (congrArg List.length heq).ge, h.sublist.eq_of_length_le⟩
    rw [sizeHint_of_not_fused hf, hall, List.ne_nil_iff_length_pos]
    cases refusal with
    | none =>
      simp only [Option.toList_none, List.length_nil, Option.isSome_none, Bool.false_eq_true,
        and_false, iff_false]
      omega
    | some counts =>
      simp only [Option.toList_some, List.length_singleton, Option.isSome_some, and_true]
      omega

end bounds

end Traversal

/-! ## Histories -/

namespace Session

variable {s : Session α ω} {t origin : Traversal ω} {number : Nat} {action : Action α ω}
  {after : List (Action α ω)} {items : List (Option (Except Failure (Edge ω)))}

/-- Only two of the questions to a traversal keep to its stream. -/
theorem eq_of_keepsToStream (haction : action.keepsToStream number = true)
    (hown : s.agent action = .traversal number) (ht : s.traversals[number]? = some t) :
    action = .hasNext number ∨ action = .next number := by
  obtain rfl | rfl | rfl | rfl := question_of_agent hown ht
  · exact .inl rfl
  · simp [Action.keepsToStream] at haction
  · exact .inr rfl
  · simp [Action.keepsToStream] at haction

variable [Ord ω]

/-- An action keeps the account of a stream. -/
theorem hasYielded_step (haction : action.keepsToStream number = true)
    (ht : s.traversals[number]? = some t) (h : Traversal.HasYielded origin t items) :
    ∃ t', (s.step action).session.traversals[number]? = some t' ∧
      Traversal.HasYielded origin t'
        (items ++ (answersOf number s [action]).filterMap Answer.item?) := by
  rw [answersOf, answersOf, List.append_nil]
  by_cases hown : s.agent action = .traversal number
  · rw [if_pos hown]
    obtain rfl | rfl := eq_of_keepsToStream haction hown ht
    · rw [step, ask_of_some ht]
      refine ⟨_, getElem?_setIfInBounds_self ht _, ?_⟩
      rw [show ((t.hasNext s.graph).map Answer.available).traversal = t from
        (t.hasNext_unchanged s.graph).1]
      rwa [List.filterMap_cons_none rfl, List.filterMap_nil, List.append_nil]
    · rw [step, ask_of_some ht]
      exact ⟨_, getElem?_setIfInBounds_self ht _, h.next s.graph⟩
  · rw [if_neg hown, List.filterMap_nil, List.append_nil]
    exact ⟨t, (s.step_moves action).getElem?_traversals hown ht, h⟩

/-- Whatever happens to the graph and to other traversals, the account of a
    stream is kept. -/
theorem hasYielded_run (hafter : ∀ action ∈ after, action.keepsToStream number = true)
    (ht : s.traversals[number]? = some t) (h : Traversal.HasYielded origin t items) :
    ∃ t', (s.run after).session.traversals[number]? = some t' ∧
      Traversal.HasYielded origin t'
        (items ++ (answersOf number s after).filterMap Answer.item?) := by
  induction after generalizing s t items with
  | nil => exact ⟨t, ht, by simpa [answersOf] using h⟩
  | cons action rest ih =>
    obtain ⟨t₁, ht₁, h₁⟩ := hasYielded_step (hafter action List.mem_cons_self) ht h
    obtain ⟨t', ht', h'⟩ := ih (fun a ha => hafter a (List.mem_cons_of_mem action ha)) ht₁ h₁
    refine ⟨t', ht', ?_⟩
    have hanswers : answersOf number s (action :: rest) =
        answersOf number s [action] ++ answersOf number (s.step action).session rest := by
      simp [answersOf]
    rwa [hanswers, List.filterMap_append, ← List.append_assoc]

/-! ## The main result -/

/-- From any moment on, let a traversal hand out edges through its stream only,
    while anything else may happen. The stream yields edges, which are among
    those left at that moment and no more than its greatest number, then perhaps
    a refusal, and then nothing. When nothing comes, at least the least number
    of items have come. There are more items than the greatest number exactly
    when all the edges that were left have come, at least one, and a refusal
    after them. -/
theorem sizeHint_bounds_stream (ht : s.traversals[number]? = some t)
    (hafter : ∀ action ∈ after, action.keepsToStream number = true) :
    ∃ edges refusal ends,
      (answersOf number s after).filterMap Answer.item? =
        Traversal.streamItems edges refusal ends ∧
      edges.Sublist t.unexamined ∧ edges.length ≤ t.sizeHint.2 ∧
      (0 < ends → t.sizeHint.1 ≤ edges.length + refusal.toList.length) ∧
      (t.sizeHint.2 < edges.length + refusal.toList.length ↔
        edges = t.unexamined ∧ edges ≠ [] ∧ refusal.isSome = true) := by
  obtain ⟨t', -, edges, refusal, ends, hitems, hyields⟩ :=
    hasYielded_run hafter ht t.hasYielded_refl
  refine ⟨edges, refusal, ends, hitems, hyields.sublist, hyields.length_le, fun hends => ?_,
    hyields.sizeHint_lt_iff⟩
  apply hyields.ended
  -- As long as a stream goes on, it has not yielded nothing.
  by_contra hopen
  obtain ⟨-, -, hnone, -⟩ := hyields.opened (Bool.eq_false_iff.2 hopen)
  omega

/-- Three edges are left, and the last of them is skipped when another connects
    its endpoints: two edges and a refusal come, which are three items. -/
theorem sizeHint_bounds_stream_of_skipped_edge :
    let s : Session Unit Int := reached .insertionOrder
      [.addNode (), .addNode (), .addNode (), .addEdge ⟨0⟩ ⟨1⟩ 3, .addEdge ⟨1⟩ ⟨2⟩ 5,
        .addEdge ⟨0⟩ ⟨2⟩ 7, .start]
    let t : Traversal Int :=
      ⟨[⟨⟨1⟩, ⟨2⟩, 5, 1⟩, ⟨⟨0⟩, ⟨2⟩, 7, 2⟩], some ⟨⟨0⟩, ⟨1⟩, 3, 0⟩, #[], 6, false⟩
    let after : List (Action Unit Int) :=
      [.next 0, .union ⟨0⟩ ⟨2⟩, .next 0, .addNode (), .next 0, .next 0]
    s.traversals[0]? = some t ∧ t.sizeHint = (1, 3) ∧
      (answersOf 0 s after).filterMap Answer.item? =
        Traversal.streamItems [⟨⟨0⟩, ⟨1⟩, 3, 0⟩, ⟨⟨1⟩, ⟨2⟩, 5, 1⟩] (some (6, 7)) 1 ∧
      ∃ edges refusal ends,
        (answersOf 0 s after).filterMap Answer.item? =
          Traversal.streamItems edges refusal ends ∧
        edges.Sublist t.unexamined ∧ edges.length ≤ 3 ∧
        (0 < ends → 1 ≤ edges.length + refusal.toList.length) ∧
        (3 < edges.length + refusal.toList.length ↔
          edges = t.unexamined ∧ edges ≠ [] ∧ refusal.isSome = true) := by
  intro s t after
  have ht : s.traversals[0]? = some t := by cbv
  have hafter : ∀ action ∈ after, action.keepsToStream 0 = true := by
    simp [after, Action.keepsToStream]
  have hhint : t.sizeHint = (1, 3) := by cbv
  have hbounds := sizeHint_bounds_stream ht hafter
  rw [hhint] at hbounds
  exact ⟨ht, hhint, by cbv, hbounds⟩

/-- One edge is left, and the greatest number of items is one, but two items
    come: the edge, and a refusal after an addition. -/
theorem sizeHint_misses_refusal :
    let s : Session Unit Int := reached .insertionOrder
      [.addNode (), .addNode (), .addEdge ⟨0⟩ ⟨1⟩ 1, .start]
    let after : List (Action Unit Int) := [.next 0, .addNode (), .next 0, .next 0]
    ∃ (t : Traversal Int) (items : List (Except Failure (Edge Int))),
      s.traversals[0]? = some t ∧ (∀ action ∈ after, action.keepsToStream 0 = true) ∧
      (answersOf 0 s after).filterMap Answer.item? = List.map some items ++ [none] ∧
      t.sizeHint = (1, 1) ∧ items.length = 2 ∧ ¬ items.length ≤ t.sizeHint.2 := by
  refine ⟨⟨[], some ⟨⟨0⟩, ⟨1⟩, 1, 0⟩, #[], 3, false⟩,
    [.ok ⟨⟨0⟩, ⟨1⟩, 1, 0⟩, .error (.concurrentModification 3 4)], by cbv, ?_, by cbv, by cbv,
    by cbv, by cbv⟩
  simp [Action.keepsToStream]

end Session

end SpanForest
