import SpanForest.Proofs.Session.Examination
import SpanForest.Proofs.Total.Sums

/-! # Totals of forests

    Whatever happens in a session, each traversal goes from lighter edges to
    heavier ones. So the weights of a forest are added up in ascending order,
    and a total that is taken in words of a fixed size fails in one of two
    places: where the negative weights end, or at the last weight.

    * **`Traversal.Ascends`**: no edge of a traversal is lighter than an edge
      before it, from the first one handed out to the last one in the queue.
    * **`Turn.ascends`**: every turn keeps this, so that **`ascends_reached`**
      finds it in every session.
    * **`Ascends.weights_finish`**: hence the weights of a forest ascend.
    * **`finished_total`**: the main result.
-/

namespace SpanForest

variable {α : Type u} {ω : Type v}

/-! ## Edges in order of weight -/

namespace Traversal

variable [Ord ω] {t t' : Traversal ω} {g g' : Graph α ω} {notices : List Notice}

/-- The edges that were handed out and those that are left are in order of
    weight. -/
def Ascends (t : Traversal ω) : Prop :=
  (t.emitted.toList ++ t.unexamined).Pairwise Edge.NotHeavier

theorem ascends_start [Std.TransOrd ω] (g : Graph α ω) : (start g).Ascends := by
  have horder := (pairwise_arrange g.tieBreak g.edges.toList).imp Edge.notHeavier_of_compareUnder
  -- Nothing has been handed out, and what is left is the end of the order.
  have hleft : (start g).unexamined <:+ g.tieBreak.arrange g.edges.toList :=
    ⟨_, ((prepare g).queue_eq_skips g.partition).symm⟩
  exact horder.sublist hleft.sublist

/-- A turn hands out some of the edges that were left and passes over others. -/
theorem Turn.ascends (hturn : t.Turn g notices t' g') (h : t.Ascends) : t'.Ascends := by
  obtain ⟨fresh, hpasses, -⟩ := hturn.passes
  have haccepted : ((fresh.filter Verdict.accepted).map Verdict.edge).Sublist
      (fresh.map Verdict.edge) := List.filter_sublist.map _
  unfold Ascends at h ⊢
  rw [hpasses.split] at h
  rw [hpasses.accepted, List.append_assoc]
  exact h.sublist ((haccepted.append_right _).append_left _)

end Traversal

/-- In order of weight, whole weights ascend. -/
theorem Edge.weights_ascend {edges : List (Edge Int)} (h : edges.Pairwise Edge.NotHeavier) :
    (edges.map Edge.weight).Pairwise (· ≤ ·) :=
  List.pairwise_map.2 (h.imp Int.isLE_compare.1)

/-- The weights of a forest ascend. -/
theorem Traversal.Ascends.weights_finish {t : Traversal Int} {g : Graph α Int} {f : Forest Int}
    (h : t.Ascends) (hanswer : (t.finish g).answer = .ok f) : f.weights.Pairwise (· ≤ ·) := by
  have hlast : (t.finish g).traversal.Ascends :=
    (t.finish_turns g).induction (fun t _ => t.Ascends) (fun hturn h => hturn.ascends h) h
  rw [forest_of_finish hanswer]
  exact Edge.weights_ascend (List.pairwise_append.1 hlast).1

/-! ## Traversals of a session -/

namespace Session

section ascent

variable [Ord ω] [Std.TransOrd ω] {s s' : Session α ω} {agent : Agent} {notices : List Notice}

/-- Only a beginning and a turn change the traversals. -/
theorem Move.ascends (hmove : Move s agent notices s') (h : ∀ t ∈ s.traversals, t.Ascends) :
    ∀ t ∈ s'.traversals, t.Ascends := by
  cases hmove with
  | start =>
    intro t ht
    rcases Array.mem_push.1 ht with ht | rfl
    · exact h t ht
    · exact Traversal.ascends_start s.graph
  | turn ht₀ hturn =>
    intro t ht
    rcases Array.mem_or_eq_of_mem_setIfInBounds ht with ht | rfl
    · exact h t ht
    · exact hturn.ascends (h _ (Array.mem_of_getElem? ht₀))
  | _ => exact h

theorem ascends_reached (tieBreak : TieBreak) (history : List (Action α ω)) :
    ∀ t ∈ (reached tieBreak history).traversals, t.Ascends :=
  run_induction (fun _ => True) (fun s => ∀ t ∈ s.traversals, t.Ascends)
    (fun hmove _ h => hmove.ascends h) (fun _ _ _ => trivial)
    fun _ ht => absurd ht (Array.not_mem_empty _)

end ascent

/-- The forest of an answer is the one that its traversal finds. -/
theorem exists_finish [Ord ω] {s : Session α ω} {number : Nat} {f : Forest ω}
    (hanswer : (s.step (.finish number)).answer = .forest (.ok f)) :
    ∃ t ∈ s.traversals, (t.finish s.graph).answer = .ok f := by
  rw [step] at hanswer
  cases ht : s.traversals[number]? with
  | none =>
    rw [ask, ht] at hanswer
    cases hanswer
  | some t =>
    rw [ask_of_some ht] at hanswer
    exact ⟨t, Array.mem_of_getElem? ht, Answer.forest.inj hanswer⟩

/-! ## The main result -/

/-- Whatever has happened in a session, the total of a finished traversal in
    signed words of 64 bits fails exactly when the negative weights alone add
    up to less than the least word, or all weights to more than the greatest.
    In unsigned words of 64 or of 8 bits it fails exactly when the weights add
    up to more than the greatest. A total that does not fail is exact. -/
theorem finished_total {tieBreak : TieBreak} {history : List (Action α Int)} {s : Session α Int}
    {number : Nat} {f : Forest Int} (hs : s = reached tieBreak history)
    (hanswer : (s.step (.finish number)).answer = .forest (.ok f)) :
    f.wordTotal? .int64 =
      (if WordRange.belowZero f.weights < WordRange.int64.least ∨
        WordRange.int64.greatest < f.total then none else some f.total) ∧
    ∀ range ∈ [WordRange.nat64, WordRange.nat8], (∀ w ∈ f.weights, range.contains w = true) →
      f.wordTotal? range = if range.greatest < f.total then none else some f.total := by
  obtain ⟨t, ht, hfinish⟩ := exists_finish hanswer
  rw [hs] at ht
  have hweights := (ascends_reached tieBreak history t ht).weights_finish hfinish
  refine ⟨WordRange.sum?_of_ascending (by decide) hweights, fun range hrange hwords => ?_⟩
  -- Unsigned words begin with zero.
  have hleast : range.least = 0 ∧ range.contains 0 = true := by
    rcases List.mem_pair.1 hrange with rfl | rfl
    · exact ⟨rfl, by decide⟩
    · exact ⟨rfl, by decide⟩
  apply WordRange.sum?_of_nonneg hleast.2 hweights
  intro w hw
  rw [← hleast.1]
  exact (WordRange.contains_iff.1 (hwords w hw)).1

/-- The endpoints of the pending edge are merged from outside, and a stray edge
    is the lightest. The total fits, but that of the negative weights does not.
    Of two bytes the sum is too large for a byte. -/
theorem finished_total_of_deep_descent :
    let s : Session Unit Int := reached .latestFirst
      [.addNode (), .addNode (), .addNode (), .addEdge ⟨0⟩ ⟨1⟩ 5, .addEdge ⟨1⟩ ⟨2⟩ (-1),
        .addEdge ⟨9⟩ ⟨2⟩ (-9223372036854775808), .start, .pull 0, .union ⟨1⟩ ⟨2⟩, .start]
    let bytes : Session Unit Int := reached .insertionOrder
      [.addNode (), .addNode (), .addNode (), .addEdge ⟨0⟩ ⟨1⟩ 200, .addEdge ⟨1⟩ ⟨2⟩ 56, .start]
    (∃ f, (s.step (.finish 0)).answer = .forest (.ok f) ∧
      f.total = -9223372036854775804 ∧ f.wordTotal? .int64 = none) ∧
    ∃ f, (bytes.step (.finish 0)).answer = .forest (.ok f) ∧
      f.wordTotal? .nat8 = none ∧ f.wordTotal? .nat64 = some 256 := by
  intro s bytes
  have hanswer : (s.step (.finish 0)).answer = .forest (.ok ⟨#[⟨⟨9⟩, ⟨2⟩, -9223372036854775808, 2⟩,
      ⟨⟨1⟩, ⟨2⟩, -1, 1⟩, ⟨⟨0⟩, ⟨1⟩, 5, 0⟩], 0, 3⟩) := by cbv
  have hbytes : (bytes.step (.finish 0)).answer =
      .forest (.ok ⟨#[⟨⟨1⟩, ⟨2⟩, 56, 1⟩, ⟨⟨0⟩, ⟨1⟩, 200, 0⟩], 1, 3⟩) := by cbv
  obtain ⟨htotal, -⟩ := finished_total rfl hanswer
  obtain ⟨-, hunsigned⟩ := finished_total rfl hbytes
  refine ⟨⟨_, hanswer, by decide, htotal.trans (if_pos (by decide))⟩, _, hbytes, ?_, ?_⟩
  · exact (hunsigned .nat8 (by decide) (by decide)).trans (if_pos (by decide))
  · exact (hunsigned .nat64 (by decide) (by decide)).trans (if_neg (by decide))

end Session

end SpanForest
