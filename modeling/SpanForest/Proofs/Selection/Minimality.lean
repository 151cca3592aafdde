import Mathlib.Algebra.Order.BigOperators.Group.List
import Mathlib.Algebra.Order.Ring.Int
import Mathlib.Data.List.Forall2
import SpanForest.Proofs.Arrangement
import SpanForest.Proofs.Session.Moves
import SpanForest.Proofs.Traversal.Alone

/-! # Minimal spanning forests

    Among all forests that link what the edges of a graph link, the one that a
    traversal finds has the least weights: put in order, its weights are place
    by place at most those of any other.

    * **`SpanningForest`**: edges without a cycle that link as much as all.
    * **`SpanningForest.length_eq`**: all spanning forests are of one size.
    * **`lighter_linked`**: of the edges that sifting keeps, those not heavier
      than a given edge link its endpoints.
    * **`countP_le_countP_sift`**: so no other forest has more edges below any
      weight. This carries the exchange argument: it compares how many edges
      there are, and never trades one edge for another.
    * **`traverse_minimal`**: the main result.
-/

namespace SpanForest

variable {α : Type u} {ω : Type v} {s : Setoid NodeId} {e : Edge ω}
  {edges more forest other order ranked : List (Edge ω)}

/-! ## Spanning forests -/

/-- Some of the edges close no cycle over the classes of `s`, and link what all
    edges link. -/
structure SpanningForest (s : Setoid NodeId) (edges forest : List (Edge ω)) : Prop where
  /-- The edges of the forest are taken from the given ones. -/
  subset : forest ⊆ edges
  /-- The forest links what all edges link. -/
  linked_eq : linked s forest = linked s edges
  /-- Each edge of the forest joins two classes of the others. -/
  cycleFree : CycleFree s forest

namespace SpanningForest

theorem independent (h : SpanningForest s edges forest) : Independent s forest :=
  independent_iff_cycleFree.2 h.cycleFree

/-- All spanning forests have equally many edges. -/
theorem length_eq (h : SpanningForest s edges forest) (h' : SpanningForest s edges other) :
    other.length = forest.length := by
  apply h'.independent.length_eq h.independent
  rw [h'.linked_eq, h.linked_eq]

/-- Only the members of the list matter. -/
theorem of_perm (h : SpanningForest s edges forest) (hperm : edges.Perm more) :
    SpanningForest s more forest where
  subset := fun _ he => hperm.mem_iff.1 (h.subset he)
  linked_eq := h.linked_eq.trans (linked_perm hperm)
  cycleFree := h.cycleFree

end SpanningForest

/-! ## Weights in order -/

section weights

variable [Ord ω]

/-- What respects the order of weights respects comparison place by place. -/
theorem sum_le_of_forall₂ (h : List.Forall₂ Edge.NotHeavier forest ranked) {value : ω → Int}
    (hvalue : ∀ a b, (compare a b).isLE → value a ≤ value b) :
    (forest.map fun e => value e.weight).sum ≤ (ranked.map fun e => value e.weight).sum := by
  induction h with
  | nil => exact Int.le_refl 0
  | cons hle _ ih =>
    rw [List.map_cons, List.map_cons, List.sum_cons, List.sum_cons]
    exact Int.add_le_add (hvalue _ _ hle) ih

variable [Std.TransOrd ω]

/-- From the first edge of a list in order of weight that is heavier than `e`,
    all are. -/
theorem heavier_of_head {a : Edge ω} (h : (a :: ranked).Pairwise Edge.NotHeavier)
    (ha : ¬ a.NotHeavier e) : ∀ b ∈ a :: ranked, ¬ b.NotHeavier e := by
  intro b hb hle
  rcases List.mem_cons.1 hb with rfl | hb
  · exact ha hle
  · exact ha (((List.pairwise_cons.1 h).1 b hb).trans hle)

/-- In a list in order of weight, the places up to the number of the edges that
    are not heavier than `e` are those of such edges. -/
theorem getElem_notHeavier_iff (h : ranked.Pairwise Edge.NotHeavier) {k : Nat}
    (hk : k < ranked.length) :
    ranked[k].NotHeavier e ↔ k < ranked.countP fun a => decide (a.NotHeavier e) := by
  induction ranked generalizing k with
  | nil => exact absurd hk (Nat.not_lt_zero k)
  | cons a rest ih =>
    have hrest := (List.pairwise_cons.1 h).2
    by_cases ha : a.NotHeavier e
    · rw [List.countP_cons_of_pos (by simpa using ha)]
      cases k with
      | zero => simp [ha]
      | succ k =>
        rw [List.getElem_cons_succ, Nat.succ_lt_succ_iff]
        exact ih hrest (Nat.lt_of_succ_lt_succ hk)
    · have hheavy := heavier_of_head h ha
      have hzero : (a :: rest).countP (fun b => decide (b.NotHeavier e)) = 0 := by
        rw [List.countP_eq_zero]
        intro b hb
        simpa using hheavy b hb
      rw [hzero]
      exact iff_of_false (hheavy _ (List.getElem_mem hk)) (Nat.not_lt_zero k)

/-- If below any weight one list has at least as many edges as another, then
    place by place its edges are not heavier. -/
theorem forall₂_notHeavier (hforest : forest.Pairwise Edge.NotHeavier)
    (hranked : ranked.Pairwise Edge.NotHeavier) (hlength : ranked.length = forest.length)
    (hcount : ∀ e ∈ ranked, ranked.countP (fun a => decide (a.NotHeavier e)) ≤
      forest.countP fun a => decide (a.NotHeavier e)) :
    List.Forall₂ Edge.NotHeavier forest ranked := by
  rw [List.forall₂_iff_get]
  refine ⟨hlength.symm, ?_⟩
  intro k hk hk'
  -- Compare both lists with the weight in place `k` of the second.
  have hself : (ranked[k]).NotHeavier ranked[k] := Edge.notHeavier_refl _
  have hless := (getElem_notHeavier_iff hranked hk').1 hself
  have hmem : ranked[k] ∈ ranked := List.getElem_mem hk'
  exact (getElem_notHeavier_iff hforest hk).2 (hless.trans_le (hcount _ hmem))

end weights

/-! ## What sifting keeps -/

section held

variable {p : Partition} (hp : p.WellLinked) (hheld : ∀ e ∈ order, p.holds e = true)
include hp hheld

theorem spanningForest_sift : SpanningForest p.classes order (p.sift order) where
  subset := (p.sift_sublist order).subset
  linked_eq := Partition.linked_sift hp hheld
  cycleFree := independent_iff_cycleFree.1 (Partition.independent_sift hp hheld)

variable [Ord ω] [Std.TransOrd ω] (hascend : order.Pairwise Edge.NotHeavier)
include hascend

/-- Of the edges that are kept, those not heavier than a given edge link its
    endpoints. -/
theorem lighter_linked (he : e ∈ order) :
    linked p.classes ((p.sift order).filter fun a => decide (a.NotHeavier e)) e.first e.second := by
  obtain ⟨before, after, horder⟩ := List.append_of_mem he
  rw [List.append_cons] at horder
  subst horder
  -- What is kept of the edges up to this one links its endpoints, and none of
  -- these edges is heavier.
  have hsplit := p.sift_append (before ++ [e]) after
  have hupto : ∀ a ∈ before ++ [e], p.holds a = true := by
    intro a ha
    exact hheld a (List.mem_append_left after ha)
  have hlinked : linked p.classes (p.sift (before ++ [e])) e.first e.second := by
    rw [Partition.linked_sift hp hupto]
    exact linked_of_mem _ (List.mem_append_right before (List.mem_singleton_self e))
  have hlight : ∀ a ∈ before ++ [e], a.NotHeavier e := by
    intro a ha
    rcases List.mem_append.1 ha with ha | ha
    · have hpair := (List.pairwise_append.1 hascend).1
      exact (List.pairwise_append.1 hpair).2.2 a ha e (List.mem_singleton_self e)
    · obtain rfl := List.mem_singleton.1 ha
      exact Edge.notHeavier_refl a
  refine linked_mono le_rfl ?_ hlinked
  intro a ha
  refine List.mem_filter.2 ⟨?_, ?_⟩
  · rw [hsplit]
    exact List.mem_append_left _ ha
  · exact decide_eq_true (hlight a ((p.sift_sublist _).subset ha))

/-- No independent edges have more than the kept ones below any weight. -/
theorem countP_le_countP_sift (hother : Independent p.classes other) (hsub : other ⊆ order)
    (e : Edge ω) : other.countP (fun a => decide (a.NotHeavier e)) ≤
      (p.sift order).countP fun a => decide (a.NotHeavier e) := by
  rw [List.countP_eq_length_filter, List.countP_eq_length_filter]
  have hindependent : Independent p.classes (other.filter fun a => decide (a.NotHeavier e)) :=
    hother.sublist List.filter_sublist
  apply hindependent.length_le
  intro a ha
  obtain ⟨hmem, hle⟩ := List.mem_filter.1 ha
  have hlinked := lighter_linked hp hheld hascend (hsub hmem)
  refine linked_mono le_rfl ?_ hlinked
  intro b hb
  obtain ⟨hkept, hlight⟩ := List.mem_filter.1 hb
  have hba : b.NotHeavier a := of_decide_eq_true hlight
  exact List.mem_filter.2 ⟨hkept, decide_eq_true (hba.trans (of_decide_eq_true hle))⟩

/-- Place by place, what is kept is not heavier than any other spanning forest
    in order of weight. -/
theorem forall₂_sift (hother : SpanningForest p.classes order other) (hperm : ranked.Perm other)
    (hranked : ranked.Pairwise Edge.NotHeavier) :
    List.Forall₂ Edge.NotHeavier (p.sift order) ranked := by
  have hspanning := spanningForest_sift hp hheld
  apply forall₂_notHeavier (hascend.sublist (p.sift_sublist order)) hranked
  · rw [hperm.length_eq, hspanning.length_eq hother]
  · intro e _
    have hindependent := hother.independent.perm hperm.symm
    refine countP_le_countP_sift hp hheld hascend hindependent ?_ e
    intro a ha
    exact hother.subset (hperm.mem_iff.1 ha)

end held

/-! ## The main result -/

/-- The forest that a new traversal finds is spanning over the sets that the
    graph has at that time. Every other spanning forest has as many edges; in
    order of weight, these are place by place at least as heavy; and so is
    their sum, whatever whole numbers the weights stand for. -/
theorem traverse_minimal [Ord ω] [Std.TransOrd ω] {tieBreak : TieBreak}
    {history : List (Action α ω)} {g : Graph α ω}
    (hg : g = (Session.reached tieBreak history).graph)
    (hnodes : ∀ e ∈ g.edges, g.joinsNodes e = true) :
    ∃ f, g.traverse.answer = .ok f ∧
      SpanningForest g.partition.classes g.edges.toList f.edges.toList ∧
      ∀ other, SpanningForest g.partition.classes g.edges.toList other →
        other.length = f.edges.size ∧
        (∀ ranked, ranked.Perm other → ranked.Pairwise Edge.NotHeavier →
          List.Forall₂ Edge.NotHeavier f.edges.toList ranked) ∧
        ∀ value : ω → Int, (∀ a b, (compare a b).isLE → value a ≤ value b) →
          (f.weights.map value).sum ≤ (other.map fun e => value e.weight).sum := by
  have hlawful : g.Lawful := hg ▸ Session.lawful_reached tieBreak history
  obtain ⟨f, hanswer, hedges⟩ := g.answer_traverse
  -- The forest is what sifting keeps of the edges in their order.
  have harranged := hlawful.arranged
  have hheld : ∀ e ∈ g.tieBreak.arrange g.edges.toList, g.partition.holds e = true := by
    intro e he
    exact hlawful.holds_of_mem_arrange hnodes he
  have hspanning := spanningForest_sift hlawful.wellLinked hheld
  rw [← hedges] at hspanning
  refine ⟨f, hanswer, hspanning.of_perm harranged.perm, ?_⟩
  intro other hother
  have hother' := hother.of_perm harranged.perm.symm
  have hpointwise : ∀ ranked, ranked.Perm other → ranked.Pairwise Edge.NotHeavier →
      List.Forall₂ Edge.NotHeavier f.edges.toList ranked := by
    intro ranked hperm hranked
    rw [hedges]
    exact forall₂_sift hlawful.wellLinked hheld harranged.weights_ascend hother' hperm hranked
  refine ⟨hspanning.length_eq hother', hpointwise, ?_⟩
  intro value hvalue
  -- A sum does not depend on the order, so put the other forest in order.
  obtain ⟨ranked, hperm, hranked⟩ := exists_ranked other
  have hsum := sum_le_of_forall₂ (hpointwise ranked hperm hranked) hvalue
  rw [(hperm.map fun e => value e.weight).sum_eq] at hsum
  rw [Forest.weights, List.map_map]
  exact hsum

/-- In a triangle with two nodes merged beforehand, no spanning forest has a
    smaller sum. -/
theorem traverse_minimal_of_triangle :
    let g : Graph Unit Int := (Session.reached .insertionOrder
      [.addNode (), .addNode (), .addNode (), .addEdge ⟨0⟩ ⟨1⟩ 5, .addEdge ⟨1⟩ ⟨2⟩ (-2),
        .addEdge ⟨0⟩ ⟨2⟩ 5, .union ⟨0⟩ ⟨1⟩]).graph
    ∃ f, g.traverse.answer = .ok f ∧
      ∀ other, SpanningForest g.partition.classes g.edges.toList other →
        other.length = f.edges.size ∧ f.total ≤ (other.map Edge.weight).sum := by
  intro g
  have hnodes : ∀ e ∈ g.edges, g.joinsNodes e = true := by decide
  obtain ⟨f, hanswer, -, hminimal⟩ := traverse_minimal rfl hnodes
  refine ⟨f, hanswer, ?_⟩
  intro other hother
  obtain ⟨hlength, -, hsum⟩ := hminimal other hother
  have htotal := hsum id fun a b hle => Int.isLE_compare.1 hle
  rw [List.map_id] at htotal
  exact ⟨hlength, htotal⟩

end SpanForest
