import SpanForest.Proofs.Graph.Lawful

/-! # The order of examination

    A traversal goes through the edges by weight and, among edges of equal
    weight, by the tie-break. Because no two edges of a graph have the same
    number, there is only one such order.

    * **`Arranged`**: a list holds given edges in strictly ascending order.
    * **`arranged_arrange`**: `arrange` produces it.
    * **`Arranged.unique`**: nothing else does.
    * **`Edge.NotHeavier`**: the comparison by weight alone, which the order of
      examination respects.
-/

namespace SpanForest

variable {α : Type u} {ω : Type v} [Ord ω] {tieBreak : TieBreak} {edges order : List (Edge ω)}

/-- The list holds the given edges, each before all that are heavier or that
    the tie-break puts behind it. -/
structure Arranged (tieBreak : TieBreak) (edges order : List (Edge ω)) : Prop where
  /-- No edge is lost, none is repeated. -/
  perm : order.Perm edges
  /-- Earlier edges come first in the order of examination. -/
  ascending : order.Pairwise fun a b => a.compareUnder tieBreak b = .lt

/-! ## The comparison -/

instance (tieBreak : TieBreak) : Std.TransCmp tieBreak.compareSequence :=
  match tieBreak with
  | .insertionOrder => inferInstanceAs (Std.TransCmp fun a b : Nat => compare a b)
  | .latestFirst => inferInstanceAs (Std.TransCmp fun a b : Nat => compare b a)

theorem TieBreak.compareSequence_eq_iff {i j : Nat} :
    tieBreak.compareSequence i j = .eq ↔ i = j := by
  cases tieBreak with
  | insertionOrder => exact Nat.compare_eq_eq
  | latestFirst => exact Nat.compare_eq_eq.trans eq_comm

instance [Std.TransOrd ω] : Std.TransCmp (Edge.compareWeight (ω := ω)) where
  eq_swap := Std.OrientedOrd.eq_swap
  isLE_trans := Std.TransOrd.isLE_trans

/-- Comparing by weight and then by the tie-break is a total order. -/
instance [Std.TransOrd ω] (tieBreak : TieBreak) :
    Std.TransCmp (Edge.compareUnder (ω := ω) tieBreak) :=
  have hsequence : Std.TransCmp tieBreak.compareSequence := inferInstance
  have : Std.TransCmp fun a b : Edge ω => tieBreak.compareSequence a.sequence b.sequence :=
    { eq_swap := hsequence.eq_swap
      isLE_trans := hsequence.isLE_trans }
  inferInstanceAs (Std.TransCmp (compareLex Edge.compareWeight _))

theorem Edge.sequence_eq_of_compareUnder_eq {a b : Edge ω}
    (h : a.compareUnder tieBreak b = .eq) : a.sequence = b.sequence :=
  TieBreak.compareSequence_eq_iff.1 (Ordering.then_eq_eq.1 h).2

/-- The first edge weighs at most as much as the second. -/
def Edge.NotHeavier (a b : Edge ω) : Prop := (a.compareWeight b).isLE

instance (a b : Edge ω) : Decidable (a.NotHeavier b) :=
  inferInstanceAs (Decidable ((a.compareWeight b).isLE = true))

theorem Edge.notHeavier_refl [Std.TransOrd ω] (e : Edge ω) : e.NotHeavier e :=
  Std.ReflCmp.isLE_rfl

theorem Edge.NotHeavier.trans [Std.TransOrd ω] {a b c : Edge ω} (hab : a.NotHeavier b)
    (hbc : b.NotHeavier c) : a.NotHeavier c :=
  Std.TransCmp.isLE_trans hab hbc

/-- What the order of examination does not put behind is not heavier. -/
theorem Edge.notHeavier_of_compareUnder {a b : Edge ω}
    (h : (a.compareUnder tieBreak b).isLE = true) : a.NotHeavier b := by
  unfold NotHeavier
  rcases Ordering.isLE_iff_eq_lt_or_eq_eq.1 h with hlt | heq
  · rcases Ordering.then_eq_lt.1 hlt with hlighter | ⟨heven, -⟩
    · exact Ordering.isLE_of_eq_lt hlighter
    · exact Ordering.isLE_of_eq_eq heven
  · exact Ordering.isLE_of_eq_eq (Ordering.then_eq_eq.1 heq).1

/-! ## The arrangement -/

namespace Arranged

theorem unique [Std.TransOrd ω] {order' : List (Edge ω)} (h : Arranged tieBreak edges order)
    (h' : Arranged tieBreak edges order') : order = order' := by
  apply (h.perm.trans h'.perm.symm).eq_of_pairwise _ h.ascending h'.ascending
  intro a b _ _ hab hba
  exact absurd hba (Std.OrientedCmp.not_lt_of_lt hab)

/-- Weights never go down in the order of examination. -/
theorem weights_ascend (h : Arranged tieBreak edges order) :
    order.Pairwise Edge.NotHeavier :=
  h.ascending.imp fun hlt => Edge.notHeavier_of_compareUnder (Ordering.isLE_of_eq_lt hlt)

end Arranged

theorem perm_arrange (tieBreak : TieBreak) (edges : List (Edge ω)) :
    (tieBreak.arrange edges).Perm edges :=
  List.mergeSort_perm edges _

theorem pairwise_arrange [Std.TransOrd ω] (tieBreak : TieBreak) (edges : List (Edge ω)) :
    (tieBreak.arrange edges).Pairwise fun a b => (a.compareUnder tieBreak b).isLE = true := by
  apply List.pairwise_mergeSort
  · intro a b c hab hbc
    exact Std.TransCmp.isLE_trans hab hbc
  · intro a b
    cases hab : a.compareUnder tieBreak b with
    | lt => rfl
    | eq => rfl
    | gt =>
      rw [Std.OrientedCmp.lt_of_gt hab]
      rfl

/-- Edges with different numbers are arranged strictly. -/
theorem arranged_arrange [Std.TransOrd ω] (tieBreak : TieBreak)
    (h : (edges.map Edge.sequence).Nodup) : Arranged tieBreak edges (tieBreak.arrange edges) where
  perm := perm_arrange tieBreak edges
  ascending := by
    have hnodup : (tieBreak.arrange edges).Pairwise fun a b => a.sequence ≠ b.sequence := by
      have hperm := (perm_arrange tieBreak edges).map Edge.sequence
      exact List.pairwise_map.1 (hperm.nodup_iff.2 h)
    refine ((pairwise_arrange tieBreak edges).and hnodup).imp ?_
    rintro a b ⟨hle, hne⟩
    rcases Ordering.isLE_iff_eq_lt_or_eq_eq.1 hle with hlt | heq
    · exact hlt
    · exact absurd (Edge.sequence_eq_of_compareUnder_eq heq) hne

/-- Every list of edges can be put in order of weight. -/
theorem exists_ranked [Std.TransOrd ω] (edges : List (Edge ω)) :
    ∃ ranked : List (Edge ω), ranked.Perm edges ∧ ranked.Pairwise Edge.NotHeavier :=
  ⟨_, perm_arrange default edges,
    (pairwise_arrange default edges).imp Edge.notHeavier_of_compareUnder⟩

/-- When all edges join nodes, the partition holds what is to be examined. -/
theorem Graph.Lawful.holds_of_mem_arrange {g : Graph α ω} {e : Edge ω} (hg : g.Lawful)
    (hnodes : ∀ e ∈ g.edges, g.joinsNodes e = true)
    (he : e ∈ g.tieBreak.arrange g.edges.toList) : g.partition.holds e = true := by
  rw [hg.holds_eq_joinsNodes]
  have hmem := (perm_arrange g.tieBreak g.edges.toList).mem_iff.1 he
  exact hnodes e (Array.mem_toList_iff.1 hmem)

/-- A lawful graph is arranged in the order of its tie-break. -/
theorem Graph.Lawful.arranged [Std.TransOrd ω] {g : Graph α ω} (hg : g.Lawful) :
    Arranged g.tieBreak g.edges.toList (g.tieBreak.arrange g.edges.toList) := by
  apply arranged_arrange
  rw [hg.map_sequence]
  exact List.nodup_range

end SpanForest
