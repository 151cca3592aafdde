import SpanForest.Proofs.Linking.Components
import SpanForest.Proofs.Selection.Rearrangement
import SpanForest.Proofs.Selection.Sequential
import SpanForest.Summary

/-! # Edges by label

    A summary speaks of labels. What links labels, how many components they
    form, and which edges Kruskal's selection keeps, is said here of edges by
    label alone. Where different nodes have different labels, it is the same
    as what is said of nodes.

    * **`linkedLabels`**, **`componentsOf`**: connectivity by label.
    * **`Precedes`**, **`selectLabels`**, **`Selected`**: the selection by
      label.
    * **`linkedLabels_iff`**: labels are linked when their nodes are.
    * **`componentsOf_eq`**, **`selectLabels_eq`**: the transfer from nodes to
      labels.
-/

namespace SpanForest.Summary

variable {edges more kept : List SummaryEdge} {e : SummaryEdge}

/-! ## Connectivity -/

/-- The labels that edges mention. -/
def labelsOf (edges : List SummaryEdge) : Set String :=
  {label | ∃ e ∈ edges, label = e.first ∨ label = e.second}

/-- The labels that are linked by the given edges. -/
def linkedLabels (edges : List SummaryEdge) : Setoid String :=
  Relation.EqvGen.setoid fun a b => ∃ e ∈ edges, e.first = a ∧ e.second = b

/-- The number of connected components that the labels of edges form. -/
noncomputable def componentsOf (edges : List SummaryEdge) : Nat :=
  (Quotient.mk (linkedLabels edges) '' labelsOf edges).ncard

/-- The closure is the least equivalence that contains the edges. -/
theorem linkedLabels_le_iff {t : Setoid String} :
    linkedLabels edges ≤ t ↔ ∀ e ∈ edges, t e.first e.second := by
  constructor
  · intro hle e he
    exact hle (.rel _ _ ⟨e, he, rfl, rfl⟩)
  · intro hedges
    apply Setoid.eqvGen_le
    rintro a b ⟨e, he, rfl, rfl⟩
    exact hedges e he

theorem linkedLabels_of_mem (he : e ∈ edges) : linkedLabels edges e.first e.second :=
  linkedLabels_le_iff.1 le_rfl e he

/-! ## Selection -/

/-- An edge is examined before another one: it is lighter, or equally heavy and
    preferred by the tie-break. -/
def Precedes (tieBreak : TieBreak) (a b : SummaryEdge) : Prop :=
  a.weight < b.weight ∨ a.weight = b.weight ∧
    match tieBreak with
    | .insertionOrder => a.sequence < b.sequence
    | .latestFirst => b.sequence < a.sequence

open Classical in
/-- Goes through edges and keeps each one whose labels are not yet linked by
    the edges kept before. -/
noncomputable def selectLabels (kept : List SummaryEdge) : List SummaryEdge → List SummaryEdge
  | [] => kept
  | e :: rest =>
    if linkedLabels kept e.first e.second then selectLabels kept rest
    else selectLabels (kept ++ [e]) rest

/-- Kruskal's selection from the given edges, in the order of examination. -/
def Selected (tieBreak : TieBreak) (edges selection : List SummaryEdge) : Prop :=
  ∃ order, order.Perm edges ∧ order.Pairwise (Precedes tieBreak) ∧
    selection = selectLabels [] order

theorem selectLabels_subset : selectLabels kept edges ⊆ kept ++ edges := by
  induction edges generalizing kept with
  | nil =>
    rw [selectLabels, List.append_nil]
    exact List.Subset.refl kept
  | cons e rest ih =>
    rw [selectLabels]
    split
    · intro found hfound
      rcases List.mem_append.1 (ih hfound) with h | h
      · exact List.mem_append_left _ h
      · exact List.mem_append_right _ (List.mem_cons_of_mem e h)
    · rw [List.append_cons kept e rest]
      exact ih

/-- Nothing is made up: what is selected is among the given edges. -/
theorem Selected.subset {tieBreak : TieBreak} {selection : List SummaryEdge}
    (h : Selected tieBreak edges selection) : selection ⊆ edges := by
  obtain ⟨order, horder, -, rfl⟩ := h
  intro e he
  exact horder.mem_iff.1 (selectLabels_subset he)

/-! ## From nodes to labels -/

section transfer

variable {g : Graph String Int} {place : String → NodeId} {ends : List (Edge Int)}

theorem precedes_of_compareUnder {tieBreak : TieBreak} {a b : Edge Int}
    (h : a.compareUnder tieBreak b = .lt) :
    Precedes tieBreak (labelEdge g a) (labelEdge g b) := by
  obtain hlt | ⟨heq, hsequence⟩ := Ordering.then_eq_lt.1 h
  · exact .inl (Int.compare_eq_lt.1 hlt)
  · refine .inr ⟨Int.compare_eq_eq.1 heq, ?_⟩
    cases tieBreak with
    | insertionOrder => exact Nat.compare_eq_lt.1 hsequence
    | latestFirst => exact Nat.compare_eq_lt.1 hsequence

/-- The labels of linked nodes are linked. -/
theorem linked_le_comap (g : Graph String Int) (ends : List (Edge Int)) :
    linked ⊥ ends ≤ (linkedLabels (ends.map (labelEdge g))).comap (label g) := by
  rw [linked_le_iff]
  refine ⟨bot_le, ?_⟩
  intro e he
  exact linkedLabels_of_mem (List.mem_map_of_mem he)

variable (hplace : ∀ x, g.HasNode x → place (label g x) = x)
include hplace

/-- The labels of two nodes are linked exactly when the nodes are. -/
theorem linkedLabels_iff (hends : ∀ e ∈ ends, g.joinsNodes e = true) {x y : NodeId}
    (hx : g.HasNode x) (hy : g.HasNode y) :
    linkedLabels (ends.map (labelEdge g)) (label g x) (label g y) ↔ linked ⊥ ends x y := by
  constructor
  · have hle : linkedLabels (ends.map (labelEdge g)) ≤ (linked ⊥ ends).comap place := by
      rw [linkedLabels_le_iff]
      intro named hnamed
      obtain ⟨e, he, rfl⟩ := List.mem_map.1 hnamed
      obtain ⟨hfirst, hsecond⟩ := Graph.joinsNodes_iff.1 (hends e he)
      show linked ⊥ ends (place (label g e.first)) (place (label g e.second))
      rw [hplace _ hfirst, hplace _ hsecond]
      exact linked_of_mem ⊥ he
    intro h
    have hlinked : linked ⊥ ends (place (label g x)) (place (label g y)) := hle h
    rwa [hplace x hx, hplace y hy] at hlinked
  · intro h
    exact linked_le_comap g ends h

/-- Labels form as many components as their nodes. -/
theorem componentsOf_eq (hends : ∀ e ∈ ends, g.joinsNodes e = true)
    (hlabels : labelsOf (ends.map (labelEdge g)) = label g '' firstHandles g.nodeCount) :
    componentsOf (ends.map (labelEdge g)) = components g.nodeCount ends := by
  -- Naming nodes sends classes to classes, and different ones to different ones.
  let naming : Quotient (linked ⊥ ends) → Quotient (linkedLabels (ends.map (labelEdge g))) :=
    Quotient.map (label g) fun _ _ h => linked_le_comap g ends h
  have himage : Quotient.mk (linkedLabels (ends.map (labelEdge g))) ''
      labelsOf (ends.map (labelEdge g)) = naming '' classesOf (linked ⊥ ends) g.nodeCount := by
    rw [hlabels, classesOf, Set.image_image, Set.image_image]
    rfl
  have hinj : Set.InjOn naming (classesOf (linked ⊥ ends) g.nodeCount) := by
    rintro _ ⟨x, hx, rfl⟩ _ ⟨y, hy, rfl⟩ heq
    exact Quotient.sound ((linkedLabels_iff hplace hends hx hy).1 (Quotient.exact heq))
  rw [componentsOf, himage, hinj.ncard_image]
  rfl

/-- Selecting by label selects the same edges. -/
theorem selectLabels_eq (hg : g.Unmerged) {kept rest : List (Edge Int)}
    (hkept : ∀ e ∈ kept, g.joinsNodes e = true) (hrest : ∀ e ∈ rest, g.joinsNodes e = true) :
    selectLabels (kept.map (labelEdge g)) (rest.map (labelEdge g)) =
      (g.selectFrom kept rest).map (labelEdge g) := by
  induction rest generalizing kept with
  | nil => rfl
  | cons e rest ih =>
    obtain ⟨he, hrest⟩ := List.forall_mem_cons.1 hrest
    obtain ⟨hfirst, hsecond⟩ := Graph.joinsNodes_iff.1 he
    have hall : kept.filter g.joinsNodes = kept := List.filter_eq_self.2 hkept
    have hclasses : g.partition.classes = ⊥ := hg
    -- Both sides ask the same question about the edge.
    have hiff : linkedLabels (kept.map (labelEdge g)) (labelEdge g e).first
        (labelEdge g e).second ↔
          linked g.partition.classes (kept.filter g.joinsNodes) e.first e.second := by
      rw [hall, hclasses]
      exact linkedLabels_iff hplace hkept hfirst hsecond
    rw [List.map_cons, selectLabels, Graph.selectFrom]
    by_cases h : linked g.partition.classes (kept.filter g.joinsNodes) e.first e.second
    · rw [if_pos (hiff.2 h), if_pos h]
      exact ih hkept hrest
    · have hkept' : ∀ e' ∈ kept ++ [e], g.joinsNodes e' = true :=
        List.forall_mem_append.2 ⟨hkept, List.forall_mem_singleton.2 he⟩
      have hmore := ih hkept' hrest
      rw [List.map_append] at hmore
      rw [if_neg (mt hiff.1 h), if_neg h]
      exact hmore

end transfer

end SpanForest.Summary
