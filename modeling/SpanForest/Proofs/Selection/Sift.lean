import SpanForest.Proofs.Linking.Independent

/-! # Sifting a list of edges

    What a traversal does lazily, an edge at a time, can be said at once of a
    whole list: go through it, keep each edge whose endpoints are in different
    sets, and merge them.

    * **`Partition.absorb`**: the partition after merging along all edges.
    * **`Partition.sift`**: the edges that joined two sets on the way, and
      those with a foreign endpoint, which never do.
    * **`sift_append`**: a list may be sifted in two parts.
    * **`classes_absorb`**: the partition is linked by the edges merged along.
    * **`independent_sift`**, **`linked_sift`**: the edges that were kept have
      no cycle, and link what all edges link.
-/

namespace SpanForest

namespace Partition

variable {ω : Type u} {p : Partition} {e : Edge ω} {edges : List (Edge ω)}

/-- Merges along one edge after another. -/
def absorb (p : Partition) (edges : List (Edge ω)) : Partition :=
  edges.foldl (fun p e => p.union e.first e.second) p

/-- The edges that are in different sets when their turn comes. -/
def sift (p : Partition) : List (Edge ω) → List (Edge ω)
  | [] => []
  | e :: rest =>
    if p.sameSet e.first e.second then p.sift rest
    else e :: (p.union e.first e.second).sift rest

/-! ## Merging along a list -/

@[simp] theorem absorb_cons (p : Partition) (e : Edge ω) (edges : List (Edge ω)) :
    p.absorb (e :: edges) = (p.union e.first e.second).absorb edges := rfl

theorem absorb_append (p : Partition) (edges more : List (Edge ω)) :
    p.absorb (edges ++ more) = (p.absorb edges).absorb more :=
  List.foldl_append

theorem union_of_sameSet {a b : NodeId} (h : p.sameSet a b = true) : p.union a b = p := by
  rw [union, merge_of_find_eq (beq_iff_eq.1 h)]

@[simp] theorem holds_union (p : Partition) (a b : NodeId) (e : Edge ω) :
    (p.union a b).holds e = p.holds e := by
  simp [holds]

/-- Merging along edges links handles by those edges, but for the edges that
    have a foreign endpoint. -/
theorem WellLinked.classes_absorb (hp : p.WellLinked) (edges : List (Edge ω)) :
    (p.absorb edges).classes = linked p.classes (edges.filter p.holds) := by
  induction edges generalizing p with
  | nil => exact (linked_nil _).symm
  | cons e edges ih =>
    have hrest := ih (hp.union e.first e.second)
    rw [absorb_cons, hrest, holds_congr (p.size_union e.first e.second)]
    cases h : p.holds e with
    | true =>
      rw [List.filter_cons_of_pos h, linked_cons, hp.classes_union h]
    | false =>
      rw [List.filter_cons_of_neg (by simp [h]), union_of_not_holds h]

/-! ## Sifting -/

@[simp] theorem sift_nil (p : Partition) : p.sift ([] : List (Edge ω)) = [] := rfl

theorem sift_cons_of_sameSet (h : p.sameSet e.first e.second = true) :
    p.sift (e :: edges) = p.sift edges := by
  rw [sift, if_pos h]

theorem sift_cons_of_not_sameSet (h : p.sameSet e.first e.second = false) :
    p.sift (e :: edges) = e :: (p.union e.first e.second).sift edges := by
  rw [sift, if_neg (by simp [h])]

/-- Edges that were passed over need no merge, so the rest is sifted as if
    there had been one along every edge. -/
theorem sift_append (p : Partition) (edges more : List (Edge ω)) :
    p.sift (edges ++ more) = p.sift edges ++ (p.absorb edges).sift more := by
  induction edges generalizing p with
  | nil => rfl
  | cons e edges ih =>
    rw [List.cons_append, absorb_cons]
    cases h : p.sameSet e.first e.second with
    | true =>
      rw [sift_cons_of_sameSet h, sift_cons_of_sameSet h, ih, union_of_sameSet h]
    | false =>
      rw [sift_cons_of_not_sameSet h, sift_cons_of_not_sameSet h, ih, List.cons_append]

theorem sift_sublist (p : Partition) (edges : List (Edge ω)) : (p.sift edges).Sublist edges := by
  induction edges generalizing p with
  | nil => exact .slnil
  | cons e edges ih =>
    cases h : p.sameSet e.first e.second with
    | true =>
      rw [sift_cons_of_sameSet h]
      exact (ih p).cons e
    | false =>
      rw [sift_cons_of_not_sameSet h]
      exact (ih _).cons_cons e

/-- Edges that are all in one set already leave nothing. -/
theorem sift_eq_nil (h : ∀ e ∈ edges, p.sameSet e.first e.second = true) : p.sift edges = [] := by
  induction edges with
  | nil => rfl
  | cons e edges ih =>
    rw [sift_cons_of_sameSet (h e List.mem_cons_self)]
    exact ih fun e' he' => h e' (List.mem_cons_of_mem e he')

theorem absorb_of_sameSet (h : ∀ e ∈ edges, p.sameSet e.first e.second = true) :
    p.absorb edges = p := by
  induction edges with
  | nil => rfl
  | cons e edges ih =>
    rw [absorb_cons, union_of_sameSet (h e List.mem_cons_self)]
    exact ih fun e' he' => h e' (List.mem_cons_of_mem e he')

/-- Only the edges that were kept have changed the partition. -/
theorem absorb_sift (p : Partition) (edges : List (Edge ω)) :
    p.absorb (p.sift edges) = p.absorb edges := by
  induction edges generalizing p with
  | nil => rfl
  | cons e edges ih =>
    cases h : p.sameSet e.first e.second with
    | true => rw [sift_cons_of_sameSet h, absorb_cons, union_of_sameSet h, ih]
    | false => rw [sift_cons_of_not_sameSet h, absorb_cons, absorb_cons, ih]

/-! ## Edges between issued handles -/

section held

variable (hp : p.WellLinked) (hheld : ∀ e ∈ edges, p.holds e = true)
include hp hheld

theorem classes_absorb_of_holds : (p.absorb edges).classes = linked p.classes edges := by
  rw [hp.classes_absorb, List.filter_eq_self.2 hheld]

/-- What is kept links what all edges link. -/
theorem linked_sift : linked p.classes (p.sift edges) = linked p.classes edges := by
  have hkept : ∀ e ∈ p.sift edges, p.holds e = true := by
    intro e he
    exact hheld e ((p.sift_sublist edges).subset he)
  rw [← classes_absorb_of_holds hp hheld, ← classes_absorb_of_holds hp hkept, absorb_sift]

/-- What is kept has no cycle. -/
theorem independent_sift : Independent p.classes (p.sift edges) := by
  induction edges generalizing p with
  | nil => trivial
  | cons e edges ih =>
    have he := hheld e List.mem_cons_self
    have hrest : ∀ e' ∈ edges, p.holds e' = true := by
      intro e' he'
      exact hheld e' (List.mem_cons_of_mem e he')
    cases h : p.sameSet e.first e.second with
    | true =>
      rw [sift_cons_of_sameSet h]
      exact ih hp hrest
    | false =>
      rw [sift_cons_of_not_sameSet h]
      refine ⟨sameSet_eq_false_iff.1 h, ?_⟩
      -- What comes after is sifted through the classes with this edge added.
      rw [← hp.classes_union he]
      exact ih (hp.union e.first e.second) (by simpa using hrest)

end held

end Partition

end SpanForest
