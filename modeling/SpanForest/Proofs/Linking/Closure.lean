import Mathlib.Data.Setoid.Basic
import Mathlib.Order.CompletePartialOrder
import SpanForest.Edge
import SpanForest.Proofs.Partition.Merging

/-! # Handles linked by edges

    Given some classes of handles to begin with, a list of edges links two
    handles when one can get from the one to the other along edges and inside
    classes.

    * **`linked s edges`**: the equivalence closure of `s` and the endpoints
      of the edges.
    * **`linked_le_iff`**: it is the finest equivalence above both, which is
      all that the algebra below needs.
    * **`linked_single_iff`**: what one edge adds.
    * **`classes_union`**: a merge in a partition adds one edge.
-/

namespace SpanForest

variable {ω : Type u} {s t : Setoid NodeId} {e : Edge ω} {edges more : List (Edge ω)}
  {x y : NodeId}

/-! ## The closure -/

/-- The handles that are linked by the classes of `s` and the given edges. -/
def linked (s : Setoid NodeId) (edges : List (Edge ω)) : Setoid NodeId :=
  Relation.EqvGen.setoid fun x y => s x y ∨ ∃ e ∈ edges, e.first = x ∧ e.second = y

/-- The closure is the least equivalence that contains the classes and the
    edges. -/
theorem linked_le_iff : linked s edges ≤ t ↔ s ≤ t ∧ ∀ e ∈ edges, t e.first e.second := by
  constructor
  · intro hle
    refine ⟨fun x y hxy => ?_, fun e he => ?_⟩
    · exact hle (.rel _ _ (.inl hxy))
    · exact hle (.rel _ _ (.inr ⟨e, he, rfl, rfl⟩))
  · rintro ⟨hs, hedges⟩
    apply Setoid.eqvGen_le
    rintro x y (hxy | ⟨e, he, rfl, rfl⟩)
    · exact hs hxy
    · exact hedges e he

theorem le_linked (s : Setoid NodeId) (edges : List (Edge ω)) : s ≤ linked s edges :=
  (linked_le_iff.1 le_rfl).1

theorem linked_of_mem (s : Setoid NodeId) (he : e ∈ edges) :
    linked s edges e.first e.second :=
  (linked_le_iff.1 le_rfl).2 e he

theorem linked_mono (hs : s ≤ t) (hedges : edges ⊆ more) : linked s edges ≤ linked t more :=
  linked_le_iff.2 ⟨hs.trans (le_linked t more), fun _ he => linked_of_mem t (hedges he)⟩

/-- Edges that join nothing new change nothing. -/
theorem linked_eq_self (h : ∀ e ∈ edges, s e.first e.second) : linked s edges = s := by
  have hle : linked s edges ≤ s := linked_le_iff.2 ⟨le_rfl, h⟩
  exact le_antisymm hle (le_linked s edges)

@[simp] theorem linked_nil (s : Setoid NodeId) : linked s ([] : List (Edge ω)) = s :=
  linked_eq_self fun _ he => absurd he List.not_mem_nil

theorem linked_append (s : Setoid NodeId) (edges more : List (Edge ω)) :
    linked s (edges ++ more) = linked (linked s edges) more := by
  apply le_antisymm
  · refine linked_le_iff.2 ⟨(le_linked s edges).trans (le_linked _ more), fun e he => ?_⟩
    rcases List.mem_append.1 he with he | he
    · exact le_linked _ more (linked_of_mem s he)
    · exact linked_of_mem _ he
  · refine linked_le_iff.2 ⟨linked_mono le_rfl (List.subset_append_left _ _), fun e he => ?_⟩
    exact linked_of_mem s (List.mem_append_right _ he)

theorem linked_cons (s : Setoid NodeId) (e : Edge ω) (edges : List (Edge ω)) :
    linked s (e :: edges) = linked (linked s [e]) edges :=
  linked_append s [e] edges

/-- Only the members of the list matter. -/
theorem linked_congr (h : ∀ e, e ∈ edges ↔ e ∈ more) : linked s edges = linked s more := by
  apply le_antisymm
  · exact linked_mono le_rfl fun e => (h e).1
  · exact linked_mono le_rfl fun e => (h e).2

theorem linked_perm (h : edges.Perm more) : linked s edges = linked s more :=
  linked_congr fun _ => h.mem_iff

/-! ## One edge -/

/-- The classes of `s` with those of `a` and `b` joined. -/
def joined (s : Setoid NodeId) (a b : NodeId) : Setoid NodeId where
  r x y := s x y ∨ s x a ∧ s b y ∨ s x b ∧ s a y
  iseqv := by
    -- Plain implications, so that the case analysis below sees no structure.
    have hrefl := s.refl'
    have hsymm : ∀ x y, s x y → s y x := fun _ _ => s.symm'
    have htrans : ∀ x y z, s x y → s y z → s x z := fun _ _ _ => s.trans'
    exact ⟨fun x => .inl (hrefl x), by grind, by grind⟩

/-- Joining two classes gives the least equivalence that relates them. -/
theorem joined_le_iff {a b : NodeId} : joined s a b ≤ t ↔ s ≤ t ∧ t a b := by
  constructor
  · intro hle
    have hab : joined s a b a b := .inr (.inl ⟨s.refl' a, s.refl' b⟩)
    exact ⟨fun x y hxy => hle (.inl hxy), hle hab⟩
  · rintro ⟨hs, hab⟩ x y hxy
    rcases hxy with hxy | ⟨hx, hy⟩ | ⟨hx, hy⟩
    · exact hs hxy
    · exact t.trans' (hs hx) (t.trans' hab (hs hy))
    · exact t.trans' (hs hx) (t.trans' (t.symm' hab) (hs hy))

theorem linked_single_eq_joined (s : Setoid NodeId) (e : Edge ω) :
    linked s [e] = joined s e.first e.second := by
  obtain ⟨hs, he⟩ := joined_le_iff.1 (le_refl (joined s e.first e.second))
  apply le_antisymm
  · exact linked_le_iff.2 ⟨hs, by simpa using he⟩
  · exact joined_le_iff.2 ⟨le_linked s [e], linked_of_mem s (List.mem_singleton_self e)⟩

/-- One edge links its endpoints' classes and nothing else. -/
theorem linked_single_iff : linked s [e] x y ↔
    s x y ∨ s x e.first ∧ s e.second y ∨ s x e.second ∧ s e.first y := by
  rw [linked_single_eq_joined]
  exact Iff.rfl

/-- If an edge joins two classes, and another edge links its endpoints just
    as well, then both have the same effect. -/
theorem linked_single_exchange {e' : Edge ω} (hnot : ¬ s e.first e.second)
    (h : linked s [e'] e.first e.second) : linked s [e] = linked s [e'] := by
  have hback : linked s [e] e'.first e'.second := by
    have hsymm : ∀ {x y}, s x y → s y x := s.symm'
    rw [linked_single_iff]
    rcases linked_single_iff.1 h with h | ⟨hx, hy⟩ | ⟨hx, hy⟩
    · exact absurd h hnot
    · exact .inr (.inl ⟨hsymm hx, hsymm hy⟩)
    · exact .inr (.inr ⟨hy, hx⟩)
  apply le_antisymm
  · exact linked_le_iff.2 ⟨le_linked s [e'], by simpa using h⟩
  · exact linked_le_iff.2 ⟨le_linked s [e], by simpa using hback⟩

/-! ## Merges in a partition -/

namespace Partition

/-- Whether both endpoints of an edge have been issued. -/
def holds (p : Partition) (e : Edge ω) : Bool :=
  decide (p.Issued e.first) && decide (p.Issued e.second)

theorem holds_iff {p : Partition} : p.holds e = true ↔ p.Issued e.first ∧ p.Issued e.second := by
  simp [holds]

/-- Which edges are held depends on the number of handles only. -/
theorem holds_congr {p p' : Partition} (h : p.size = p'.size) : p.holds = p'.holds (ω := ω) := by
  funext e
  rw [Bool.eq_iff_iff, holds_iff, holds_iff]
  simp only [Issued, h]

/-- A merge of issued handles joins their classes. -/
theorem WellLinked.classes_union_eq_joined {p : Partition} {a b : NodeId} (hp : p.WellLinked)
    (ha : p.Issued a) (hb : p.Issued b) : (p.union a b).classes = joined p.classes a b := by
  ext x y
  rw [hp.classes_union_iff]
  simp only [ha, hb, true_and]
  exact Iff.rfl

/-- Merging the endpoints of an edge adds the edge to what links handles. -/
theorem WellLinked.classes_union {p : Partition} (hp : p.WellLinked) (h : p.holds e = true) :
    (p.union e.first e.second).classes = linked p.classes [e] := by
  obtain ⟨hfirst, hsecond⟩ := holds_iff.1 h
  rw [hp.classes_union_eq_joined hfirst hsecond, linked_single_eq_joined]

/-- An edge with a foreign endpoint adds nothing. -/
theorem union_of_not_holds {p : Partition} (h : p.holds e = false) :
    p.union e.first e.second = p := by
  rw [holds, Bool.and_eq_false_iff, decide_eq_false_iff_not, decide_eq_false_iff_not] at h
  exact union_of_not_issued h

end Partition

end SpanForest
