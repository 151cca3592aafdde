import SpanForest.Proofs.Arrangement
import SpanForest.Proofs.Selection.Sift

/-! # Edges in a mirror

    Of `n` edges, the mirror image of the one that was added first is the one
    that was added last, and so on. The tie-breaks are mirror images of each
    other: to prefer the latest edge is to prefer the earliest one in the
    mirror. What is selected depends on the order of examination alone, so it
    is mirrored as well, and the same sets are merged.

    * **`compare_countDown`**: counting down from a bound turns an order around.
    * **`TieBreak.key`**: so there is an ascending key for each tie-break.
    * **`Edge.mirror`**: the mirror image of an edge, whose place is the key of
      the edge.
    * **`Arranged.mirror`**: mirrored edges are arranged as the edges are.
    * **`Partition.absorb_mirror`**, **`Partition.sift_mirror`**: merging and
      sifting do not look at places.
-/

namespace SpanForest

variable {ω : Type u} {n : Nat} {a b : Edge ω} {edges order : List (Edge ω)}

/-! ## Counting down -/

/-- Numbers are in the opposite order when they are counted down from a bound. -/
theorem compare_countDown {bound i j : Nat} (hi : i ≤ bound) (hj : j ≤ bound) :
    compare (bound - i) (bound - j) = compare j i := by
  rcases Nat.lt_trichotomy i j with hlt | rfl | hlt
  · rw [Nat.compare_eq_gt.2 hlt]
    exact Nat.compare_eq_gt.2 (by omega)
  · rw [Nat.compare_eq_eq.2 rfl, Nat.compare_eq_eq.2 rfl]
  · rw [Nat.compare_eq_lt.2 hlt]
    exact Nat.compare_eq_lt.2 (by omega)

namespace TieBreak

/-- The key by which a place is preferred: the place itself, or how far it is
    from a bound. -/
def key (bound : Nat) : TieBreak → Nat → Nat
  | .insertionOrder, place => place
  | .latestFirst, place => bound - place

/-- The smaller key comes first. Any bound will do that no place exceeds, be it
    the last place or the largest number of a machine word. -/
theorem compareSequence_eq_compare_key (tieBreak : TieBreak) {bound i j : Nat} (hi : i ≤ bound)
    (hj : j ≤ bound) :
    tieBreak.compareSequence i j = compare (tieBreak.key bound i) (tieBreak.key bound j) := by
  cases tieBreak with
  | insertionOrder => rfl
  | latestFirst => exact (compare_countDown hi hj).symm

end TieBreak

/-! ## Mirror images -/

namespace Edge

/-- The mirror image of one of `n` edges: the place is counted from the end. -/
def mirror (n : Nat) (e : Edge ω) : Edge ω := { e with sequence := n - 1 - e.sequence }

/-- All that was said of an edge when it was added. -/
def stated (e : Edge ω) : NodeId × NodeId × ω := (e.first, e.second, e.weight)

/-- What was said of an edge and its place are all there is. -/
theorem eq_of_stated (hstated : a.stated = b.stated) (hsequence : a.sequence = b.sequence) :
    a = b := by
  obtain ⟨first, second, weight, place⟩ := a
  obtain ⟨first', second', weight', place'⟩ := b
  obtain ⟨rfl, hrest⟩ := Prod.mk.inj hstated
  obtain ⟨rfl, rfl⟩ := Prod.mk.inj hrest
  obtain rfl : place = place' := hsequence
  rfl

/-- So lists of edges may be compared in these two respects. -/
theorem list_eq_of_stated {more : List (Edge ω)} (hstated : edges.map stated = more.map stated)
    (hsequence : edges.map Edge.sequence = more.map Edge.sequence) : edges = more := by
  have hinj : Function.Injective fun e : Edge ω => (e.stated, e.sequence) :=
    fun _ _ h => eq_of_stated (congrArg Prod.fst h) (congrArg Prod.snd h)
  have hzip : ∀ list : List (Edge ω), list.map (fun e => (e.stated, e.sequence)) =
      (list.map stated).zip (list.map Edge.sequence) := fun _ => (List.zip_map' ..).symm
  apply hinj.list_map
  rw [hzip, hzip, hstated, hsequence]

/-- The place of a mirror image is the key of the edge. -/
theorem sequence_mirror (n : Nat) (e : Edge ω) :
    (e.mirror n).sequence = TieBreak.latestFirst.key (n - 1) e.sequence := rfl

variable [Ord ω]

/-- To prefer the latest edge is to prefer the earliest one in the mirror. -/
theorem compareUnder_mirror (ha : a.sequence < n) (hb : b.sequence < n) :
    (a.mirror n).compareUnder .insertionOrder (b.mirror n) = a.compareUnder .latestFirst b := by
  have hkey := TieBreak.latestFirst.compareSequence_eq_compare_key
    (Nat.le_sub_one_of_lt ha) (Nat.le_sub_one_of_lt hb)
  rw [← sequence_mirror, ← sequence_mirror] at hkey
  exact congrArg (a.compareWeight b).then hkey.symm

end Edge

/-- The mirrored edges come in the mirrored order. -/
theorem Arranged.mirror [Ord ω] {mirrored : List (Edge ω)} (h : Arranged .latestFirst edges order)
    (hbelow : ∀ e ∈ edges, e.sequence < n) (hmirrored : mirrored.Perm (edges.map (Edge.mirror n))) :
    Arranged .insertionOrder mirrored (order.map (Edge.mirror n)) where
  perm := (h.perm.map _).trans hmirrored.symm
  ascending := by
    rw [List.pairwise_map]
    refine h.ascending.imp_of_mem ?_
    intro a b ha hb hlt
    rw [Edge.compareUnder_mirror (hbelow a (h.perm.mem_iff.1 ha)) (hbelow b (h.perm.mem_iff.1 hb))]
    exact hlt

/-! ## Merging and sifting -/

namespace Partition

variable {p : Partition}

/-- Merging looks at endpoints only. -/
theorem absorb_mirror (p : Partition) (n : Nat) (edges : List (Edge ω)) :
    p.absorb (edges.map (Edge.mirror n)) = p.absorb edges :=
  List.foldl_map

/-- Sifting looks at endpoints only. -/
theorem sift_mirror (p : Partition) (n : Nat) (edges : List (Edge ω)) :
    p.sift (edges.map (Edge.mirror n)) = (p.sift edges).map (Edge.mirror n) := by
  induction edges generalizing p with
  | nil => rfl
  | cons e edges ih =>
    rw [List.map_cons]
    cases h : p.sameSet e.first e.second with
    | true =>
      have himage : p.sameSet (e.mirror n).first (e.mirror n).second = true := h
      rw [sift_cons_of_sameSet h, sift_cons_of_sameSet himage, ih]
    | false =>
      have himage : p.sameSet (e.mirror n).first (e.mirror n).second = false := h
      rw [sift_cons_of_not_sameSet h, sift_cons_of_not_sameSet himage, ih]
      rfl

end Partition

end SpanForest
