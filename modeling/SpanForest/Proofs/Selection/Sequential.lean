import SpanForest.Proofs.Arrangement
import SpanForest.Proofs.Selection.Sift

/-! # Sequential selection

    The plain account of which edges belong to a spanning forest: go through
    the edges in the order of examination, and keep each one whose endpoints
    are not yet linked by the sets of the graph and the edges kept before.
    It mentions no traversal and no representative.

    * **`Graph.selection`**: the edges that are kept.
    * **`selection_eq_sift`**: sifting computes them.
-/

namespace SpanForest

namespace Graph

variable {α : Type u} {ω : Type v} {g : Graph α ω}

open Classical in
/-- Goes on with the selection after some edges have been kept. An edge with an
    endpoint that is no node of the graph may be kept, but links nothing. -/
noncomputable def selectFrom (g : Graph α ω) (kept : List (Edge ω)) :
    List (Edge ω) → List (Edge ω)
  | [] => kept
  | e :: rest =>
    if linked g.partition.classes (kept.filter g.joinsNodes) e.first e.second then
      g.selectFrom kept rest
    else g.selectFrom (kept ++ [e]) rest

/-- The edges that sequential selection keeps of a list. -/
noncomputable def selection (g : Graph α ω) (order : List (Edge ω)) : List (Edge ω) :=
  g.selectFrom [] order

theorem Lawful.sameSet_absorb_iff (hg : g.Lawful) (kept : List (Edge ω)) (e : Edge ω) :
    (g.partition.absorb kept).sameSet e.first e.second = true ↔
      linked g.partition.classes (kept.filter g.joinsNodes) e.first e.second := by
  have hholds : g.partition.holds = g.joinsNodes := funext hg.holds_eq_joinsNodes
  rw [Partition.sameSet_iff, hg.wellLinked.classes_absorb, hholds]

theorem Lawful.selectFrom_eq (hg : g.Lawful) (kept rest : List (Edge ω)) :
    g.selectFrom kept rest = kept ++ (g.partition.absorb kept).sift rest := by
  induction rest generalizing kept with
  | nil => simp [selectFrom]
  | cons e rest ih =>
    -- Both sides ask the same question about the edge.
    have hiff := hg.sameSet_absorb_iff kept e
    rw [selectFrom]
    split
    · rename_i hlinked
      rw [ih, Partition.sift_cons_of_sameSet (hiff.2 hlinked)]
    · rename_i hapart
      have hsame : (g.partition.absorb kept).sameSet e.first e.second = false :=
        Bool.eq_false_iff.2 fun h => hapart (hiff.1 h)
      rw [ih, Partition.sift_cons_of_not_sameSet hsame, Partition.absorb_append,
        List.append_assoc]
      rfl

/-- Sifting through the partition of the graph selects sequentially. -/
theorem Lawful.selection_eq_sift (hg : g.Lawful) (order : List (Edge ω)) :
    g.selection order = g.partition.sift order := by
  rw [selection, hg.selectFrom_eq]
  rfl

end Graph

end SpanForest
