import Mathlib.Data.Setoid.Basic
import Mathlib.Order.CompletePartialOrder
import SpanForest.Proofs.Partition.Chains

/-! # What a merge does

    A merge of two classes changes one link: the representative of one class,
    the *loser*, from then on links to that of the other, the *winner*.
    Everything else about merges follows from this.

    * **`merge_of_foreign`**: no branch of a merge links a foreign handle.
    * **`WellLinked.merge_eq`**: every branch links the loser to the winner.
    * **`WellLinked.find_union`**: the change of representatives.
    * **`WellLinked.union`**: merges keep partitions well-linked.
    * **`classes`**: the classes as an equivalence of handles, and
      **`classes_union_iff`**: a merge joins two of them.
-/

namespace SpanForest

namespace Partition

variable {p : Partition} {a b x y root : NodeId} {steps : Nat}

/-! ## Winner and loser -/

/-- The representative that stays one when `a` and `b` are merged. -/
def winner (p : Partition) (a b : NodeId) : NodeId :=
  if p.rank (p.find a) < p.rank (p.find b) then p.find b else p.find a

/-- The representative that gets a parent when `a` and `b` are merged. -/
def loser (p : Partition) (a b : NodeId) : NodeId :=
  if p.rank (p.find a) < p.rank (p.find b) then p.find a else p.find b

theorem winner_loser_cases (p : Partition) (a b : NodeId) :
    (p.winner a b = p.find a ∧ p.loser a b = p.find b) ∨
    (p.winner a b = p.find b ∧ p.loser a b = p.find a) := by
  unfold winner loser
  split
  · exact .inr ⟨rfl, rfl⟩
  · exact .inl ⟨rfl, rfl⟩

/-! ## The branches of a merge -/

theorem setParent_of_issued (hx : p.Issued x) (htarget : p.Issued y) :
    p.setParent x y = (true, p.link x y) := by
  simp [setParent, hx, htarget]

theorem setParent_of_foreign (h : ¬ p.Issued x ∨ ¬ p.Issued y) : p.setParent x y = (false, p) := by
  rcases h with h | h <;> simp [setParent, h]

theorem merge_of_find_eq (h : p.find a = p.find b) : p.merge a b = (false, p) := by
  simp [merge, h]

/-- A merge with a foreign representative changes nothing, whichever of the two
    would have been linked to the other. -/
theorem merge_of_foreign (h : ¬ p.Issued (p.find a) ∨ ¬ p.Issued (p.find b)) :
    p.merge a b = (false, p) := by
  unfold merge
  dsimp only
  split
  · rfl
  · cases hcmp : compare (p.rank (p.find a)) (p.rank (p.find b)) with
    | gt => exact setParent_of_foreign h.symm
    | lt =>
      -- No rank is below that of a foreign handle, so the other one is foreign.
      have hb : p.Issued (p.find b) := by
        by_contra hb
        have hlt := Nat.compare_eq_lt.1 hcmp
        rw [rank_of_not_issued hb] at hlt
        exact Nat.not_lt_zero _ hlt
      exact setParent_of_foreign (.inl (h.resolve_right (not_not_intro hb)))
    | eq =>
      dsimp only
      rw [setParent_of_foreign h.symm]
      rfl

/-- A merge with a foreign handle joins nothing. -/
theorem union_of_not_issued (h : ¬ p.Issued a ∨ ¬ p.Issued b) : p.union a b = p := by
  rw [union, merge_of_foreign]
  rcases h with h | h
  · exact .inl (by rwa [find_of_not_issued h])
  · exact .inr (by rwa [find_of_not_issued h])

/-- A merge of two classes links the loser to the winner, and raises the rank
    of the winner after a tie. -/
theorem WellLinked.merge_eq (hp : p.WellLinked) (ha : p.Issued (p.find a))
    (hb : p.Issued (p.find b)) (hne : p.find a ≠ p.find b) :
    p.merge a b = (true,
      if p.rank (p.find a) = p.rank (p.find b) then
        (p.link (p.loser a b) (p.winner a b)).bumpRank (p.winner a b)
      else p.link (p.loser a b) (p.winner a b)) := by
  unfold merge
  dsimp only
  rw [if_neg hne]
  cases hcmp : compare (p.rank (p.find a)) (p.rank (p.find b)) with
  | gt =>
    have hgt := Nat.compare_eq_gt.1 hcmp
    simp only [winner, loser, if_neg (Nat.lt_asymm hgt), if_neg (Nat.ne_of_gt hgt)]
    exact setParent_of_issued hb ha
  | lt =>
    have hlt := Nat.compare_eq_lt.1 hcmp
    simp only [winner, loser, if_pos hlt, if_neg (Nat.ne_of_lt hlt), hp.parent_find]
    exact setParent_of_issued ha hb
  | eq =>
    have heq := Nat.compare_eq_eq.1 hcmp
    have hge : ¬ p.rank (p.find a) < p.rank (p.find b) := by omega
    simp only [winner, loser, if_pos heq, if_neg hge, setParent_of_issued hb ha, if_true]

namespace WellLinked

theorem joins_iff_find (hp : p.WellLinked) : p.joins a b = true ↔
    p.Issued (p.find a) ∧ p.Issued (p.find b) ∧ p.find a ≠ p.find b := by
  by_cases hmerge : p.Issued (p.find a) ∧ p.Issued (p.find b) ∧ p.find a ≠ p.find b
  · obtain ⟨ha, hb, hne⟩ := hmerge
    simp [joins, hp.merge_eq ha hb hne, ha, hb, hne]
  · have hidle : p.merge a b = (false, p) := by
      by_cases heq : p.find a = p.find b
      · exact merge_of_find_eq heq
      · exact merge_of_foreign (by tauto)
    simp [joins, hidle, hmerge]

theorem joins_iff (hp : p.WellLinked) :
    p.joins a b = true ↔ p.Issued a ∧ p.Issued b ∧ p.find a ≠ p.find b := by
  rw [hp.joins_iff_find, hp.issued_find_iff, hp.issued_find_iff]

theorem union_of_not_joins (hp : p.WellLinked) (h : p.joins a b = false) : p.union a b = p := by
  by_cases heq : p.find a = p.find b
  · rw [Partition.union, merge_of_find_eq heq]
  · apply union_of_not_issued
    by_contra hissued
    simp [← Bool.not_eq_true, hp.joins_iff, heq] at h
    tauto

theorem union_eq (hp : p.WellLinked) (h : p.joins a b = true) : p.union a b =
    if p.rank (p.find a) = p.rank (p.find b) then
      (p.link (p.loser a b) (p.winner a b)).bumpRank (p.winner a b)
    else p.link (p.loser a b) (p.winner a b) := by
  obtain ⟨ha, hb, hne⟩ := hp.joins_iff_find.1 h
  rw [Partition.union, hp.merge_eq ha hb hne]

theorem issued_winner (hp : p.WellLinked) (h : p.joins a b = true) : p.Issued (p.winner a b) := by
  obtain ⟨ha, hb, -⟩ := hp.joins_iff_find.1 h
  rcases p.winner_loser_cases a b with ⟨hw, -⟩ | ⟨hw, -⟩ <;> rwa [hw]

theorem issued_loser (hp : p.WellLinked) (h : p.joins a b = true) : p.Issued (p.loser a b) := by
  obtain ⟨ha, hb, -⟩ := hp.joins_iff_find.1 h
  rcases p.winner_loser_cases a b with ⟨-, hl⟩ | ⟨-, hl⟩ <;> rwa [hl]

theorem winner_ne_loser (hp : p.WellLinked) (h : p.joins a b = true) :
    p.winner a b ≠ p.loser a b := by
  obtain ⟨-, -, hne⟩ := hp.joins_iff_find.1 h
  rcases p.winner_loser_cases a b with ⟨hw, hl⟩ | ⟨hw, hl⟩
  · rwa [hw, hl]
  · rw [hw, hl]
    exact hne.symm

end WellLinked

/-! ## Links -/

theorem parent_link (hx : p.Issued x) (target y : NodeId) :
    (p.link x target).parent y = if y = x then target else p.parent y := by
  have hlt : x.index < p.slots.size := hx
  by_cases hy : y = x
  · subst hy
    simp [parent, link, Array.getElem?_modify, Array.getElem?_eq_getElem hlt]
  · have hne : x.index ≠ y.index := fun heq => hy (NodeId.ext heq.symm)
    simp [parent, link, Array.getElem?_modify, hne, hy]

theorem parent_bumpRank (p : Partition) (x y : NodeId) :
    (p.bumpRank x).parent y = p.parent y := by
  unfold parent bumpRank
  rw [Array.getElem?_modify]
  split
  · cases p.slots[y.index]? <;> rfl
  · rfl

/-- A merge links the loser to the winner and changes no other link. -/
theorem WellLinked.parent_union (hp : p.WellLinked) (h : p.joins a b = true) (y : NodeId) :
    (p.union a b).parent y = if y = p.loser a b then p.winner a b else p.parent y := by
  rw [hp.union_eq h]
  split
  · rw [parent_bumpRank, parent_link (hp.issued_loser h)]
  · exact parent_link (hp.issued_loser h) _ y

@[simp] theorem issued_union : (p.union a b).Issued x ↔ p.Issued x := by
  simp [Issued]

/-! ## Representatives -/

namespace WellLinked

theorem parent_winner (hp : p.WellLinked) (a b : NodeId) :
    p.parent (p.winner a b) = p.winner a b := by
  rcases p.winner_loser_cases a b with ⟨hw, -⟩ | ⟨hw, -⟩ <;> rw [hw, hp.parent_find]

theorem parent_loser (hp : p.WellLinked) (a b : NodeId) :
    p.parent (p.loser a b) = p.loser a b := by
  rcases p.winner_loser_cases a b with ⟨-, hl⟩ | ⟨-, hl⟩ <;> rw [hl, hp.parent_find]

/-- A merge prolongs the chains that ended at the loser by one link to the
    winner, and leaves all other chains as they are. -/
theorem leads_union (hp : p.WellLinked) (h : p.joins a b = true)
    (hchain : p.Leads steps x root) :
    if root = p.loser a b then (p.union a b).Leads (steps + 1) x (p.winner a b)
    else (p.union a b).Leads steps x root := by
  induction hchain with
  | @stop x hx =>
    split
    -- The chain ended at the loser, which now has the winner as its parent.
    · rename_i hloser
      have hlink : (p.union a b).parent x = p.winner a b := by
        rw [hp.parent_union h, if_pos hloser]
      have hend : (p.union a b).parent (p.winner a b) = p.winner a b := by
        rw [hp.parent_union h, if_neg (hp.winner_ne_loser h), hp.parent_winner]
      refine .follow ?_ ?_
      · rw [hlink, hloser]
        exact hp.winner_ne_loser h
      · rw [hlink]
        exact .stop hend
    · rename_i hother
      exact .stop (by rw [hp.parent_union h, if_neg hother, hx])
  | @follow steps x root hne _ ih =>
    -- A handle with a parent of its own is no loser, so its link stays.
    have hother : x ≠ p.loser a b := by
      rintro rfl
      exact hne (hp.parent_loser a b)
    have hsame : (p.union a b).parent x = p.parent x := by
      rw [hp.parent_union h, if_neg hother]
    rw [← hsame] at hne
    rw [← hsame] at ih
    split at ih
    · rename_i hloser
      rw [if_pos hloser]
      exact .follow hne ih
    · rename_i hkept
      rw [if_neg hkept]
      exact .follow hne ih

/-- A merge of two classes leaves one representative fewer. -/
theorem componentCount_union (hp : p.WellLinked) (h : p.joins a b = true) :
    (p.union a b).componentCount + 1 = p.componentCount := by
  -- Set the loser apart: the other handles count as before.
  have hmem : p.loser a b ∈ p.handles := mem_handles.2 (hp.issued_loser h)
  have hsplit := List.perm_cons_erase hmem
  have hsame : (p.union a b).handles = p.handles := by
    simp [handles]
  have hold : p.isRepresentative (p.loser a b) = true := by
    simp [isRepresentative, hp.parent_loser]
  have hnew : (p.union a b).isRepresentative (p.loser a b) = false := by
    simp [isRepresentative, hp.parent_union h, hp.winner_ne_loser h]
  have hrest : (p.handles.erase (p.loser a b)).countP (p.union a b).isRepresentative =
      (p.handles.erase (p.loser a b)).countP p.isRepresentative := by
    apply List.countP_congr
    intro y hy
    have hother : y ≠ p.loser a b := (p.nodup_handles.mem_erase_iff.1 hy).1
    simp [isRepresentative, hp.parent_union h, hother]
  rw [componentCount, componentCount, hsame, hsplit.countP_eq, hsplit.countP_eq,
    List.countP_cons_of_pos hold, List.countP_cons_of_neg (by simp [hnew]), hrest]

theorem union (hp : p.WellLinked) (a b : NodeId) : (p.union a b).WellLinked := by
  cases h : p.joins a b with
  | false => rwa [hp.union_of_not_joins h]
  | true =>
    refine ⟨?_, ?_⟩
    · intro x hx
      rw [issued_union] at hx
      rw [issued_union, hp.parent_union h]
      split
      · exact hp.issued_winner h
      · exact hp.issued_parent hx
    · intro x
      -- The longer chains are paid for by the representative that is gone.
      obtain ⟨steps, root, hchain, hsteps⟩ := hp.leads x
      have hcount := hp.componentCount_union h
      have hlonger := hp.leads_union h hchain
      rw [size_union]
      split at hlonger
      · exact ⟨_, _, hlonger, by omega⟩
      · exact ⟨_, _, hlonger, by omega⟩

/-- After a merge the winner represents what the loser represented. -/
theorem find_union (hp : p.WellLinked) (h : p.joins a b = true) (x : NodeId) :
    (p.union a b).find x = if p.find x = p.loser a b then p.winner a b else p.find x := by
  obtain ⟨_, hchain, -⟩ := hp.leads_find x
  have hlonger := hp.leads_union h hchain
  split at hlonger
  · rename_i hloser
    rw [if_pos hloser]
    exact (hp.union a b).find_eq_of_leads hlonger
  · rename_i hother
    rw [if_neg hother]
    exact (hp.union a b).find_eq_of_leads hlonger

end WellLinked

/-! ## Classes -/

/-- The classes of a partition: two handles are equivalent when they have the
    same representative. A foreign handle is equivalent to itself only. -/
def classes (p : Partition) : Setoid NodeId := Setoid.ker p.find

theorem classes_iff : p.classes x y ↔ p.find x = p.find y := Iff.rfl

theorem sameSet_iff : p.sameSet x y = true ↔ p.classes x y := by
  rw [sameSet, beq_iff_eq, classes_iff]

theorem sameSet_eq_false_iff : p.sameSet x y = false ↔ ¬ p.classes x y := by
  rw [← sameSet_iff, Bool.not_eq_true]

theorem classes_empty : empty.classes = ⊥ := by
  ext x y
  rw [classes_iff, find_of_not_issued (Nat.not_lt_zero _), find_of_not_issued (Nat.not_lt_zero _)]
  rfl

namespace WellLinked

theorem classes_makeSet (hp : p.WellLinked) : p.makeSet.classes = p.classes := by
  ext x y
  rw [classes_iff, classes_iff, hp.find_makeSet, hp.find_makeSet]

/-- A merge of issued handles relates the class of the one to the class of
    the other; a merge with a foreign handle relates nothing. -/
theorem classes_union_iff (hp : p.WellLinked) :
    (p.union a b).classes x y ↔ p.classes x y ∨ (p.Issued a ∧ p.Issued b ∧
      (p.classes x a ∧ p.classes b y ∨ p.classes x b ∧ p.classes a y)) := by
  cases h : p.joins a b with
  | false =>
    rw [hp.union_of_not_joins h]
    constructor
    · exact .inl
    · rintro (hxy | ⟨ha, hb, hlinks⟩)
      · exact hxy
      -- Both handles are issued, so only a common class kept them from merging.
      · have hab : p.find a = p.find b := by
          by_contra hne
          exact absurd (hp.joins_iff.2 ⟨ha, hb, hne⟩) (by simp [h])
        simp only [classes_iff] at hlinks ⊢
        rcases hlinks with ⟨hx, hy⟩ | ⟨hx, hy⟩
        · rw [hx, hab, hy]
        · rw [hx, ← hab, hy]
  | true =>
    obtain ⟨ha, hb, hne⟩ := hp.joins_iff.1 h
    simp only [classes_iff, hp.find_union h, ha, hb, true_and]
    rcases p.winner_loser_cases a b with ⟨hw, hl⟩ | ⟨hw, hl⟩ <;> rw [hw, hl] <;> grind

/-- A merge divides no class. -/
theorem classes_le_union (hp : p.WellLinked) (a b : NodeId) :
    p.classes ≤ (p.union a b).classes := by
  intro x y hxy
  exact hp.classes_union_iff.2 (.inl hxy)

end WellLinked

end Partition

end SpanForest
