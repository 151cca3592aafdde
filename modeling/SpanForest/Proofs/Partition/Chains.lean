import Mathlib.Data.List.Permutation
import SpanForest.Partition

/-! # Chains of links

    Every operation on a partition starts with `find`, which follows links for
    a number of steps that is fixed in advance. This module shows that the
    number always suffices.

    * **`Leads p n x r`**: a chain of `n` links leads from `x` to the
      representative `r`.
    * **`WellLinked`**: links stay among the issued handles, and every chain
      has at most as many links as there are handles that represent nothing.
      A merge makes one more such handle and lengthens chains by at most one
      link, so the bound survives without a look at the ranks.
    * **`find_eq_of_leads`**: in a well-linked partition `find` computes the
      end of the chain.
-/

namespace SpanForest

namespace Partition

/-! ## Chains -/

/-- A chain of exactly `steps` links leads from a handle to a representative. -/
inductive Leads (p : Partition) : Nat → NodeId → NodeId → Prop where
  /-- A representative is at the end of its chain. -/
  | stop {x : NodeId} : p.parent x = x → Leads p 0 x x
  /-- Any other handle is followed by its parent. -/
  | follow {steps : Nat} {x root : NodeId} : p.parent x ≠ x →
      Leads p steps (p.parent x) root → Leads p (steps + 1) x root

variable {p : Partition} {x root : NodeId} {steps : Nat}

theorem Leads.parent_root (h : p.Leads steps x root) : p.parent root = root := by
  induction h with
  | stop hx => exact hx
  | follow _ _ ih => exact ih

/-- A chain has one end. -/
theorem Leads.root_unique {steps' : Nat} {root' : NodeId} (h : p.Leads steps x root)
    (h' : p.Leads steps' x root') : root = root' := by
  induction h generalizing steps' with
  | stop hx =>
    cases h' with
    | stop _ => rfl
    | follow hne _ => exact absurd hx hne
  | follow hne _ ih =>
    cases h' with
    | stop hx => exact absurd hx hne
    | follow _ htail => exact ih htail

/-- Enough steps reach the end of the chain. -/
theorem Leads.climb_eq (h : p.Leads steps x root) {fuel : Nat} (hfuel : steps ≤ fuel) :
    p.climb fuel x = root := by
  induction h generalizing fuel with
  | stop hx => cases fuel <;> simp [climb, hx]
  | follow hne _ ih =>
    obtain ⟨fuel, rfl⟩ := Nat.exists_eq_succ_of_ne_zero (Nat.ne_of_gt (Nat.lt_of_lt_of_le
      (Nat.succ_pos _) hfuel))
    rw [climb, if_neg hne]
    exact ih (Nat.le_of_succ_le_succ hfuel)

/-! ## Well-linked partitions -/

/-- Links stay among the issued handles, and no chain has more links than
    there are issued handles that represent no class. -/
structure WellLinked (p : Partition) : Prop where
  /-- The parent of an issued handle has been issued. -/
  issued_parent : ∀ {x}, p.Issued x → p.Issued (p.parent x)
  /-- Every handle has a chain, and the chain is short. -/
  leads : ∀ x, ∃ steps root, p.Leads steps x root ∧ steps + p.componentCount ≤ p.size

theorem mem_handles : x ∈ p.handles ↔ p.Issued x := by
  constructor
  · intro hx
    obtain ⟨i, hi, rfl⟩ := List.mem_map.1 hx
    exact List.mem_range.1 hi
  · intro hx
    exact List.mem_map.2 ⟨x.index, List.mem_range.2 hx, rfl⟩

theorem nodup_handles (p : Partition) : p.handles.Nodup := by
  have hinj : Function.Injective NodeId.mk := fun _ _ h => congrArg NodeId.index h
  exact List.nodup_range.map hinj

namespace WellLinked

theorem leads_find (hp : p.WellLinked) (x : NodeId) :
    ∃ steps, p.Leads steps x (p.find x) ∧ steps + p.componentCount ≤ p.size := by
  obtain ⟨steps, root, hchain, hsteps⟩ := hp.leads x
  have hfind : p.find x = root := hchain.climb_eq (by omega)
  exact ⟨steps, hfind ▸ hchain, hsteps⟩

/-- `find` computes the end of the chain. -/
theorem find_eq_of_leads (hp : p.WellLinked) (h : p.Leads steps x root) : p.find x = root := by
  obtain ⟨_, hchain, _⟩ := hp.leads_find x
  exact hchain.root_unique h

theorem parent_find (hp : p.WellLinked) (x : NodeId) : p.parent (p.find x) = p.find x := by
  obtain ⟨_, hchain, _⟩ := hp.leads_find x
  exact hchain.parent_root

theorem find_of_parent_eq (hp : p.WellLinked) (h : p.parent x = x) : p.find x = x :=
  hp.find_eq_of_leads (.stop h)

theorem isRepresentative_iff (hp : p.WellLinked) :
    p.isRepresentative x = true ↔ p.find x = x := by
  rw [isRepresentative, beq_iff_eq]
  constructor
  · exact hp.find_of_parent_eq
  · intro h
    rw [← h]
    exact hp.parent_find x

theorem find_find (hp : p.WellLinked) (x : NodeId) : p.find (p.find x) = p.find x :=
  hp.find_of_parent_eq (hp.parent_find x)

/-- Only issued handles are represented by issued handles. -/
theorem issued_find_iff (hp : p.WellLinked) : p.Issued (p.find x) ↔ p.Issued x := by
  constructor
  · intro hroot
    by_contra hx
    exact hx (find_of_not_issued hx ▸ hroot)
  · intro hx
    -- From an issued handle the chain never leaves the issued handles.
    obtain ⟨_, hchain, -⟩ := hp.leads_find x
    generalize p.find x = root at hchain
    induction hchain with
    | stop _ => exact hx
    | follow _ _ ih => exact ih (hp.issued_parent hx)

end WellLinked

/-! ## Growing -/

theorem wellLinked_empty : empty.WellLinked where
  issued_parent := fun hx => absurd hx (Nat.not_lt_zero _)
  leads := fun x => ⟨0, x, .stop (parent_of_not_issued (Nat.not_lt_zero _)), Nat.le_refl 0⟩

/-- A new handle links to itself, as it did while it was foreign. -/
@[simp] theorem parent_makeSet (p : Partition) (x : NodeId) : p.makeSet.parent x = p.parent x := by
  by_cases hx : p.Issued x
  · have hlt : x.index < p.slots.size := hx
    simp [parent, makeSet, Array.getElem?_push_lt hlt, Array.getElem?_eq_getElem hlt]
  · rw [parent_of_not_issued hx]
    by_cases hnew : x.index = p.slots.size
    · have hid : p.nextId = x := NodeId.ext hnew.symm
      simp [parent, makeSet, hnew, hid]
    · apply parent_of_not_issued
      intro hlt
      have hle : x.index < p.size + 1 := p.size_makeSet ▸ hlt
      simp only [Issued, size] at hx hle
      omega

theorem issued_makeSet : p.makeSet.Issued x ↔ p.Issued x ∨ x = p.nextId := by
  rw [Issued, size_makeSet, Nat.lt_succ_iff_lt_or_eq, NodeId.ext_iff]
  rfl

theorem leads_makeSet : p.makeSet.Leads steps x root ↔ p.Leads steps x root := by
  constructor
  · intro h
    induction h with
    | stop hx => exact .stop (by rwa [parent_makeSet] at hx)
    | follow hne _ ih =>
      rw [parent_makeSet] at hne ih
      exact .follow hne ih
  · intro h
    induction h with
    | stop hx => exact .stop (by rwa [parent_makeSet])
    | follow hne _ ih => exact .follow (by rwa [parent_makeSet]) (by rwa [parent_makeSet])

theorem not_issued_nextId (p : Partition) : ¬ p.Issued p.nextId :=
  Nat.lt_irrefl p.size

theorem handles_makeSet (p : Partition) : p.makeSet.handles = p.handles ++ [p.nextId] := by
  simp [handles, List.range_succ, nextId]

@[simp] theorem componentCount_makeSet (p : Partition) :
    p.makeSet.componentCount = p.componentCount + 1 := by
  have hsame : p.makeSet.isRepresentative = p.isRepresentative := by
    funext x
    simp [isRepresentative]
  have hnew : p.isRepresentative p.nextId = true := by
    rw [isRepresentative, parent_of_not_issued p.not_issued_nextId]
    exact beq_self_eq_true _
  simp [componentCount, handles_makeSet, hsame, hnew]

theorem WellLinked.makeSet (hp : p.WellLinked) : p.makeSet.WellLinked where
  issued_parent := by
    intro x hx
    rw [parent_makeSet]
    by_cases hold : p.Issued x
    · exact issued_makeSet.2 (.inl (hp.issued_parent hold))
    · rwa [parent_of_not_issued hold]
  leads := by
    intro x
    obtain ⟨steps, root, hchain, hsteps⟩ := hp.leads x
    refine ⟨steps, root, leads_makeSet.2 hchain, ?_⟩
    rw [componentCount_makeSet, size_makeSet]
    omega

theorem WellLinked.find_makeSet (hp : p.WellLinked) (x : NodeId) :
    p.makeSet.find x = p.find x := by
  obtain ⟨_, hchain, _⟩ := hp.leads_find x
  exact hp.makeSet.find_eq_of_leads (leads_makeSet.2 hchain)

end Partition

end SpanForest
