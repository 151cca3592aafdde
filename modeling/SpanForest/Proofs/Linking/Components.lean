import Mathlib.Data.Set.Card
import SpanForest.Forest
import SpanForest.Proofs.Linking.Independent

/-! # Counting components

    The first handles of a graph are its nodes; edges link them into
    components. Independent edges take away one component each.

    * **`classCount s n`**: how many classes of `s` the first `n` handles
      belong to.
    * **`componentCount_eq_classCount`**: a partition counts the classes of its
      handles.
    * **`components n edges`**: how many components the edges leave.
    * **`components_add_length`**: for edges without a cycle, as many as nodes
      less edges.
    * **`components_eq_one_iff`**: one component means that there are nodes
      and all of them are linked.
    * **`Forest.componentCount_ofEdges`**, **`Forest.isTree_ofEdges_iff`**: so
      the summary of a forest without a cycle is right.
-/

namespace SpanForest

variable {ω : Type u} {s : Setoid NodeId} {e : Edge ω} {edges : List (Edge ω)} {n : Nat}

/-! ## Classes of the first handles -/

/-- The handles `0 .. n - 1`. -/
def firstHandles (n : Nat) : Set NodeId := {x | x.index < n}

/-- The classes that the first `n` handles belong to. -/
def classesOf (s : Setoid NodeId) (n : Nat) : Set (Quotient s) :=
  Quotient.mk s '' firstHandles n

/-- The number of classes that the first `n` handles belong to. -/
noncomputable def classCount (s : Setoid NodeId) (n : Nat) : Nat :=
  (classesOf s n).ncard

theorem firstHandles_eq_image (n : Nat) :
    firstHandles n = NodeId.mk '' (Finset.range n : Set Nat) := by
  ext x
  constructor
  · intro hx
    exact ⟨x.index, Finset.mem_coe.2 (Finset.mem_range.2 hx), rfl⟩
  · rintro ⟨i, hi, rfl⟩
    exact Finset.mem_range.1 (Finset.mem_coe.1 hi)

theorem finite_classesOf (s : Setoid NodeId) (n : Nat) : (classesOf s n).Finite := by
  rw [classesOf, firstHandles_eq_image]
  exact ((Finset.finite_toSet _).image _).image _

theorem mem_classesOf {x : NodeId} (hx : x.index < n) : Quotient.mk s x ∈ classesOf s n :=
  ⟨x, hx, rfl⟩

theorem ncard_firstHandles (n : Nat) : (firstHandles n).ncard = n := by
  have hid : Function.Injective NodeId.mk := fun _ _ h => congrArg NodeId.index h
  rw [firstHandles_eq_image, Set.ncard_image_of_injective _ hid, Set.ncard_coe_finset,
    Finset.card_range]

/-- Without any links, every handle is a class of its own. -/
theorem classCount_bot (n : Nat) : classCount ⊥ n = n := by
  have hmk : Function.Injective (Quotient.mk (⊥ : Setoid NodeId)) := fun _ _ h => Quotient.exact h
  rw [classCount, classesOf, Set.ncard_image_of_injective _ hmk, ncard_firstHandles]

/-- An edge between two classes makes one of them. -/
theorem classCount_linked_single (hfirst : e.first.index < n) (hsecond : e.second.index < n)
    (h : ¬ s e.first e.second) : classCount (linked s [e]) n + 1 = classCount s n := by
  -- The coarser classes are the images of the finer ones, and only that of
  -- the second endpoint is the image of another one as well.
  let coarsen : Quotient s → Quotient (linked s [e]) := Setoid.map_of_le (le_linked s [e])
  let second : Quotient s := Quotient.mk s e.second
  have himage : classesOf (linked s [e]) n = coarsen '' (classesOf s n \ {second}) := by
    ext c
    constructor
    · rintro ⟨x, hx, rfl⟩
      by_cases hclass : s x e.second
      · refine ⟨Quotient.mk s e.first, ⟨mem_classesOf hfirst, fun heq => ?_⟩, ?_⟩
        · exact h (Quotient.exact heq)
        · exact Quotient.sound (linked_single_iff.2 (.inr (.inl
            ⟨s.refl' _, s.symm' hclass⟩)))
      · exact ⟨Quotient.mk s x, ⟨mem_classesOf hx, fun heq => hclass (Quotient.exact heq)⟩, rfl⟩
    · rintro ⟨_, ⟨⟨x, hx, rfl⟩, _⟩, rfl⟩
      exact mem_classesOf hx
  have hinj : Set.InjOn coarsen (classesOf s n \ {second}) := by
    rintro _ ⟨⟨x, -, rfl⟩, hx⟩ _ ⟨⟨y, -, rfl⟩, hy⟩ heq
    rcases linked_single_iff.1 (Quotient.exact heq) with hxy | ⟨-, hy'⟩ | ⟨hx', -⟩
    · exact Quotient.sound hxy
    · exact absurd (Quotient.sound (s.symm' hy')) hy
    · exact absurd (Quotient.sound hx') hx
  rw [classCount, himage, hinj.ncard_image]
  exact Set.ncard_sdiff_singleton_add_one (mem_classesOf hsecond) (finite_classesOf s n)

/-- Independent edges take away one class each. -/
theorem Independent.classCount_add_length (h : Independent s edges)
    (hnodes : ∀ e ∈ edges, e.first.index < n ∧ e.second.index < n) :
    classCount (linked s edges) n + edges.length = classCount s n := by
  induction edges generalizing s with
  | nil => simp
  | cons e edges ih =>
    have hrest := ih h.2 fun e' he' => hnodes e' (List.mem_cons_of_mem e he')
    obtain ⟨hfirst, hsecond⟩ := hnodes e List.mem_cons_self
    have hone := classCount_linked_single hfirst hsecond h.1
    rw [linked_cons, List.length_cons]
    omega

theorem classCount_eq_one_iff : classCount s n = 1 ↔
    0 < n ∧ ∀ x y : NodeId, x.index < n → y.index < n → s x y := by
  rw [classCount, Set.ncard_eq_one]
  constructor
  · rintro ⟨c, hc⟩
    have hall : ∀ x : NodeId, x.index < n → Quotient.mk s x = c := by
      intro x hx
      have hmem : Quotient.mk s x ∈ classesOf s n := mem_classesOf hx
      rwa [hc] at hmem
    -- The one class has a member, so there is a node.
    have hne : (classesOf s n).Nonempty := hc ▸ Set.singleton_nonempty c
    obtain ⟨_, x, hx, -⟩ := hne
    exact ⟨Nat.zero_lt_of_lt hx, fun x y hx hy =>
      Quotient.exact ((hall x hx).trans (hall y hy).symm)⟩
  · rintro ⟨hpos, hall⟩
    refine ⟨Quotient.mk s ⟨0⟩, Set.eq_singleton_iff_unique_mem.2 ⟨mem_classesOf hpos, ?_⟩⟩
    rintro _ ⟨x, hx, rfl⟩
    exact Quotient.sound (hall x ⟨0⟩ hx hpos)

/-! ## Classes of a partition -/

/-- Each class of issued handles has one representative, so that counting
    representatives counts classes. -/
theorem Partition.WellLinked.componentCount_eq_classCount {p : Partition} (hp : p.WellLinked) :
    p.componentCount = classCount p.classes p.size := by
  let roots := (p.handles.filter p.isRepresentative).toFinset
  have hmem : ∀ x, x ∈ roots ↔ p.Issued x ∧ p.parent x = x := by
    intro x
    simp [roots, mem_handles, isRepresentative]
  have hcard : p.componentCount = roots.card := by
    rw [componentCount, List.countP_eq_length_filter,
      List.toFinset_card_of_nodup (p.nodup_handles.filter _)]
  have hinj : Set.InjOn (Quotient.mk p.classes) roots := by
    intro x hx y hy heq
    have hfind : p.find x = p.find y := Quotient.exact heq
    rwa [hp.find_of_parent_eq ((hmem x).1 hx).2, hp.find_of_parent_eq ((hmem y).1 hy).2] at hfind
  have himage : classesOf p.classes p.size = Quotient.mk p.classes '' roots := by
    ext c
    constructor
    · rintro ⟨x, hx, rfl⟩
      have hroot : p.find x ∈ roots := (hmem _).2 ⟨hp.issued_find_iff.2 hx, hp.parent_find x⟩
      exact ⟨p.find x, hroot, Quotient.sound (hp.find_find x)⟩
    · rintro ⟨x, hx, rfl⟩
      exact mem_classesOf ((hmem x).1 hx).1
  rw [hcard, classCount, himage, hinj.ncard_image, Set.ncard_coe_finset]

/-! ## Components -/

/-- The number of connected components of the graph whose nodes are the first
    `n` handles and which has the given edges. -/
noncomputable def components (n : Nat) (edges : List (Edge ω)) : Nat :=
  classCount (linked ⊥ edges) n

/-- Edges without a cycle leave as many components as nodes less edges. -/
theorem components_add_length (h : Independent ⊥ edges)
    (hnodes : ∀ e ∈ edges, e.first.index < n ∧ e.second.index < n) :
    components n edges + edges.length = n := by
  rw [components, h.classCount_add_length hnodes, classCount_bot]

theorem components_eq_one_iff : components n edges = 1 ↔
    0 < n ∧ ∀ x y : NodeId, x.index < n → y.index < n → linked ⊥ edges x y :=
  classCount_eq_one_iff

/-! ## Forests -/

namespace Forest

variable {edges : Array (Edge ω)} (h : Independent ⊥ edges.toList)
  (hnodes : ∀ e ∈ edges.toList, e.first.index < n ∧ e.second.index < n)
include h hnodes

/-- There are never more edges than nodes, so the subtraction is exact. -/
theorem componentCount_add_size : (ofEdges edges n).componentCount + edges.size = n := by
  have hcount := components_add_length h hnodes
  rw [Array.length_toList] at hcount
  exact Nat.sub_add_cancel (Nat.le.intro ((Nat.add_comm _ _).trans hcount))

theorem componentCount_ofEdges :
    (ofEdges edges n).componentCount = components n edges.toList := by
  have hcount := components_add_length h hnodes
  have hsum := componentCount_add_size h hnodes
  rw [Array.length_toList] at hcount
  exact Nat.add_right_cancel (hsum.trans hcount.symm)

/-- A forest is a tree when there are nodes and its edges link all of them. -/
theorem isTree_ofEdges_iff : (ofEdges edges n).isTree = true ↔
    0 < n ∧ ∀ x y : NodeId, x.index < n → y.index < n → linked ⊥ edges.toList x y := by
  rw [isTree, beq_iff_eq, componentCount_ofEdges h hnodes, components_eq_one_iff]

end Forest

end SpanForest
