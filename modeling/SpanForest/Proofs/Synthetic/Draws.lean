import Mathlib.Data.Setoid.Basic
import SpanForest.Synthetic

/-! # What is drawn at random

    Whatever a source of randomness yields, a plan that can be carried out
    leads to a graph of the planned size whose edges connect all nodes: the path
    goes through every node because the order of the nodes is a rearrangement of
    all of them, and no edge is lost when the edges are rearranged.

    * **`Connects`**: edges connect nodes.
    * **`Carries`**: what a generated graph has of its plan.
    * **`drawPath_connects`**: a path connects the nodes that it goes through.
    * **`carries_generate`**: generated graphs carry out their plans.
-/

namespace SpanForest

namespace ListedEdge

variable {nodes fewer : List Nat} {edges more : List ListedEdge}

/-- Edges connect nodes: whatever relates the two ends of every edge relates all
    of the nodes to each other. -/
def Connects (edges : List ListedEdge) (nodes : List Nat) : Prop :=
  ∀ t : Setoid NodeId, (∀ e ∈ edges, t ⟨e.left⟩ ⟨e.right⟩) → ∀ x ∈ nodes, ∀ y ∈ nodes, t ⟨x⟩ ⟨y⟩

/-- More edges connect as well, and fewer nodes are connected as well. -/
theorem Connects.mono (h : Connects edges nodes) (hedges : edges ⊆ more) (hnodes : fewer ⊆ nodes) :
    Connects more fewer :=
  fun t ht x hx y hy => h t (fun e he => ht e (hedges he)) x (hnodes hx) y (hnodes hy)

/-- A node is connected along with one that is. -/
theorem Connects.cons {left right : Nat} {weight : Int} (h : Connects edges (right :: nodes)) :
    Connects (⟨left, right, weight⟩ :: edges) (left :: right :: nodes) := by
  intro t ht
  have hfirst : t ⟨left⟩ ⟨right⟩ := ht _ List.mem_cons_self
  have hrest := h t fun e he => ht e (List.mem_cons_of_mem _ he)
  -- Every node is related to the second one.
  have hsecond : ∀ x ∈ left :: right :: nodes, t ⟨x⟩ ⟨right⟩ := by
    intro x hx
    rcases List.mem_cons.1 hx with rfl | hx
    · exact hfirst
    · exact hrest x hx right List.mem_cons_self
  exact fun x hx y hy => t.trans' (hsecond x hx) (t.symm' (hsecond y hy))

end ListedEdge

namespace SyntheticPlan

open ListedEdge

variable {σ : Type} {plan : SyntheticPlan} {e : ListedEdge}

/-- A generated graph has the planned number of nodes and edges. Its edges join
    nodes at weights of the plan, and connect all nodes. -/
structure Carries (plan : SyntheticPlan) (g : SyntheticGraph) : Prop where
  /-- There are as many nodes as planned. -/
  nodeCount_eq : g.nodeCount = plan.nodeCount
  /-- There is a path through all nodes, and the planned number of further edges
      for each of them. -/
  edgeCount_eq : g.edgeCount = plan.nodeCount - 1 + plan.nodeCount * plan.edgesPerNode
  /-- Edges join nodes. -/
  below : ∀ e ∈ g.edges, e.left < plan.nodeCount ∧ e.right < plan.nodeCount
  /-- Weights are between one and the largest weight. -/
  weights : ∀ e ∈ g.edges, 1 ≤ e.weight ∧ e.weight ≤ plan.maxWeight
  /-- All nodes are connected. -/
  connects : Connects g.edges (List.range plan.nodeCount)

theorem admits_iff : plan.admits e = true ↔
    (e.left < plan.nodeCount ∧ e.right < plan.nodeCount) ∧
      1 ≤ e.weight ∧ e.weight ≤ plan.maxWeight := by
  simp [admits, and_assoc]

theorem extraEdges_eq_ok (hnodes : 0 < plan.nodeCount) (hweight : 1 ≤ plan.maxWeight)
    (hextra : WordRange.nat64.contains ((plan.nodeCount * plan.edgesPerNode : Nat) : Int) = true) :
    plan.extraEdges = .ok (plan.nodeCount * plan.edgesPerNode) := by
  unfold extraEdges
  dsimp only
  rw [if_neg (by omega), if_neg (by omega), if_pos hextra]

/-! ## Weights -/

variable (source : RandomSource σ) (hweight : 1 ≤ plan.maxWeight)

include hweight in
theorem drawWeight_range (s : σ) :
    1 ≤ (drawWeight source plan s).1 ∧ (drawWeight source plan s).1 ≤ plan.maxWeight := by
  have hpos : 0 < plan.maxWeight.toNat := by omega
  have hlt := source.below_lt s hpos
  show 1 ≤ ((source.below plan.maxWeight.toNat s).1 : Int) + 1 ∧
    ((source.below plan.maxWeight.toNat s).1 : Int) + 1 ≤ plan.maxWeight
  omega

/-! ## The path -/

theorem drawPath_cons (plan : SyntheticPlan) (left right : Nat) (rest : List Nat) (s : σ) :
    (drawPath source plan (left :: right :: rest) s).1 =
      ⟨left, right, (drawWeight source plan s).1⟩ ::
        (drawPath source plan (right :: rest) (drawWeight source plan s).2).1 := rfl

theorem length_drawPath (plan : SyntheticPlan) (order : List Nat) (s : σ) :
    (drawPath source plan order s).1.length = order.length - 1 := by
  induction order generalizing s with
  | nil => rfl
  | cons left order ih =>
    cases order with
    | nil => rfl
    | cons right rest =>
      rw [drawPath_cons, List.length_cons, ih]
      rfl

include hweight in
/-- The path joins nodes that it goes through. -/
theorem admits_drawPath {order : List Nat} (horder : ∀ x ∈ order, x < plan.nodeCount) (s : σ) :
    ∀ e ∈ (drawPath source plan order s).1, plan.admits e = true := by
  induction order generalizing s with
  | nil => exact fun e he => absurd he List.not_mem_nil
  | cons left order ih =>
    cases order with
    | nil => exact fun e he => absurd he List.not_mem_nil
    | cons right rest =>
      obtain ⟨hleft, horder⟩ := List.forall_mem_cons.1 horder
      rw [drawPath_cons, List.forall_mem_cons, admits_iff]
      exact ⟨⟨⟨hleft, horder right List.mem_cons_self⟩, drawWeight_range source hweight s⟩,
        ih horder _⟩

/-- The path connects all nodes that it goes through. -/
theorem drawPath_connects (plan : SyntheticPlan) (order : List Nat) (s : σ) :
    Connects (drawPath source plan order s).1 order := by
  induction order generalizing s with
  | nil => exact fun t _ x hx => absurd hx List.not_mem_nil
  | cons left order ih =>
    cases order with
    | nil =>
      intro t _ x hx y hy
      rw [List.mem_singleton.1 hx, List.mem_singleton.1 hy]
    | cons right rest =>
      rw [drawPath_cons]
      exact (ih _).cons

/-! ## Further edges -/

theorem drawExtra_succ (plan : SyntheticPlan) (count : Nat) (s : σ) :
    (drawExtra source plan (count + 1) s).1 =
      let left := source.below plan.nodeCount s
      let right := source.below plan.nodeCount left.2
      let weight := drawWeight source plan right.2
      ⟨left.1, right.1, weight.1⟩ :: (drawExtra source plan count weight.2).1 := rfl

theorem length_drawExtra (plan : SyntheticPlan) (count : Nat) (s : σ) :
    (drawExtra source plan count s).1.length = count := by
  induction count generalizing s with
  | zero => rfl
  | succ count ih => rw [drawExtra_succ, List.length_cons, ih]

include hweight in
theorem admits_drawExtra (hnodes : 0 < plan.nodeCount) (count : Nat) (s : σ) :
    ∀ e ∈ (drawExtra source plan count s).1, plan.admits e = true := by
  induction count generalizing s with
  | zero => exact fun e he => absurd he List.not_mem_nil
  | succ count ih =>
    rw [drawExtra_succ, List.forall_mem_cons, admits_iff]
    exact ⟨⟨⟨source.below_lt _ hnodes, source.below_lt _ hnodes⟩,
      drawWeight_range source hweight _⟩, ih _⟩

/-! ## The graph -/

include hweight in
/-- Every plan that can be carried out is carried out, whatever is drawn. -/
theorem carries_generate (hnodes : 0 < plan.nodeCount)
    (hextra : WordRange.nat64.contains ((plan.nodeCount * plan.edgesPerNode : Nat) : Int) = true)
    (s : σ) : ∃ g, plan.generate source s = .ok g ∧ plan.Carries g := by
  -- The order of the nodes, the edges in the order in which they are drawn, and
  -- the states of the source before each of these.
  let order := (source.shuffle (List.range plan.nodeCount) s).1
  let atPath := (source.shuffle (List.range plan.nodeCount) s).2
  let path := (drawPath source plan order atPath).1
  let atFurther := (drawPath source plan order atPath).2
  let further := (drawExtra source plan (plan.nodeCount * plan.edgesPerNode) atFurther).1
  let atEnd := (drawExtra source plan (plan.nodeCount * plan.edgesPerNode) atFurther).2
  let edges := (source.shuffle (path ++ further) atEnd).1
  have hgenerate : plan.generate source s = .ok ⟨plan.nodeCount, edges⟩ := by
    unfold generate
    rw [extraEdges_eq_ok hnodes hweight hextra]
    rfl
  have horder : order.Perm (List.range plan.nodeCount) := source.shuffle_perm _ s
  have hperm : edges.Perm (path ++ further) := source.shuffle_perm _ atEnd
  have hbelow : ∀ x ∈ order, x < plan.nodeCount :=
    fun x hx => List.mem_range.1 (horder.mem_iff.1 hx)
  have hadmits : ∀ e ∈ edges, plan.admits e = true := by
    intro e he
    rcases List.mem_append.1 (hperm.mem_iff.1 he) with he | he
    · exact admits_drawPath source hweight hbelow atPath e he
    · exact admits_drawExtra source hweight hnodes _ atFurther e he
  refine ⟨_, hgenerate, rfl, ?_, fun e he => (admits_iff.1 (hadmits e he)).1,
    fun e he => (admits_iff.1 (hadmits e he)).2, ?_⟩
  · show edges.length = _
    rw [hperm.length_eq, List.length_append, length_drawPath, length_drawExtra, horder.length_eq,
      List.length_range]
  · have hpath : path ⊆ edges := fun e he => hperm.mem_iff.2 (List.mem_append_left further he)
    exact (drawPath_connects source plan order atPath).mono hpath horder.symm.subset

end SyntheticPlan

end SpanForest
