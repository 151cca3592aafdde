import Mathlib.Data.Sym.Sym2
import Mathlib.Tactic.Tauto
import SpanForest.Proofs.Selection.Minimality

/-! # Rearranged graphs

    Two graphs may hold the same edges, added in different orders, turned
    around, and examined under different tie-breaks. The forests that
    traversals find in them may share no edge; their weights are the same, one
    after another.

    * **`Rearranged`**: two lists hold the same edges but for order, direction
      and number.
    * **`length_sift`**: an edge with a foreign endpoint is kept unless it is a
      loop, and does not matter to the other edges.
    * **`Rearranged.length_sift_eq`**: rearranged edges leave forests of one
      size, since these link the same handles.
    * **`filter_sift`**: what is kept of the edges up to some weight is what
      sifting these edges alone would keep. So the sizes agree below every
      weight, and with them the weights.
    * **`traverse_weights_eq`**: the main result.
-/

namespace SpanForest

variable {α : Type u} {ω : Type v} {s : Setoid NodeId} {p p' : Partition} {e : Edge ω}
  {edges more order order' : List (Edge ω)}

/-! ## The same edges -/

/-- An edge without its direction and its number. -/
def Edge.undirected (e : Edge ω) : Sym2 NodeId × ω :=
  (s(e.first, e.second), e.weight)

/-- Both lists hold the same edges, in any order and direction. -/
def Rearranged (edges more : List (Edge ω)) : Prop :=
  (edges.map Edge.undirected).Perm (more.map Edge.undirected)

theorem Edge.undirected_eq_iff {a b : Edge ω} : a.undirected = b.undirected ↔
    (a.first = b.first ∧ a.second = b.second ∨ a.first = b.second ∧ a.second = b.first) ∧
      a.weight = b.weight := by
  rw [undirected, undirected, Prod.mk.injEq, Sym2.eq_iff]

/-- Which handles an edge links does not depend on its direction. -/
theorem Edge.related_iff_of_undirected_eq {a b : Edge ω} (h : a.undirected = b.undirected) :
    s a.first a.second ↔ s b.first b.second := by
  obtain ⟨⟨hfirst, hsecond⟩ | ⟨hfirst, hsecond⟩, -⟩ := Edge.undirected_eq_iff.1 h
  · rw [hfirst, hsecond]
  · rw [hfirst, hsecond]
    exact ⟨s.symm', s.symm'⟩

theorem Edge.holds_eq_of_undirected_eq {a b : Edge ω} (h : a.undirected = b.undirected) :
    p.holds a = p.holds b := by
  obtain ⟨⟨hfirst, hsecond⟩ | ⟨hfirst, hsecond⟩, -⟩ := Edge.undirected_eq_iff.1 h
  · rw [Partition.holds, Partition.holds, hfirst, hsecond]
  · rw [Partition.holds, Partition.holds, hfirst, hsecond, Bool.and_comm]

namespace Rearranged

theorem symm (h : Rearranged edges more) : Rearranged more edges :=
  List.Perm.symm h

theorem of_perm (h : Rearranged edges more) (horder : order.Perm edges)
    (horder' : order'.Perm more) : Rearranged order order' :=
  (horder.map _).trans (List.Perm.trans h (horder'.map _).symm)

theorem length_eq (h : Rearranged edges more) : edges.length = more.length := by
  have hlength := List.Perm.length_eq h
  rwa [List.length_map, List.length_map] at hlength

/-- A choice that does not look at directions and numbers chooses the same
    edges from both lists. -/
theorem filter (h : Rearranged edges more) (keep : Edge ω → Bool)
    (hkeep : ∀ {a b : Edge ω}, a.undirected = b.undirected → keep a = keep b) :
    Rearranged (edges.filter keep) (more.filter keep) := by
  have hfactors : Function.FactorsThrough keep Edge.undirected := fun a b => hkeep
  obtain ⟨choice, rfl⟩ := (Function.factorsThrough_iff keep).1 hfactors
  have hperm := List.Perm.filter choice h
  rwa [List.filter_map, List.filter_map] at hperm

/-- Nor does it choose a different number of edges. -/
theorem countP_eq (h : Rearranged edges more) (keep : Edge ω → Bool)
    (hkeep : ∀ {a b : Edge ω}, a.undirected = b.undirected → keep a = keep b) :
    edges.countP keep = more.countP keep := by
  have hlength := (h.filter keep hkeep).length_eq
  rwa [← List.countP_eq_length_filter, ← List.countP_eq_length_filter] at hlength

theorem linked_le (h : Rearranged edges more) : linked s edges ≤ linked s more := by
  refine linked_le_iff.2 ⟨le_linked s more, fun e he => ?_⟩
  have hmem : e.undirected ∈ more.map Edge.undirected :=
    List.Perm.subset h (List.mem_map_of_mem he)
  obtain ⟨e', he', heq⟩ := List.mem_map.1 hmem
  exact (Edge.related_iff_of_undirected_eq heq).1 (linked_of_mem s he')

theorem linked_eq (h : Rearranged edges more) : linked s edges = linked s more :=
  le_antisymm h.linked_le h.symm.linked_le

end Rearranged

/-! ## Edges with a foreign endpoint -/

namespace Partition

/-- An edge with a foreign endpoint that is no loop. -/
def strays (p : Partition) (e : Edge ω) : Bool :=
  !p.holds e && e.first != e.second

theorem strays_eq_of_undirected_eq {a b : Edge ω} (h : a.undirected = b.undirected) :
    p.strays a = p.strays b := by
  have hends := Edge.related_iff_of_undirected_eq (s := ⊥) h
  have hloop : (a.first != a.second) = (b.first != b.second) := by
    rw [Bool.eq_iff_iff, bne_iff_ne, bne_iff_ne]
    exact not_congr hends
  rw [strays, strays, Edge.holds_eq_of_undirected_eq h, hloop]

theorem strays_congr (h : p.size = p'.size) : p.strays = p'.strays (ω := ω) := by
  funext e
  rw [strays, strays, holds_congr h]

/-- A foreign handle is in one set with itself only. -/
theorem WellLinked.sameSet_of_not_holds (hp : p.WellLinked) (h : p.holds e = false) :
    p.sameSet e.first e.second = !p.strays e := by
  have hsame : p.find e.first = p.find e.second ↔ e.first = e.second := by
    constructor
    · intro hfind
      have hboth : p.Issued e.first ↔ p.Issued e.second := by
        rw [← hp.issued_find_iff, hfind, hp.issued_find_iff]
      have hnot : ¬ (p.Issued e.first ∧ p.Issued e.second) := by
        rw [← holds_iff, h]
        exact Bool.false_ne_true
      have hfirst : ¬ p.Issued e.first := by tauto
      have hsecond : ¬ p.Issued e.second := by tauto
      rwa [find_of_not_issued hfirst, find_of_not_issued hsecond] at hfind
    · exact congrArg p.find
  rw [Bool.eq_iff_iff]
  simp [sameSet, strays, h, hsame]

/-- Edges with a foreign endpoint are kept unless they are loops, and make no
    difference to the rest. -/
theorem WellLinked.length_sift (hp : p.WellLinked) (edges : List (Edge ω)) :
    (p.sift edges).length = (p.sift (edges.filter p.holds)).length + edges.countP p.strays := by
  induction edges generalizing p with
  | nil => rfl
  | cons e edges ih =>
    cases hheld : p.holds e with
    | true =>
      have hstays : p.strays e = false := by simp [strays, hheld]
      rw [List.filter_cons_of_pos hheld, List.countP_cons_of_neg (by simp [hstays])]
      cases hsame : p.sameSet e.first e.second with
      | true => rw [sift_cons_of_sameSet hsame, sift_cons_of_sameSet hsame, ih hp]
      | false =>
        have hrest := ih (hp.union e.first e.second)
        have hsize := p.size_union e.first e.second
        rw [holds_congr hsize, strays_congr hsize] at hrest
        rw [sift_cons_of_not_sameSet hsame, sift_cons_of_not_sameSet hsame, List.length_cons,
          List.length_cons, hrest]
        omega
    | false =>
      have hsame := hp.sameSet_of_not_holds hheld
      rw [List.filter_cons_of_neg (by simp [hheld])]
      cases hstrays : p.strays e with
      | true =>
        rw [hstrays] at hsame
        rw [sift_cons_of_not_sameSet hsame, union_of_not_holds hheld, List.length_cons, ih hp,
          List.countP_cons_of_pos hstrays]
        omega
      | false =>
        rw [hstrays] at hsame
        rw [sift_cons_of_sameSet hsame, ih hp, List.countP_cons_of_neg (by simp [hstrays])]

end Partition

/-! ## Sizes and weights -/

namespace Rearranged

variable (hp : p.WellLinked) (hp' : p'.WellLinked) (hclasses : p.classes = p'.classes)
include hp hp' hclasses

/-- Rearranged edges between issued handles leave forests of one size, since
    both forests link the same. -/
theorem length_sift_eq_of_holds (h : Rearranged edges more)
    (hedges : ∀ e ∈ edges, p.holds e = true) (hmore : ∀ e ∈ more, p'.holds e = true) :
    (p.sift edges).length = (p'.sift more).length := by
  have hforest := Partition.independent_sift hp hedges
  have hforest' := Partition.independent_sift hp' hmore
  have hlinked : linked p.classes (p.sift edges) = linked p'.classes (p'.sift more) := by
    rw [Partition.linked_sift hp hedges, Partition.linked_sift hp' hmore, h.linked_eq, hclasses]
  rw [hclasses] at hforest hlinked
  exact hforest.length_eq hforest' hlinked

/-- Rearranged edges leave forests of one size. -/
theorem length_sift_eq (h : Rearranged edges more) (hsize : p.size = p'.size) :
    (p.sift edges).length = (p'.sift more).length := by
  have hheld := h.filter p.holds Edge.holds_eq_of_undirected_eq
  have hedges : ∀ e ∈ edges.filter p.holds, p.holds e = true := by
    intro e he
    exact (List.mem_filter.1 he).2
  have hmore : ∀ e ∈ more.filter p.holds, p'.holds e = true := by
    intro e he
    rw [← Partition.holds_congr hsize]
    exact (List.mem_filter.1 he).2
  have hforests := hheld.length_sift_eq_of_holds hp hp' hclasses hedges hmore
  have hstray := h.countP_eq p.strays Partition.strays_eq_of_undirected_eq
  rw [hp.length_sift, hp'.length_sift, ← Partition.holds_congr hsize,
    ← Partition.strays_congr hsize, hforests, hstray]

end Rearranged

section weights

variable [Ord ω] [Std.TransOrd ω]

/-- Sifting edges in order of weight keeps of the edges up to some weight what
    it would keep of them alone. -/
theorem filter_sift (hascend : order.Pairwise Edge.NotHeavier) (e : Edge ω) :
    (p.sift order).filter (fun a => decide (a.NotHeavier e)) =
      p.sift (order.filter fun a => decide (a.NotHeavier e)) := by
  induction order generalizing p with
  | nil => rfl
  | cons a rest ih =>
    have hrest := (List.pairwise_cons.1 hascend).2
    by_cases ha : a.NotHeavier e
    · rw [List.filter_cons_of_pos (by simpa using ha)]
      cases hsame : p.sameSet a.first a.second with
      | true =>
        rw [Partition.sift_cons_of_sameSet hsame, Partition.sift_cons_of_sameSet hsame, ih hrest]
      | false =>
        rw [Partition.sift_cons_of_not_sameSet hsame, Partition.sift_cons_of_not_sameSet hsame,
          List.filter_cons_of_pos (by simpa using ha), ih hrest]
    -- From the first heavy edge on, all are heavy.
    · have hheavy := heavier_of_head hascend ha
      have hnone : (a :: rest).filter (fun b => decide (b.NotHeavier e)) = [] := by
        rw [List.filter_eq_nil_iff]
        intro b hb
        simpa using hheavy b hb
      have hnone' : (p.sift (a :: rest)).filter (fun b => decide (b.NotHeavier e)) = [] := by
        rw [List.filter_eq_nil_iff]
        intro b hb
        simpa using hheavy b ((p.sift_sublist _).subset hb)
      rw [hnone, hnone', Partition.sift_nil]

/-- Place by place, the forest of rearranged edges is not lighter. -/
theorem Rearranged.forall₂_sift (hp : p.WellLinked) (hp' : p'.WellLinked)
    (hsize : p.size = p'.size) (hclasses : p.classes = p'.classes) (h : Rearranged order order')
    (hascend : order.Pairwise Edge.NotHeavier) (hascend' : order'.Pairwise Edge.NotHeavier) :
    List.Forall₂ Edge.NotHeavier (p.sift order) (p'.sift order') := by
  apply forall₂_notHeavier (hascend.sublist (p.sift_sublist order))
    (hascend'.sublist (p'.sift_sublist order'))
  · exact (h.length_sift_eq hp hp' hclasses hsize).symm
  · intro e _
    have hlight := h.filter (fun a => decide (a.NotHeavier e)) fun {a b} heq => by
      have hweight := (Edge.undirected_eq_iff.1 heq).2
      rw [Bool.eq_iff_iff, decide_eq_true_iff, decide_eq_true_iff, Edge.NotHeavier, Edge.NotHeavier,
        Edge.compareWeight, Edge.compareWeight, hweight]
    rw [List.countP_eq_length_filter, List.countP_eq_length_filter, filter_sift hascend,
      filter_sift hascend', hlight.length_sift_eq hp hp' hclasses hsize]

/-- Place by place, the forests of rearranged edges weigh the same. -/
theorem Rearranged.weights_sift (hp : p.WellLinked) (hp' : p'.WellLinked)
    (hsize : p.size = p'.size) (hclasses : p.classes = p'.classes) (h : Rearranged order order')
    (hascend : order.Pairwise Edge.NotHeavier) (hascend' : order'.Pairwise Edge.NotHeavier) :
    List.Forall₂ (fun a b => compare a.weight b.weight = .eq) (p.sift order) (p'.sift order') := by
  have hle := h.forall₂_sift hp hp' hsize hclasses hascend hascend'
  have hge := h.symm.forall₂_sift hp' hp hsize.symm hclasses.symm hascend' hascend
  refine List.Forall₂.mp ?_ hle hge.flip
  intro a b hab hba
  exact Std.OrientedCmp.isLE_antisymm hab hba

end weights

/-! ## Graphs without merges -/

/-- The action adds a node or an edge. -/
def Action.adds : Action α ω → Bool
  | .addNode _ | .addEdge _ _ _ => true
  | _ => false

/-- No two nodes of the graph are in one set. -/
def Graph.Unmerged (g : Graph α ω) : Prop := g.partition.classes = ⊥

/-- Additions merge nothing. -/
theorem Session.unmerged_reached [Ord ω] {tieBreak : TieBreak} {history : List (Action α ω)}
    (h : ∀ action ∈ history, action.adds = true) :
    (reached tieBreak history).graph.Unmerged := by
  have hboth : (reached tieBreak history).graph.Lawful ∧
      (reached tieBreak history).graph.Unmerged := by
    refine run_induction (fun agent => agent = .addition)
      (fun s => s.graph.Lawful ∧ s.graph.Unmerged) ?_ ?_ ⟨Graph.lawful_empty tieBreak, ?_⟩
    · intro s agent notices s' hmove hagent hs
      subst hagent
      obtain ⟨hlawful, hunmerged⟩ := hs
      refine ⟨hmove.lawful hlawful, ?_⟩
      cases hmove with
      | addNode data => exact hlawful.wellLinked.classes_makeSet.trans hunmerged
      | addEdge first second weight => exact hunmerged
    · intro action haction s
      have hadds := h action haction
      cases action with
      | addNode _ | addEdge _ _ _ => rfl
      | _ => exact absurd hadds Bool.false_ne_true
    · exact Partition.classes_empty
  exact hboth.2

/-- The forest of a traversal counts the edges that sifting keeps. -/
theorem Graph.componentCount_traverse [Ord ω] {g : Graph α ω} {f : Forest ω}
    (h : g.traverse.answer = .ok f) : f.componentCount = g.partition.size - f.edges.size := by
  have hforest := Traversal.forest_of_finish (t := Traversal.start g) (g := g) h
  rw [hforest]
  rfl

/-! ## The main result -/

/-- Two graphs without merges that have equally many nodes and the same edges,
    in any order and direction, under any tie-breaks: new traversals find
    forests with the same weights, one after another, and hence as many edges
    and components. -/
theorem traverse_weights_eq {β : Type w} [Ord ω] [Std.TransOrd ω] {tieBreak tieBreak' : TieBreak}
    {history : List (Action α ω)} {history' : List (Action β ω)} {g : Graph α ω} {g' : Graph β ω}
    (hg : g = (Session.reached tieBreak history).graph)
    (hg' : g' = (Session.reached tieBreak' history').graph)
    (hunmerged : g.Unmerged) (hunmerged' : g'.Unmerged) (hnodes : g.nodeCount = g'.nodeCount)
    (hedges : Rearranged g.edges.toList g'.edges.toList) :
    ∃ f f', g.traverse.answer = .ok f ∧ g'.traverse.answer = .ok f' ∧
      List.Forall₂ (fun a b => compare a b = .eq) f.weights f'.weights ∧
      ([Std.LawfulEqOrd ω] → f.weights = f'.weights) ∧
      f.edges.size = f'.edges.size ∧ f.componentCount = f'.componentCount ∧
      f.isTree = f'.isTree := by
  have hlawful : g.Lawful := hg ▸ Session.lawful_reached tieBreak history
  have hlawful' : g'.Lawful := hg' ▸ Session.lawful_reached tieBreak' history'
  have hsize : g.partition.size = g'.partition.size := by
    rw [hlawful.size_eq, hlawful'.size_eq, hnodes]
  have hclasses : g.partition.classes = g'.partition.classes := hunmerged.trans hunmerged'.symm
  obtain ⟨f, hanswer, hforest⟩ := g.answer_traverse
  obtain ⟨f', hanswer', hforest'⟩ := g'.answer_traverse
  have horder := hedges.of_perm (perm_arrange g.tieBreak _) (perm_arrange g'.tieBreak _)
  have hsame := horder.weights_sift hlawful.wellLinked hlawful'.wellLinked hsize hclasses
    hlawful.arranged.weights_ascend hlawful'.arranged.weights_ascend
  rw [← hforest, ← hforest'] at hsame
  have hweights : List.Forall₂ (fun a b => compare a b = .eq) f.weights f'.weights := by
    rw [Forest.weights, Forest.weights, List.forall₂_map_left_iff, List.forall₂_map_right_iff]
    exact hsame
  have hcount : f.edges.size = f'.edges.size := hsame.length_eq
  have hcomponents : f.componentCount = f'.componentCount := by
    rw [Graph.componentCount_traverse hanswer, Graph.componentCount_traverse hanswer', hsize,
      hcount]
  refine ⟨f, f', hanswer, hanswer', hweights, ?_, hcount, hcomponents, ?_⟩
  · intro _
    have hequal := hweights.imp fun a b heq => Std.LawfulEqOrd.eq_of_compare heq
    rwa [List.forall₂_eq_eq_eq] at hequal
  · rw [Forest.isTree, Forest.isTree, hcomponents]

/-- A triangle of equal weights and an edge to a foreign handle, added in
    opposite orders under opposite tie-breaks. Both forests weigh the edge to
    the foreign handle first, and then two sides of the triangle. -/
theorem traverse_weights_eq_of_triangle :
    let g : Graph Unit Int := (Session.reached .insertionOrder
      [.addNode (), .addNode (), .addNode (), .addEdge ⟨0⟩ ⟨1⟩ 4, .addEdge ⟨1⟩ ⟨2⟩ 4,
        .addEdge ⟨0⟩ ⟨2⟩ 4, .addEdge ⟨0⟩ ⟨9⟩ (-1)]).graph
    let g' : Graph String Int := (Session.reached .latestFirst
      [.addNode "a", .addNode "b", .addNode "c", .addEdge ⟨9⟩ ⟨0⟩ (-1), .addEdge ⟨2⟩ ⟨0⟩ 4,
        .addEdge ⟨2⟩ ⟨1⟩ 4, .addEdge ⟨1⟩ ⟨0⟩ 4]).graph
    ∃ f f', g.traverse.answer = .ok f ∧ g'.traverse.answer = .ok f' ∧
      f.weights = [-1, 4, 4] ∧ f'.weights = [-1, 4, 4] ∧ f.isTree = f'.isTree := by
  intro g g'
  have hunmerged : g.Unmerged := Session.unmerged_reached (by decide)
  have hunmerged' : g'.Unmerged := Session.unmerged_reached (by decide)
  have hedges : Rearranged g.edges.toList g'.edges.toList := by
    unfold Rearranged
    decide
  obtain ⟨f, f', hanswer, hanswer', -, hweights, -, -, htree⟩ :=
    traverse_weights_eq rfl rfl hunmerged hunmerged' rfl hedges
  have hlist : g.traverse.answer.map Forest.weights = .ok [-1, 4, 4] := by cbv
  rw [hanswer] at hlist
  have hf : f.weights = [-1, 4, 4] := Except.ok.inj hlist
  exact ⟨f, f', hanswer, hanswer', hf, hweights.symm.trans hf, htree⟩

end SpanForest
