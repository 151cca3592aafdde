import SpanForest.Proofs.Session.Interference

/-! # Edges that leave the graph

    An edge may name handles that are no nodes. Such a stray edge merges
    nothing, and yet a traversal hands it out and counts it as if it joined
    two components. So the summary of a forest is right about the edges
    between nodes, and every stray edge puts it off by one.

    * **`InnerForest`**: the edges between nodes that a traversal hands out
      close no cycle, whatever the strays among them.
    * **`le_length_of_stray`**: edges that link all nodes and leave the graph
      are at least as many as the nodes.
    * **`summary_with_strays`**: the main result. It says when the counts of a
      summary agree, and when a tree links all nodes.
    * **`stray_breaks_summary`**: they need not.
-/

namespace SpanForest

variable {α : Type u} {ω : Type v}

/-! ## Edges that link all nodes -/

section linking

variable {e : Edge ω} {edges : List (Edge ω)} {n : Nat}

/-- The first `n` handles make up one class, and every other handle is alone. -/
def firstTogether (n : Nat) : Setoid NodeId where
  r x y := x = y ∨ x.index < n ∧ y.index < n
  iseqv := ⟨fun x => .inl rfl, by grind, by grind⟩

/-- Edges from the first handle to the `n` handles behind it. -/
def spokes (weight : ω) (n : Nat) : List (Edge ω) :=
  (List.range n).map fun i => ⟨⟨0⟩, ⟨i + 1⟩, weight, i⟩

theorem length_spokes (weight : ω) (n : Nat) : (spokes weight n).length = n := by
  simp [spokes]

theorem spokes_bounded {weight : ω} (he : e ∈ spokes weight n) :
    e.first.index < n + 1 ∧ e.second.index < n + 1 := by
  obtain ⟨i, hi, rfl⟩ := List.mem_map.1 he
  exact ⟨Nat.succ_pos n, Nat.succ_lt_succ (List.mem_range.1 hi)⟩

theorem linked_spokes_le (weight : ω) (n : Nat) :
    linked ⊥ (spokes weight n) ≤ firstTogether (n + 1) :=
  linked_le_iff.2 ⟨bot_le, fun _ he => .inr (spokes_bounded he)⟩

theorem independent_spokes (weight : ω) (n : Nat) : Independent ⊥ (spokes weight n) := by
  induction n with
  | zero => trivial
  | succ n ih =>
    have hlast : spokes weight (n + 1) = spokes weight n ++ [⟨⟨0⟩, ⟨n + 1⟩, weight, n⟩] := by
      simp [spokes, List.range_succ]
    rw [hlast, independent_concat]
    refine ⟨ih, fun hlinked => ?_⟩
    -- The new handle is not among the first ones.
    rcases linked_spokes_le weight n hlinked with heq | ⟨-, hlt⟩
    · cases heq
    · exact Nat.lt_irrefl _ hlt

/-- Edges that link the first `n` handles are as many as these, if one of them
    leads elsewhere. -/
theorem le_length_of_stray
    (hall : ∀ x y : NodeId, x.index < n → y.index < n → linked ⊥ edges x y)
    (he : e ∈ edges) (hne : e.first ≠ e.second)
    (hstray : ¬ (e.first.index < n ∧ e.second.index < n)) : n ≤ edges.length := by
  cases n with
  | zero => exact Nat.zero_le _
  | succ n =>
    -- The spokes need as many edges as there are further nodes, the stray one more.
    have hindependent : Independent ⊥ (spokes e.weight n ++ [e]) := by
      refine independent_concat.2 ⟨independent_spokes e.weight n, fun hlinked => ?_⟩
      exact (linked_spokes_le e.weight n hlinked).elim hne hstray
    have hlinked : ∀ e' ∈ spokes e.weight n ++ [e], linked ⊥ edges e'.first e'.second := by
      intro e' he'
      rcases List.mem_append.1 he' with hspoke | hlast
      · obtain ⟨hfirst, hsecond⟩ := spokes_bounded hspoke
        exact hall _ _ hfirst hsecond
      · obtain rfl := List.mem_singleton.1 hlast
        exact linked_of_mem ⊥ he
    have hle := hindependent.length_le hlinked
    rwa [List.length_append, length_spokes] at hle

end linking

/-! ## Counting with strays -/

namespace Forest

variable {edges : Array (Edge ω)} {inner : Edge ω → Bool} {n : Nat}

theorem size_eq_inner_add_strays (edges : Array (Edge ω)) (inner : Edge ω → Bool) :
    edges.size = (edges.toList.filter inner).length +
      (edges.toList.filter fun e => !inner e).length := by
  rw [← Array.length_toList]
  exact List.length_eq_length_filter_add inner

/-- A tree has one edge less than nodes, whatever its edges join. -/
theorem isTree_iff_size : (ofEdges edges n).isTree = true ↔ n = edges.size + 1 := by
  have hcount : (ofEdges edges n).componentCount = n - edges.size := rfl
  rw [isTree, beq_iff_eq, hcount]
  omega

/-- In a tree that links all nodes, every edge joins nodes. -/
theorem joins_of_isTree (htree : (ofEdges edges n).isTree = true)
    (hapart : ∀ e ∈ edges.toList, e.first ≠ e.second)
    (hall : ∀ x y : NodeId, x.index < n → y.index < n → linked ⊥ edges.toList x y) :
    ∀ e ∈ edges.toList, e.first.index < n ∧ e.second.index < n := by
  intro e he
  by_contra hstray
  have hle := le_length_of_stray hall he (hapart e he) hstray
  have hsize := isTree_iff_size.1 htree
  rw [Array.length_toList] at hle
  omega

section

variable (h : Independent ⊥ (edges.toList.filter inner))
  (hnodes : ∀ e, inner e = true → e.first.index < n ∧ e.second.index < n)
include h hnodes

/-- The inner edges take away one component each. -/
theorem components_inner_add_length :
    components n (edges.toList.filter inner) + (edges.toList.filter inner).length = n := by
  refine components_add_length h fun e he => ?_
  exact hnodes e (List.mem_filter.1 he).2

/-- Every stray edge takes away a component that it does not join. -/
theorem componentCount_with_strays : (ofEdges edges n).componentCount =
    components n (edges.toList.filter inner) -
      (edges.toList.filter fun e => !inner e).length := by
  have hcount : (ofEdges edges n).componentCount = n - edges.size := rfl
  have hcomponents := components_inner_add_length h hnodes
  have hsize := size_eq_inner_add_strays edges inner
  omega

/-- The counts agree unless there are more strays than components. -/
theorem size_eq_sub_iff :
    (edges.size : Int) = (n : Int) - ((ofEdges edges n).componentCount : Int) ↔
      (edges.toList.filter fun e => !inner e).length ≤
        components n (edges.toList.filter inner) := by
  have hcount : (ofEdges edges n).componentCount = n - edges.size := rfl
  have hcomponents := components_inner_add_length h hnodes
  have hsize := size_eq_inner_add_strays edges inner
  omega

/-- A tree without strays links all nodes. -/
theorem linked_of_isTree (htree : (ofEdges edges n).isTree = true)
    (hnone : (edges.toList.filter fun e => !inner e) = []) :
    ∀ x y : NodeId, x.index < n → y.index < n → linked ⊥ edges.toList x y := by
  have hall : ∀ e ∈ edges.toList, inner e = true := by
    intro e he
    have hnot := List.filter_eq_nil_iff.1 hnone e he
    simpa using hnot
  rw [List.filter_eq_self.2 hall] at h
  exact ((isTree_ofEdges_iff h fun e he => hnodes e (hall e he)).1 htree).2

end

end Forest

/-! ## One traversal -/

/-- Among the edges that a traversal has handed out, the `inner` ones join
    nodes of its graph, are merged, and close no cycle, not even with a pending
    one. -/
structure InnerForest (inner : Edge ω → Bool) (t : Traversal ω) (g : Graph α ω) : Prop where
  /-- Inner edges join nodes. -/
  joins : ∀ e, inner e = true → g.joinsNodes e = true
  /-- No edge joins a handle to itself. -/
  apart : ∀ e ∈ t.emitted.toList ++ t.pending.toList, e.first ≠ e.second
  /-- What was handed out is merged. -/
  merged : ∀ e ∈ t.emitted.toList.filter inner, g.partition.classes e.first e.second
  /-- What was handed out or is pending closes no cycle. -/
  independent : Independent ⊥ ((t.emitted.toList ++ t.pending.toList).filter inner)

namespace InnerForest

variable {inner : Edge ω → Bool} {t t' : Traversal ω} {g g' : Graph α ω} {e : Edge ω}
  {notices : List Notice}

/-- Looking ahead finds an edge that joins two sets. -/
theorem advance (hjoins : ∀ e, inner e = true → g.joinsNodes e = true)
    (hapart : ∀ e ∈ t.emitted.toList, e.first ≠ e.second)
    (hmerged : ∀ e ∈ t.emitted.toList.filter inner, g.partition.classes e.first e.second)
    (hindependent : Independent ⊥ (t.emitted.toList.filter inner)) :
    InnerForest inner (t.advance g.partition) g where
  joins := hjoins
  apart := by
    intro e he
    rcases List.mem_append.1 he with he | he
    · exact hapart e he
    · have hpending := Option.mem_toList.1 he
      have hnot := Partition.sameSet_eq_false_iff.1 (Traversal.not_sameSet_of_advance hpending)
      intro heq
      rw [heq] at hnot
      exact hnot (g.partition.classes.refl' _)
  merged := hmerged
  independent := by
    show Independent ⊥ ((t.emitted.toList ++ (t.advance g.partition).pending.toList).filter inner)
    rw [List.filter_append]
    cases he : (t.advance g.partition).pending with
    | none =>
      rw [Option.toList_none, List.filter_nil, List.append_nil]
      exact hindependent
    | some e =>
      -- A stray edge may well close a cycle with others, but it is not counted.
      cases hinner : inner e with
      | false =>
        rw [Option.toList_some, List.filter_cons_of_neg (by simp [hinner]), List.filter_nil,
          List.append_nil]
        exact hindependent
      | true =>
        rw [Option.toList_some, List.filter_cons_of_pos hinner]
        exact Traversal.independent_advance he hmerged hindependent

theorem start [Ord ω] (g : Graph α ω) : InnerForest g.joinsNodes (.start g) g :=
  advance (t := .prepare g) (fun _ he => he) (fun _ he => absurd he List.not_mem_nil)
    (fun _ he => absurd he List.not_mem_nil) (independent_nil ⊥)

/-- Merges by others do no harm. -/
theorem mono (h : InnerForest inner t g)
    (hjoins : ∀ e, g.joinsNodes e = true → g'.joinsNodes e = true)
    (hclasses : g.partition.classes ≤ g'.partition.classes) : InnerForest inner t g' where
  joins := fun e he => hjoins e (h.joins e he)
  apart := h.apart
  merged := fun e he => hclasses (h.merged e he)
  independent := h.independent

theorem emit (h : InnerForest inner t g) (hg : g.Lawful) (he : t.pending = some e) :
    InnerForest inner (t.emit g e).traversal (t.emit g e).graph := by
  have hapart := h.apart
  have hindependent := h.independent
  rw [he] at hapart hindependent
  have hpushed : (t.emitted.push e).toList = t.emitted.toList ++ [e] := Array.toList_push
  refine advance (t := { t with emitted := t.emitted.push e }) h.joins ?_ ?_ ?_
  · rw [hpushed]
    exact hapart
  · intro e' he'
    rw [hpushed, List.filter_append, List.mem_append] at he'
    show (g.partition.union e.first e.second).classes e'.first e'.second
    rcases he' with he' | he'
    · exact hg.wellLinked.classes_le_union _ _ (h.merged e' he')
    -- The edge handed out last: only when it is inner does it merge anything.
    · obtain ⟨hmem, hinner⟩ := List.mem_filter.1 he'
      obtain rfl := List.mem_singleton.1 hmem
      exact hg.classes_union_self (h.joins e' hinner)
  · rw [hpushed]
    exact hindependent

theorem turn (h : InnerForest inner t g) (hg : g.Lawful) (hturn : t.Turn g notices t' g') :
    InnerForest inner t' g' := by
  cases hturn with
  | refuse _ => exact h
  | fuse _ => exact ⟨h.joins, h.apart, h.merged, h.independent⟩
  | emit e _ he => exact h.emit hg he

theorem emitted_independent (h : InnerForest inner t g) :
    Independent ⊥ (t.emitted.toList.filter inner) := by
  have hboth := h.independent
  rw [List.filter_append] at hboth
  exact (independent_append.1 hboth).1

end InnerForest

namespace Session

variable [Ord ω] {s s' : Session α ω}

/-- Whatever happens, the edges between nodes that a traversal hands out close
    no cycle. -/
theorem exists_innerForest (hs : s.graph.Lawful) (later : List (Action α ω)) :
    ∃ t, (s.run (.start :: later)).session.traversals[s.traversals.size]? = some t ∧
      InnerForest s.graph.joinsNodes t (s.run (.start :: later)).session.graph := by
  refine traversal_induction_start (fun t g _ => InnerForest s.graph.joinsNodes t g) ?_ ?_ later hs
    (.start s.graph)
  · intro t t' g g' notices past hg hturn h
    exact h.turn hg hturn
  · intro s₁ s₂ agent notices t past hs₁ hmove h
    exact h.mono (fun e he => hmove.joinsNodes he) (hmove.classes_le hs₁)

/-! ## The main result -/

/-- Whatever handles the edges of a graph name, and whatever happens after a
    traversal has begun: the forest that it is finished with counts the
    components that the edges between nodes leave, less one for each stray
    edge. So its counts agree as long as there are no more strays than
    components. A tree without strays links all nodes, and a tree that links
    all nodes has no strays. -/
theorem summary_with_strays {tieBreak : TieBreak} {history later : List (Action α ω)}
    {s s' : Session α ω} {number : Nat} {f : Forest ω} {inner strays : List (Edge ω)}
    (hs : s = reached tieBreak history) (hnumber : number = s.traversals.size)
    (hs' : s' = (s.run (.start :: later)).session)
    (hanswer : (s'.step (.finish number)).answer = .forest (.ok f))
    (hinner : inner = f.edges.toList.filter s.graph.joinsNodes)
    (hstrays : strays = f.edges.toList.filter fun e => !s.graph.joinsNodes e) :
    CycleFree ⊥ inner ∧
    f.nodeCount = s'.graph.nodeCount ∧
    f.componentCount = components f.nodeCount inner - strays.length ∧
    ((f.edges.size : Int) = (f.nodeCount : Int) - (f.componentCount : Int) ↔
      strays.length ≤ components f.nodeCount inner) ∧
    (f.isTree = true → strays = [] →
      ∀ x y, s'.graph.HasNode x → s'.graph.HasNode y → linked ⊥ f.edges.toList x y) ∧
    (f.isTree = true →
      (∀ x y, s'.graph.HasNode x → s'.graph.HasNode y → linked ⊥ f.edges.toList x y) →
      ∀ e ∈ f.edges, s'.graph.joinsNodes e = true) := by
  have hlawful : s.graph.Lawful := hs ▸ lawful_reached tieBreak history
  have hlawful' : s'.graph.Lawful := hs' ▸ lawful_run hlawful (.start :: later)
  subst hnumber
  -- Finishing is one more action of the history.
  obtain ⟨t, ht, hforest⟩ := exists_innerForest hlawful (later ++ [.finish s.traversals.size])
  have hlast : (s.run (.start :: (later ++ [.finish s.traversals.size]))).session =
      (s'.step (.finish s.traversals.size)).session := by
    rw [hs', ← List.cons_append, run_append]
    rfl
  rw [hlast] at ht
  obtain ⟨t', ht', rfl⟩ := forest_of_answer hlawful' hanswer
  obtain rfl := Option.some.inj (ht.symm.trans ht')
  -- What was a node at the beginning still is one.
  have hnodes : ∀ e, s.graph.joinsNodes e = true →
      e.first.index < s'.graph.nodeCount ∧ e.second.index < s'.graph.nodeCount := by
    obtain ⟨_, _, hbefore⟩ := exists_innerForest hlawful later
    rw [← hs'] at hbefore
    intro e he
    exact Graph.joinsNodes_iff.1 (hbefore.joins e he)
  have hindependent := hforest.emitted_independent
  subst hinner hstrays
  refine ⟨independent_iff_cycleFree.1 hindependent, rfl,
    Forest.componentCount_with_strays hindependent hnodes,
    Forest.size_eq_sub_iff hindependent hnodes,
    Forest.linked_of_isTree hindependent hnodes, fun htree hall e he => ?_⟩
  have hapart : ∀ e ∈ t.emitted.toList, e.first ≠ e.second := by
    intro e he
    exact hforest.apart e (List.mem_append_left _ he)
  exact Graph.joinsNodes_iff.2
    (Forest.joins_of_isTree htree hapart hall e (Array.mem_toList_iff.2 he))

/-- A stray edge in the place of an edge between nodes: the counts agree, and
    the tree that they tell of does not link all nodes. -/
theorem summary_with_strays_of_false_tree :
    let s : Session Unit Int := reached .insertionOrder
      [.addNode (), .addNode (), .addNode (), .addEdge ⟨0⟩ ⟨1⟩ 5, .addEdge ⟨7⟩ ⟨2⟩ 1,
        .addEdge ⟨1⟩ ⟨0⟩ 9]
    let s' := (s.run [.start, .union ⟨2⟩ ⟨7⟩, .pull 0]).session
    ∃ f, (s'.step (.finish 0)).answer = .forest (.ok f) ∧ f.isTree = true ∧
      (f.edges.size : Int) = (f.nodeCount : Int) - (f.componentCount : Int) ∧
      f.edges.toList.filter s.graph.joinsNodes = [⟨⟨0⟩, ⟨1⟩, 5, 0⟩] ∧
      ¬ ∀ x y, s'.graph.HasNode x → s'.graph.HasNode y → linked ⊥ f.edges.toList x y := by
  intro s s'
  have hanswer : (s'.step (.finish 0)).answer =
      .forest (.ok ⟨#[⟨⟨7⟩, ⟨2⟩, 1, 1⟩, ⟨⟨0⟩, ⟨1⟩, 5, 0⟩], 1, 3⟩) := by cbv
  obtain ⟨-, -, -, -, -, htree⟩ := summary_with_strays rfl rfl rfl hanswer rfl rfl
  have hstray : s'.graph.joinsNodes ⟨⟨7⟩, ⟨2⟩, (1 : Int), 1⟩ = false := by cbv
  refine ⟨_, hanswer, rfl, by decide, by cbv, fun hall => ?_⟩
  rw [htree rfl hall _ (by simp)] at hstray
  cases hstray

/-- Without nodes, one stray edge makes more edges than nodes. Between two
    nodes, a single stray edge makes a tree that does not link them. -/
theorem stray_breaks_summary :
    (∃ f, ((reached .insertionOrder [.addEdge ⟨0⟩ ⟨1⟩ 1, .start] : Session Unit Int).step
        (.finish 0)).answer = .forest (.ok f) ∧
      (f.edges.size : Int) ≠ (f.nodeCount : Int) - (f.componentCount : Int)) ∧
    ∃ f, ((reached .insertionOrder [.addNode (), .addNode (), .addEdge ⟨0⟩ ⟨7⟩ 1, .start] :
        Session Unit Int).step (.finish 0)).answer = .forest (.ok f) ∧
      f.nodeCount = 2 ∧ f.isTree = true ∧ ¬ linked ⊥ f.edges.toList ⟨0⟩ ⟨1⟩ := by
  refine ⟨⟨⟨#[⟨⟨0⟩, ⟨1⟩, 1, 0⟩], 0, 0⟩, by cbv, by decide⟩,
    ⟨#[⟨⟨0⟩, ⟨7⟩, 1, 0⟩], 1, 2⟩, by cbv, rfl, rfl, fun hlinked => ?_⟩
  rcases linked_single_iff.1 hlinked with h | ⟨-, h⟩ | ⟨h, -⟩
  · cases h
  · cases h
  · cases h

end Session

end SpanForest
