import SpanForest.Proofs.Arrangement
import SpanForest.Proofs.Session.Moves
import SpanForest.Proofs.Traversal.Alone

/-! # How far a traversal has merged sets

    A traversal is begun in a session with any past, and from then on only
    this traversal is used. At every moment it has examined exactly the edges
    before its pending one, and the sets of the graph are what these edges and
    the earlier sets link: nothing is merged too early, nothing too late.

    * **`Action.uses`**: the actions that use one traversal.
    * **`Traversal.hasPassed`**: whether an edge comes before the pending one.
    * **`Alone.examined_eq_passed`**: the edges that were passed are those that
      were examined.
    * **`Alone.classes_eq`**, **`Alone.classes_eq_of_weight`**: so they make up
      the sets. Between two weights, the weight alone decides.
    * **`sameSet_iff_linked_passed`**: the main result.
-/

namespace SpanForest

variable {α : Type u} {ω : Type v}

/-- The action asks the traversal of this number, or finishes it. -/
def Action.uses (number : Nat) : Action α ω → Bool
  | .hasNext n | .pull n | .next n | .finish n => n == number
  | _ => false

/-! ## Edges that were passed -/

namespace Traversal

variable [Ord ω] {t : Traversal ω} {tieBreak : TieBreak} {e next : Edge ω}

/-- The edge comes before the pending one in the order of examination. When
    nothing is pending, the traversal has passed every edge. -/
def hasPassed (t : Traversal ω) (tieBreak : TieBreak) (e : Edge ω) : Bool :=
  t.pending.all fun next => e.compareUnder tieBreak next == .lt

theorem hasPassed_iff : t.hasPassed tieBreak e = true ↔
    ∀ next, t.pending = some next → e.compareUnder tieBreak next = .lt := by
  cases h : t.pending with
  | none => simp [hasPassed, h]
  | some next => simp [hasPassed, h]

/-- A lighter edge is passed before a heavier one. -/
theorem hasPassed_of_weight [Std.TransOrd ω] {w : ω} (hlight : (compare e.weight w).isLE)
    (hheavy : ∀ next, t.pending = some next → compare w next.weight = .lt) :
    t.hasPassed tieBreak e = true := by
  rw [hasPassed_iff]
  intro next hnext
  have hlt : compare e.weight next.weight = .lt :=
    Std.TransCmp.lt_of_isLE_of_lt hlight (hheavy next hnext)
  exact Ordering.then_eq_lt.2 (.inl hlt)

namespace Alone

variable {α : Type u} {g : Graph α ω} {p : Partition} {edges order : List (Edge ω)} [Std.TransOrd ω]

/-- The edges that were examined are those that were passed. -/
theorem examined_eq_passed (h : Alone p order t g) (horder : Arranged tieBreak edges order) :
    ∃ examined, g.partition = p.absorb examined ∧ t.emitted.toList = p.sift examined ∧
      ∀ e, e ∈ examined ↔ e ∈ edges ∧ t.hasPassed tieBreak e = true := by
  obtain ⟨examined, hsplit, hpartition, hemitted⟩ := h.place
  refine ⟨examined, hpartition, hemitted, fun e => ?_⟩
  have hascend := horder.ascending
  rw [hsplit, List.pairwise_append] at hascend
  obtain ⟨-, hrest, hbefore⟩ := hascend
  rw [← horder.perm.mem_iff, hsplit, hasPassed_iff]
  constructor
  · intro he
    refine ⟨List.mem_append_left _ he, fun next hnext => ?_⟩
    exact hbefore e he next (by simp [hnext])
  · intro hboth
    obtain ⟨he, hpassed⟩ := hboth
    rcases List.mem_append.1 he with he | he
    · exact he
    -- What is pending or behind it does not come before the pending edge.
    · cases hnext : t.pending with
      | none =>
        rw [hnext, h.ended hnext] at he
        simp at he
      | some next =>
        have hlt := hpassed next hnext
        rw [hnext, Option.toList_some, List.singleton_append] at he hrest
        rcases List.mem_cons.1 he with rfl | he
        · have heq : e.compareUnder tieBreak e = .eq := Std.ReflCmp.compare_self
          rw [heq] at hlt
          cases hlt
        · have hgt := (List.pairwise_cons.1 hrest).1 e he
          exact absurd hlt (Std.OrientedCmp.not_lt_of_lt hgt)

/-- The sets are linked by the edges that were passed. -/
theorem classes_eq (h : Alone p order t g) (hp : p.WellLinked)
    (horder : Arranged tieBreak edges order) : g.partition.classes =
      linked p.classes (edges.filter fun e => p.holds e && t.hasPassed tieBreak e) := by
  obtain ⟨examined, hpartition, -, hexamined⟩ := h.examined_eq_passed horder
  rw [hpartition, hp.classes_absorb]
  apply linked_congr
  intro e
  rw [List.mem_filter, List.mem_filter, hexamined e, Bool.and_eq_true]
  tauto

/-- When all edges handed out are at most of some weight, and the next one is
    heavier, the sets are linked by the edges of at most this weight. -/
theorem classes_eq_of_weight (h : Alone p order t g) (hp : p.WellLinked)
    (horder : Arranged tieBreak edges order) {w : ω}
    (hlight : ∀ e ∈ t.emitted, (compare e.weight w).isLE)
    (hheavy : ∀ next, t.pending = some next → compare w next.weight = .lt) :
    g.partition.classes =
      linked p.classes (edges.filter fun e => p.holds e && (compare e.weight w).isLE) := by
  apply le_antisymm
  -- The edges handed out suffice to link the sets, and all of them are light.
  · obtain ⟨examined, hpartition, hemitted, hexamined⟩ := h.examined_eq_passed horder
    rw [hpartition, ← p.absorb_sift, ← hemitted, hp.classes_absorb]
    refine linked_mono le_rfl ?_
    intro e he
    obtain ⟨he, hheld⟩ := List.mem_filter.1 he
    have hmem : e ∈ examined := by
      rw [hemitted] at he
      exact (p.sift_sublist examined).subset he
    have hle := hlight e (Array.mem_toList_iff.1 he)
    exact List.mem_filter.2 ⟨((hexamined e).1 hmem).1, by simp [hheld, hle]⟩
  -- And all light edges were passed.
  · rw [h.classes_eq hp horder]
    refine linked_mono le_rfl ?_
    intro e he
    obtain ⟨he, hboth⟩ := List.mem_filter.1 he
    obtain ⟨hheld, hle⟩ := Bool.and_eq_true_iff.1 hboth
    have hpassed : t.hasPassed tieBreak e = true := hasPassed_of_weight hle hheavy
    exact List.mem_filter.2 ⟨he, by simp [hheld, hpassed]⟩

end Alone

end Traversal

/-! ## Sessions -/

namespace Session

variable [Ord ω] {s s' : Session α ω} {t : Traversal ω} {number : Nat} {p : Partition}
  {order : List (Edge ω)} {agent : Agent} {notices : List Notice}

/-- There is a traversal of this number, and it is alone. -/
def HasAlone (p : Partition) (order : List (Edge ω)) (number : Nat) (s : Session α ω) : Prop :=
  ∃ t, s.traversals[number]? = some t ∧ t.Alone p order s.graph

/-- A traversal stays alone as long as all moves are its own. -/
theorem HasAlone.move (hmove : Move s agent notices s') (hagent : agent = .traversal number)
    (h : HasAlone p order number s) : HasAlone p order number s' := by
  obtain ⟨t, ht, halone⟩ := h
  obtain ⟨t', ht', hturn⟩ := hmove.own_turn hagent ht
  exact ⟨t', ht', halone.turn hturn⟩

theorem HasAlone.run {uses : List (Action α ω)} (huses : ∀ action ∈ uses, action.uses number = true)
    (h : HasAlone p order number s) : HasAlone p order number (s.run uses).session := by
  refine run_induction (fun agent => agent = .traversal number) (HasAlone p order number)
    (fun hmove hagent hs => hs.move hmove hagent) ?_ h
  intro action haction s
  have huse := huses action haction
  cases action with
  | hasNext n | pull n | next n | finish n => exact congrArg Agent.traversal (beq_iff_eq.1 huse)
  | _ => exact absurd huse Bool.false_ne_true

theorem hasAlone_start (s : Session α ω) :
    HasAlone s.graph.partition (s.graph.tieBreak.arrange s.graph.edges.toList) s.traversals.size
      (s.step .start).session :=
  ⟨.start s.graph, Array.getElem?_push_size, Traversal.alone_start s.graph⟩

/-! ## The main result -/

/-- Whatever has happened in a session before a traversal begins, if nothing
    else is used from then on, two handles are in one set exactly when the sets
    at its beginning link them together with the edges between nodes that come
    before the pending edge. At a moment when no edge handed out weighs more
    than some weight and the pending edge does, these are the edges of at most
    this weight. -/
theorem sameSet_iff_linked_passed [Std.TransOrd ω] {tieBreak : TieBreak}
    {history uses : List (Action α ω)} (hs : s = reached tieBreak history)
    (huses : ∀ action ∈ uses, action.uses s.traversals.size = true)
    (hs' : s' = (s.run (.start :: uses)).session) :
    ∃ t, s'.traversals[s.traversals.size]? = some t ∧
      (∀ x y, s'.graph.partition.sameSet x y = true ↔
        linked s.graph.partition.classes
          (s.graph.edges.toList.filter fun e => s.graph.joinsNodes e && t.hasPassed tieBreak e)
          x y) ∧
      ∀ w : ω, (∀ e ∈ t.emitted, (compare e.weight w).isLE) →
        (∀ next, t.pending = some next → compare w next.weight = .lt) →
        ∀ x y, s'.graph.partition.sameSet x y = true ↔
          linked s.graph.partition.classes
            (s.graph.edges.toList.filter fun e =>
              s.graph.joinsNodes e && (compare e.weight w).isLE) x y := by
  have hlawful : s.graph.Lawful := hs ▸ lawful_reached tieBreak history
  have htie : s.graph.tieBreak = tieBreak := hs ▸ tieBreak_reached tieBreak history
  have hlast : s' = ((s.step .start).session.run uses).session := hs'
  obtain ⟨t, ht, halone⟩ := (hasAlone_start s).run huses
  rw [← hlast] at ht halone
  have harranged := hlawful.arranged
  rw [htie] at harranged halone
  have hholds : s.graph.partition.holds = s.graph.joinsNodes := funext hlawful.holds_eq_joinsNodes
  refine ⟨t, ht, fun x y => ?_, fun w hlight hheavy x y => ?_⟩
  · rw [Partition.sameSet_iff, halone.classes_eq hlawful.wellLinked harranged, hholds]
  · rw [Partition.sameSet_iff,
      halone.classes_eq_of_weight hlawful.wellLinked harranged hlight hheavy, hholds]

/-- The second of two edges of equal weight is skipped, the third edge is
    pending: the sets are those of the edges of weight five. -/
theorem sameSet_iff_linked_passed_of_equal_weights :
    let s : Session Unit Int := reached .latestFirst
      [.addNode (), .addNode (), .addNode (), .addEdge ⟨0⟩ ⟨1⟩ 5, .addEdge ⟨1⟩ ⟨2⟩ 8,
        .addEdge ⟨1⟩ ⟨0⟩ 5]
    let light := s.graph.edges.toList.filter fun e =>
      s.graph.joinsNodes e && (compare e.weight 5).isLE
    linked s.graph.partition.classes light ⟨0⟩ ⟨1⟩ ∧
      ¬ linked s.graph.partition.classes light ⟨0⟩ ⟨2⟩ := by
  intro s light
  have huses : ∀ action ∈ [Action.hasNext 0, .pull 0],
      Action.uses (α := Unit) (ω := Int) s.traversals.size action = true := by decide
  obtain ⟨t, ht, -, hweight⟩ := sameSet_iff_linked_passed rfl huses rfl
  have hstate : (s.run [.start, .hasNext 0, .pull 0]).session.traversals[0]? =
      some ⟨[], some ⟨⟨1⟩, ⟨2⟩, 8, 1⟩, #[⟨⟨1⟩, ⟨0⟩, 5, 2⟩], 6, false⟩ := by cbv
  obtain rfl := Option.some.inj (ht.symm.trans hstate)
  have hsets := hweight 5 (by decide) (by decide)
  have hjoined : (s.run [.start, .hasNext 0, .pull 0]).session.graph.partition.sameSet ⟨0⟩ ⟨1⟩ =
      true := by cbv
  have hapart : (s.run [.start, .hasNext 0, .pull 0]).session.graph.partition.sameSet ⟨0⟩ ⟨2⟩ =
      false := by cbv
  refine ⟨(hsets _ _).1 hjoined, ?_⟩
  rw [← hsets, hapart]
  exact Bool.false_ne_true

end Session

end SpanForest
