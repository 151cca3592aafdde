import SpanForest.Proofs.Arrangement
import SpanForest.Proofs.Session.Moves
import SpanForest.Proofs.Traversal.Alone

/-! # Traversals of one graph cooperate

    Several traversals of one graph merge the same sets, and each sees what
    the others have merged. As long as nothing else changes the graph, they
    share out the edges that one of them would have handed out alone. An edge
    may be handed out twice: while it is pending for one traversal, another
    one can merge its endpoints.

    * **`InStep`**: what holds of one traversal. Everything that it has
      examined is linked by now, and what it has handed out or holds pending
      would have been kept by sifting, at its own place in the order.
    * **`Cooperating`**: what holds of the session. All traversals are in
      step, and the sets are linked by what they have handed out together.
    * **`Cooperating.move`**: every move of a traversal keeps this.
    * **`traversals_cooperate`**: the main result.
-/

namespace SpanForest

variable {α : Type u} {ω : Type v}

/-- The action begins a traversal or uses one. -/
def Action.traverses : Action α ω → Bool
  | .addNode _ | .addEdge _ _ _ | .union _ _ => false
  | .start | .hasNext _ | .pull _ | .next _ | .finish _ => true

/-! ## One traversal among others -/

/-- A traversal of a graph whose partition was `p` has examined edges in order,
    up to some place; the partition links them as `s` now. -/
structure InStep (p : Partition) (order : List (Edge ω)) (s : Setoid NodeId) (t : Traversal ω) :
    Prop where
  /-- What was examined is linked; what was handed out was to be kept; and what
      is pending is to be kept. -/
  place : ∃ examined, order = examined ++ (t.pending.toList ++ t.queue) ∧
    (∀ e ∈ examined, s e.first e.second) ∧ t.emitted.toList.Sublist (p.sift examined) ∧
    ∀ e, t.pending = some e → (p.absorb examined).sameSet e.first e.second = false
  /-- When nothing is pending, nothing is left. -/
  ended : t.pending = none → t.queue = []

namespace InStep

variable {p q : Partition} {order : List (Edge ω)} {s s' : Setoid NodeId}
  {t : Traversal ω} {e : Edge ω}

/-- Merges by others do no harm. -/
theorem mono (h : InStep p order s t) (hs : s ≤ s') : InStep p order s' t where
  place := by
    obtain ⟨examined, horder, hlinked, hemitted, hfresh⟩ := h.place
    exact ⟨examined, horder, fun e he => hs (hlinked e he), hemitted, hfresh⟩
  ended := h.ended

/-- Looking ahead brings a traversal in step. -/
theorem of_advance (examined : List (Edge ω)) (hp : p.WellLinked)
    (hheld : ∀ e ∈ order, p.holds e = true) (hcoarser : p.classes ≤ q.classes)
    (horder : order = examined ++ t.queue)
    (hlinked : ∀ e ∈ examined, q.classes e.first e.second)
    (hemitted : t.emitted.toList.Sublist (p.sift examined)) :
    InStep p order q.classes (t.advance q) where
  place := by
    have hall : ∀ e ∈ examined ++ t.skipped q, q.classes e.first e.second := by
      intro e he
      rcases List.mem_append.1 he with he | he
      · exact hlinked e he
      · exact Partition.sameSet_iff.1 (Traversal.sameSet_of_mem_skipped he)
    refine ⟨examined ++ t.skipped q, ?_, hall, ?_, ?_⟩
    · rw [horder, List.append_assoc]
      exact congrArg (examined ++ ·) (t.queue_eq_advance q)
    · rw [Partition.sift_append]
      exact hemitted.trans (List.sublist_append_left _ _)
    · intro e he
      -- Sifting has merged no more than what is linked by now, and the pending
      -- edge is not.
      have hexamined : ∀ a ∈ examined ++ t.skipped q, p.holds a = true := by
        intro a ha
        apply hheld
        rw [horder, t.queue_eq_advance q, ← List.append_assoc]
        exact List.mem_append_left _ ha
      have hle : (p.absorb (examined ++ t.skipped q)).classes ≤ q.classes := by
        rw [Partition.classes_absorb_of_holds hp hexamined]
        exact linked_le_iff.2 ⟨hcoarser, hall⟩
      have hnot := Partition.sameSet_eq_false_iff.1 (Traversal.not_sameSet_of_advance he)
      exact Partition.sameSet_eq_false_iff.2 fun h => hnot (hle h)
  ended := Traversal.queue_of_advance_none

/-- Handing out the pending edge keeps a traversal in step. -/
theorem emit (h : InStep p order s t) (hp : p.WellLinked) (hheld : ∀ e ∈ order, p.holds e = true)
    (he : t.pending = some e) (hcoarser : p.classes ≤ q.classes) (hs : s ≤ q.classes)
    (hedge : q.classes e.first e.second) :
    InStep p order q.classes ({ t with emitted := t.emitted.push e }.advance q) := by
  obtain ⟨examined, horder, hlinked, hemitted, hfresh⟩ := h.place
  refine of_advance (examined ++ [e]) hp hheld hcoarser ?_ ?_ ?_
  · rw [horder, he, List.append_assoc]
    rfl
  · intro e' he'
    rcases List.mem_append.1 he' with he' | he'
    · exact hs (hlinked e' he')
    · obtain rfl := List.mem_singleton.1 he'
      exact hedge
  · rw [Partition.sift_append, Partition.sift_cons_of_not_sameSet (hfresh e he),
      Array.toList_push]
    exact hemitted.append (List.Sublist.refl [e])

/-- The pending edge is one of those to be examined. -/
theorem pending_mem (h : InStep p order s t) (he : t.pending = some e) : e ∈ order := by
  obtain ⟨examined, horder, -⟩ := h.place
  rw [horder, he]
  exact List.mem_append_right examined List.mem_cons_self

/-- What a traversal has handed out is part of what sifting keeps. -/
theorem emitted_sublist (h : InStep p order s t) : t.emitted.toList.Sublist (p.sift order) := by
  obtain ⟨examined, horder, -, hemitted, -⟩ := h.place
  rw [horder, Partition.sift_append]
  exact hemitted.trans (List.sublist_append_left _ _)

/-- When nothing is pending, everything is linked. -/
theorem linked_of_ended (h : InStep p order s t) (hend : t.pending = none) :
    ∀ e ∈ order, s e.first e.second := by
  obtain ⟨examined, horder, hlinked, -, -⟩ := h.place
  rw [hend, h.ended hend, Option.toList_none, List.append_nil, List.append_nil] at horder
  rwa [horder]

end InStep

/-! ## All traversals together -/

namespace Session

/-- The edges that any of the traversals has handed out. -/
def emitted (s : Session α ω) : List (Edge ω) :=
  s.traversals.toList.flatMap fun t => t.emitted.toList

theorem mem_emitted {s : Session α ω} {e : Edge ω} :
    e ∈ s.emitted ↔
    ∃ (number : Nat) (t : Traversal ω), s.traversals[number]? = some t ∧ e ∈ t.emitted := by
  rw [emitted, List.mem_flatMap]
  constructor
  · rintro ⟨t, ht, he⟩
    obtain ⟨number, hnumber⟩ := Array.getElem?_of_mem (Array.mem_toList_iff.1 ht)
    exact ⟨number, t, hnumber, Array.mem_toList_iff.1 he⟩
  · rintro ⟨number, t, ht, he⟩
    exact ⟨t, Array.mem_toList_iff.2 (Array.mem_of_getElem? ht), Array.mem_toList_iff.2 he⟩

/-- What a traversal has handed out stays handed out when it changes. -/
theorem emitted_subset_set {s : Session α ω} {g' : Graph α ω} {t t' : Traversal ω} {number : Nat}
    (ht : s.traversals[number]? = some t) (hkept : ∀ e ∈ t.emitted, e ∈ t'.emitted) :
    s.emitted ⊆ (⟨g', s.traversals.setIfInBounds number t'⟩ : Session α ω).emitted := by
  intro e he
  obtain ⟨number', t'', ht'', hmem⟩ := mem_emitted.1 he
  by_cases hown : number = number'
  · subst hown
    obtain rfl := Option.some.inj (ht.symm.trans ht'')
    exact mem_emitted.2 ⟨number, t', getElem?_setIfInBounds_self ht t', hkept e hmem⟩
  · refine mem_emitted.2 ⟨number', t'', ?_, hmem⟩
    rwa [Array.getElem?_setIfInBounds_ne hown]

variable [Ord ω]

/-- Since the graph was `g`, nothing but traversals has changed it. -/
structure Cooperating (g : Graph α ω) (s : Session α ω) : Prop where
  /-- Only the partition has changed. -/
  graph_eq : s.graph = { g with partition := s.graph.partition }
  /-- The graph is lawful. -/
  lawful : s.graph.Lawful
  /-- Sets were merged, never divided. -/
  coarser : g.partition.classes ≤ s.graph.partition.classes
  /-- The sets are linked by what was handed out. -/
  covered : s.graph.partition.classes ≤ linked g.partition.classes s.emitted
  /-- All traversals are up to date and in step. -/
  inStep : ∀ (number : Nat) (t : Traversal ω), s.traversals[number]? = some t →
    t.expected = g.modificationCount ∧
      InStep g.partition (g.tieBreak.arrange g.edges.toList) s.graph.partition.classes t

namespace Cooperating

variable {g : Graph α ω} {s s' : Session α ω} {t : Traversal ω} {e : Edge ω} {number : Nat}

theorem ofGraph (hg : g.Lawful) : Cooperating g (ofGraph g) where
  graph_eq := rfl
  lawful := hg
  coarser := le_rfl
  covered := le_linked _ _
  inStep := by
    intro number t ht
    simp [Session.ofGraph] at ht

/-- Fusing a traversal changes nothing that counts here. -/
theorem fuse (h : Cooperating g s) (ht : s.traversals[number]? = some t) :
    Cooperating g { s with traversals := s.traversals.setIfInBounds number t.fuse } where
  graph_eq := h.graph_eq
  lawful := h.lawful
  coarser := h.coarser
  covered := h.covered.trans (linked_mono le_rfl (emitted_subset_set ht fun _ he => he))
  inStep := by
    intro number' t' ht'
    by_cases hown : number = number'
    · subst hown
      obtain rfl := Option.some.inj ((getElem?_setIfInBounds_self ht _).symm.trans ht')
      obtain ⟨hexpected, hstep⟩ := h.inStep number t ht
      exact ⟨hexpected, hstep.place, hstep.ended⟩
    · rw [Array.getElem?_setIfInBounds_ne hown] at ht'
      exact h.inStep number' t' ht'

section held

variable (hg : g.Lawful) (hnodes : ∀ e ∈ g.edges, g.joinsNodes e = true)
include hg hnodes

/-- A new traversal is in step. -/
theorem start (h : Cooperating g s) :
    Cooperating g { s with traversals := s.traversals.push (.start s.graph) } where
  graph_eq := h.graph_eq
  lawful := h.lawful
  coarser := h.coarser
  covered := by
    refine h.covered.trans (linked_mono le_rfl ?_)
    intro e he
    obtain ⟨number, t, ht, hmem⟩ := mem_emitted.1 he
    exact mem_emitted.2 ⟨number, t, getElem?_push_of_some ht _, hmem⟩
  inStep := by
    intro number t ht
    rw [Array.getElem?_push] at ht
    split at ht
    · obtain rfl := Option.some.inj ht
      have hqueue : (Traversal.prepare s.graph).queue = g.tieBreak.arrange g.edges.toList := by
        rw [h.graph_eq]
        rfl
      refine ⟨?_, ?_⟩
      · rw [h.graph_eq]
        rfl
      · refine InStep.of_advance [] hg.wellLinked (fun _ => hg.holds_of_mem_arrange hnodes)
          h.coarser hqueue.symm ?_ (List.nil_sublist _)
        intro e he
        exact absurd he List.not_mem_nil
    · exact h.inStep number t ht

/-- Handing out an edge keeps all traversals in step. -/
theorem emit (h : Cooperating g s) (ht : s.traversals[number]? = some t)
    (he : t.pending = some e) :
    Cooperating g ⟨(t.emit s.graph e).graph,
      s.traversals.setIfInBounds number (t.emit s.graph e).traversal⟩ := by
  obtain ⟨hexpected, hstep⟩ := h.inStep number t ht
  have hheld : s.graph.partition.holds e = true := by
    have hbefore := hg.holds_of_mem_arrange hnodes (hstep.pending_mem he)
    rw [hg.holds_eq_joinsNodes] at hbefore
    rw [h.lawful.holds_eq_joinsNodes, h.graph_eq]
    exact hbefore
  -- The merge adds this one edge to what links the nodes, even if another
  -- traversal has joined its endpoints in the meantime.
  have hclasses : (s.graph.union e.first e.second).partition.classes =
      linked s.graph.partition.classes [e] := h.lawful.wellLinked.classes_union hheld
  have hgrown : s.graph.partition.classes ≤
      (s.graph.union e.first e.second).partition.classes :=
    h.lawful.wellLinked.classes_le_union e.first e.second
  have hedge : (s.graph.union e.first e.second).partition.classes e.first e.second := by
    rw [hclasses]
    exact linked_of_mem _ (List.mem_singleton_self e)
  have hnew : (s.traversals.setIfInBounds number (t.emit s.graph e).traversal)[number]? =
      some (t.emit s.graph e).traversal := getElem?_setIfInBounds_self ht _
  refine ⟨?_, h.lawful.union e.first e.second, h.coarser.trans hgrown, ?_, ?_⟩
  · show s.graph.union e.first e.second = _
    rw [h.graph_eq]
    rfl
  · show (s.graph.union e.first e.second).partition.classes ≤ _
    rw [hclasses]
    refine linked_le_iff.2 ⟨h.covered.trans (linked_mono le_rfl ?_), ?_⟩
    · exact emitted_subset_set ht fun _ he' => Array.mem_push_of_mem e he'
    · intro e' he'
      obtain rfl := List.mem_singleton.1 he'
      refine linked_of_mem _ (mem_emitted.2 ⟨number, _, hnew, ?_⟩)
      exact Array.mem_push_self
  · intro number' t' ht'
    by_cases hown : number = number'
    · subst hown
      obtain rfl := Option.some.inj (hnew.symm.trans ht')
      exact ⟨hexpected, hstep.emit hg.wellLinked (fun _ => hg.holds_of_mem_arrange hnodes) he
        (h.coarser.trans hgrown) hgrown hedge⟩
    · rw [Array.getElem?_setIfInBounds_ne hown] at ht'
      obtain ⟨hexpected', hstep'⟩ := h.inStep number' t' ht'
      exact ⟨hexpected', hstep'.mono hgrown⟩

/-- Moves of traversals keep all traversals in step. -/
theorem move {agent : Agent} {notices : List Notice} (hmove : Move s agent notices s')
    (hagent : ∃ number, agent = .traversal number) (h : Cooperating g s) : Cooperating g s' := by
  obtain ⟨number, rfl⟩ := hagent
  cases hmove with
  | start => exact h.start hg hnodes
  | turn ht hturn =>
    cases hturn with
    | refuse _ =>
      rw [setIfInBounds_self ht]
      exact h
    | fuse _ => exact h.fuse ht
    | emit e _ he => exact h.emit hg hnodes ht he

theorem run {later : List (Action α ω)} (hlater : ∀ action ∈ later, action.traverses = true)
    (h : Cooperating g s) : Cooperating g (s.run later).session := by
  refine run_induction (fun agent => ∃ number, agent = .traversal number) (Cooperating g)
    (fun hmove hagent hs => hs.move hg hnodes hmove hagent) ?_ h
  intro action haction s
  have htraverses := hlater action haction
  cases action with
  | addNode _ | addEdge _ _ _ | union _ _ => exact absurd htraverses Bool.false_ne_true
  | start => exact ⟨_, rfl⟩
  | hasNext number | pull number | next number | finish number => exact ⟨number, rfl⟩

end held

/-- When one traversal has nothing left, all that sifting keeps was handed out
    by some traversal. -/
theorem mem_emitted_of_ended (h : Cooperating g s) (hg : g.Lawful)
    (hnodes : ∀ e ∈ g.edges, g.joinsNodes e = true) (ht : s.traversals[number]? = some t)
    (hend : t.pending = none)
    (he : e ∈ g.partition.sift (g.tieBreak.arrange g.edges.toList)) : e ∈ s.emitted := by
  have hindependent := Partition.independent_sift hg.wellLinked
    fun _ => hg.holds_of_mem_arrange hnodes
  have hsub : s.emitted ⊆ g.partition.sift (g.tieBreak.arrange g.edges.toList) := by
    intro e' he'
    obtain ⟨number', t', ht', hmem⟩ := mem_emitted.1 he'
    exact (h.inStep number' t' ht').2.emitted_sublist.subset (Array.mem_toList_iff.2 hmem)
  have horder := (g.partition.sift_sublist _).subset he
  have hlinked := (h.inStep number t ht).2.linked_of_ended hend e horder
  exact hindependent.mem_of_linked hsub he (h.covered hlinked)

end Cooperating

/-! ## The main result -/

/-- However traversals of one graph are begun and used, in whatever order, each
    hands out part of what one traversal hands out alone, in the same order
    and without repetition. As soon as one of them answers that no edge is
    left, all of it has been handed out. -/
theorem traversals_cooperate {tieBreak : TieBreak} {history later : List (Action α ω)}
    {g : Graph α ω} {s : Session α ω} (hg : g = (reached tieBreak history).graph)
    (hnodes : ∀ e ∈ g.edges, g.joinsNodes e = true)
    (hlater : ∀ action ∈ later, action.traverses = true)
    (hs : s = ((ofGraph g).run later).session) :
    ∃ f, g.traverse.answer = .ok f ∧
      (∀ (number : Nat) (t : Traversal ω), s.traversals[number]? = some t →
        t.emitted.toList.Sublist f.edges.toList ∧ t.emitted.toList.Nodup) ∧
      ∀ number, (s.step (.hasNext number)).answer = .available (.ok false) →
        ∀ e ∈ f.edges, ∃ (number' : Nat) (t : Traversal ω),
          s.traversals[number']? = some t ∧ e ∈ t.emitted := by
  have hlawful : g.Lawful := hg ▸ lawful_reached tieBreak history
  have hcooperating : Cooperating g s :=
    hs ▸ (Cooperating.ofGraph hlawful).run hlawful hnodes hlater
  obtain ⟨f, hanswer, hedges⟩ := g.answer_traverse
  have hindependent := Partition.independent_sift hlawful.wellLinked
    fun _ => hlawful.holds_of_mem_arrange hnodes
  refine ⟨f, hanswer, ?_, ?_⟩
  · intro number t ht
    have hsublist := (hcooperating.inStep number t ht).2.emitted_sublist
    rw [hedges]
    exact ⟨hsublist, hindependent.nodup.sublist hsublist⟩
  · intro number hended e he
    obtain ⟨t, ht, hend⟩ := pending_of_answer hended
    rw [← Array.mem_toList_iff, hedges] at he
    exact mem_emitted.1 (hcooperating.mem_emitted_of_ended hlawful hnodes ht hend he)

/-- Two traversals begin on a square. The first hands out two edges. The second
    hands out the first of them again, which was pending for it, skips the
    other, and hands out the third. Then nothing is left for it, while the
    first still has the third edge pending. -/
theorem traversals_cooperate_on_square :
    let g : Graph Unit Int := (reached .insertionOrder
      [.addNode (), .addNode (), .addNode (), .addNode (), .addEdge ⟨3⟩ ⟨0⟩ 5,
        .addEdge ⟨0⟩ ⟨1⟩ (-4), .addEdge ⟨1⟩ ⟨2⟩ 3, .addEdge ⟨2⟩ ⟨3⟩ 3]).graph
    let s := ((ofGraph g).run [.start, .start, .pull 0, .pull 0, .pull 1, .pull 1]).session
    let a : Edge Int := ⟨⟨0⟩, ⟨1⟩, -4, 1⟩
    let b : Edge Int := ⟨⟨1⟩, ⟨2⟩, 3, 2⟩
    let c : Edge Int := ⟨⟨2⟩, ⟨3⟩, 3, 3⟩
    ∃ f, g.traverse.answer = .ok f ∧ f.edges = #[a, b, c] ∧
      s.traversals.map Traversal.emitted = #[#[a, b], #[a, c]] ∧
      (∀ (number : Nat) (t : Traversal Int), s.traversals[number]? = some t →
        t.emitted.toList.Sublist f.edges.toList ∧ t.emitted.toList.Nodup) ∧
      (s.step (.hasNext 0)).answer = .available (.ok true) ∧
      (s.step (.hasNext 1)).answer = .available (.ok false) ∧
      ∀ e ∈ f.edges, ∃ (number : Nat) (t : Traversal Int),
        s.traversals[number]? = some t ∧ e ∈ t.emitted := by
  intro g s a b c
  have hnodes : ∀ e ∈ g.edges, g.joinsNodes e = true := by decide
  have hlater : ∀ action ∈ [Action.start, .start, .pull 0, .pull 0, .pull 1, .pull 1],
      Action.traverses (α := Unit) (ω := Int) action = true := by decide
  have hforest : g.traverse.answer.map Forest.edges = .ok #[a, b, c] := by
    unfold g
    cbv
  have hemitted : s.traversals.map Traversal.emitted = #[#[a, b], #[a, c]] := by
    unfold s g
    cbv
  have hleft : (s.step (.hasNext 0)).answer = .available (.ok true) := by
    unfold s g
    cbv
  have hended : (s.step (.hasNext 1)).answer = .available (.ok false) := by
    unfold s g
    cbv
  obtain ⟨f, hanswer, heach, hall⟩ := traversals_cooperate rfl hnodes hlater rfl
  rw [hanswer] at hforest
  exact ⟨f, hanswer, Except.ok.inj hforest, hemitted, heach, hleft, hended, hall 1 hended⟩

end Session

end SpanForest
