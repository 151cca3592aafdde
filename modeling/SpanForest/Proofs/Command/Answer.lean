import SpanForest.Command.Forest
import SpanForest.Proofs.EdgeList.Grammar
import SpanForest.Proofs.EdgeList.Graph

/-! # What the command answers

    A file is read, its labels are numbered, a graph is built and drained, and
    the edges are named by label again. The answer can be told from the edges
    as they are written in the file.

    * **`traverse_eq_ok`**: the traversal of a list never fails.
    * **`answer_run_content`**: what becomes of a file that can be read.
    * **`run_of_parse`**: what becomes of a file that is an edge list, and
      **`run_eq_ofForest`**, told by the edges that it lists.
    * **`run_describes`**: the command succeeds exactly on edge lists, and its
      summary describes the written edges.
-/

namespace SpanForest.ForestCommand

open EdgeList

variable {c : ForestCommand} {bytes : List UInt8}

/-- Nothing comes between building a graph and draining it, so the traversal of
    a list succeeds. -/
theorem traverse_eq_ok (c : ForestCommand) (list : EdgeList) :
    ∃ forest, (list.toGraph c.tieBreak).traverse.answer = .ok forest ∧
      (c.traverse list).1 =
        .ok (.ofForest c.source (list.toGraph c.tieBreak).traverse.graph forest) := by
  obtain ⟨forest, hforest, -⟩ := (list.toGraph c.tieBreak).answer_traverse
  refine ⟨forest, hforest, ?_⟩
  have hanswer : (list.load c.tieBreak).session.graph.traverse.answer = .ok forest := hforest
  unfold traverse
  simp only [hanswer]
  rfl

/-- The answer of the command, without its trace. -/
theorem answer_run (c : ForestCommand) (opened : Except SystemFault Opened) :
    (c.run opened).1 = ((c.readOpened opened).bind fun list => (c.traverse list).1).map
      fun summary => ⟨c.format, summary⟩ := by
  unfold run
  cases c.readOpened opened <;> rfl

/-- A file is answered by the summary of its list, or by its first fault. -/
theorem answer_run_content (c : ForestCommand) (bytes : List UInt8) :
    (c.run (.ok (.content bytes))).1 =
      match parse bytes with
      | .ok list => (c.traverse list).1.map fun summary => ⟨c.format, summary⟩
      | .error fault => .error (.edgeList c.path fault) := by
  rw [answer_run, readOpened]
  cases parse bytes <;> rfl

/-- A file that is read as a list is answered by the summary of its graph. -/
theorem run_of_parse {list : EdgeList} (c : ForestCommand) (hparse : parse bytes = .ok list) :
    ∃ forest, (list.toGraph c.tieBreak).traverse.answer = .ok forest ∧
      (c.run (.ok (.content bytes))).1 = .ok ⟨c.format,
        .ofForest c.source (list.toGraph c.tieBreak).traverse.graph forest⟩ := by
  obtain ⟨forest, hforest, htraverse⟩ := c.traverse_eq_ok list
  refine ⟨forest, hforest, ?_⟩
  rw [answer_run_content, hparse]
  show (c.traverse list).1.map _ = _
  rw [htraverse]
  rfl

/-- So the answer can be found from the list, the name of the source, the forest
    and the entries of the nodes, one after another. -/
theorem run_eq_ok_of_parse {list : EdgeList} {name : String} {tieBreak : TieBreak}
    {forest : Forest Int} {summary : Summary} (hparse : parse bytes = .ok list)
    (hsource : c.source = name)
    (hforest : (list.toGraph tieBreak).traverse.answer = .ok forest)
    (htieBreak : c.tieBreak = tieBreak)
    (hnodes : Summary.nodeTexts (list.toGraph tieBreak).traverse.graph = summary.nodes)
    (hrest : { Summary.ofForest name (list.toGraph tieBreak) forest with
      nodes := summary.nodes } = summary) :
    (c.run (.ok (.content bytes))).1 = .ok ⟨c.format, summary⟩ := by
  subst htieBreak
  obtain ⟨forest', hforest', hrun⟩ := c.run_of_parse hparse
  obtain rfl := Except.ok.inj (hforest'.symm.trans hforest)
  rw [hrun, hsource, Summary.ofForest_traverse, hnodes, hrest]

/-- The traversal is never the reason why the command fails. -/
theorem run_ne_traversal (c : ForestCommand) (opened : Except SystemFault Opened)
    (failure : Failure) : (c.run opened).1 ≠ .error (.traversal failure) := by
  rw [answer_run]
  cases hread : c.readOpened opened with
  | ok list =>
    obtain ⟨forest, -, htraverse⟩ := c.traverse_eq_ok list
    show (c.traverse list).1.map _ ≠ _
    rw [htraverse]
    intro h
    cases h
  | error fault =>
    intro h
    obtain rfl : fault = .traversal failure := Except.error.inj h
    -- Reading fails because of the file, in each of three ways.
    unfold readOpened at hread
    split at hread
    · cases hread
    · cases hread
    · split at hread <;> cases hread

/-- On a file that is an edge list, the command answers with the summary of the
    drained graph. -/
theorem run_eq_ofForest {triples : List Triple} (c : ForestCommand) (h : Lists bytes triples) :
    ∃ forest, ((ofTriples triples).toGraph c.tieBreak).traverse.answer = .ok forest ∧
      (c.run (.ok (.content bytes))).1 = .ok ⟨c.format,
        .ofForest c.source ((ofTriples triples).toGraph c.tieBreak).traverse.graph forest⟩ := by
  exact c.run_of_parse (parse_eq_ok_iff.2 ⟨triples, h, rfl⟩)

/-- On a file that is an edge list, the command sums up the written edges. -/
theorem run_of_lists {triples : List Triple} (c : ForestCommand) (h : Lists bytes triples) :
    ∃ summary, (c.run (.ok (.content bytes))).1 = .ok ⟨c.format, summary⟩ ∧
      summary.Describes c.tieBreak (writtenEdges triples) := by
  obtain ⟨forest, hforest, hrun⟩ := c.run_eq_ofForest h
  exact ⟨_, hrun, describes_traverse rfl c.source hforest⟩

/-- Given a file that can be read, the command succeeds exactly when the file is
    an edge list, and its summary describes the edges that the lines state: it
    has their selection in the order of examination, by label, and counts their
    labels, themselves and the components of their labels. A traversal never
    fails. -/
theorem run_describes (c : ForestCommand) (bytes : List UInt8) :
    ((∃ answer, (c.run (.ok (.content bytes))).1 = .ok answer) ↔
      ∃ list, parse bytes = .ok list) ∧
    (∀ opened failure, (c.run opened).1 ≠ .error (.traversal failure)) ∧
    ∀ answer, (c.run (.ok (.content bytes))).1 = .ok answer →
      ∃ triples, Lists bytes triples ∧
        answer.summary.Describes c.tieBreak (writtenEdges triples) := by
  have hreads : ∀ answer, (c.run (.ok (.content bytes))).1 = .ok answer →
      ∃ list, parse bytes = .ok list := by
    intro answer hanswer
    rw [answer_run_content] at hanswer
    cases hparse : parse bytes with
    | ok list => exact ⟨list, rfl⟩
    | error fault =>
      rw [hparse] at hanswer
      cases hanswer
  refine ⟨⟨fun ⟨answer, hanswer⟩ => hreads answer hanswer, ?_⟩, c.run_ne_traversal, ?_⟩
  · rintro ⟨list, hparse⟩
    obtain ⟨triples, hlists, -⟩ := parse_eq_ok_iff.1 hparse
    obtain ⟨summary, hrun, -⟩ := c.run_of_lists hlists
    exact ⟨_, hrun⟩
  · intro answer hanswer
    obtain ⟨list, hparse⟩ := hreads answer hanswer
    obtain ⟨triples, hlists, -⟩ := parse_eq_ok_iff.1 hparse
    obtain ⟨summary, hrun, hdescribes⟩ := c.run_of_lists hlists
    obtain rfl := Except.ok.inj (hrun.symm.trans hanswer)
    exact ⟨triples, hlists, hdescribes⟩

/-- Comments and empty lines move no places, a loop joins nothing, and the later
    of two equally heavy edges comes first. -/
theorem run_describes_of_tied_edges :
    let c : ForestCommand := ⟨Text.encode "towns", .text, .latestFirst⟩
    let bytes := Text.encode "# towns\na b 2\nb a 1\n\nc c 0\nd b 1 # tie\r\n"
    ∃ summary, (c.run (.ok (.content bytes))).1 = .ok ⟨.text, summary⟩ ∧
      summary.nodeCount = 4 ∧ summary.componentCount = 2 ∧
      summary.edges = [⟨"d", "b", 1, 3⟩, ⟨"b", "a", 1, 1⟩] ∧
      ∃ triples, Lists bytes triples ∧
        summary.Describes .latestFirst (writtenEdges triples) := by
  intro c bytes
  let summary : Summary :=
    { source := "towns"
      nodeCount := 4
      edgeCount := 4
      componentCount := 2
      totalWeight := 2
      isTree := false
      edges := [⟨"d", "b", 1, 3⟩, ⟨"b", "a", 1, 1⟩]
      nodes := ["a (d)", "b (d)", "c", "d"] }
  let list : EdgeList :=
    ⟨#["a", "b", "c", "d"], #[⟨0, 1, 2⟩, ⟨1, 0, 1⟩, ⟨2, 2, 0⟩, ⟨3, 1, 1⟩]⟩
  have hparse : parse bytes = .ok list := by
    unfold bytes list
    decide +kernel
  have hsource : c.source = "towns" := by
    unfold c
    decide +kernel
  have hforest : (list.toGraph .latestFirst).traverse.answer =
      .ok ⟨#[⟨⟨3⟩, ⟨1⟩, 1, 3⟩, ⟨⟨1⟩, ⟨0⟩, 1, 1⟩], 2, 4⟩ := by
    unfold list
    cbv
  have hrun : (c.run (.ok (.content bytes))).1 = .ok ⟨.text, summary⟩ := by
    apply run_eq_ok_of_parse hparse hsource hforest rfl
    · unfold summary
      cbv
    · unfold summary
      decide +kernel
  obtain ⟨-, -, hdescribes⟩ := run_describes c bytes
  exact ⟨summary, hrun, rfl, rfl, rfl, hdescribes _ hrun⟩

end SpanForest.ForestCommand
