import SpanForest.Proofs.Command.Listing
import SpanForest.Proofs.EdgeList.Layout
import SpanForest.Proofs.Summary.Rendering

/-! # The text that the command answers with

    The labels of a summary come from fields of a file, which hold no white
    space. So what the command answers in the form for people can be read back
    from the text, whatever the labels look like.

    * **`legible_of_lists`**: a summary of an edge list is legible.
    * **`run_eq_ok`**: every answer of the command is about an edge list.
    * **`run_text_unambiguous`**: the main result, the text of two answers.
-/

namespace SpanForest

namespace EdgeList

variable {bytes : List UInt8} {triples : List Triple} {s : Summary} {tieBreak : TieBreak}
  {representative : String → String} {label : String}

theorem isField_of_mem_distinctLabels (hwritable : ∀ t ∈ triples, Writable t)
    (hlabel : label ∈ distinctLabels triples) : IsField label.toList := by
  obtain ⟨t, ht, rfl | rfl⟩ := mem_distinctLabels.1 hlabel
  · exact (hwritable t ht).left
  · exact (hwritable t ht).right

/-- The entry of a label is a line when the label and its representative are. -/
theorem feed_not_mem_entry {root : String} (hlabel : IsField label.toList)
    (hroot : IsField root.toList) : '\n' ∉ (Summary.entry label root).toList := by
  unfold Summary.entry
  split
  · exact hlabel.feed_not_mem
  · have hopen := Summary.feed_not_mem_append hlabel.feed_not_mem (b := " (") (by decide)
    exact Summary.feed_not_mem_append (Summary.feed_not_mem_append hopen hroot.feed_not_mem)
      (by decide)

/-- A summary that describes the edges of a file and lists their labels is
    legible. -/
theorem legible_of_lists (hlists : Lists bytes triples)
    (hdescribes : s.Describes tieBreak (writtenEdges triples))
    (hnodes : s.ListsNodes (writtenEdges triples) (distinctLabels triples) representative)
    (hsource : '\n' ∉ s.source.toList) : s.Legible where
  source := hsource
  labels := by
    intro e he
    obtain ⟨⟨t, place⟩, ht, rfl⟩ := List.mem_map.1 (hdescribes.selected.subset he)
    have hwritable := writable_of_enumerates hlists t (List.fst_mem_of_mem_zipIdx ht)
    exact ⟨hwritable.left, hwritable.right⟩
  nodes := by
    have hfield : ∀ label ∈ distinctLabels triples, IsField label.toList :=
      fun _ => isField_of_mem_distinctLabels (writable_of_enumerates hlists)
    intro text htext
    rw [hnodes.nodes_eq] at htext
    obtain ⟨label, hlabel, rfl⟩ := List.mem_map.1 htext
    exact feed_not_mem_entry (hfield label hlabel)
      (hfield _ (hnodes.represented label hlabel).1)

end EdgeList

namespace ForestCommand

open EdgeList

variable {c c' : ForestCommand} {opened opened' : Except SystemFault Opened}
  {answer answer' : CommandAnswer}

/-- Every answer is about the edge list of a file that could be read. -/
theorem run_eq_ok (hrun : (c.run opened).1 = .ok answer) :
    ∃ bytes triples representative, opened = .ok (.content bytes) ∧ Lists bytes triples ∧
      answer.summary.Describes c.tieBreak (writtenEdges triples) ∧
      answer.summary.ListsNodes (writtenEdges triples) (distinctLabels triples)
        representative := by
  cases opened with
  | error fault => cases hrun
  | ok opened =>
    cases opened with
    | unreadable fault => cases hrun
    | content bytes =>
      cases hparse : parse bytes with
      | error fault =>
        rw [answer_run_content, hparse] at hrun
        cases hrun
      | ok list =>
        obtain ⟨triples, hlists, -⟩ := parse_eq_ok_iff.1 hparse
        obtain ⟨forest, hforest, hanswer⟩ := c.run_eq_ofForest hlists
        obtain rfl := Except.ok.inj (hanswer.symm.trans hrun)
        exact ⟨bytes, triples, _, rfl, hlists, describes_traverse rfl c.source hforest,
          listsNodes_traverse rfl c.source hforest⟩

/-- An answer whose source is a line is legible. -/
theorem legible_of_run (hrun : (c.run opened).1 = .ok answer)
    (hsource : '\n' ∉ answer.summary.source.toList) : answer.summary.Legible := by
  obtain ⟨bytes, triples, representative, -, hlists, hdescribes, hnodes⟩ := run_eq_ok hrun
  exact legible_of_lists hlists hdescribes hnodes hsource

/-- When two answers have the form for people and their sources have no line
    feed, the same text says the same: the source, the counts, the total, the
    edges by label with their weights, and the entries of the nodes. -/
theorem run_text_unambiguous (hrun : (c.run opened).1 = .ok answer)
    (hrun' : (c'.run opened').1 = .ok answer') (hformat : answer.format = .text)
    (hformat' : answer'.format = .text) (hsource : '\n' ∉ answer.summary.source.toList)
    (hsource' : '\n' ∉ answer'.summary.source.toList)
    (h : answer.summary.render answer.format = answer'.summary.render answer'.format) :
    answer.summary.SaysSame answer'.summary := by
  rw [hformat, hformat'] at h
  exact Summary.render_inj (legible_of_run hrun hsource) (legible_of_run hrun' hsource') h

/-- Labels that look like the marks of the text are read as labels. One more
    edge, which is not in the forest, is the only difference of two files and
    cannot be seen in the text. -/
theorem run_text_unambiguous_of_markup :
    let c : ForestCommand := ⟨Text.encode "odd", .text, .insertionOrder⟩
    let bytes := Text.encode "node -- 2\nnodes: node 1\n(node) (node) 0\n"
    let bytes' := Text.encode "node -- 2\n-- node 2\nnodes: node 1\n(node) (node) 0\n"
    let text := "source: odd\nnodes: 4\ncomponents: 2\ntotal weight: 3\n" ++
      "nodes: -- node\t1\nnode -- --\t2\n" ++
      "node\tnode (nodes:)\nnode\t-- (nodes:)\nnode\tnodes:\nnode\t(node)\n"
    ∃ summary summary', (c.run (.ok (.content bytes))).1 = .ok ⟨.text, summary⟩ ∧
      (c.run (.ok (.content bytes'))).1 = .ok ⟨.text, summary'⟩ ∧ summary ≠ summary' ∧
      summary.render .text = text ∧ summary'.render .text = text ∧
      summary.SaysSame summary' := by
  intro c bytes bytes' text
  let summary : Summary :=
    { source := "odd"
      nodeCount := 4
      edgeCount := 3
      componentCount := 2
      totalWeight := 3
      isTree := false
      edges := [⟨"nodes:", "node", 1, 1⟩, ⟨"node", "--", 2, 0⟩]
      nodes := ["node (nodes:)", "-- (nodes:)", "nodes:", "(node)"] }
  let summary' : Summary :=
    { summary with edgeCount := 4, edges := [⟨"nodes:", "node", 1, 2⟩, ⟨"node", "--", 2, 0⟩] }
  let list : EdgeList := ⟨#["node", "--", "nodes:", "(node)"], #[⟨0, 1, 2⟩, ⟨2, 0, 1⟩, ⟨3, 3, 0⟩]⟩
  let list' : EdgeList := { list with edges := #[⟨0, 1, 2⟩, ⟨1, 0, 2⟩, ⟨2, 0, 1⟩, ⟨3, 3, 0⟩] }
  have hparse : parse bytes = .ok list := by
    unfold bytes list
    decide +kernel
  have hparse' : parse bytes' = .ok list' := by
    unfold bytes' list' list
    decide +kernel
  have hodd : c.source = "odd" := by
    unfold c
    decide +kernel
  have hforest : (list.toGraph .insertionOrder).traverse.answer =
      .ok ⟨#[⟨⟨2⟩, ⟨0⟩, 1, 1⟩, ⟨⟨0⟩, ⟨1⟩, 2, 0⟩], 2, 4⟩ := by
    unfold list
    cbv
  have hforest' : (list'.toGraph .insertionOrder).traverse.answer =
      .ok ⟨#[⟨⟨2⟩, ⟨0⟩, 1, 2⟩, ⟨⟨0⟩, ⟨1⟩, 2, 0⟩], 2, 4⟩ := by
    unfold list' list
    cbv
  have hrun : (c.run (.ok (.content bytes))).1 = .ok ⟨.text, summary⟩ := by
    apply run_eq_ok_of_parse hparse hodd hforest rfl
    · unfold summary
      cbv
    · unfold summary
      decide +kernel
  have hrun' : (c.run (.ok (.content bytes'))).1 = .ok ⟨.text, summary'⟩ := by
    apply run_eq_ok_of_parse hparse' hodd hforest' rfl
    · unfold summary' summary
      cbv
    · unfold summary' summary
      decide +kernel
  have htext : summary.render .text = text := by
    unfold summary text
    decide +kernel
  -- The text leaves out what the summaries differ in.
  have htext' : summary'.render .text = text := htext
  have hsource : '\n' ∉ summary.source.toList := by
    unfold summary
    decide
  refine ⟨summary, summary', hrun, hrun', by decide, htext, htext', ?_⟩
  exact run_text_unambiguous hrun hrun' rfl rfl hsource hsource (htext.trans htext'.symm)

end ForestCommand

end SpanForest
