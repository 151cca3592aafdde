import Mathlib.Tactic.FinCases
import SpanForest.Proofs.EdgeList.Layout
import SpanForest.Proofs.Summary.Listing

/-! # Reading the text of a summary

    The text of a summary has no mark between its edges and its nodes, and
    labels may look like anything that stands around them. All the same it can
    be read in one way only. A line ends at its line feed; a label ends at the
    first white space; and behind that white space follows a dash or, in the
    lines of nodes, an entry.

    * **`Legible`**: a summary whose labels are fields and whose lines are
      lines.
    * **`append_cons_inj`**: a text is split in one way at the first character
      of a kind.
    * **`lines_inj`**: lines can be told from their text.
    * **`sections_inj`**: edges and nodes can be told from their lines.
    * **`textLines_inj`**, **`render_inj`**: so can the whole summary.
-/

namespace SpanForest.Summary

open Text EdgeList

variable {s s' : Summary} {e e' : SummaryEdge} {edges edges' : List SummaryEdge}
  {entries entries' lines lines' : List String} {text : String}

/-- The source and the entries of a summary are lines, and the labels of its
    edges are fields. -/
structure Legible (s : Summary) : Prop where
  /-- The name of the source is a line. -/
  source : '\n' ∉ s.source.toList
  /-- The labels of edges are fields. -/
  labels : ∀ e ∈ s.edges, IsField e.first.toList ∧ IsField e.second.toList
  /-- The entries of nodes are lines. -/
  nodes : ∀ text ∈ s.nodes, '\n' ∉ text.toList

/-- What the text of a summary says: where its edges come from, how many nodes
    and components there are, the total, the edges of the forest, and the
    entries of the nodes. -/
structure SaysSame (s s' : Summary) : Prop where
  source_eq : s.source = s'.source
  nodeCount_eq : s.nodeCount = s'.nodeCount
  componentCount_eq : s.componentCount = s'.componentCount
  totalWeight_eq : s.totalWeight = s'.totalWeight
  edges_eq : s.edges.map (fun e => (e.first, e.second, e.weight)) =
    s'.edges.map fun e => (e.first, e.second, e.weight)
  nodes_eq : s.nodes = s'.nodes

/-! ## Splitting -/

/-- A list is split in one way at the first member of a kind. -/
theorem append_cons_inj {α : Type u} {p : α → Bool} {a b : α} {before before' rest rest' : List α}
    (ha : p a = true) (hb : p b = true) (hbefore : ∀ c ∈ before, p c = false)
    (hbefore' : ∀ c ∈ before', p c = false)
    (h : before ++ a :: rest = before' ++ b :: rest') :
    before = before' ∧ a = b ∧ rest = rest' := by
  induction before generalizing before' with
  | nil =>
    cases before' with
    | nil =>
      obtain ⟨rfl, rfl⟩ := List.cons_eq_cons.1 h
      exact ⟨rfl, rfl, rfl⟩
    | cons c before' =>
      obtain ⟨rfl, -⟩ := List.cons_eq_cons.1 h
      rw [hbefore' a List.mem_cons_self] at ha
      cases ha
  | cons c before ih =>
    cases before' with
    | nil =>
      obtain ⟨rfl, -⟩ := List.cons_eq_cons.1 h
      rw [hbefore c List.mem_cons_self] at hb
      cases hb
    | cons c' before' =>
      obtain ⟨rfl, htail⟩ := List.cons_eq_cons.1 h
      obtain ⟨rfl, hab, hrest⟩ := ih (List.forall_mem_cons.1 hbefore).2
        (List.forall_mem_cons.1 hbefore').2 htail
      exact ⟨rfl, hab, hrest⟩

/-! ## Lines -/

theorem toList_terminated (line : String) (lines : List String) :
    (String.join ((line :: lines).map (· ++ "\n"))).toList =
      line.toList ++ '\n' :: (String.join (lines.map (· ++ "\n"))).toList := by
  rw [List.map_cons, String.join_cons, String.toList_append, String.toList_append,
    List.append_assoc]
  rfl

/-- Lines can be told from their text. -/
theorem lines_inj (hlines : ∀ line ∈ lines, '\n' ∉ line.toList)
    (hlines' : ∀ line ∈ lines', '\n' ∉ line.toList)
    (h : String.join (lines.map (· ++ "\n")) = String.join (lines'.map (· ++ "\n"))) :
    lines = lines' := by
  have hnot : ∀ line : String, '\n' ∉ line.toList → ∀ c ∈ line.toList, (c == '\n') = false := by
    intro line hline c hc
    rw [beq_eq_false_iff_ne]
    rintro rfl
    exact hline hc
  rw [← String.toList_inj] at h
  induction lines generalizing lines' with
  | nil =>
    cases lines' with
    | nil => rfl
    | cons line' lines' =>
      rw [toList_terminated] at h
      exact absurd h.symm (List.append_ne_nil_of_right_ne_nil _ (List.cons_ne_nil _ _))
  | cons line lines ih =>
    cases lines' with
    | nil =>
      rw [toList_terminated] at h
      exact absurd h (List.append_ne_nil_of_right_ne_nil _ (List.cons_ne_nil _ _))
    | cons line' lines' =>
      obtain ⟨hline, hlines⟩ := List.forall_mem_cons.1 hlines
      obtain ⟨hline', hlines'⟩ := List.forall_mem_cons.1 hlines'
      rw [toList_terminated, toList_terminated] at h
      obtain ⟨hfirst, -, hrest⟩ := append_cons_inj (p := (· == '\n')) rfl rfl
        (hnot line hline) (hnot line' hline') h
      rw [String.toList_inj.1 hfirst, ih hlines hlines' hrest]

/-! ## Edges and nodes -/

/-- The line of a node. -/
def nodeLine (text : String) : String := "node\t" ++ text

theorem toList_edgeLine (e : SummaryEdge) : (edgeLine e).toList =
    e.first.toList ++ ' ' :: '-' :: '-' :: ' ' ::
      (e.second.toList ++ '\t' :: (toString e.weight).toList) := by
  simp [edgeLine]

theorem toList_nodeLine (text : String) :
    (nodeLine text).toList = ['n', 'o', 'd', 'e'] ++ '\t' :: text.toList := by
  simp [nodeLine]

/-- The labels and the weight of an edge can be told from its line. -/
theorem edgeLine_inj (hfirst : IsField e.first.toList) (hsecond : IsField e.second.toList)
    (hfirst' : IsField e'.first.toList) (hsecond' : IsField e'.second.toList)
    (h : edgeLine e = edgeLine e') :
    (e.first, e.second, e.weight) = (e'.first, e'.second, e'.weight) := by
  rw [← String.toList_inj, toList_edgeLine, toList_edgeLine] at h
  obtain ⟨hleft, -, hrest⟩ := append_cons_inj (p := isBlank) (by decide) (by decide)
    hfirst.not_blank hfirst'.not_blank h
  -- Both lines go on with the same dashes.
  obtain ⟨-, hrest⟩ := List.cons_eq_cons.1 hrest
  obtain ⟨-, hrest⟩ := List.cons_eq_cons.1 hrest
  obtain ⟨-, hrest⟩ := List.cons_eq_cons.1 hrest
  obtain ⟨hright, -, hweight⟩ := append_cons_inj (p := isBlank) (by decide) (by decide)
    hsecond.not_blank hsecond'.not_blank hrest
  rw [String.toList_inj] at hleft hright hweight
  rw [hleft, hright, toString_injective hweight]

/-- The first white space of a line tells edges from nodes. -/
theorem edgeLine_ne_nodeLine (hfirst : IsField e.first.toList) : edgeLine e ≠ nodeLine text := by
  intro h
  have hword : ∀ c ∈ ['n', 'o', 'd', 'e'], isBlank c = false := by
    intro c hc
    fin_cases hc <;> rfl
  rw [← String.toList_inj, toList_edgeLine, toList_nodeLine] at h
  obtain ⟨-, hblank, -⟩ := append_cons_inj (p := isBlank) (by decide) (by decide)
    hfirst.not_blank hword h
  exact absurd hblank (by decide)

theorem nodeLine_inj {text' : String} (h : nodeLine text = nodeLine text') : text = text' :=
  (String.append_right_inj _).1 h

/-- Where the edges end and the nodes begin can be told from the lines. -/
theorem sections_inj
    (hedges : ∀ e ∈ edges, IsField e.first.toList ∧ IsField e.second.toList)
    (hedges' : ∀ e ∈ edges', IsField e.first.toList ∧ IsField e.second.toList)
    (h : edges.map edgeLine ++ entries.map nodeLine =
      edges'.map edgeLine ++ entries'.map nodeLine) :
    edges.map (fun e => (e.first, e.second, e.weight)) =
      edges'.map (fun e => (e.first, e.second, e.weight)) ∧ entries = entries' := by
  induction edges generalizing edges' with
  | nil =>
    cases edges' with
    | nil => exact ⟨rfl, (List.map_inj_right fun _ _ => nodeLine_inj).1 h⟩
    | cons e' edges' =>
      cases entries with
      | nil => cases h
      | cons text entries =>
        exact absurd (List.cons_eq_cons.1 h).1.symm
          (edgeLine_ne_nodeLine (hedges' e' List.mem_cons_self).1)
  | cons e edges ih =>
    cases edges' with
    | nil =>
      cases entries' with
      | nil => cases h
      | cons text entries' =>
        exact absurd (List.cons_eq_cons.1 h).1
          (edgeLine_ne_nodeLine (hedges e List.mem_cons_self).1)
    | cons e' edges' =>
      obtain ⟨he, hedges⟩ := List.forall_mem_cons.1 hedges
      obtain ⟨he', hedges'⟩ := List.forall_mem_cons.1 hedges'
      obtain ⟨hline, hrest⟩ := List.cons_eq_cons.1 h
      obtain ⟨hmore, hentries⟩ := ih hedges hedges' hrest
      refine ⟨?_, hentries⟩
      rw [List.map_cons, List.map_cons, hmore, edgeLine_inj he.1 he.2 he'.1 he'.2 hline]

/-! ## The whole summary -/

theorem feed_not_mem_append {a b : String} (ha : '\n' ∉ a.toList) (hb : '\n' ∉ b.toList) :
    '\n' ∉ (a ++ b).toList := by
  rw [String.toList_append, List.mem_append]
  exact not_or.2 ⟨ha, hb⟩

theorem feed_not_mem_natural (n : Nat) : '\n' ∉ (toString n).toList := by
  have h := (isField_of_decimal (decimal_toDigits n)).feed_not_mem
  rwa [← String.toList_ofList (l := Nat.toDigits 10 n)] at h

theorem feed_not_mem_integer (value : Int) : '\n' ∉ (toString value).toList :=
  (isField_of_numeral (numeral_toString value)).feed_not_mem

theorem feed_not_mem_edgeLine (hfirst : IsField e.first.toList)
    (hsecond : IsField e.second.toList) : '\n' ∉ (edgeLine e).toList := by
  have hleft := feed_not_mem_append hfirst.feed_not_mem (b := " -- ") (by decide)
  have hright := feed_not_mem_append hsecond.feed_not_mem (b := "\t") (by decide)
  have hline := feed_not_mem_append (feed_not_mem_append hleft hright)
    (feed_not_mem_integer e.weight)
  simpa only [edgeLine, String.append_assoc] using hline

/-- The lines of a legible summary are lines. -/
theorem Legible.feed_not_mem (h : s.Legible) : ∀ line ∈ s.textLines, '\n' ∉ line.toList := by
  intro line hline
  rw [textLines, List.mem_append, List.mem_append] at hline
  obtain (hline | hline) | hline := hline
  · simp only [List.mem_cons, List.not_mem_nil, or_false] at hline
    obtain rfl | rfl | rfl | rfl := hline
    · exact feed_not_mem_append (by decide) h.source
    · exact feed_not_mem_append (by decide) (feed_not_mem_natural _)
    · exact feed_not_mem_append (by decide) (feed_not_mem_natural _)
    · exact feed_not_mem_append (by decide) (feed_not_mem_integer _)
  · obtain ⟨e, he, rfl⟩ := List.mem_map.1 hline
    exact feed_not_mem_edgeLine (h.labels e he).1 (h.labels e he).2
  · obtain ⟨text, htext, rfl⟩ := List.mem_map.1 hline
    exact feed_not_mem_append (by decide) (h.nodes text htext)

/-- What a legible summary says can be told from its lines. -/
theorem textLines_inj (hs : s.Legible) (hs' : s'.Legible) (h : s.textLines = s'.textLines) :
    s.SaysSame s' := by
  have hheader : ∀ t : Summary, t.textLines =
      ("source: " ++ t.source) :: ("nodes: " ++ toString t.nodeCount) ::
        ("components: " ++ toString t.componentCount) ::
        ("total weight: " ++ toString t.totalWeight) ::
        (t.edges.map edgeLine ++ t.nodes.map nodeLine) := fun _ => rfl
  rw [hheader, hheader] at h
  obtain ⟨hsource, h⟩ := List.cons_eq_cons.1 h
  obtain ⟨hnodeCount, h⟩ := List.cons_eq_cons.1 h
  obtain ⟨hcomponentCount, h⟩ := List.cons_eq_cons.1 h
  obtain ⟨htotal, h⟩ := List.cons_eq_cons.1 h
  obtain ⟨hedges, hnodes⟩ := sections_inj hs.labels hs'.labels h
  exact {
    source_eq := (String.append_right_inj _).1 hsource
    nodeCount_eq := toString_nat_injective ((String.append_right_inj _).1 hnodeCount)
    componentCount_eq := toString_nat_injective ((String.append_right_inj _).1 hcomponentCount)
    totalWeight_eq := toString_injective ((String.append_right_inj _).1 htotal)
    edges_eq := hedges
    nodes_eq := hnodes }

/-- What a legible summary says can be told from its text. -/
theorem render_inj (hs : s.Legible) (hs' : s'.Legible) (h : s.render .text = s'.render .text) :
    s.SaysSame s' :=
  textLines_inj hs hs' (lines_inj hs.feed_not_mem hs'.feed_not_mem h)

end SpanForest.Summary
