import Mathlib.Data.List.Basic
import Mathlib.Data.List.Induction
import Mathlib.Data.List.Nodup
import SpanForest.EdgeList

/-! # Numbers of labels

    Labels are numbered while edges are appended, by an index that is kept
    beside the list. In the end the labels are those that were mentioned, each
    at its first mention, and the numbers of an edge are the positions of its
    labels among them.

    * **`mentions`**: the labels in the order in which they are written.
    * **`Draft.Indexed`**: the index is the inverse of the labels, and
      **`Indexed.insertAll`**: it stays so, whatever is appended.
    * **`toList_intern`**: interning appends a label at its first mention.
    * **`labels_ofTriples`**, **`edges_ofTriples`**: the whole list.
    * **`written?_numbered`**: the numbers lead back to the labels.
-/

namespace SpanForest.EdgeList

variable {d : Draft} {label : String} {seen : List String} {triples : List Triple}

/-! ## First mentions -/

/-- The labels of edges in the order in which they are written. -/
def mentions (triples : List Triple) : List String :=
  triples.flatMap fun t => [t.left, t.right]

/-- The labels of edges, each at its first mention. -/
def distinctLabels (triples : List Triple) : List String := (mentions triples).eraseDups

theorem mentions_concat (triples : List Triple) (t : Triple) :
    mentions (triples ++ [t]) = mentions triples ++ [t.left] ++ [t.right] := by
  unfold mentions
  rw [List.flatMap_append, List.flatMap_singleton, List.append_assoc]
  rfl

theorem eraseDups_concat (seen : List String) (label : String) :
    (seen ++ [label]).eraseDups =
      if label ∈ seen then seen.eraseDups else seen.eraseDups ++ [label] := by
  rw [List.eraseDups_append]
  by_cases h : label ∈ seen
  · rw [if_pos h]
    simp [List.removeAll, h]
  · rw [if_neg h]
    simp [List.removeAll, h, List.eraseDups_cons]

theorem nodup_eraseDups (seen : List String) : seen.eraseDups.Nodup := by
  induction seen using List.reverseRecOn with
  | nil => exact List.nodup_nil
  | append_singleton seen label ih =>
    rw [eraseDups_concat]
    by_cases h : label ∈ seen
    · rw [if_pos h]
      exact ih
    · rw [if_neg h]
      exact ih.append (List.nodup_singleton label) (by simpa using h)

theorem mem_distinctLabels : label ∈ distinctLabels triples ↔
    ∃ t ∈ triples, label = t.left ∨ label = t.right := by
  unfold distinctLabels mentions
  simp

/-- Labels that come later do not move the ones that are there. -/
theorem idxOf_eraseDups_append (h : label ∈ seen) (later : List String) :
    (seen ++ later).eraseDups.idxOf label = seen.eraseDups.idxOf label := by
  rw [List.eraseDups_append, List.idxOf_append, if_pos (List.mem_eraseDups.2 h)]

/-! ## The index -/

namespace Draft

/-- The index is the inverse of the labels: it leads from a label to the
    position at which the label is found, and knows no other label. -/
def Indexed (d : Draft) : Prop :=
  ∀ label position, d.index.lookup label = some position ↔ d.list.labels[position]? = some label

theorem indexed_start : Indexed {} := by
  intro label position
  simp

theorem Indexed.lookup_eq_none_iff (h : d.Indexed) :
    d.index.lookup label = none ↔ label ∉ d.list.labels := by
  rw [Option.eq_none_iff_forall_ne_some, Array.mem_iff_getElem?]
  simp only [ne_eq, h label, not_exists]

/-- A known label keeps its number, and changes nothing. -/
theorem Indexed.intern_of_mem (h : d.Indexed) (hlabel : label ∈ d.list.labels) :
    d.intern label = (d.list.labels.toList.idxOf label, d) := by
  have hposition : d.list.labels[d.list.labels.toList.idxOf label]? = some label := by
    rw [← Array.getElem?_toList]
    exact List.getElem?_idxOf (Array.mem_toList_iff.2 hlabel)
  rw [intern, (h _ _).2 hposition]

/-- A new label gets the next number. -/
theorem Indexed.intern_of_not_mem (h : d.Indexed) (hlabel : label ∉ d.list.labels) :
    d.intern label = (d.list.labels.size,
      { list := { d.list with labels := d.list.labels.push label }
        index := (label, d.list.labels.size) :: d.index }) := by
  rw [intern, h.lookup_eq_none_iff.2 hlabel]

theorem Indexed.intern (h : d.Indexed) (label : String) : (d.intern label).2.Indexed := by
  by_cases hlabel : label ∈ d.list.labels
  · rwa [h.intern_of_mem hlabel]
  · rw [h.intern_of_not_mem hlabel]
    intro other position
    show List.lookup other ((label, d.list.labels.size) :: d.index) = some position ↔
      (d.list.labels.push label)[position]? = some other
    rw [Array.getElem?_push, List.lookup_cons]
    by_cases hother : other = label
    -- The new label is found at the end, and nowhere before.
    · have hbefore : d.list.labels[position]? ≠ some label := fun hat =>
        hlabel (Array.mem_of_getElem? hat)
      subst hother
      simp only [beq_self_eq_true, Option.some_inj]
      grind
    · grind [h other position]

theorem Indexed.insert (h : d.Indexed) (t : Triple) : (d.insert t).Indexed :=
  (h.intern t.left).intern t.right

/-- The index stays the inverse of the labels, whatever edges are appended. -/
theorem Indexed.insertAll (h : d.Indexed) (triples : List Triple) :
    (d.insertAll triples).Indexed := by
  induction triples generalizing d with
  | nil => exact h
  | cons t triples ih => exact ih (h.insert t)

end Draft

/-! ## Appending edges -/

/-- Interning keeps the labels in the order of their first mentions, and gives
    the position of the label among them. -/
theorem toList_intern (hd : d.Indexed) (h : d.list.labels.toList = seen.eraseDups)
    (label : String) :
    (d.intern label).2.list.labels.toList = (seen ++ [label]).eraseDups ∧
      (d.intern label).1 = (seen ++ [label]).eraseDups.idxOf label := by
  have hmem : label ∈ d.list.labels ↔ label ∈ seen := by
    rw [← Array.mem_toList_iff, h, List.mem_eraseDups]
  rw [eraseDups_concat]
  by_cases hlabel : label ∈ seen
  · rw [hd.intern_of_mem (hmem.2 hlabel), if_pos hlabel, h]
    exact ⟨rfl, rfl⟩
  · have hnew : label ∉ seen.eraseDups := mt List.mem_eraseDups.1 hlabel
    rw [hd.intern_of_not_mem (mt hmem.1 hlabel), if_neg hlabel, Array.toList_push, h,
      List.idxOf_append_of_notMem hnew, ← h]
    exact ⟨rfl, by simp⟩

theorem edges_intern (d : Draft) (label : String) :
    (d.intern label).2.list.edges = d.list.edges := by
  unfold Draft.intern
  split <;> rfl

theorem edges_insert (d : Draft) (t : Triple) :
    (d.insert t).list.edges = d.list.edges.push
      ⟨(d.intern t.left).1, ((d.intern t.left).2.intern t.right).1, t.weight⟩ := by
  rw [← edges_intern d t.left, ← edges_intern (d.intern t.left).2 t.right]
  rfl

/-- An edge by the positions of its labels. -/
def numbered (labels : List String) (t : Triple) : ListedEdge :=
  ⟨labels.idxOf t.left, labels.idxOf t.right, t.weight⟩

/-- The numbers of an edge stay the same when more labels are mentioned. -/
theorem numbered_eraseDups_append {t : Triple} (hleft : t.left ∈ seen) (hright : t.right ∈ seen)
    (later : List String) :
    numbered (seen ++ later).eraseDups t = numbered seen.eraseDups t := by
  unfold numbered
  rw [idxOf_eraseDups_append hleft, idxOf_eraseDups_append hright]

/-- The left label is numbered before the right one, but its number is the
    position that it keeps. -/
theorem toList_insert (hd : d.Indexed) (h : d.list.labels.toList = seen.eraseDups) (t : Triple) :
    (d.insert t).list.labels.toList = (seen ++ [t.left] ++ [t.right]).eraseDups ∧
      (d.insert t).list.edges.toList =
        d.list.edges.toList ++ [numbered (seen ++ [t.left] ++ [t.right]).eraseDups t] := by
  obtain ⟨hleft, hnumberLeft⟩ := toList_intern hd h t.left
  obtain ⟨hboth, hnumberRight⟩ := toList_intern (hd.intern t.left) hleft t.right
  refine ⟨hboth, ?_⟩
  have hkept := idxOf_eraseDups_append
    (List.mem_append_right seen (List.mem_singleton_self t.left)) [t.right]
  rw [edges_insert, Array.toList_push, hnumberLeft, hnumberRight, ← hkept]
  rfl

theorem indexed_ofTriples (triples : List Triple) : (Draft.insertAll {} triples).Indexed :=
  Draft.indexed_start.insertAll triples

theorem insertAll_concat (triples : List Triple) (t : Triple) :
    Draft.insertAll {} (triples ++ [t]) = (Draft.insertAll {} triples).insert t :=
  Draft.insertAll_append {} triples [t]

theorem labels_ofTriples (triples : List Triple) :
    (ofTriples triples).labels.toList = distinctLabels triples := by
  induction triples using List.reverseRecOn with
  | nil => rfl
  | append_singleton triples t ih =>
    unfold ofTriples distinctLabels
    rw [insertAll_concat, mentions_concat]
    exact (toList_insert (indexed_ofTriples triples) ih t).1

theorem edges_ofTriples (triples : List Triple) :
    (ofTriples triples).edges.toList = triples.map (numbered (distinctLabels triples)) := by
  induction triples using List.reverseRecOn with
  | nil => rfl
  | append_singleton triples t ih =>
    have hlabels := labels_ofTriples triples
    unfold ofTriples distinctLabels at *
    rw [insertAll_concat, mentions_concat,
      (toList_insert (indexed_ofTriples triples) hlabels t).2, ih, List.map_append]
    congr 1
    -- The edges from before have all their labels mentioned before.
    apply List.map_congr_left
    intro u hu
    have hleft : u.left ∈ mentions triples := List.mem_flatMap.2 ⟨u, hu, by simp⟩
    have hright : u.right ∈ mentions triples := List.mem_flatMap.2 ⟨u, hu, by simp⟩
    rw [List.append_assoc, numbered_eraseDups_append hleft hright]

/-! ## Back to the labels -/

/-- The edge that a numbered edge stands for. -/
def written? (labels : List String) (e : ListedEdge) : Option Triple :=
  match labels[e.left]?, labels[e.right]? with
  | some left, some right => some ⟨left, right, e.weight⟩
  | _, _ => none

/-- The numbers of an edge lead back to it. -/
theorem written?_numbered {t : Triple} (ht : t ∈ triples) :
    written? (distinctLabels triples) (numbered (distinctLabels triples) t) = some t := by
  have hleft := List.getElem?_idxOf (mem_distinctLabels.2 ⟨t, ht, .inl rfl⟩)
  have hright := List.getElem?_idxOf (mem_distinctLabels.2 ⟨t, ht, .inr rfl⟩)
  unfold written? numbered
  rw [hleft, hright]

end SpanForest.EdgeList
