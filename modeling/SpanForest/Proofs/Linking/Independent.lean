import Mathlib.Data.List.Perm.Basic
import SpanForest.Proofs.Linking.Closure

/-! # Edges without a cycle

    Edges close no cycle over some classes when each of them joins two classes
    that the others leave apart.

    * **`CycleFree`**: no edge is linked by the classes and the other edges.
    * **`Independent`**: each edge joins two classes of what comes before it.
      This is the form that inductions over the list need.
    * **`Independent.perm`**: the order of the edges does not matter.
    * **`independent_iff_cycleFree`**: hence both say the same.
    * **`Independent.length_le`**: independent edges are at most as many as
      any edges that link their endpoints. The proof adds the edges of the
      second list to the classes one by one; each costs at most one edge of
      the first.
    * **`Independent.length_eq`**: so independent edges that link the same
      handles are equally many.
-/

namespace SpanForest

variable {ω : Type u} {s t : Setoid NodeId} {e : Edge ω} {edges more : List (Edge ω)}

/-- No edge is linked by the classes of `s` and all the other edges. -/
def CycleFree (s : Setoid NodeId) (edges : List (Edge ω)) : Prop :=
  ∀ before e after, edges = before ++ e :: after →
    ¬ linked s (before ++ after) e.first e.second

/-- Each edge joins two classes of `s` and the edges before it. -/
def Independent (s : Setoid NodeId) : List (Edge ω) → Prop
  | [] => True
  | e :: rest => ¬ s e.first e.second ∧ Independent (linked s [e]) rest

@[simp] theorem independent_nil (s : Setoid NodeId) : Independent s ([] : List (Edge ω)) :=
  trivial

theorem independent_cons : Independent s (e :: edges) ↔
    ¬ s e.first e.second ∧ Independent (linked s [e]) edges := Iff.rfl

theorem independent_append : Independent s (edges ++ more) ↔
    Independent s edges ∧ Independent (linked s edges) more := by
  induction edges generalizing s with
  | nil => simp
  | cons e edges ih =>
    rw [List.cons_append, independent_cons, independent_cons, ih, ← linked_cons, and_assoc]

theorem independent_concat : Independent s (edges ++ [e]) ↔
    Independent s edges ∧ ¬ linked s edges e.first e.second := by
  rw [independent_append, independent_cons]
  simp

/-! ## Order -/

theorem Independent.perm (h : Independent s edges) (hperm : edges.Perm more) :
    Independent s more := by
  induction hperm generalizing s with
  | nil => exact h
  | cons e _ ih => exact ⟨h.1, ih h.2⟩
  | swap e e' rest =>
    -- The edge `e'` came first; if it were linked after `e`, it could have
    -- taken the place of `e`, and `e` would close a cycle.
    obtain ⟨he', he, hrest⟩ := h
    refine ⟨fun hs => he (le_linked s [e'] hs), fun hlinked => ?_, ?_⟩
    · rw [linked_single_exchange he' hlinked] at he
      exact he (linked_of_mem s (List.mem_singleton_self e))
    · rwa [← linked_cons, linked_perm (.swap e e' []), linked_cons] at hrest
  | trans _ _ ih₁ ih₂ => exact ih₂ (ih₁ h)

theorem Independent.sublist (h : Independent s edges) (hsub : more.Sublist edges) :
    Independent s more := by
  obtain ⟨rest, hperm⟩ := hsub.exists_perm_append
  exact (independent_append.1 (h.perm hperm)).1

theorem independent_iff_cycleFree : Independent s edges ↔ CycleFree s edges := by
  constructor
  · rintro h before e after rfl
    -- Move the edge to the end, where everything else comes before it.
    have hlast := h.perm (List.perm_middle.trans (List.perm_append_singleton e _).symm)
    exact (independent_concat.1 hlast).2
  · intro h
    induction edges generalizing s with
    | nil => trivial
    | cons e edges ih =>
      refine ⟨fun hs => h [] e edges rfl (le_linked s edges hs), ih ?_⟩
      rintro before e' after rfl
      rw [← linked_cons]
      exact h (e :: before) e' after rfl

theorem Independent.nodup (h : Independent s edges) : edges.Nodup := by
  induction edges generalizing s with
  | nil => exact List.nodup_nil
  | cons e edges ih =>
    refine List.nodup_cons.2 ⟨fun he => ?_, ih h.2⟩
    obtain ⟨before, after, rfl⟩ := List.append_of_mem he
    refine independent_iff_cycleFree.1 h [] e _ rfl ?_
    exact linked_of_mem s (List.mem_append_right before List.mem_cons_self)

/-- An edge that some of the edges link is one of them. -/
theorem Independent.mem_of_linked (h : Independent s edges) (hsub : more ⊆ edges) (he : e ∈ edges)
    (hlinked : linked s more e.first e.second) : e ∈ more := by
  obtain ⟨before, after, rfl⟩ := List.append_of_mem he
  by_contra hnot
  refine independent_iff_cycleFree.1 h before e after rfl (linked_mono le_rfl ?_ hlinked)
  intro a ha
  have hmem := hsub ha
  rw [List.mem_append, List.mem_cons] at hmem
  rcases hmem with hbefore | rfl | hafter
  · exact List.mem_append_left after hbefore
  · exact absurd ha hnot
  · exact List.mem_append_right before hafter

/-! ## Number -/

/-- Joining two classes beforehand makes at most one edge superfluous. -/
theorem Independent.contract (h : Independent s edges) (e : Edge ω) :
    ∃ kept, kept.Sublist edges ∧ edges.length ≤ kept.length + 1 ∧
      Independent (linked s [e]) kept := by
  induction edges generalizing s with
  | nil => exact ⟨[], .slnil, Nat.zero_le _, trivial⟩
  | cons e' edges ih =>
    by_cases hlinked : linked s [e] e'.first e'.second
    -- The first edge that `e` links does the same as `e`: drop it.
    · refine ⟨edges, List.sublist_cons_self e' edges, le_rfl, ?_⟩
      rw [← linked_single_exchange h.1 hlinked]
      exact h.2
    · obtain ⟨kept, hsub, hlength, hkept⟩ := ih h.2
      refine ⟨e' :: kept, hsub.cons_cons e', Nat.succ_le_succ hlength, hlinked, ?_⟩
      rwa [← linked_cons, linked_perm (.swap e e' []), linked_cons] at hkept

/-- Independent edges are at most as many as edges that link their endpoints. -/
theorem Independent.length_le (h : Independent s edges)
    (hlinked : ∀ e ∈ edges, linked s more e.first e.second) : edges.length ≤ more.length := by
  -- Join the classes along the second list, an edge at a time.
  induction more generalizing s edges with
  | nil =>
    cases edges with
    | nil => exact Nat.le_refl 0
    | cons e edges =>
      have hs := hlinked e List.mem_cons_self
      rw [linked_nil] at hs
      exact absurd hs h.1
  | cons e more ih =>
    obtain ⟨kept, hsub, hlength, hkept⟩ := h.contract e
    have hle : kept.length ≤ more.length := by
      apply ih hkept
      intro e' he'
      rw [← linked_cons]
      exact hlinked e' (hsub.subset he')
    rw [List.length_cons]
    omega

/-- Independent edges that link the same handles are equally many. -/
theorem Independent.length_eq (h : Independent s edges) (h' : Independent s more)
    (hlinked : linked s edges = linked s more) : edges.length = more.length := by
  apply Nat.le_antisymm
  · exact h.length_le fun e he => hlinked ▸ linked_of_mem s he
  · exact h'.length_le fun e he => hlinked ▸ linked_of_mem s he

end SpanForest
