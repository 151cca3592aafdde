import Mathlib.Data.List.TakeWhile
import SpanForest.Text.Blank

/-! # Trimming white space

    A text is trimmed by dropping white space at its left end, then at the left
    end of what is left in reverse. Here the trimmed text is told by its place
    in the whole one, without regard to how it is found.

    * **`Trims`**: white space before and behind, and none at the two ends of
      what is in between.
    * **`exists_blanks_trimLeft`**, **`head_trimLeft`**: what is dropped at the
      left end, and where the dropping stops.
    * **`trim_eq_iff`**: trimming finds the one text that lies in this way.
-/

namespace SpanForest.Text

variable {cs word before : List Char}

/-- What is left of a text when the white space at its two ends is taken away. -/
structure Trims (cs word : List Char) : Prop where
  /-- Nothing but white space stands before it and behind it. -/
  around : ∃ before behind, cs = before ++ (word ++ behind) ∧
    (∀ c ∈ before, isBlank c = true) ∧ ∀ c ∈ behind, isBlank c = true
  /-- It does not begin with white space. -/
  head : ∀ c, word.head? = some c → isBlank c = false
  /-- It does not end with white space. -/
  last : ∀ c, word.getLast? = some c → isBlank c = false

/-! ## The left end -/

theorem exists_blanks_trimLeft (cs : List Char) :
    ∃ before, cs = before ++ trimLeft cs ∧ ∀ c ∈ before, isBlank c = true := by
  refine ⟨cs.takeWhile isBlank, List.takeWhile_append_dropWhile.symm, ?_⟩
  intro c hc
  exact List.mem_takeWhile_imp hc

theorem head_trimLeft {c : Char} (h : (trimLeft cs).head? = some c) : isBlank c = false := by
  have hstop := List.head?_dropWhile_not isBlank cs
  unfold trimLeft at h
  simpa [h] using hstop

theorem trimLeft_blanks_append (hbefore : ∀ c ∈ before, isBlank c = true) (cs : List Char) :
    trimLeft (before ++ cs) = trimLeft cs :=
  List.dropWhile_append_of_pos hbefore

theorem trimLeft_of_head (h : ∀ c, cs.head? = some c → isBlank c = false) :
    trimLeft cs = cs := by
  cases cs with
  | nil => rfl
  | cons c rest =>
    have hc : isBlank c = false := h c rfl
    unfold trimLeft
    rw [List.dropWhile_cons_of_neg (by simp [hc])]

/-! ## Both ends -/

theorem trims_trim (cs : List Char) : Trims cs (trim cs) := by
  obtain ⟨before, hcs, hbefore⟩ := exists_blanks_trimLeft cs
  obtain ⟨behind, hleft, hbehind⟩ := exists_blanks_trimLeft (trimLeft cs).reverse
  -- What was dropped in reverse stands behind the trimmed text.
  have hsplit : trimLeft cs = trim cs ++ behind.reverse := by
    have hreverse := congrArg List.reverse hleft
    rw [List.reverse_reverse, List.reverse_append] at hreverse
    exact hreverse
  refine ⟨⟨before, behind.reverse, ?_, hbefore, ?_⟩, ?_, ?_⟩
  · rw [← hsplit]
    exact hcs
  · simpa using hbehind
  · intro c hc
    have hfirst : (trimLeft cs).head? = some c := by
      rw [hsplit, List.head?_append, hc]
      rfl
    exact head_trimLeft hfirst
  · intro c hc
    unfold trim trimRight at hc
    rw [List.getLast?_reverse] at hc
    exact head_trimLeft hc

theorem Trims.trim_eq (h : Trims cs word) : trim cs = word := by
  obtain ⟨before, behind, rfl, hbefore, hbehind⟩ := h.around
  have hback : ∀ c ∈ behind.reverse, isBlank c = true := by simpa using hbehind
  have hend : trimLeft word.reverse = word.reverse := by
    apply trimLeft_of_head
    intro c hc
    rw [List.head?_reverse] at hc
    exact h.last c hc
  cases word with
  -- Nothing is left of white space, so the text behind is dropped at once.
  | nil =>
    have hall : trimLeft behind = [] := by
      have hdropped := trimLeft_blanks_append hbehind []
      rwa [List.append_nil] at hdropped
    unfold trim
    rw [trimLeft_blanks_append hbefore, List.nil_append, hall]
    rfl
  | cons first rest =>
    have hfront : trimLeft (first :: rest ++ behind) = first :: rest ++ behind :=
      trimLeft_of_head h.head
    unfold trim trimRight
    rw [trimLeft_blanks_append hbefore, hfront, List.reverse_append,
      trimLeft_blanks_append hback, hend, List.reverse_reverse]

/-- Trimming leaves what lies between the white space at the two ends. -/
theorem trim_eq_iff : trim cs = word ↔ Trims cs word := by
  constructor
  · rintro rfl
    exact trims_trim cs
  · exact Trims.trim_eq

/-- What is said of the text that lies in this way is said of the trimmed one. -/
theorem exists_trims_iff {P : List Char → Prop} :
    (∃ word, Trims cs word ∧ P word) ↔ P (trim cs) := by
  simp only [← trim_eq_iff, exists_eq_left']

end SpanForest.Text
