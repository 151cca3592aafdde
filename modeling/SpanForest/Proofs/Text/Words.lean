import Mathlib.Algebra.BigOperators.Group.List.Basic
import Mathlib.Data.Nat.Basic
import SpanForest.Text.Blank

/-! # Splitting at white space

    Words are read from the right, with one word open. Here the same words are
    what is left of the stretches between any two white space characters when
    the empty stretches are dropped.

    * **`stretches`**: the text, split at every white space character.
    * **`foldr_wordsFrom`**: the open word is the first stretch.
    * **`words_eq`**: the words are the stretches that are not empty.
    * **`words_append_blank`**: white space divides what stands on its two
      sides.
    * **`flatten_fields`**: no other character is lost.
-/

namespace SpanForest.Text

variable {c : Char} {cs word blanks : List Char}

/-- The stretches between white space characters, which may be empty. -/
def stretches (cs : List Char) : List (List Char) := cs.splitOnP isBlank

/-- The stretches that are not empty. -/
def fields (cs : List Char) : List (List Char) := (stretches cs).filter (· ≠ [])

/-! ## One character at the front -/

theorem stretches_cons_blank (hc : isBlank c = true) (cs : List Char) :
    stretches (c :: cs) = [] :: stretches cs := by
  unfold stretches
  rw [List.splitOnP_cons_eq_if_modifyHead, if_pos hc]

theorem stretches_cons_other (hc : isBlank c = false) {first : List Char}
    {later : List (List Char)} (h : stretches cs = first :: later) :
    stretches (c :: cs) = (c :: first) :: later := by
  unfold stretches at h ⊢
  rw [List.splitOnP_cons_eq_if_modifyHead, if_neg (by simp [hc]), h, List.modifyHead_cons]

/-- Read from the right, the word that is open is the first stretch, and the
    complete words are the other stretches that are not empty. -/
theorem foldr_wordsFrom (cs : List Char) : ∃ first later, stretches cs = first :: later ∧
    cs.foldr wordsFrom ([], []) = (first, later.filter (· ≠ [])) := by
  induction cs with
  | nil => exact ⟨[], [], List.splitOnP_nil, rfl⟩
  | cons c cs ih =>
    obtain ⟨first, later, hstretches, hfold⟩ := ih
    rw [List.foldr_cons, hfold]
    by_cases hc : isBlank c = true
    -- White space closes the open word, which is complete unless it is empty.
    · refine ⟨[], first :: later, ?_, ?_⟩
      · rw [stretches_cons_blank hc, hstretches]
      · cases first with
        | nil => rw [wordsFrom, if_pos hc, List.filter_cons_of_neg (by simp)]
        | cons a first =>
          rw [wordsFrom, if_pos hc, List.filter_cons_of_pos (by simp)]
          exact List.cons_ne_nil a first
    · refine ⟨c :: first, later, stretches_cons_other (by simpa using hc) hstretches, ?_⟩
      cases first with
      | nil => rw [wordsFrom, if_neg hc]
      | cons a first =>
        rw [wordsFrom, if_neg hc]
        exact List.cons_ne_nil a first

/-- The words of a text are its stretches that are not empty. -/
theorem words_eq (cs : List Char) : words cs = fields cs := by
  obtain ⟨first, later, hstretches, hfold⟩ := foldr_wordsFrom cs
  unfold words fields
  rw [hfold, hstretches]
  cases first with
  | nil => rw [List.filter_cons_of_neg (by simp)]
  | cons a first => rw [List.filter_cons_of_pos (by simp)]

/-! ## White space in between -/

/-- White space divides what stands on its two sides. -/
theorem words_append_blank (hc : isBlank c = true) (before behind : List Char) :
    words (before ++ c :: behind) = words before ++ words behind := by
  simp only [words_eq]
  unfold fields stretches
  rw [List.splitOnP_append_cons before behind hc, List.filter_append]

theorem words_cons_blank (hc : isBlank c = true) (cs : List Char) : words (c :: cs) = words cs :=
  words_append_blank hc [] cs

/-- White space at the beginning holds no word. -/
theorem words_blanks_append (hblank : ∀ c ∈ blanks, isBlank c = true) (cs : List Char) :
    words (blanks ++ cs) = words cs := by
  induction blanks with
  | nil => rfl
  | cons c rest ih =>
    rw [List.cons_append, words_cons_blank (hblank c List.mem_cons_self)]
    exact ih fun a ha => hblank a (List.mem_cons_of_mem c ha)

theorem words_blanks (hblank : ∀ c ∈ cs, isBlank c = true) : words cs = [] := by
  have h := words_blanks_append hblank []
  rw [List.append_nil] at h
  exact h

/-- White space at the end holds no word. -/
theorem words_append_blanks (hblank : ∀ c ∈ blanks, isBlank c = true) (cs : List Char) :
    words (cs ++ blanks) = words cs := by
  cases blanks with
  | nil => rw [List.append_nil]
  | cons c rest =>
    rw [words_append_blank (hblank c List.mem_cons_self),
      words_blanks fun a ha => hblank a (List.mem_cons_of_mem c ha), List.append_nil]

/-- A text without white space is one word. -/
theorem words_of_forall_other (hne : cs ≠ []) (hother : ∀ c ∈ cs, isBlank c = false) :
    words cs = [cs] := by
  rw [words_eq]
  unfold fields stretches
  rw [List.splitOnP_eq_singleton hother]
  simp [hne]

/-- A word and the white space behind it are read off a text. -/
theorem words_word_append (hne : word ≠ []) (hother : ∀ c ∈ word, isBlank c = false)
    (hsome : blanks ≠ []) (hblank : ∀ c ∈ blanks, isBlank c = true)
    (cs : List Char) : words (word ++ (blanks ++ cs)) = word :: words cs := by
  obtain ⟨c, rest, rfl⟩ := List.exists_cons_of_ne_nil hsome
  rw [List.cons_append, words_append_blank (hblank c List.mem_cons_self),
    words_of_forall_other hne hother,
    words_blanks_append fun a ha => hblank a (List.mem_cons_of_mem c ha)]
  rfl

/-! ## What the words hold -/

theorem flatten_stretches (cs : List Char) :
    (stretches cs).flatten = cs.filter fun c => !isBlank c := by
  induction cs with
  | nil => rfl
  | cons c cs ih =>
    obtain ⟨first, later, hstretches, -⟩ := foldr_wordsFrom cs
    by_cases hc : isBlank c = true
    · rw [stretches_cons_blank hc, List.filter_cons_of_neg (by simp [hc])]
      exact ih
    · rw [hstretches] at ih
      rw [stretches_cons_other (by simpa using hc) hstretches,
        List.filter_cons_of_pos (by simp [hc]), ← ih]
      rfl

/-- One after another, the words are the text without its white space. -/
theorem flatten_fields (cs : List Char) :
    (fields cs).flatten = cs.filter fun c => !isBlank c := by
  unfold fields
  rw [List.flatten_filter_ne_nil, flatten_stretches]

theorem ne_nil_of_mem_fields (h : word ∈ fields cs) : word ≠ [] :=
  of_decide_eq_true (List.mem_filter.1 h).2

/-- No character of a word is white space, and all come from the text. -/
theorem not_blank_of_mem_fields {c : Char} (h : word ∈ fields cs) (hc : c ∈ word) :
    isBlank c = false ∧ c ∈ cs := by
  have hmem : c ∈ (fields cs).flatten := List.mem_flatten.2 ⟨word, h, hc⟩
  rw [flatten_fields, List.mem_filter, Bool.not_eq_true'] at hmem
  exact hmem.symm

/-- A text has at least one character for each of its words. -/
theorem length_fields_le (cs : List Char) : (fields cs).length ≤ cs.length := by
  have hwords : (fields cs).length ≤ ((fields cs).map List.length).sum := by
    rw [← List.length_map List.length]
    apply List.length_le_sum_of_one_le
    intro n hn
    obtain ⟨word, hword, rfl⟩ := List.mem_map.1 hn
    exact List.length_pos_of_ne_nil (ne_nil_of_mem_fields hword)
  have htext : ((fields cs).map List.length).sum ≤ cs.length := by
    rw [← List.length_flatten, flatten_fields]
    exact List.length_filter_le _ cs
  exact hwords.trans htext

end SpanForest.Text
