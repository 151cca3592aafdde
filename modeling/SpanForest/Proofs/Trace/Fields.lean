import Mathlib.Data.List.Induction
import Mathlib.Data.List.Nodup
import SpanForest.Proofs.Text.Numerals
import SpanForest.Trace.Recorder

/-! # Texts of fields

    A record keeps one text for each field. Of several values of one field it
    keeps the last, whatever other fields are given in between.

    * **`Value.Shown`**: the text of a value, for each kind of values.
    * **`lastValue?`**: the last value of a field.
    * **`get?_put`**: giving a field a value changes this field alone.
    * **`FieldTexts.Tell`**: texts that tell of values; **`tell_ofFields`**: those
      that are kept do so.
-/

namespace SpanForest

/-! ## Texts of values -/

/-- The text by which a value is shown. -/
inductive Value.Shown : Value → String → Prop where
  /-- A text is shown as it is. -/
  | text (s : String) : Shown (.text s) s
  /-- A count is shown by its decimal digits. -/
  | natural {digits : List Char} {n : Nat} : Text.PlainDecimal digits n →
      Shown (.natural n) (String.ofList digits)
  /-- So is a whole number, if it is not below zero. -/
  | nonnegative {digits : List Char} {n : Nat} : Text.PlainDecimal digits n →
      Shown (.integer n) (String.ofList digits)
  /-- Otherwise its sign comes first. -/
  | negative {digits : List Char} {n : Nat} : 0 < n → Text.PlainDecimal digits n →
      Shown (.integer (-n)) ("-" ++ String.ofList digits)
  /-- A truth value is shown by one word. -/
  | yes : Shown (.flag true) "true"
  /-- Its opposite is shown by another. -/
  | no : Shown (.flag false) "false"
  /-- A measurement is shown by its shortest text. -/
  | real (x : Binary64) : Shown (.real x) x.text
  /-- What is inspected is shown by its form in one line. -/
  | inspected (inspection : String) : Shown (.inspected inspection) inspection
  /-- A fault is shown by its sentence, however it would be inspected. -/
  | fault (message inspection : String) : Shown (.fault ⟨message, inspection⟩) message

theorem Value.shown_render (value : Value) : value.Shown value.render := by
  cases value with
  | text s => exact .text s
  | natural n =>
    show Shown (.natural n) n.repr
    rw [Nat.repr_eq_ofList_toDigits]
    exact .natural (Text.plainDecimal_iff.2 rfl)
  | integer n =>
    show Shown (.integer n) n.repr
    rw [Int.repr_eq_if]
    split
    · rename_i hn
      have h := Shown.nonnegative (Text.plainDecimal_iff (n := n.toNat).2 rfl)
      rwa [Int.toNat_of_nonneg hn, ← Nat.repr_eq_ofList_toDigits] at h
    · rename_i hn
      have h := Shown.negative (n := (-n).toNat) (by omega) (Text.plainDecimal_iff.2 rfl)
      rwa [Int.toNat_of_nonneg (by omega), Int.neg_neg, ← Nat.repr_eq_ofList_toDigits] at h
  | flag b =>
    cases b with
    | false => exact .no
    | true => exact .yes
  | real x => exact .real x
  | inspected inspection => exact .inspected inspection
  | fault f => exact .fault f.message f.inspection

/-- A value has one text. -/
theorem Value.shown_iff {value : Value} {s : String} : value.Shown s ↔ value.render = s := by
  constructor
  · intro h
    cases h with
    | natural hn =>
      rw [hn.eq_toDigits, ← Nat.repr_eq_ofList_toDigits]
      rfl
    | @nonnegative digits n hn =>
      rw [hn.eq_toDigits, ← Nat.repr_eq_ofList_toDigits]
      rfl
    | @negative digits n hpos hn =>
      have hbelow : ¬ (0 : Int) ≤ -n := by omega
      show (-(n : Int)).repr = _
      rw [hn.eq_toDigits, ← Nat.repr_eq_ofList_toDigits, Int.repr_eq_if, if_neg hbelow,
        Int.neg_neg, Int.toNat_natCast]
    | _ => rfl
  · rintro rfl
    exact value.shown_render

/-! ## The last value of a field -/

/-- The last one of the values that a field is given. -/
def Fields.lastValue? (given : Fields) (name : String) : Option Value :=
  (given.filter (·.1 == name)).getLast?.map (·.2)

theorem Fields.lastValue?_concat (given : Fields) (field : String × Value) (name : String) :
    Fields.lastValue? (given ++ [field]) name =
      if field.1 = name then some field.2 else given.lastValue? name := by
  unfold Fields.lastValue?
  rw [List.filter_append]
  by_cases h : field.1 = name
  · rw [if_pos h, List.filter_singleton, beq_iff_eq.2 h]
    simp
  · rw [if_neg h, List.filter_singleton, beq_eq_false_iff_ne.2 h]
    simp

namespace FieldTexts

variable {texts : FieldTexts} {name value other : String} {field : String × String}

/-! ## One field -/

/-- Puts a value in place of the one that a field has. -/
def overwrite (texts : FieldTexts) (name value : String) : FieldTexts :=
  texts.map fun field => if field.1 == name then (name, value) else field

theorem put_of_mem (h : name ∈ texts.map (·.1)) :
    texts.put name value = overwrite texts name value := by
  obtain ⟨field, hfield, rfl⟩ := List.mem_map.1 h
  exact if_pos (List.any_eq_true.2 ⟨field, hfield, beq_self_eq_true field.1⟩)

theorem put_of_not_mem (h : name ∉ texts.map (·.1)) :
    texts.put name value = texts ++ [(name, value)] := by
  refine if_neg fun hany => h ?_
  obtain ⟨field, hfield, hname⟩ := List.any_eq_true.1 hany
  exact List.mem_map.2 ⟨field, hfield, beq_iff_eq.1 hname⟩

theorem get?_cons (field : String × String) (texts : FieldTexts) (name : String) :
    get? (field :: texts) name = if field.1 = name then some field.2 else texts.get? name := by
  unfold get?
  rw [List.lookup_cons]
  by_cases h : field.1 = name
  · rw [if_pos h, beq_iff_eq.2 h.symm]
  · rw [if_neg h, beq_eq_false_iff_ne.2 (Ne.symm h)]

theorem get?_eq_none_iff : texts.get? name = none ↔ name ∉ texts.map (·.1) := by
  induction texts with
  | nil => exact iff_of_true rfl List.not_mem_nil
  | cons field texts ih =>
    rw [get?_cons, List.map_cons, List.mem_cons, not_or, ← ih]
    by_cases h : field.1 = name
    · simp [h]
    · simp [h, Ne.symm h]

theorem get?_overwrite (texts : FieldTexts) (name value other : String) :
    get? (overwrite texts name value) other =
      if other = name then (texts.get? other).map fun _ => value else texts.get? other := by
  induction texts with
  | nil => split <;> rfl
  | cons field texts ih =>
    show get? ((if field.1 == name then (name, value) else field) :: overwrite texts name value)
      other = _
    rw [get?_cons, get?_cons, ih]
    by_cases hfield : field.1 = name <;> by_cases hother : other = name <;> grind

/-- Giving a field a value changes this field alone. -/
theorem get?_put (texts : FieldTexts) (name value other : String) :
    (texts.put name value).get? other = if other = name then some value else texts.get? other := by
  by_cases h : name ∈ texts.map (·.1)
  · rw [put_of_mem h, get?_overwrite]
    by_cases hother : other = name
    · subst hother
      obtain ⟨old, hold⟩ := Option.ne_none_iff_exists'.1 (mt get?_eq_none_iff.1 (not_not.2 h))
      rw [if_pos rfl, if_pos rfl, hold]
      rfl
    · rw [if_neg hother, if_neg hother]
  · rw [put_of_not_mem h]
    unfold get?
    rw [List.lookup_append]
    by_cases hother : other = name
    · subst hother
      have hnone : texts.lookup other = none := get?_eq_none_iff.2 h
      rw [if_pos rfl, hnone]
      simp
    · have hnone : List.lookup other [(name, value)] = none := by simp [hother]
      rw [if_neg hother, hnone, Option.or_none]

/-- No field is kept twice. -/
theorem nodup_put (h : (texts.map (·.1)).Nodup) : ((texts.put name value).map (·.1)).Nodup := by
  by_cases hmem : name ∈ texts.map (·.1)
  · have hnames : (overwrite texts name value).map (·.1) = texts.map (·.1) := by
      rw [overwrite, List.map_map]
      apply List.map_congr_left
      intro field _
      by_cases hfield : field.1 = name
      · simp [hfield]
      · simp [hfield]
    rwa [put_of_mem hmem, hnames]
  · rw [put_of_not_mem hmem, List.map_append, List.map_singleton]
    rw [← List.concat_eq_append]
    exact h.concat hmem

/-! ## Several values -/

/-- Texts tell of values: for each field they have the text of its last value. -/
structure Tell (texts : FieldTexts) (given : Fields) : Prop where
  /-- No field occurs twice. -/
  nodup : (texts.map (·.1)).Nodup
  /-- A field has the text of the last value that it was given, if any. -/
  get?_eq_some_iff : ∀ field text, texts.get? field = some text ↔
    ∃ value, given.lastValue? field = some value ∧ value.Shown text

theorem ofFields_append (given more : Fields) :
    ofFields (given ++ more) = (ofFields given).collect more :=
  List.foldl_append ..

theorem ofFields_concat (given : Fields) (field : String × Value) :
    ofFields (given ++ [field]) = (ofFields given).put field.1 field.2.render :=
  ofFields_append given [field]

/-- What is kept for a field is the text of its last value. -/
theorem get?_ofFields (given : Fields) (name : String) :
    (ofFields given).get? name = (given.lastValue? name).map Value.render := by
  induction given using List.reverseRecOn with
  | nil => rfl
  | append_singleton given field ih =>
    rw [ofFields_concat, get?_put, Fields.lastValue?_concat, ih]
    by_cases h : field.1 = name
    · rw [if_pos h, if_pos h.symm]
      rfl
    · rw [if_neg h, if_neg (Ne.symm h)]

theorem nodup_ofFields (given : Fields) : ((ofFields given).map (·.1)).Nodup := by
  induction given using List.reverseRecOn with
  | nil => exact List.nodup_nil
  | append_singleton given field ih =>
    rw [ofFields_concat]
    exact nodup_put ih

theorem tell_ofFields (given : Fields) : (ofFields given).Tell given where
  nodup := nodup_ofFields given
  get?_eq_some_iff field text := by
    rw [get?_ofFields, Option.map_eq_some_iff]
    simp only [Value.shown_iff]

end FieldTexts

end SpanForest
