import Mathlib.Data.List.Forall2
import Mathlib.Tactic.SplitIfs
import SpanForest.Text.Utf8

/-! # Decoding undoes encoding

    A byte string is UTF-8 when it encodes some text. Decoding finds this text
    and refuses all other byte strings, so nothing is lost and nothing is
    accepted that no text encodes.

    * **`IsSequence`**: the well-formed sequences of bytes, by length.
    * **`exists_fits_iff`**: the table of `continuationRanges` admits exactly
      these.
    * **`utf8EncodeChar_assemble`**, **`isSequence_utf8EncodeChar`**: they are
      the encodings of characters.
    * **`pieces_utf8EncodeChar`**: an encoded character is divided off.
    * **`decode?_eq_some_iff`**: the two directions for whole texts.
-/

namespace SpanForest.Text

variable {lead : UInt8} {taken bytes : List UInt8} {ranges : List (UInt8 × UInt8)} {c : Char}
  {cs : List Char}

/-! ## Well-formed sequences -/

/-- The bytes lie in the ranges, one by one. -/
def Fits (ranges : List (UInt8 × UInt8)) (bytes : List UInt8) : Prop :=
  List.Forall₂ (fun range b => range.1 ≤ b ∧ b ≤ range.2) ranges bytes

/-- A byte that continues a character. -/
def Continues (b : Nat) : Prop := 0x80 ≤ b ∧ b ≤ 0xbf

/-- The sequences of bytes that stand for one character. The conditions on the
    second byte exclude overlong forms, surrogates, and what lies beyond the
    last code point. -/
def IsSequence : List Nat → Prop
  | [a] => a ≤ 0x7f
  | [a, b] => 0xc2 ≤ a ∧ a ≤ 0xdf ∧ Continues b
  | [a, b, c] => 0xe0 ≤ a ∧ a ≤ 0xef ∧ Continues b ∧ Continues c ∧
    (a = 0xe0 → 0xa0 ≤ b) ∧ (a = 0xed → b ≤ 0x9f)
  | [a, b, c, d] => 0xf0 ≤ a ∧ a ≤ 0xf4 ∧ Continues b ∧ Continues c ∧ Continues d ∧
    (a = 0xf0 → 0x90 ≤ b) ∧ (a = 0xf4 → b ≤ 0x8f)
  | _ => False

/-- What may follow a leading byte makes a well-formed sequence with it. -/
theorem exists_fits_iff : (∃ ranges, continuationRanges lead = some ranges ∧ Fits ranges taken) ↔
    IsSequence ((lead :: taken).map UInt8.toNat) := by
  have hlead := lead.toNat_lt
  unfold continuationRanges Fits
  simp only [UInt8.le_iff_toNat_le, UInt8.lt_iff_toNat_lt, ← UInt8.toNat_inj, UInt8.reduceToNat]
  split_ifs <;>
    simp only [Option.some.injEq, exists_eq_left', false_and, exists_false, false_iff]
  -- Each row of the table against each length of a sequence.
  all_goals
    rcases taken with _ | ⟨b, _ | ⟨c, _ | ⟨d, _ | ⟨x, rest⟩⟩⟩⟩ <;>
    simp only [List.map_cons, List.map_nil, IsSequence, Continues, List.forall₂_cons,
      List.forall₂_nil_left_iff, List.forall₂_nil_right_iff, reduceCtorEq, UInt8.reduceToNat,
      and_false, and_true, false_iff, true_iff, not_false_eq_true] <;>
    omega

theorem takeFitting_append (h : Fits ranges taken) (rest : List UInt8) :
    takeFitting ranges (taken ++ rest) = taken := by
  induction h with
  | nil => cases rest <;> rfl
  | cons hb _ ih => rw [List.cons_append, takeFitting, if_pos hb, ih]

/-- As many bytes as there are ranges were taken only if they fit. -/
theorem fits_takeFitting (h : (takeFitting ranges bytes).length = ranges.length) :
    Fits ranges (takeFitting ranges bytes) := by
  induction ranges generalizing bytes with
  | nil =>
    rw [List.length_eq_zero_iff.1 h]
    exact .nil
  | cons range ranges ih =>
    cases bytes with
    | nil => cases h
    | cons b rest =>
      rw [takeFitting] at h ⊢
      split
      · rename_i hb
        rw [if_pos hb] at h
        exact .cons hb (ih (Nat.succ.inj h))
      · rename_i hb
        rw [if_neg hb] at h
        cases h

theorem takeFitting_isPrefix (ranges : List (UInt8 × UInt8)) (bytes : List UInt8) :
    takeFitting ranges bytes <+: bytes := by
  induction ranges generalizing bytes with
  | nil => exact List.nil_prefix
  | cons range ranges ih =>
    cases bytes with
    | nil => exact List.nil_prefix
    | cons b rest =>
      rw [takeFitting]
      split
      · exact (List.prefix_cons_inj b).2 (ih rest)
      · exact List.nil_prefix

/-! ## Encodings of characters -/

theorem toNat_lt (c : Char) : c.toNat < 0x110000 := by
  have hvalid : c.toNat < 0xd800 ∨ 0xdfff < c.toNat ∧ c.toNat < 0x110000 := c.valid
  omega

theorem eq_of_map_toNat {a b : List UInt8} (h : a.map UInt8.toNat = b.map UInt8.toNat) : a = b :=
  List.map_injective_iff.2 (fun _ _ => UInt8.toNat_inj.1) h

/-- The encoding of a character in numbers. -/
theorem map_toNat_utf8EncodeChar (c : Char) : (String.utf8EncodeChar c).map UInt8.toNat =
    if c.toNat ≤ 0x7f then [c.toNat]
    else if c.toNat ≤ 0x7ff then [c.toNat / 64 + 192, c.toNat % 64 + 128]
    else if c.toNat ≤ 0xffff then
      [c.toNat / 4096 + 224, c.toNat / 64 % 64 + 128, c.toNat % 64 + 128]
    else
      [c.toNat / 262144 + 240, c.toNat / 4096 % 64 + 128, c.toNat / 64 % 64 + 128,
        c.toNat % 64 + 128] := by
  have hbound := toNat_lt c
  unfold String.utf8EncodeChar
  simp only [Char.toNat_val]
  split_ifs
  · simp only [List.map_cons, List.map_nil, UInt8.toNat_ofNat', List.cons.injEq, and_true]
    omega
  · simp only [List.map_cons, List.map_nil, UInt8.toNat_ofNat', List.cons.injEq, and_true]
    omega
  · simp only [List.map_cons, List.map_nil, UInt8.toNat_ofNat', List.cons.injEq, and_true]
    omega
  · simp only [List.map_cons, List.map_nil, UInt8.toNat_ofNat', List.cons.injEq, and_true]
    omega

theorem isSequence_utf8EncodeChar (c : Char) :
    IsSequence ((String.utf8EncodeChar c).map UInt8.toNat) := by
  have hvalid : c.toNat < 0xd800 ∨ 0xdfff < c.toNat ∧ c.toNat < 0x110000 := c.valid
  rw [map_toNat_utf8EncodeChar]
  split_ifs <;> simp only [IsSequence, Continues] <;> omega

theorem toNat_assemble {v : Nat} (hvalid : v < 0xd800 ∨ 0xdfff < v ∧ v < 0x110000)
    (h : assemble lead taken = Char.ofNat v) : (assemble lead taken).toNat = v := by
  rw [h, Char.ofNat, dif_pos hvalid]
  rfl

/-- A well-formed sequence is the encoding of the character assembled from it. -/
theorem utf8EncodeChar_assemble (h : IsSequence ((lead :: taken).map UInt8.toNat)) :
    String.utf8EncodeChar (assemble lead taken) = lead :: taken := by
  apply eq_of_map_toNat
  rw [map_toNat_utf8EncodeChar]
  rcases taken with _ | ⟨b, _ | ⟨c, _ | ⟨d, _ | ⟨x, rest⟩⟩⟩⟩
  · have ha : lead.toNat ≤ 0x7f := h
    have hvalue : (assemble lead []).toNat = lead.toNat := toNat_assemble (by omega) rfl
    rw [hvalue, if_pos ha]
    rfl
  · obtain ⟨ha, ha', hb, hb'⟩ := h
    have hvalue : (assemble lead [b]).toNat =
        lead.toNat % 2 ^ 5 * 64 + b.toNat % 64 := toNat_assemble (by omega) rfl
    rw [hvalue, if_neg (by omega), if_pos (by omega)]
    simp only [List.map_cons, List.map_nil, List.cons.injEq, and_true]
    omega
  · obtain ⟨ha, ha', ⟨hb, hb'⟩, ⟨hc, hc'⟩, hlow, hhigh⟩ := h
    have hvalue : (assemble lead [b, c]).toNat =
        (lead.toNat % 2 ^ 4 * 64 + b.toNat % 64) * 64 + c.toNat % 64 :=
      toNat_assemble (by omega) rfl
    rw [hvalue, if_neg (by omega), if_neg (by omega), if_pos (by omega)]
    simp only [List.map_cons, List.map_nil, List.cons.injEq, and_true]
    omega
  · obtain ⟨ha, ha', ⟨hb, hb'⟩, ⟨hc, hc'⟩, ⟨hd, hd'⟩, hlow, hhigh⟩ := h
    have hvalue : (assemble lead [b, c, d]).toNat =
        ((lead.toNat % 2 ^ 3 * 64 + b.toNat % 64) * 64 + c.toNat % 64) * 64 + d.toNat % 64 :=
      toNat_assemble (by omega) rfl
    rw [hvalue, if_neg (by omega), if_neg (by omega), if_neg (by omega)]
    simp only [List.map_cons, List.map_nil, List.cons.injEq, and_true]
    omega
  · exact absurd h not_false

/-! ## Texts -/

/-- The bytes of a byte array are those of its data. -/
theorem toList_loop_eq (array : ByteArray) (i : Nat) (before : List UInt8) :
    ByteArray.toList.loop array i before = before.reverse ++ array.data.toList.drop i := by
  induction i, before using ByteArray.toList.loop.induct array with
  | case1 i before hi ih =>
    have hlt : i < array.data.toList.length := by simpa using hi
    have hget : array.get! i = array.data.toList[i] := by
      show array.data[i]! = array.data[i]
      exact getElem!_pos array.data i hi
    rw [ByteArray.toList.loop, if_pos hi, ih, List.drop_eq_getElem_cons hlt, hget,
      List.reverse_cons, List.append_assoc]
    rfl
  | case2 i before hi =>
    have hle : array.data.toList.length ≤ i := by simpa using hi
    rw [ByteArray.toList.loop, if_neg hi, List.drop_eq_nil_of_le hle, List.append_nil]

/-- A text is encoded character by character. -/
theorem encode_ofList (cs : List Char) :
    encode (String.ofList cs) = cs.flatMap String.utf8EncodeChar := by
  show (cs.flatMap String.utf8EncodeChar).toByteArray.toList = _
  rw [ByteArray.toList, toList_loop_eq, List.toList_data_toByteArray]
  rfl

theorem utf8EncodeChar_injective : Function.Injective String.utf8EncodeChar := by
  intro c c' h
  have hencoded : [c].utf8Encode = [c'].utf8Encode := by
    rw [List.utf8Encode_singleton, List.utf8Encode_singleton, h]
  have htext : String.ofList [c] = String.ofList [c'] := String.toByteArray_inj.1 hencoded
  exact List.singleton_inj.1 (String.ofList_injective htext)

/-- An encoded character is divided off from what follows it. -/
theorem pieces_utf8EncodeChar (c : Char) (rest : List UInt8) :
    pieces (String.utf8EncodeChar c ++ rest) = .scalar c :: pieces rest := by
  have hsequence := isSequence_utf8EncodeChar c
  cases hencoded : String.utf8EncodeChar c with
  | nil => exact absurd hencoded String.utf8EncodeChar_ne_nil
  | cons lead taken =>
    rw [hencoded] at hsequence
    obtain ⟨ranges, hranges, hfits⟩ := exists_fits_iff.2 hsequence
    have hchar : assemble lead taken = c := by
      apply utf8EncodeChar_injective
      rw [utf8EncodeChar_assemble hsequence, hencoded]
    have htaken := takeFitting_append hfits rest
    rw [List.cons_append, pieces]
    simp only [hranges, htaken, hfits.length_eq, if_true, hchar, List.drop_left]

theorem mapM_scalar (c : Char) (rest : List Piece) :
    (Piece.scalar c :: rest).mapM Piece.char? = (rest.mapM Piece.char?).map (c :: ·) := by
  rw [List.mapM_cons]
  cases rest.mapM Piece.char? <;> rfl

theorem mapM_malformed (stretch : List UInt8) (rest : List Piece) :
    (Piece.malformed stretch :: rest).mapM Piece.char? = none := by
  rw [List.mapM_cons]
  rfl

theorem decode?_nil : decode? [] = some [] := by
  rw [decode?, pieces]
  rfl

theorem decode?_cons (c : Char) (rest : List UInt8) :
    decode? (String.utf8EncodeChar c ++ rest) = (decode? rest).map (c :: ·) := by
  rw [decode?, pieces_utf8EncodeChar, mapM_scalar]
  rfl

/-- Decoding finds the text that was encoded. -/
theorem decode?_encode (cs : List Char) : decode? (encode (String.ofList cs)) = some cs := by
  rw [encode_ofList]
  induction cs with
  | nil => exact decode?_nil
  | cons c cs ih => rw [List.flatMap_cons, decode?_cons, ih, Option.map_some]

/-- Only encoded texts are decoded. -/
theorem encode_of_decode? (h : decode? bytes = some cs) : encode (String.ofList cs) = bytes := by
  rw [encode_ofList]
  unfold decode? at h
  induction bytes using pieces.induct generalizing cs with
  | case1 =>
    rw [pieces] at h
    obtain rfl := Option.some.inj h
    rfl
  | case2 lead rest hranges _ =>
    rw [pieces] at h
    simp only [hranges, mapM_malformed] at h
    cases h
  | case3 lead rest ranges hranges taken =>
    rename_i ih
    rw [pieces] at h
    simp only [hranges] at h
    by_cases hlength : (takeFitting ranges rest).length = ranges.length
    · rw [if_pos hlength, mapM_scalar] at h
      obtain ⟨later, hlater, rfl⟩ := Option.map_eq_some_iff.1 h
      have hsequence := exists_fits_iff.1 ⟨ranges, hranges, fits_takeFitting hlength⟩
      rw [List.flatMap_cons, utf8EncodeChar_assemble hsequence, ih hlater, List.cons_append,
        List.prefix_iff_eq_append.1 (takeFitting_isPrefix ranges rest)]
    · rw [if_neg hlength, mapM_malformed] at h
      cases h

/-- Decoding yields a text exactly on the bytes that encode it. -/
theorem decode?_eq_some_iff : decode? bytes = some cs ↔ encode (String.ofList cs) = bytes := by
  constructor
  · exact encode_of_decode?
  · rintro rfl
    exact decode?_encode cs

end SpanForest.Text
