import SpanForest.Proofs.Text.Numerals
import SpanForest.Proofs.Text.Trimming
import SpanForest.Proofs.Text.Utf8
import SpanForest.RunProfile

/-! # Overriding a profile

    Two variables can override the profile of property-test runs. What a text
    means for either of them is a relation between texts and settings. All the
    rest is the same for both: which setting comes out, and who is warned.

    * **`IsSetTo`**: the variables that hold a text, by its encoding.
    * **`MeansCases`**, **`MeansSwitch`**: what texts mean. **`readCases_eq_ok_iff`**
      and **`readSwitch_eq_ok_iff`**: reading finds this meaning and no other.
    * **`Overrides`**: what one variable does; **`overrides_overrideOr`**: it
      does so whatever its texts mean.
    * **`load_overrides`**: the main result.
-/

namespace SpanForest.RunProfile

open Text

variable {β : Type u} {name : String} {raw raw' : List Char} {b : β} {n : Nat}
  {value : Option (List UInt8)}

/-! ## What texts mean -/

/-- A variable is set to the bytes that encode a text. -/
def IsSetTo (value : Option (List UInt8)) (raw : List Char) : Prop :=
  value = some (encode (String.ofList raw))

/-- The texts that mean a number of cases: white space apart, an optional plus
    sign and decimal digits, for a positive number of 32 bits. -/
def MeansCases (raw : List Char) (n : Nat) : Prop :=
  (∃ word, Trims raw word ∧ UnsignedNumeral word n) ∧ 1 ≤ n ∧ n ≤ 2 ^ 32 - 1

/-- The words that set a switch. -/
def wordsFor : Bool → List String
  | true => ["1", "true", "yes", "on"]
  | false => ["0", "false", "no", "off"]

/-- The texts that set a switch: white space apart, and with small letters in
    place of the capitals from A to Z, one of the words for it. -/
def MeansSwitch (raw : List Char) (b : Bool) : Prop :=
  ∃ word, Trims raw word ∧ String.ofList (word.map Char.toLower) ∈ wordsFor b

theorem bind_decode?_eq_some_iff : value.bind decode? = some raw ↔ IsSetTo value raw := by
  unfold IsSetTo
  rw [Option.bind_eq_some_iff]
  constructor
  · rintro ⟨bytes, rfl, hbytes⟩
    rw [decode?_eq_some_iff.1 hbytes]
  · intro h
    exact ⟨_, h, decode?_encode raw⟩

/-- A variable is set to one text. -/
theorem IsSetTo.iff_eq (h : IsSetTo value raw) : IsSetTo value raw' ↔ raw' = raw := by
  rw [← bind_decode?_eq_some_iff] at h ⊢
  rw [h, Option.some.injEq, eq_comm]

/-! ## Reading finds the meaning -/

theorem read_nat32_eq_ok_iff (word : List Char) (count : Int) :
    Integer.read .nat32 word = .ok count ↔
      ∃ n, UnsignedNumeral word n ∧ count = n ∧ n ≤ 2 ^ 32 - 1 := by
  have hzero : WordRange.nat32.contains 0 = true := by decide
  rw [Integer.read_eq_ok_iff_unsigned hzero (by decide), WordRange.contains_iff]
  have hleast : WordRange.nat32.least = 0 := rfl
  have hgreatest : WordRange.nat32.greatest = 2 ^ 32 - 1 := rfl
  constructor
  · rintro ⟨⟨n, hn, rfl⟩, hrange⟩
    exact ⟨n, hn, rfl, by omega⟩
  · rintro ⟨n, hn, rfl, hrange⟩
    exact ⟨⟨n, hn, rfl⟩, by omega⟩

theorem readCases_eq_ok_iff_read {raw : List Char} {n : Nat} : readCases raw = .ok n ↔
    ∃ count, Integer.read .nat32 (trim raw) = .ok count ∧ count ≠ 0 ∧ count.toNat = n := by
  unfold readCases
  cases Integer.read .nat32 (trim raw) with
  | error fault => simp
  | ok count => by_cases hzero : count = 0 <;> simp [hzero]

theorem readCases_eq_ok_iff (raw : List Char) (n : Nat) :
    readCases raw = .ok n ↔ MeansCases raw n := by
  unfold MeansCases
  rw [exists_trims_iff, readCases_eq_ok_iff_read]
  constructor
  · rintro ⟨count, hcount, hzero, rfl⟩
    obtain ⟨m, hm, rfl, hle⟩ := (read_nat32_eq_ok_iff _ _).1 hcount
    rw [Int.toNat_natCast]
    exact ⟨hm, by omega, hle⟩
  · rintro ⟨hn, hpos, hle⟩
    have hread := (read_nat32_eq_ok_iff (trim raw) n).2 ⟨n, hn, rfl, hle⟩
    exact ⟨n, hread, by omega, Int.toNat_natCast n⟩

theorem lookup_switchWords {word : String} {b : Bool} :
    switchWords.lookup word = some b ↔ word ∈ wordsFor b := by
  constructor
  · intro h
    obtain ⟨before, behind, hsplit, -⟩ := List.lookup_eq_some_iff.1 h
    have hmem : (word, b) ∈ switchWords := by simp [hsplit]
    unfold switchWords at hmem
    cases b <;> simpa [wordsFor] using hmem
  · intro h
    cases b <;> simp only [wordsFor, List.mem_cons, List.not_mem_nil, or_false] at h <;>
      rcases h with rfl | rfl | rfl | rfl <;> rfl

theorem readSwitch_eq_ok_iff_lookup {raw : List Char} {b : Bool} : readSwitch raw = .ok b ↔
    switchWords.lookup (String.ofList ((trim raw).map Char.toLower)) = some b := by
  rw [readSwitch]
  cases switchWords.lookup (String.ofList ((trim raw).map Char.toLower)) with
  | none => simp
  | some b' => simp

theorem readSwitch_eq_ok_iff (raw : List Char) (b : Bool) :
    readSwitch raw = .ok b ↔ MeansSwitch raw b := by
  unfold MeansSwitch
  rw [exists_trims_iff, readSwitch_eq_ok_iff_lookup, lookup_switchWords]

/-! ## One variable -/

/-- A variable is set to a text, and the text means nothing. -/
def Rejects (Means : List Char → β → Prop) (value : Option (List UInt8)) (raw : List Char) :
    Prop :=
  IsSetTo value raw ∧ ∀ b, ¬ Means raw b

/-- A warning that the text of a variable is ignored. -/
structure Warns (name : String) (raw : List Char) (event : Event) : Prop where
  /-- It is a warning. -/
  level_eq : event.level = .warn
  /-- It names the variable. -/
  env_eq : event.fields.lookup "env" = some (.text name)
  /-- It carries the text as it is. -/
  raw_eq : event.fields.lookup "raw" = some (.text (String.ofList raw))

/-- What a variable does, if its texts have the given meaning. -/
structure Overrides (name : String) (Means : List Char → β → Prop)
    (value : Option (List UInt8)) (default setting : β) (warnings : List Event) : Prop where
  /-- The setting is what the text means, or the default if there is no text or
      it means nothing. -/
  setting_iff : ∀ b, setting = b ↔ (∃ raw, IsSetTo value raw ∧ Means raw b) ∨
    (¬ ∃ raw b, IsSetTo value raw ∧ Means raw b) ∧ b = default
  /-- A text that means nothing is warned of once. -/
  warnings_of_rejects : ∀ raw, Rejects Means value raw → ∃ event, Warns name raw event ∧
    warnings = [event]
  /-- Nothing else is warned of. -/
  warnings_eq_nil : (¬ ∃ raw, Rejects Means value raw) → warnings = []

theorem warns_ignoredValue (name : String) (raw : List Char) (reason : String) :
    Warns name raw (ignoredValue name (String.ofList raw) reason) :=
  ⟨rfl, rfl, rfl⟩

namespace Overrides

variable {Means : List Char → β → Prop} {default : β} {event : Event}

/-- Without a text the default stays. -/
theorem of_unset (h : ∀ raw, ¬ IsSetTo value raw) :
    Overrides name Means value default default [] := by
  refine ⟨?_, ?_, fun _ => rfl⟩
  · intro b
    simp [h, eq_comm]
  · intro raw hrejects
    exact absurd hrejects.1 (h raw)

/-- A text that means a setting makes it. -/
theorem of_means (hset : IsSetTo value raw) (hmeans : ∀ b', Means raw b' ↔ b = b') :
    Overrides name Means value default b [] := by
  refine ⟨?_, ?_, fun _ => rfl⟩
  · intro b'
    simp [hset.iff_eq, hmeans]
  · rintro raw' ⟨hraw', hnone⟩
    obtain rfl := hset.iff_eq.1 hraw'
    exact absurd ((hmeans b).2 rfl) (hnone b)

/-- A text that means nothing leaves the default, with a warning. -/
theorem of_rejects (h : Rejects Means value raw) (hwarns : Warns name raw event) :
    Overrides name Means value default default [event] := by
  obtain ⟨hset, hnone⟩ := h
  refine ⟨?_, ?_, ?_⟩
  · intro b
    simp [hset.iff_eq, hnone, eq_comm]
  · rintro raw' ⟨hraw', -⟩
    obtain rfl := hset.iff_eq.1 hraw'
    exact ⟨event, hwarns, rfl⟩
  · intro hquiet
    exact absurd ⟨raw, hset, hnone⟩ hquiet

end Overrides

section overrides

variable {default : β} {read : List Char → Except String β} {reason : String}

theorem overrideOr_of_unset (h : value.bind decode? = none) :
    overrideOr name value default read = (default, []) := by
  rw [overrideOr, h]

theorem overrideOr_of_ok (h : value.bind decode? = some raw) (hraw : read raw = .ok b) :
    overrideOr name value default read = (b, []) := by
  simp only [overrideOr, h, hraw]

theorem overrideOr_of_error (h : value.bind decode? = some raw)
    (hraw : read raw = .error reason) : overrideOr name value default read =
      (default, [ignoredValue name (String.ofList raw) reason]) := by
  simp only [overrideOr, h, hraw]

end overrides

/-- Where reading finds the meaning of texts, a variable overrides the default
    by this meaning. -/
theorem overrides_overrideOr {Means : List Char → β → Prop} {read : List Char → Except String β}
    (hread : ∀ raw b, read raw = .ok b ↔ Means raw b) (name : String)
    (value : Option (List UInt8)) (default : β) :
    Overrides name Means value default (overrideOr name value default read).1
      (overrideOr name value default read).2 := by
  cases hvalue : value.bind decode? with
  | none =>
    rw [overrideOr_of_unset hvalue]
    apply Overrides.of_unset
    intro raw hraw
    rw [← bind_decode?_eq_some_iff, hvalue] at hraw
    cases hraw
  | some raw =>
    have hset : IsSetTo value raw := bind_decode?_eq_some_iff.1 hvalue
    cases hraw : read raw with
    | ok b =>
      rw [overrideOr_of_ok hvalue hraw]
      apply Overrides.of_means hset
      intro b'
      rw [← hread, hraw, Except.ok.injEq]
    | error reason =>
      rw [overrideOr_of_error hvalue hraw]
      refine Overrides.of_rejects ⟨hset, ?_⟩ (warns_ignoredValue name raw reason)
      intro b hb
      rw [← hread, hraw] at hb
      cases hb

/-! ## The main result -/

/-- Whatever bytes the two variables hold, if any, and whatever the defaults:
    each setting is what the text of its variable means, or else its default.
    There is one warning for each text that means nothing, first that of the
    cases. Neither setting depends on the variable or the default of the other.
    There are no cases only if that is the default. -/
theorem load_overrides (cases fork : Option (List UInt8)) (defaults : RunProfile) :
    (∃ caseWarnings forkWarnings,
      (load cases fork defaults).2 = caseWarnings ++ forkWarnings ∧
      Overrides "PROPTEST_CASES" MeansCases cases defaults.cases
        (load cases fork defaults).1.cases caseWarnings ∧
      Overrides "KRUSKAL_PBT_FORK" MeansSwitch fork defaults.fork
        (load cases fork defaults).1.fork forkWarnings) ∧
    (∀ fork' b, (load cases fork' ⟨defaults.cases, b⟩).1.cases =
      (load cases fork defaults).1.cases) ∧
    (∀ cases' n, (load cases' fork ⟨n, defaults.fork⟩).1.fork =
      (load cases fork defaults).1.fork) ∧
    ((load cases fork defaults).1.cases = 0 → defaults.cases = 0) := by
  have hcases := overrides_overrideOr readCases_eq_ok_iff casesVariable cases defaults.cases
  have hfork := overrides_overrideOr readSwitch_eq_ok_iff forkVariable fork defaults.fork
  refine ⟨⟨_, _, rfl, hcases, hfork⟩, fun _ _ => rfl, fun _ _ => rfl, ?_⟩
  intro hzero
  rcases (hcases.setting_iff 0).1 hzero with hmeans | ⟨-, hdefault⟩
  · obtain ⟨raw, -, -, hpos, -⟩ := hmeans
    exact absurd hpos (by decide)
  · exact hdefault.symm

/-- A number of cases with a sign and leading zeros between white space, and a
    word that sets no switch. -/
example : load (some (encode " +0042\u3000")) (some (encode "Maybe")) ⟨64, true⟩ =
    (⟨42, true⟩, [ignoredValue forkVariable "Maybe" "`maybe` is not a boolean switch"]) := by cbv

end SpanForest.RunProfile
