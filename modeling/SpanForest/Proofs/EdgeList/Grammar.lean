import SpanForest.EdgeList.Reader
import SpanForest.Proofs.Text.Numerals
import SpanForest.Proofs.Text.Utf8
import SpanForest.Proofs.Text.Words

/-! # The grammar of edge lists

    A file is an edge list when each of its lines is. The grammar says what a
    line states by the text that it encodes, the fields of this text, and the
    number that the third of them stands for.

    * **`fileLines`**: the lines, by splitting at the line feeds.
    * **`States`**: what a line states.
    * **`Faulty`**: what is wrong with a line that states nothing.
    * **`Lists`**: the edges that a file lists, line by line.
    * **`parse_eq_ok_iff`**: a file is read as the edges that it lists.
    * **`parse_accepts_grammar`**: a file is accepted when all its lines are
      good, and refused because of the first that is not.
-/

namespace SpanForest.EdgeList

open Text

variable {line : List UInt8} {file : List (List UInt8)} {found : Option Triple}
  {triples : List Triple} {list : EdgeList} {fault : LineFault}

/-! ## Lines -/

/-- The parts of a file, without the last one if it is empty. -/
def dropEmptyEnd (parts : List (List UInt8)) : List (List UInt8) :=
  if parts.getLast? = some [] then parts.dropLast else parts

/-- The lines of a file: what stands between the line feeds, and behind the
    last one unless nothing does. -/
def fileLines (bytes : List UInt8) : List (List UInt8) :=
  dropEmptyEnd (bytes.splitOn lineFeed)

theorem dropEmptyEnd_cons_cons (first second : List UInt8) (later : List (List UInt8)) :
    dropEmptyEnd (first :: second :: later) = first :: dropEmptyEnd (second :: later) := by
  unfold dropEmptyEnd
  rw [List.getLast?_cons_cons, List.dropLast_cons_cons]
  split <;> rfl

theorem exists_splitOn_eq_cons (bytes : List UInt8) :
    ∃ first later, bytes.splitOn lineFeed = first :: later :=
  List.exists_cons_of_ne_nil (List.splitOnP_ne_nil (· == lineFeed) bytes)

theorem splitOn_cons (b : UInt8) (bytes : List UInt8) : ∃ first later,
    bytes.splitOn lineFeed = first :: later ∧ (b :: bytes).splitOn lineFeed =
      if b = lineFeed then [] :: first :: later else (b :: first) :: later := by
  obtain ⟨first, later, h⟩ := exists_splitOn_eq_cons bytes
  refine ⟨first, later, h, ?_⟩
  rw [List.splitOn_cons_eq_if_modifyHead, h, List.modifyHead_cons]
  by_cases hb : b = lineFeed
  · rw [if_pos (by simp [hb]), if_pos hb]
  · rw [if_neg (by simpa using hb), if_neg hb]

theorem lines_eq (bytes : List UInt8) : lines bytes = fileLines bytes := by
  induction bytes with
  | nil => rfl
  | cons b bytes ih =>
    obtain ⟨first, later, hparts, hcons⟩ := splitOn_cons b bytes
    have hfold : lines (b :: bytes) = consByte b (lines bytes) := rfl
    rw [hfold, ih]
    unfold fileLines consByte
    rw [hcons, hparts]
    by_cases hb : b = lineFeed
    · rw [if_pos hb, if_pos hb, dropEmptyEnd_cons_cons]
    · rw [if_neg hb, if_neg hb]
      cases later with
      | nil => cases first <;> rfl
      | cons second later => rw [dropEmptyEnd_cons_cons, dropEmptyEnd_cons_cons]

/-! ## What a line states -/

/-- The fields of a line of text: the stretches between white space in front of
    the first number sign. -/
def lineFields (text : List Char) : List (List Char) := fields (text.takeWhile (· ≠ '#'))

/-- What a line states: nothing without fields, and an edge with three. -/
inductive States (line : List UInt8) : Option Triple → Prop where
  /-- The line has no fields. -/
  | nothing {text} : encode (String.ofList text) = line → lineFields text = [] → States line none
  /-- The line has three fields, and the third is a weight. -/
  | edge {text left right weight value} : encode (String.ofList text) = line →
      lineFields text = [left, right, weight] → Numeral weight value →
      WordRange.int64.contains value = true →
      States line (some ⟨String.ofList left, String.ofList right, value⟩)

/-- What is wrong with a line. -/
inductive Faulty (line : List UInt8) : LineFault → Prop where
  /-- No text is encoded by the line. -/
  | notText : (∀ text, encode (String.ofList text) ≠ line) → Faulty line (.unreadable .notText)
  /-- The line has fields, but not three. -/
  | fieldCount {text} : encode (String.ofList text) = line → lineFields text ≠ [] →
      (lineFields text).length ≠ 3 → Faulty line (.fieldCount (lineFields text).length)
  /-- The third field is no weight. -/
  | invalidWeight {text left right weight cause} : encode (String.ofList text) = line →
      lineFields text = [left, right, weight] →
      (∀ value, Numeral weight value → ¬ WordRange.int64.contains value = true) →
      Faulty line (.invalidWeight (String.ofList weight) cause)

/-- A line that states something. -/
def Good (line : List UInt8) : Prop := ∃ found, States line found

theorem words_withoutComment (text : List Char) :
    words (withoutComment text) = lineFields text := by
  rw [words_eq]
  unfold lineFields withoutComment
  congr 2
  funext c
  rw [Bool.eq_iff_iff]
  simp

theorem readWeight_eq_ok_iff {weight : List Char} {value : Int} :
    Integer.read .int64 weight = .ok value ↔
      Numeral weight value ∧ WordRange.int64.contains value = true :=
  Integer.read_eq_ok_iff (by decide) (by decide)

/-- Reading a line either finds what it states or what is wrong with it. -/
theorem readLine_cases (line : List UInt8) :
    (∃ found, readLine line = .ok found ∧ States line found) ∨
    (∃ fault, readLine line = .error fault ∧ Faulty line fault) := by
  unfold readLine
  cases htext : decode? line with
  | none =>
    refine .inr ⟨_, rfl, .notText ?_⟩
    intro text h
    rw [decode?_eq_some_iff.2 h] at htext
    cases htext
  | some text =>
    have hencoded := decode?_eq_some_iff.1 htext
    unfold readText
    simp only [words_withoutComment]
    split
    · rename_i hfields
      exact .inl ⟨none, rfl, .nothing hencoded hfields⟩
    · rename_i left right weight hfields
      cases hweight : Integer.read .int64 weight with
      | ok value =>
        obtain ⟨hnumeral, hrange⟩ := readWeight_eq_ok_iff.1 hweight
        exact .inl ⟨_, rfl, .edge hencoded hfields hnumeral hrange⟩
      | error cause =>
        refine .inr ⟨_, rfl, .invalidWeight hencoded hfields ?_⟩
        intro value hnumeral hrange
        rw [readWeight_eq_ok_iff.2 ⟨hnumeral, hrange⟩] at hweight
        cases hweight
    -- There are one or two fields, or more than three.
    · rename_i hnone hthree
      refine .inr ⟨_, rfl, .fieldCount hencoded hnone ?_⟩
      intro hlength
      obtain ⟨left, right, weight, hfields⟩ := List.length_eq_three.1 hlength
      exact hthree left right weight hfields

/-- A line that states something is read as what it states. -/
theorem readLine_of_states (h : States line found) : readLine line = .ok found := by
  unfold readLine
  cases h with
  | nothing htext hfields =>
    rw [decode?_eq_some_iff.2 htext]
    simp only [readText, words_withoutComment, hfields]
  | edge htext hfields hnumeral hrange =>
    rw [decode?_eq_some_iff.2 htext]
    simp only [readText, words_withoutComment, hfields,
      readWeight_eq_ok_iff.2 ⟨hnumeral, hrange⟩]

theorem readLine_eq_ok_iff : readLine line = .ok found ↔ States line found := by
  constructor
  · intro h
    obtain ⟨found', hread, hstates⟩ | ⟨fault, hread, -⟩ := readLine_cases line
    · obtain rfl := Except.ok.inj (hread.symm.trans h)
      exact hstates
    · rw [hread] at h
      cases h
  · exact readLine_of_states

theorem readLine_of_not_good (h : ¬ Good line) :
    ∃ fault, readLine line = .error fault ∧ Faulty line fault := by
  obtain ⟨found, -, hstates⟩ | hfaulty := readLine_cases line
  · exact absurd ⟨found, hstates⟩ h
  · exact hfaulty

/-! ## What a file lists -/

/-- Consecutive lines list the given edges. -/
def Enumerates (file : List (List UInt8)) (triples : List Triple) : Prop :=
  ∃ stated, List.Forall₂ States file stated ∧ triples = stated.reduceOption

/-- The lines of a file list the given edges, in order. -/
def Lists (bytes : List UInt8) (triples : List Triple) : Prop :=
  Enumerates (fileLines bytes) triples

theorem enumerates_cons_iff : Enumerates (line :: file) triples ↔
    ∃ found later, States line found ∧ Enumerates file later ∧
      triples = found.toList ++ later := by
  have hreduce : ∀ (found : Option Triple) (stated : List (Option Triple)),
      (found :: stated).reduceOption = found.toList ++ stated.reduceOption := by
    intro found stated
    cases found <;> rfl
  constructor
  · rintro ⟨stated, hstated, rfl⟩
    obtain ⟨found, stated, hfound, hlater, rfl⟩ := List.forall₂_cons_left_iff.1 hstated
    exact ⟨found, _, hfound, ⟨stated, hlater, rfl⟩, hreduce found stated⟩
  · rintro ⟨found, _, hfound, ⟨stated, hlater, rfl⟩, rfl⟩
    exact ⟨found :: stated, .cons hfound hlater, (hreduce found stated).symm⟩

/-- The edge of a good line is appended before the lines after it are read. -/
theorem readLines_cons (h : States line found) (number : Nat) (d : Draft)
    (file : List (List UInt8)) :
    readLines number d (line :: file) =
      readLines (number + 1) (d.insertAll found.toList) file := by
  rw [readLines, readLine_of_states h]
  cases found <;> rfl

theorem readLines_eq_ok_iff {d d' : Draft} (number : Nat) :
    readLines number d file = .ok d' ↔
      ∃ triples, Enumerates file triples ∧ d' = d.insertAll triples := by
  induction file generalizing number d with
  | nil =>
    constructor
    · intro h
      exact ⟨[], ⟨[], .nil, rfl⟩, (Except.ok.inj h).symm⟩
    · rintro ⟨_, ⟨stated, hstated, rfl⟩, rfl⟩
      obtain rfl := List.forall₂_nil_left_iff.1 hstated
      rfl
  | cons line file ih =>
    constructor
    · intro h
      cases hline : readLine line with
      | error fault =>
        rw [readLines, hline] at h
        cases h
      | ok found =>
        have hstates := readLine_eq_ok_iff.1 hline
        rw [readLines_cons hstates] at h
        obtain ⟨later, hlater, rfl⟩ := (ih _).1 h
        exact ⟨_, enumerates_cons_iff.2 ⟨found, later, hstates, hlater, rfl⟩,
          (d.insertAll_append found.toList later).symm⟩
    · rintro ⟨_, h, rfl⟩
      obtain ⟨found, later, hstates, hlater, rfl⟩ := enumerates_cons_iff.1 h
      rw [readLines_cons hstates]
      exact (ih _).2 ⟨later, hlater, d.insertAll_append found.toList later⟩

/-- The first faulty line decides. -/
theorem readLines_of_faulty {before after : List (List UInt8)} {d : Draft} (number : Nat)
    (hbefore : ∀ l ∈ before, Good l) (hline : readLine line = .error fault) :
    readLines number d (before ++ line :: after) = .error ⟨number + before.length, fault⟩ := by
  induction before generalizing number d with
  | nil =>
    rw [List.nil_append, readLines, hline]
    rfl
  | cons first before ih =>
    obtain ⟨found, hfound⟩ := hbefore first List.mem_cons_self
    rw [List.cons_append, readLines_cons hfound,
      ih (number + 1) fun l hl => hbefore l (List.mem_cons_of_mem first hl), List.length_cons]
    congr 2
    omega

theorem exists_enumerates_iff : (∃ triples, Enumerates file triples) ↔ ∀ l ∈ file, Good l := by
  induction file with
  | nil =>
    constructor
    · intro _ l hl
      cases hl
    · intro _
      exact ⟨[], [], .nil, rfl⟩
  | cons line file ih =>
    rw [List.forall_mem_cons, ← ih]
    constructor
    · rintro ⟨triples, h⟩
      obtain ⟨found, later, hfound, hlater, -⟩ := enumerates_cons_iff.1 h
      exact ⟨⟨found, hfound⟩, later, hlater⟩
    · rintro ⟨⟨found, hfound⟩, later, hlater⟩
      exact ⟨_, enumerates_cons_iff.2 ⟨found, later, hfound, hlater, rfl⟩⟩

/-- A file is read as the list of the edges that its lines state. -/
theorem parse_eq_ok_iff {bytes : List UInt8} :
    parse bytes = .ok list ↔ ∃ triples, Lists bytes triples ∧ list = ofTriples triples := by
  unfold parse Lists
  rw [lines_eq]
  constructor
  · intro h
    cases hread : readLines 1 {} (fileLines bytes) with
    | error e =>
      rw [hread] at h
      cases h
    | ok d =>
      rw [hread] at h
      obtain ⟨triples, hlists, rfl⟩ := (readLines_eq_ok_iff 1).1 hread
      exact ⟨triples, hlists, (Except.ok.inj h).symm⟩
  · rintro ⟨triples, hlists, rfl⟩
    rw [(readLines_eq_ok_iff 1).2 ⟨triples, hlists, rfl⟩]
    rfl

theorem parse_accepts_iff {bytes : List UInt8} :
    (∃ list, parse bytes = .ok list) ↔ ∀ line ∈ fileLines bytes, Good line := by
  rw [← exists_enumerates_iff]
  constructor
  · rintro ⟨list, h⟩
    obtain ⟨triples, hlists, -⟩ := parse_eq_ok_iff.1 h
    exact ⟨triples, hlists⟩
  · rintro ⟨triples, hlists⟩
    exact ⟨_, parse_eq_ok_iff.2 ⟨triples, hlists, rfl⟩⟩

/-- A file is accepted exactly when all its lines are good. Otherwise the first
    line that is not good is reported, by its number and with what is wrong
    with it, whatever stands behind it. -/
theorem parse_accepts_grammar (bytes : List UInt8) :
    ((∃ list, parse bytes = .ok list) ↔ ∀ line ∈ fileLines bytes, Good line) ∧
    ∀ before line after, fileLines bytes = before ++ line :: after →
      (∀ l ∈ before, Good l) → ¬ Good line →
      ∃ fault, parse bytes = .error ⟨before.length + 1, fault⟩ ∧ Faulty line fault := by
  refine ⟨parse_accepts_iff, ?_⟩
  intro before line after hsplit hbefore hline
  obtain ⟨fault, hread, hfaulty⟩ := readLine_of_not_good hline
  refine ⟨fault, ?_, hfaulty⟩
  unfold parse
  rw [lines_eq, hsplit, readLines_of_faulty 1 hbefore hread, Nat.add_comm]
  rfl

/-- A comment, an edge, a line without a weight, and a line that is no text: the
    third line is reported. -/
theorem parse_accepts_grammar_of_missing_weight :
    let bytes := encode "# cities\na b -7\r\nb\u00a0c # far\n" ++ [0xff, 0x0a]
    let before := [encode "# cities", encode "a b -7\r"]
    let line := encode "b\u00a0c # far"
    fileLines bytes = before ++ line :: [[0xff]] ∧ (∀ l ∈ before, Good l) ∧ ¬ Good line ∧
      (¬ ∃ list, parse bytes = .ok list) ∧
      ∃ fault, parse bytes = .error ⟨3, fault⟩ ∧ Faulty line fault := by
  intro bytes before line
  have hsplit : fileLines bytes = before ++ line :: [[0xff]] := by
    unfold bytes before line
    decide +kernel
  have hbefore : ∀ l ∈ before, Good l := by
    intro l hl
    rcases List.mem_pair.1 hl with rfl | rfl
    · exact ⟨none, readLine_eq_ok_iff.1 (by decide +kernel)⟩
    · exact ⟨some ⟨"a", "b", -7⟩, readLine_eq_ok_iff.1 (by decide +kernel)⟩
  have hline : ¬ Good line := by
    rintro ⟨found, hfound⟩
    have hread : readLine line = .error (.fieldCount 2) := by
      unfold line
      decide +kernel
    rw [readLine_of_states hfound] at hread
    cases hread
  obtain ⟨haccepts, hfirst⟩ := parse_accepts_grammar bytes
  refine ⟨hsplit, hbefore, hline, ?_, hfirst before line _ hsplit hbefore hline⟩
  rw [haccepts, hsplit]
  exact fun h => hline (h line (by simp))

end SpanForest.EdgeList
