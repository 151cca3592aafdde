import Mathlib.Data.List.TakeWhile
import SpanForest.Proofs.EdgeList.Grammar
import SpanForest.Proofs.EdgeList.Numbering

/-! # Layouts of edge lists

    The same edges can be written in many ways: with other white space, with
    comments and empty lines, with one line end or the other. Whatever the
    layout is, the same list is read back.

    * **`Line`**: the ways to write one line, with an edge or without.
    * **`Layout`**: the ways to write edges, one line each.
    * **`Line.states`**: a line states the edge that is written on it.
    * **`writable_of_enumerates`**: nothing is read that cannot be written.
    * **`Layout.lists`**: a layout lists the edges that it is a layout of.
    * **`parse_undoes_writing`**: the edges are found again.
-/

namespace SpanForest.EdgeList

open Text

/-! ## Writing -/

/-- A text that can stand as a field. -/
def IsField (cs : List Char) : Prop := cs ≠ [] ∧ ∀ c ∈ cs, isBlank c = false ∧ c ≠ '#'

/-- White space within a line. -/
def IsSpace (cs : List Char) : Prop := ∀ c ∈ cs, isBlank c = true ∧ c ≠ '\n'

instance (cs : List Char) : Decidable (IsField cs) :=
  haveI := List.decidableBAll (fun c => isBlank c = false ∧ c ≠ '#') cs
  inferInstanceAs (Decidable (_ ∧ _))

instance (cs : List Char) : Decidable (IsSpace cs) := List.decidableBAll _ cs

/-- An edge that can be written: its labels are fields, and its weight is in
    the range of weights. -/
structure Writable (t : Triple) : Prop where
  left : IsField t.left.toList
  right : IsField t.right.toList
  weight : WordRange.int64.contains t.weight = true

/-- A comment, or none. -/
inductive Comment : List Char → Prop where
  /-- No comment. -/
  | none : Comment []
  /-- A number sign and some text. -/
  | some {text} : '\n' ∉ text → Comment ('#' :: text)

/-- A line without its end: an edge or nothing, with white space around its
    fields and perhaps a comment. -/
inductive Line : Option Triple → List Char → Prop where
  /-- A line without an edge. -/
  | blank {indent comment} : IsSpace indent → Comment comment → Line none (indent ++ comment)
  /-- A line with an edge. -/
  | edge {t indent gap gap' weight trail comment} : IsSpace indent → IsSpace gap → gap ≠ [] →
      IsSpace gap' → gap' ≠ [] → Numeral weight t.weight → IsSpace trail → Comment comment →
      Line (some t) (indent ++ (t.left.toList ++ (gap ++ (t.right.toList ++ (gap' ++
        (weight ++ trail))))) ++ comment)

/-- The ends of lines. -/
inductive LineEnd : List Char → Prop where
  /-- A line feed. -/
  | feed : LineEnd ['\n']
  /-- A carriage return and a line feed. -/
  | returnFeed : LineEnd ['\r', '\n']

/-- The layouts of edges: one line for each, in order, and lines without an
    edge in between. The last line need not be ended. -/
inductive Layout : List Triple → List Char → Prop where
  /-- No more lines. -/
  | done : Layout [] []
  /-- A line at the end of the file. -/
  | last {found line} : Line found line → Layout found.toList line
  /-- A line and what follows it. -/
  | line {found line ending triples text} : Line found line → LineEnd ending →
      Layout triples text → Layout (found.toList ++ triples) (line ++ ending ++ text)

/-! ## Fields -/

variable {c : Char} {cs text line blanks comment : List Char} {body : List UInt8}
  {found : Option Triple} {triples : List Triple} {value : Int}

theorem isBlank_of_isDigit (h : c.isDigit = true) : isBlank c = false := by
  obtain ⟨hlow, hhigh⟩ := isDigit_iff.1 h
  have hlow' : 48 ≤ c.toNat := hlow
  have hhigh' : c.toNat ≤ 57 := hhigh
  rw [Bool.eq_false_iff]
  intro hblank
  simp only [isBlank, blankRanges, List.any_cons, List.any_nil, Bool.or_eq_true,
    Bool.and_eq_true, decide_eq_true_eq, Bool.false_eq_true, or_false] at hblank
  omega

theorem isField_of_decimal {n : Nat} (h : Decimal cs n) : IsField cs := by
  refine ⟨h.1, ?_⟩
  intro c hc
  have hdigit := h.2.1 c hc
  refine ⟨isBlank_of_isDigit hdigit, ?_⟩
  rintro rfl
  exact absurd hdigit (by decide)

theorem IsField.cons (h : IsField cs) (hblank : isBlank c = false) (hsign : c ≠ '#') :
    IsField (c :: cs) :=
  ⟨List.cons_ne_nil c cs, List.forall_mem_cons.2 ⟨⟨hblank, hsign⟩, h.2⟩⟩

/-- The texts of numbers are fields. -/
theorem isField_of_numeral (h : Numeral cs value) : IsField cs := by
  cases h with
  | bare h => exact isField_of_decimal h
  | plus h => exact (isField_of_decimal h).cons (by decide) (by decide)
  | minus h => exact (isField_of_decimal h).cons (by decide) (by decide)

/-- A field is read as one word, up to the white space behind it. -/
theorem words_field_append (h : IsField cs) (hsome : blanks ≠ []) (hspace : IsSpace blanks)
    (rest : List Char) : words (cs ++ (blanks ++ rest)) = cs :: words rest :=
  words_word_append h.1 (fun c hc => (h.2 c hc).1) hsome (fun c hc => (hspace c hc).1) rest

theorem words_last_field (h : IsField cs) (hspace : IsSpace blanks) :
    words (cs ++ blanks) = [cs] := by
  rw [words_append_blanks fun c hc => (hspace c hc).1]
  exact words_of_forall_other h.1 fun c hc => (h.2 c hc).1

/-! ## Line ends stay out of lines -/

theorem IsField.feed_not_mem (h : IsField cs) : '\n' ∉ cs := by
  intro hmem
  have hblank : isBlank '\n' = true := by decide
  rw [(h.2 '\n' hmem).1] at hblank
  cases hblank

theorem IsSpace.feed_not_mem (h : IsSpace cs) : '\n' ∉ cs := fun hmem => (h '\n' hmem).2 rfl

theorem Comment.feed_not_mem (h : Comment cs) : '\n' ∉ cs := by
  cases h with
  | none => exact List.not_mem_nil
  | some htext =>
    rw [List.mem_cons]
    rintro (hsign | hmem)
    · exact absurd hsign (by decide)
    · exact htext hmem

theorem Line.feed_not_mem (h : Line found line) (hwritable : ∀ t ∈ found, Writable t) :
    '\n' ∉ line := by
  cases h with
  | blank hindent hcomment =>
    simp only [List.mem_append, not_or]
    exact ⟨hindent.feed_not_mem, hcomment.feed_not_mem⟩
  | edge hindent hgap _ hgap' _ hweight htrail hcomment =>
    have hfields := hwritable _ rfl
    simp only [List.mem_append, not_or]
    exact ⟨⟨hindent.feed_not_mem, hfields.left.feed_not_mem, hgap.feed_not_mem,
      hfields.right.feed_not_mem, hgap'.feed_not_mem, (isField_of_numeral hweight).feed_not_mem,
      htrail.feed_not_mem⟩, hcomment.feed_not_mem⟩

/-- A carriage return at the end of a line goes with its comment or with the
    white space in front of it. -/
theorem Comment.append_return (h : Comment comment) :
    (comment = [] ∨ Comment (comment ++ ['\r'])) := by
  cases h with
  | none => exact .inl rfl
  | some htext => exact .inr (.some (by simpa using htext))

theorem IsSpace.append_return (h : IsSpace cs) : IsSpace (cs ++ ['\r']) := by
  intro c hc
  rcases List.mem_append.1 hc with hc | hc
  · exact h c hc
  · obtain rfl := List.mem_singleton.1 hc
    decide

theorem Line.append_return (h : Line found line) : Line found (line ++ ['\r']) := by
  cases h with
  | blank hindent hcomment =>
    obtain rfl | hcomment' := hcomment.append_return
    · have h := Line.blank hindent.append_return .none
      simpa using h
    · have h := Line.blank hindent hcomment'
      simpa using h
  | edge hindent hgap hsome hgap' hsome' hweight htrail hcomment =>
    obtain rfl | hcomment' := hcomment.append_return
    · have h := Line.edge hindent hgap hsome hgap' hsome' hweight htrail.append_return .none
      simpa using h
    · have h := Line.edge hindent hgap hsome hgap' hsome' hweight htrail hcomment'
      simpa using h

/-! ## What lines state -/

/-- A comment has no part in the fields of its line. -/
theorem lineFields_append (hsign : '#' ∉ cs) (hcomment : Comment comment) :
    lineFields (cs ++ comment) = words cs := by
  have hall : ∀ c ∈ cs, decide (c ≠ '#') = true := by
    intro c hc
    rw [decide_eq_true_eq]
    rintro rfl
    exact hsign hc
  unfold lineFields
  rw [← words_eq, List.takeWhile_append_of_pos hall]
  cases hcomment with
  | none => rw [List.takeWhile_nil, List.append_nil]
  | some _ => rw [List.takeWhile_cons_of_neg (by simp), List.append_nil]

theorem IsField.not_blank (h : IsField cs) : ∀ c ∈ cs, isBlank c = false :=
  fun c hc => (h.2 c hc).1

theorem IsField.sign_not_mem (h : IsField cs) : '#' ∉ cs := fun hmem => (h.2 '#' hmem).2 rfl

theorem IsSpace.sign_not_mem (h : IsSpace cs) : '#' ∉ cs := by
  intro hmem
  have hblank := (h '#' hmem).1
  exact absurd hblank (by decide)

/-- A line states the edge that is written on it. -/
theorem Line.states (h : Line found line) (hwritable : ∀ t ∈ found, Writable t) :
    States (encode (String.ofList line)) found := by
  cases h with
  | blank hindent hcomment =>
    refine .nothing rfl ?_
    rw [lineFields_append hindent.sign_not_mem hcomment]
    exact words_blanks fun c hc => (hindent c hc).1
  | @edge t indent gap gap' weight trail comment hindent hgap hsome hgap' hsome' hweight htrail
      hcomment =>
    obtain ⟨hleft, hright, hrange⟩ := hwritable t rfl
    have hfield := isField_of_numeral hweight
    have hfields : lineFields (indent ++ (t.left.toList ++ (gap ++ (t.right.toList ++ (gap' ++
        (weight ++ trail))))) ++ comment) = [t.left.toList, t.right.toList, weight] := by
      rw [lineFields_append _ hcomment, words_blanks_append fun c hc => (hindent c hc).1,
        words_field_append hleft hsome hgap, words_field_append hright hsome' hgap',
        words_last_field hfield htrail]
      simp only [List.mem_append, not_or]
      exact ⟨hindent.sign_not_mem, hleft.sign_not_mem, hgap.sign_not_mem, hright.sign_not_mem,
        hgap'.sign_not_mem, hfield.sign_not_mem, htrail.sign_not_mem⟩
    have hstates := States.edge rfl hfields hweight hrange
    rw [String.ofList_toList, String.ofList_toList] at hstates
    exact hstates

/-- What a line states can be written. -/
theorem States.writable {bytes : List UInt8} {t : Triple} (h : States bytes (some t)) :
    Writable t := by
  cases h with
  | @edge text left right weight value _ hfields _ hrange =>
    have hfield : ∀ word ∈ lineFields text, IsField word := by
      intro word hword
      refine ⟨ne_nil_of_mem_fields hword, fun c hc => ?_⟩
      obtain ⟨hblank, hmem⟩ := not_blank_of_mem_fields hword hc
      have hsign := List.mem_takeWhile_imp hmem
      exact ⟨hblank, by simpa using hsign⟩
    rw [hfields, List.forall_mem_cons, List.forall_mem_cons] at hfield
    refine ⟨?_, ?_, hrange⟩
    · rw [String.toList_ofList]
      exact hfield.1
    · rw [String.toList_ofList]
      exact hfield.2.1

/-- What a file lists can be written. -/
theorem writable_of_enumerates {file : List (List UInt8)} (h : Enumerates file triples) :
    ∀ t ∈ triples, Writable t := by
  induction file generalizing triples with
  | nil =>
    obtain ⟨stated, hstated, rfl⟩ := h
    obtain rfl := List.forall₂_nil_left_iff.1 hstated
    exact fun t ht => absurd ht List.not_mem_nil
  | cons line file ih =>
    obtain ⟨found, later, hfound, hlater, rfl⟩ := enumerates_cons_iff.1 h
    intro t ht
    rcases List.mem_append.1 ht with ht | ht
    · obtain rfl := Option.mem_toList.1 ht
      exact hfound.writable
    · exact ih hlater t ht

/-! ## Lines of a layout -/

theorem encode_append (cs text : List Char) : encode (String.ofList (cs ++ text)) =
    encode (String.ofList cs) ++ encode (String.ofList text) := by
  rw [encode_ofList, encode_ofList, encode_ofList, List.flatMap_append]

/-- The byte of a line feed encodes a line feed, and is part of no other
    character. -/
theorem eq_of_lineFeed_mem (h : lineFeed ∈ String.utf8EncodeChar c) : c = '\n' := by
  have hmem : (10 : Nat) ∈ (String.utf8EncodeChar c).map UInt8.toNat :=
    List.mem_map_of_mem (f := UInt8.toNat) h
  have hnat : c.toNat = 10 := by
    rw [map_toNat_utf8EncodeChar] at hmem
    split_ifs at hmem <;>
      simp only [List.mem_cons, List.not_mem_nil, or_false] at hmem <;> omega
  exact Char.toNat_inj.1 hnat

theorem lineFeed_not_mem_encode (h : '\n' ∉ line) : lineFeed ∉ encode (String.ofList line) := by
  rw [encode_ofList, List.mem_flatMap]
  rintro ⟨c, hc, hmem⟩
  rw [eq_of_lineFeed_mem hmem] at hc
  exact h hc

/-- A line ends at its line feed. -/
theorem fileLines_append (h : lineFeed ∉ body) (rest : List UInt8) :
    fileLines (body ++ lineFeed :: rest) = body :: fileLines rest := by
  obtain ⟨first, later, hparts⟩ := exists_splitOn_eq_cons rest
  unfold fileLines
  rw [List.splitOn_append_cons_self_of_not_mem h, hparts, dropEmptyEnd_cons_cons]

/-- What has no line feed is one line, or nothing. -/
theorem fileLines_of_not_mem (h : lineFeed ∉ body) :
    fileLines body = if body = [] then [] else [body] := by
  unfold fileLines
  rw [List.splitOn_eq_singleton h]
  cases body <;> rfl

theorem lists_nil : Lists [] [] := ⟨[], .nil, rfl⟩

/-- A line in front adds what it states. -/
theorem lists_append {later : List UInt8} (hstates : States body found) (h : lineFeed ∉ body)
    (hlater : Lists later triples) :
    Lists (body ++ lineFeed :: later) (found.toList ++ triples) := by
  unfold Lists
  rw [fileLines_append h]
  exact enumerates_cons_iff.2 ⟨found, triples, hstates, hlater, rfl⟩

/-- A line that is not ended states what it would state otherwise. -/
theorem lists_last (hstates : States body found) (h : lineFeed ∉ body) :
    Lists body found.toList := by
  unfold Lists
  rw [fileLines_of_not_mem h]
  by_cases hbody : body = []
  -- There is no line at all, and an empty line would state nothing either.
  · subst hbody
    have hnone : readLine [] = .ok none := by decide +kernel
    rw [readLine_of_states hstates] at hnone
    obtain rfl := Except.ok.inj hnone
    rw [if_pos rfl]
    exact lists_nil
  · rw [if_neg hbody]
    exact enumerates_cons_iff.2 ⟨found, [], hstates, ⟨[], .nil, rfl⟩, (List.append_nil _).symm⟩

/-- A line with either end lists its edge in front of the others. -/
theorem lists_line {ending : List Char} (hline : Line found line)
    (hwritable : ∀ t ∈ found, Writable t) (hending : LineEnd ending)
    (hlater : Lists (encode (String.ofList text)) triples) :
    Lists (encode (String.ofList (line ++ ending ++ text))) (found.toList ++ triples) := by
  -- A carriage return is part of the line, so only one end is left.
  have hone : ∀ {line}, Line found line →
      Lists (encode (String.ofList (line ++ ['\n'] ++ text))) (found.toList ++ triples) := by
    intro line hline
    have hfeed := lineFeed_not_mem_encode (hline.feed_not_mem hwritable)
    have h := lists_append (hline.states hwritable) hfeed hlater
    have hbyte : encode (String.ofList ['\n']) = [lineFeed] := by decide +kernel
    rw [encode_append, encode_append, hbyte, List.append_assoc]
    exact h
  cases hending with
  | feed => exact hone hline
  | returnFeed =>
    have h := hone hline.append_return
    simpa using h

/-- A layout lists the edges that it is a layout of. -/
theorem Layout.lists (h : Layout triples text) (hwritable : ∀ t ∈ triples, Writable t) :
    Lists (encode (String.ofList text)) triples := by
  induction h with
  | done =>
    have hempty : encode (String.ofList []) = [] := by decide +kernel
    rw [hempty]
    exact lists_nil
  | @last found line hline =>
    have hfound : ∀ t ∈ found, Writable t := fun t ht => hwritable t (Option.mem_toList.2 ht)
    exact lists_last (hline.states hfound)
      (lineFeed_not_mem_encode (hline.feed_not_mem hfound))
  | line hline hending _ ih =>
    refine lists_line hline ?_ hending (ih ?_)
    · intro t ht
      exact hwritable t (List.mem_append_left _ (Option.mem_toList.2 ht))
    · intro t ht
      exact hwritable t (List.mem_append_right _ ht)

/-! ## The main result -/

/-- The plain layout: one space between fields, and a line feed behind each
    edge. -/
def plainText (triples : List Triple) : List Char :=
  triples.flatMap fun t =>
    t.left.toList ++ ' ' :: (t.right.toList ++ ' ' :: ((toString t.weight).toList ++ ['\n']))

theorem layout_plainText (triples : List Triple) : Layout triples (plainText triples) := by
  induction triples with
  | nil => exact .done
  | cons t triples ih =>
    have hspace : IsSpace [' '] := by decide
    have hnone : IsSpace [] := by decide
    have hline := Line.edge (t := t) hnone hspace (List.cons_ne_nil _ _) hspace
      (List.cons_ne_nil _ _) (numeral_toString t.weight) hnone .none
    have hlayout := Layout.line hline .feed ih
    unfold plainText at hlayout ⊢
    simpa using hlayout

/-- Edges whose labels are fields can be written, and whatever their layout is,
    the same list is read: its labels are those of the edges at their first
    mentions, its edges refer to them by position, and lead back to what was
    written. -/
theorem parse_undoes_writing {triples : List Triple} (hwritable : ∀ t ∈ triples, Writable t) :
    (∃ text, Layout triples text) ∧
    ∃ list, (∀ text, Layout triples text → parse (encode (String.ofList text)) = .ok list) ∧
      list.labels.toList = (triples.flatMap fun t => [t.left, t.right]).eraseDups ∧
      list.edges.toList = triples.map (fun t =>
        ⟨list.labels.toList.idxOf t.left, list.labels.toList.idxOf t.right, t.weight⟩) ∧
      list.edges.toList.map (written? list.labels.toList) = triples.map some := by
  have hlabels : (ofTriples triples).labels.toList = distinctLabels triples :=
    labels_ofTriples triples
  refine ⟨⟨_, layout_plainText triples⟩, ofTriples triples, ?_, hlabels, ?_, ?_⟩
  · intro text hlayout
    exact parse_eq_ok_iff.2 ⟨triples, hlayout.lists hwritable, rfl⟩
  · rw [edges_ofTriples, hlabels]
    rfl
  · rw [edges_ofTriples, hlabels, List.map_map]
    apply List.map_congr_left
    intro t ht
    exact written?_numbered ht

/-- A loop and both extreme weights, written with wide spaces, comments, a
    carriage return and no final line feed. -/
theorem parse_undoes_writing_of_extremes :
    let triples : List Triple :=
      [⟨"a", "é", -9223372036854775808⟩, ⟨"é", "é", 9223372036854775807⟩]
    let text := "\u00a0a\té  -9223372036854775808 # far\r\n\t# none\n\né é +09223372036854775807\r"
    (∀ t ∈ triples, Writable t) ∧ Layout triples text.toList ∧
      ∃ list, parse (encode text) = .ok list ∧ list.labels.toList = ["a", "é"] ∧
        list.edges.toList.map (written? ["a", "é"]) = triples.map some := by
  intro triples text
  have ha : IsField "a".toList := by decide
  have he : IsField "é".toList := by decide
  have hwritable : ∀ t ∈ triples, Writable t := by
    intro t ht
    rcases List.mem_pair.1 ht with rfl | rfl
    · exact ⟨ha, he, by decide⟩
    · exact ⟨he, he, by decide⟩
  have hlow : Numeral "-9223372036854775808".toList (-9223372036854775808) :=
    .minus (n := 9223372036854775808) (by decide)
  have hhigh : Numeral "+09223372036854775807".toList 9223372036854775807 :=
    .plus (n := 9223372036854775807) (by decide)
  have hfirst := @Line.edge ⟨"a", "é", -9223372036854775808⟩ ['\u00a0'] ['\t'] [' ', ' '] _ [' ']
    "# far".toList (by decide) (by decide) (by decide) (by decide) (by decide) hlow (by decide)
    (.some (by decide))
  have hcomment := @Line.blank ['\t'] "# none".toList (by decide) (.some (by decide))
  have hempty := @Line.blank [] [] (by decide) .none
  have hlast := @Line.edge ⟨"é", "é", 9223372036854775807⟩ [] [' '] [' '] _ ['\r'] []
    (by decide) (by decide) (by decide) (by decide) (by decide) hhigh (by decide) .none
  have hlayout : Layout triples text.toList := by
    have hlines := Layout.line hfirst .returnFeed
      (.line hcomment .feed (.line hempty .feed (.last hlast)))
    refine cast (congrArg (Layout triples) ?_) hlines
    unfold text
    decide +kernel
  obtain ⟨-, list, hparse, hlabels, -, hwritten⟩ := parse_undoes_writing hwritable
  have hread := hparse _ hlayout
  rw [String.ofList_toList] at hread
  have hdistinct : list.labels.toList = ["a", "é"] := by
    rw [hlabels]
    decide
  rw [hdistinct] at hwritten
  exact ⟨hwritable, hlayout, list, hread, hdistinct, hwritten⟩

end SpanForest.EdgeList
