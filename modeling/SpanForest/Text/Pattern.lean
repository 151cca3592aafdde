/-! # Patterns of text

    A pattern is looked for in a text from left to right. Of all ways to match
    it the first is taken in the order of preference that the pattern states:
    an earlier place before a later one, an earlier alternative before a later
    one, and one more repetition before none (or after it, when the repetition
    is reluctant). The search ends as soon as no way remains that is preferred
    to one that has been completed.

    * **`Pattern`**: the forms of patterns.
    * **`Pattern.read?`**: a pattern from its notation.
    * **`Pattern.matchesToEnd`**: whether the search completes at the very end
      of a text.
-/

namespace SpanForest.Text

/-! ## Forms -/

/-- A pattern. -/
inductive Pattern where
  /-- Nothing. -/
  | empty
  /-- The beginning of the text. -/
  | beginning
  /-- The end of the text. -/
  | ending
  /-- A character within one of the ranges, or outside all of them. -/
  | character (ranges : List (Char × Char)) (negated : Bool)
  /-- One pattern behind another. -/
  | sequence (first second : Pattern)
  /-- The first pattern, or else the second. -/
  | choice (preferred other : Pattern)
  /-- Any number of repetitions: as many as possible, or when `reluctant` as
      few as possible. -/
  | repetition (body : Pattern) (reluctant : Bool)
deriving DecidableEq

namespace Pattern

/-- A single character. -/
def literal (c : Char) : Pattern := .character [(c, c)] false

/-- Any character other than the line feed. -/
def anyCharacter : Pattern := .character [('\n', '\n')] true

/-- A pattern that may be left out. -/
def optional (p : Pattern) (reluctant : Bool) : Pattern :=
  if reluctant then .choice .empty p else .choice p .empty

/-- One repetition or more. -/
def oneOrMore (p : Pattern) (reluctant : Bool) : Pattern :=
  .sequence p (.repetition p reluctant)

/-! ## Searching -/

/-- Whether a character is within one of the ranges, or outside all of them. -/
def admits (ranges : List (Char × Char)) (negated : Bool) (c : Char) : Bool :=
  ranges.any (fun range => range.1 ≤ c && c ≤ range.2) != negated

/-- How a pattern can begin at some place of a text. -/
inductive Start where
  /-- It is complete at that place. -/
  | complete
  /-- A character is read, and the rest must follow. -/
  | reads (ranges : List (Char × Char)) (negated : Bool) (rest : Pattern)
deriving DecidableEq

/-- Where a place is in its text. -/
structure Place where
  /-- No character lies before it. -/
  atBeginning : Bool
  /-- No character lies behind it. -/
  atEnd : Bool
deriving DecidableEq

/-- The ways in which a pattern can begin at a place, in the order of
    preference. -/
def starts (place : Place) : Pattern → List Start
  | .empty => [.complete]
  | .beginning => if place.atBeginning then [.complete] else []
  | .ending => if place.atEnd then [.complete] else []
  | .character ranges negated => [.reads ranges negated .empty]
  | .sequence first second =>
    (starts place first).flatMap fun
      | .complete => starts place second
      | .reads ranges negated rest => [.reads ranges negated (.sequence rest second)]
  | .choice preferred other => starts place preferred ++ starts place other
  | .repetition body reluctant =>
    -- A repetition that reads nothing is the last one.
    let again := (starts place body).map fun
      | .complete => .complete
      | .reads ranges negated rest =>
        .reads ranges negated (.sequence rest (.repetition body reluctant))
    if reluctant then .complete :: again else again ++ [.complete]

/-- What must follow a character for a way of beginning to lead on. -/
def Start.follow (c : Char) : Start → Option Pattern
  | .complete => none
  | .reads ranges negated rest => if admits ranges negated c then some rest else none

/-- The ways to go on with a search at a place: first those under way, then,
    while nothing has been completed, a new beginning. -/
def continuations (p : Pattern) (place : Place) (searching : Bool) (underWay : List Pattern) :
    List Start :=
  (underWay ++ if searching then [p] else []).flatMap (starts place)

/-- Goes on with a search, given what is under way in the order of preference,
    and whether a new beginning may still be made. A completed match hides
    everything less preferred. -/
def search (p : Pattern) (atBeginning searching : Bool) (underWay : List Pattern) :
    List Char → Bool
  | [] => (continuations p ⟨atBeginning, true⟩ searching underWay).contains .complete
  | c :: rest =>
    let ways := continuations p ⟨atBeginning, false⟩ searching underWay
    let preferred := ways.takeWhile (· != .complete)
    search p false (searching && !ways.contains .complete)
      (preferred.filterMap (Start.follow c)).eraseDups rest

/-- Whether the search for a pattern completes at the end of a text. -/
def matchesToEnd (p : Pattern) (s : String) : Bool :=
  search p true true [] s.toList

/-! ## Notation -/

/-- A part of the notation of a pattern. -/
inductive Mark where
  /-- A pattern on its own. -/
  | unit (p : Pattern)
  /-- An opening parenthesis. -/
  | opens
  /-- A closing parenthesis. -/
  | closes
  /-- The bar between alternatives. -/
  | bar
  /-- A sign that repeats the pattern before it. -/
  | repeats (form : Pattern → Pattern)

/-- A part of the notation of a set of characters. -/
inductive Member where
  /-- A character. -/
  | char (c : Char)
  /-- The dash of a range. -/
  | dash
deriving DecidableEq

/-- A set of characters under way. -/
structure CharacterSet where
  /-- Whether the characters are meant that are not written. -/
  negated : Bool := false
  /-- What has been written, the last part first. -/
  members : List Member := []
deriving DecidableEq

/-- The ranges of the members of a set. A dash with no character before it, or
    none behind it, stands for itself. -/
def ranges? : List Member → Option (List (Char × Char))
  | [] => some []
  | .char low :: .dash :: .char high :: rest =>
    if low ≤ high then (ranges? rest).map ((low, high) :: ·) else none
  | .char c :: rest => (ranges? rest).map ((c, c) :: ·)
  | .dash :: rest => (ranges? rest).map (('-', '-') :: ·)

/-- The pattern of a set of characters. -/
def CharacterSet.pattern? (set : CharacterSet) : Option Pattern :=
  (ranges? set.members.reverse).map (.character · set.negated)

/-- The character that is meant by a character behind a backslash: a control
    by its letter, a sign by itself. -/
def escaped? (c : Char) : Option Char :=
  match c with
  | 'a' => some '\x07'
  | 'f' => some '\x0c'
  | 'n' => some '\n'
  | 'r' => some '\r'
  | 't' => some '\t'
  | 'v' => some '\x0b'
  | c => if '!' ≤ c && c ≤ '~' && !c.isAlphanum && c != '<' && c != '>' then some c else none

/-- The pattern that is meant by a character behind a backslash. -/
def escapedPattern? (c : Char) : Option Pattern :=
  match c with
  | 'A' => some .beginning
  | 'z' => some .ending
  | c => (escaped? c).map literal

/-- The mark of a character on its own. The sign that opens a counted
    repetition is refused, since there are none. -/
def mark? (c : Char) : Option Mark :=
  match c with
  | '(' => some .opens
  | ')' => some .closes
  | '|' => some .bar
  | '*' => some (.repeats (.repetition · false))
  | '+' => some (.repeats (oneOrMore · false))
  | '?' => some (.repeats (optional · false))
  | '.' => some (.unit anyCharacter)
  | '^' => some (.unit .beginning)
  | '$' => some (.unit .ending)
  | '\\' | '\x7b' => none
  | c => some (.unit (literal c))

/-- The marks of a notation, outside of a set of characters or within one. -/
def marks? : Option CharacterSet → List Char → Option (List Mark)
  | none, [] => some []
  | none, '\\' :: c :: rest => do
    let p ← escapedPattern? c
    (marks? none rest).map (.unit p :: ·)
  | none, '[' :: '^' :: rest => marks? (some { negated := true }) rest
  | none, '[' :: rest => marks? (some {}) rest
  | none, '(' :: '?' :: ':' :: rest => (marks? none rest).map (.opens :: ·)
  | none, '(' :: '?' :: _ => none
  | none, '*' :: '?' :: rest => (marks? none rest).map (.repeats (.repetition · true) :: ·)
  | none, '+' :: '?' :: rest => (marks? none rest).map (.repeats (oneOrMore · true) :: ·)
  | none, '?' :: '?' :: rest => (marks? none rest).map (.repeats (optional · true) :: ·)
  | none, c :: rest => do
    let mark ← mark? c
    (marks? none rest).map (mark :: ·)
  | some _, [] => none
  | some set, '\\' :: c :: rest => do
    let c ← escaped? c
    marks? (some { set with members := .char c :: set.members }) rest
  | some set, c :: rest =>
    if c = ']' && !set.members.isEmpty then do
      let p ← set.pattern?
      (marks? none rest).map (.unit p :: ·)
    else if c = '\\' || c = '[' then none
    else
      let member := if c = '-' then Member.dash else .char c
      marks? (some { set with members := member :: set.members }) rest

/-! ## Building -/

/-- The pattern of a group under way. -/
structure Group where
  /-- The alternatives in front of the current one. -/
  earlier : Option Pattern := none
  /-- The parts of the current alternative, the last one first. -/
  parts : List Pattern := []
deriving DecidableEq

namespace Group

/-- Appends a part to the current alternative. -/
def push (g : Group) (p : Pattern) : Group := { g with parts := p :: g.parts }

/-- The pattern of a group. -/
def pattern (g : Group) : Pattern :=
  let current := g.parts.foldl (fun behind p => .sequence p behind) .empty
  g.earlier.elim current (.choice · current)

end Group

/-- The pattern of marks, given the group under way and the groups around it,
    the innermost first. Every group must be closed, and a sign that repeats
    must have something to repeat. -/
def build? (g : Group) (outer : List Group) : List Mark → Option Pattern
  | [] => if outer.isEmpty then some g.pattern else none
  | .unit p :: rest => build? (g.push p) outer rest
  | .opens :: rest => build? {} (g :: outer) rest
  | .closes :: rest =>
    match outer with
    | [] => none
    | next :: outer => build? (next.push g.pattern) outer rest
  | .bar :: rest => build? { earlier := some g.pattern } outer rest
  | .repeats form :: rest =>
    match g.parts with
    | [] => none
    | p :: parts => build? { g with parts := form p :: parts } outer rest

/-- Reads the notation of a pattern. -/
def read? (written : List Char) : Option Pattern := do
  build? {} [] (← marks? none written)

end Pattern

end SpanForest.Text
