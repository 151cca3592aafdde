import SpanForest.Proofs.Linking.Components

/-! # The history of a partition

    A partition begins empty, and two requests change it: one issues a handle,
    the other merges two classes. What it answers afterwards depends on the
    whole list of requests, its *history*, and can be said without a word
    about links and ranks.

    * **`Request`**, **`Response`**: the requests and the answers to them;
      **`replay`**, **`responses`**: where a history leads, and what it is
      answered.
    * **`Honours`**: a history honours a merge when both handles had been issued
      by then. A merge that came too early is not made up for later.
    * **`related`**: the equivalence closure of the merges that are honoured.
    * **`Accounts`**: the relation between a history, the answers to it and the
      partition, which every request keeps.
    * **`replay_decides_connectivity`**: the main result.
-/

namespace SpanForest

namespace Partition

/-! ## Requests -/

/-- A request that may change a partition. -/
inductive Request where
  /-- Issue one more handle. -/
  | makeSet
  /-- Merge the classes of two handles. -/
  | union (a b : NodeId)
deriving DecidableEq

/-- The answer to a request. -/
inductive Response where
  /-- The handle that was issued. -/
  | issued (x : NodeId)
  /-- Whether two classes were merged. -/
  | merged (joined : Bool)
deriving DecidableEq

/-- The partition after a request. -/
def perform (p : Partition) : Request → Partition
  | .makeSet => p.makeSet
  | .union a b => p.union a b

/-- The answer that a partition gives to a request. -/
def respond (p : Partition) : Request → Response
  | .makeSet => .issued p.nextId
  | .union a b => .merged (p.joins a b)

/-- The partition after one request after another. -/
def replay (p : Partition) (history : List Request) : Partition :=
  history.foldl perform p

/-- The answers to one request after another. -/
def responses (p : Partition) : List Request → List Response
  | [] => []
  | request :: rest => p.respond request :: (p.perform request).responses rest

variable {p : Partition} {history first later : List Request} {request : Request}
  {answers : List Response} {a b x y : NodeId}

theorem replay_concat (p : Partition) (history : List Request) (request : Request) :
    p.replay (history ++ [request]) = (p.replay history).perform request := by
  simp [replay]

theorem responses_append (p : Partition) (first later : List Request) :
    p.responses (first ++ later) = p.responses first ++ (p.replay first).responses later := by
  induction first generalizing p with
  | nil => rfl
  | cons request first ih => simp [responses, replay, ih]

@[simp] theorem length_responses (p : Partition) (history : List Request) :
    (p.responses history).length = history.length := by
  induction history generalizing p with
  | nil => rfl
  | cons request history ih => simp [responses, ih]

/-- Each request is answered by the partition that it meets. -/
theorem getElem?_responses (p : Partition) (before after : List Request) (request : Request) :
    (p.responses (before ++ request :: after))[before.length]? =
      some ((p.replay before).respond request) := by
  rw [responses_append, List.getElem?_append_right (by simp)]
  simp [responses]

/-! ## What a history relates -/

/-- How many handles a history issues. -/
def issues (history : List Request) : Nat := history.count .makeSet

@[simp] theorem issues_concat_makeSet (history : List Request) :
    issues (history ++ [.makeSet]) = issues history + 1 := by
  simp [issues]

@[simp] theorem issues_concat_union (history : List Request) (a b : NodeId) :
    issues (history ++ [.union a b]) = issues history := by
  simp [issues]

/-- The history merges these two handles at a time when it had issued both. -/
def Honours (history : List Request) (a b : NodeId) : Prop :=
  ∃ before after, history = before ++ .union a b :: after ∧
    a.index < issues before ∧ b.index < issues before

/-- The equivalence closure of the merges that a history honours. -/
def related (history : List Request) : Setoid NodeId :=
  Relation.EqvGen.setoid (Honours history)

theorem related_of_honours (h : Honours history a b) : related history a b :=
  .rel a b h

theorem not_honours_nil : ¬ Honours [] a b := by
  intro h
  obtain ⟨before, after, hsplit, -⟩ := h
  simp at hsplit

/-- One more request honours what was honoured before, and possibly itself. -/
theorem honours_concat : Honours (history ++ [request]) x y ↔ Honours history x y ∨
    (request = .union x y ∧ x.index < issues history ∧ y.index < issues history) := by
  constructor
  · intro h
    obtain ⟨before, after, hsplit, hx, hy⟩ := h
    rcases List.eq_nil_or_concat after with rfl | ⟨middle, last, rfl⟩
    · obtain ⟨rfl, hlast⟩ := List.append_inj' hsplit rfl
      exact .inr ⟨by simpa using hlast, hx, hy⟩
    · have hsplit' : history ++ [request] = (before ++ .union x y :: middle) ++ [last] := by
        simpa using hsplit
      obtain ⟨rfl, -⟩ := List.append_inj' hsplit' rfl
      exact .inl ⟨before, middle, rfl, hx, hy⟩
  · intro h
    rcases h with ⟨before, after, rfl, hx, hy⟩ | ⟨rfl, hx, hy⟩
    · exact ⟨before, after ++ [request], by simp, hx, hy⟩
    · exact ⟨history, [], rfl, hx, hy⟩

theorem related_nil : related [] = ⊥ := by
  apply le_antisymm _ bot_le
  exact Setoid.eqvGen_le fun x y h => absurd h not_honours_nil

/-- A request that is not honoured relates nothing. -/
theorem related_concat_of_not_honoured
    (h : ∀ x y, request = .union x y → ¬ (x.index < issues history ∧ y.index < issues history)) :
    related (history ++ [request]) = related history := by
  have hsame : Honours (history ++ [request]) = Honours history := by
    funext x y
    have hnot := h x y
    rw [honours_concat]
    simp only [eq_iff_iff]
    tauto
  rw [related, hsame, related]

/-- A merge that is honoured joins the classes of its two handles. -/
theorem related_concat_of_honoured (ha : a.index < issues history) (hb : b.index < issues history) :
    related (history ++ [.union a b]) = joined (related history) a b := by
  apply le_antisymm
  · apply Setoid.eqvGen_le
    intro x y hxy
    rcases honours_concat.1 hxy with hold | ⟨hnew, -, -⟩
    · exact .inl (related_of_honours hold)
    · obtain ⟨rfl, rfl⟩ := Request.union.inj hnew
      exact .inr (.inl ⟨(related history).refl' a, (related history).refl' b⟩)
  · apply joined_le_iff.2
    refine ⟨Setoid.eqvGen_le fun x y hxy => ?_, ?_⟩
    · exact related_of_honours (honours_concat.2 (.inl hxy))
    · exact related_of_honours (honours_concat.2 (.inr ⟨rfl, ha, hb⟩))

/-! ## Keeping account -/

/-- The history accounts for the partition and for the answers given. -/
structure Accounts (history : List Request) (answers : List Response) (p : Partition) :
    Prop where
  /-- Every handle is represented. -/
  wellLinked : p.WellLinked
  /-- As many handles were issued as requested. -/
  size_eq : p.size = issues history
  /-- The classes are what the history relates. -/
  classes_eq : p.classes = related history
  /-- Each merge that was answered with yes took away one class. -/
  count_eq : p.componentCount + answers.count (.merged true) = p.size

namespace Accounts

theorem nil : Accounts [] [] empty where
  wellLinked := wellLinked_empty
  size_eq := rfl
  classes_eq := by rw [classes_empty, related_nil]
  count_eq := rfl

theorem issued_iff (h : Accounts history answers p) : p.Issued x ↔ x.index < issues history := by
  rw [Issued, h.size_eq]

/-- A merge is answered with yes when it is honoured and joins two classes. -/
theorem joins_iff (h : Accounts history answers p) : p.joins a b = true ↔
    a.index < issues history ∧ b.index < issues history ∧ ¬ related history a b := by
  rw [h.wellLinked.joins_iff, h.issued_iff, h.issued_iff, ← h.classes_eq, classes_iff]

theorem makeSet (h : Accounts history answers p) :
    Accounts (history ++ [.makeSet]) (answers ++ [p.respond .makeSet]) p.makeSet where
  wellLinked := h.wellLinked.makeSet
  size_eq := by
    rw [size_makeSet, issues_concat_makeSet, h.size_eq]
  classes_eq := by
    rw [h.wellLinked.classes_makeSet, h.classes_eq, related_concat_of_not_honoured]
    intro x y heq
    cases heq
  count_eq := by
    have hcount := h.count_eq
    simp only [respond, List.count_append, componentCount_makeSet, size_makeSet]
    simp
    omega

theorem union (h : Accounts history answers p) (a b : NodeId) :
    Accounts (history ++ [.union a b]) (answers ++ [p.respond (.union a b)]) (p.union a b) where
  wellLinked := h.wellLinked.union a b
  size_eq := by
    rw [size_union, issues_concat_union, h.size_eq]
  classes_eq := by
    by_cases hissued : a.index < issues history ∧ b.index < issues history
    · obtain ⟨ha, hb⟩ := hissued
      rw [related_concat_of_honoured ha hb, ← h.classes_eq]
      exact h.wellLinked.classes_union_eq_joined (h.issued_iff.2 ha) (h.issued_iff.2 hb)
    · have hforeign : ¬ p.Issued a ∨ ¬ p.Issued b := by
        rw [h.issued_iff, h.issued_iff]
        exact not_and_or.1 hissued
      rw [union_of_not_issued hforeign, h.classes_eq, related_concat_of_not_honoured]
      intro x y heq
      obtain ⟨rfl, rfl⟩ := Request.union.inj heq
      exact hissued
  count_eq := by
    have hcount := h.count_eq
    rw [size_union, respond, List.count_append]
    cases hjoins : p.joins a b with
    | false =>
      rw [h.wellLinked.union_of_not_joins hjoins]
      simpa using hcount
    | true =>
      have hfewer := h.wellLinked.componentCount_union hjoins
      simp
      omega

theorem perform (h : Accounts history answers p) (request : Request) :
    Accounts (history ++ [request]) (answers ++ [p.respond request]) (p.perform request) := by
  cases request with
  | makeSet => exact h.makeSet
  | union a b => exact h.union a b

end Accounts

theorem accounts_replay (history : List Request) :
    Accounts history (empty.responses history) (empty.replay history) := by
  induction history using List.reverseRecOn with
  | nil => exact .nil
  | append_singleton history request ih =>
    rw [replay_concat, responses_append]
    exact ih.perform request

/-! ## The main result -/

/-- After any history, two handles are in one class just when the history
    relates them. A merge was answered with yes when both handles had been
    issued and nothing had related them yet. The classes of the issued handles
    are counted correctly: there are as many as handles, less the merges that
    were answered with yes. -/
theorem replay_decides_connectivity (history : List Request) :
    (∀ x y, (empty.replay history).sameSet x y = true ↔ related history x y) ∧
    (∀ before after, history = before ++ .makeSet :: after →
      (empty.responses history)[before.length]? = some (.issued ⟨issues before⟩)) ∧
    (∀ before a b after, history = before ++ .union a b :: after →
      ∃ joined, (empty.responses history)[before.length]? = some (.merged joined) ∧
        (joined = true ↔
          a.index < issues before ∧ b.index < issues before ∧ ¬ related before a b)) ∧
    (empty.replay history).size = issues history ∧
    (empty.replay history).componentCount = classCount (related history) (issues history) ∧
    (empty.replay history).componentCount + (empty.responses history).count (.merged true) =
      issues history := by
  have hlast := accounts_replay history
  refine ⟨?_, ?_, ?_, hlast.size_eq, ?_, ?_⟩
  · intro x y
    rw [sameSet_iff, hlast.classes_eq]
  · intro before after hsplit
    subst hsplit
    have hthen := accounts_replay before
    rw [getElem?_responses, respond, nextId, hthen.size_eq]
  · intro before a b after hsplit
    subst hsplit
    have hthen := accounts_replay before
    exact ⟨_, getElem?_responses empty before after _, hthen.joins_iff⟩
  · rw [hlast.wellLinked.componentCount_eq_classCount, hlast.classes_eq, hlast.size_eq]
  · rw [hlast.count_eq, hlast.size_eq]

/-- The first merge comes before one of its handles is issued, and stays
    without effect. -/
theorem replay_decides_connectivity_of_early_merge :
    let history : List Request :=
      [.makeSet, .union ⟨0⟩ ⟨1⟩, .makeSet, .makeSet, .union ⟨1⟩ ⟨2⟩]
    ¬ related history ⟨0⟩ ⟨1⟩ ∧ related history ⟨1⟩ ⟨2⟩ ∧
      classCount (related history) (issues history) = 2 := by
  intro history
  obtain ⟨hsame, -, -, -, hcount, -⟩ := replay_decides_connectivity history
  have hapart : (empty.replay history).sameSet ⟨0⟩ ⟨1⟩ = false := by decide
  have hjoined : (empty.replay history).sameSet ⟨1⟩ ⟨2⟩ = true := by decide
  have htwo : (empty.replay history).componentCount = 2 := by decide
  refine ⟨?_, (hsame _ _).1 hjoined, hcount.symm.trans htwo⟩
  rw [← hsame, hapart]
  exact Bool.false_ne_true

end Partition

end SpanForest
