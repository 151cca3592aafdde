import Mathlib.Data.List.Induction
import Mathlib.Data.List.Nodup
import Mathlib.Data.List.TakeWhile
import SpanForest.Trace.Recorder

/-! # Histories of spans and events

    Spans open, are given values and close in any interleaving, and events
    happen in between. What a span has been given, and in which order spans have
    closed, can be told from this history alone.

    * **`Life`**: a span of a history, and what happens after it has opened.
    * **`Opens`**, **`Closed`**, **`ClosesBefore`**: spans by number, and
      **`ClosingOrder`**: all that have closed.
    * **`Life.given`**: the values of a span up to its closing.
    * What one action more adds to all this.
-/

namespace SpanForest.Recorder

/-- A span, and what happens after it has opened. -/
structure Life where
  /-- The name of the span. -/
  name : String
  /-- The fields that it declares. -/
  declared : List String
  /-- The values that it opens with. -/
  fields : Fields
  /-- What happens after it has opened, in other spans as well. -/
  later : List Action

variable {h : List Action} {a : Action} {n m : Nat} {l : Life} {closed : List Nat}

/-! ## Histories -/

/-- Whether a span opens. -/
def Action.opens : Action → Bool
  | .openSpan .. => true
  | _ => false

/-- The number of spans that have opened. -/
def openedCount (h : List Action) : Nat := h.countP Action.opens

/-- The span of a number: as many spans have opened before. -/
def Opens (h : List Action) (n : Nat) (l : Life) : Prop :=
  ∃ before, h = before ++ .openSpan l.name l.declared l.fields :: l.later ∧
    openedCount before = n

/-- A span has closed: its number is closed after it has opened. -/
def Closed (h : List Action) (n : Nat) : Prop :=
  ∃ l, Opens h n l ∧ .close n ∈ l.later

/-- At some time the first span had closed and the second had not. -/
def ClosesBefore (h : List Action) (n m : Nat) : Prop :=
  ∃ before, before <+: h ∧ Closed before n ∧ ¬ Closed before m

/-- All closed spans, each of them once, in the order of closing. -/
structure ClosingOrder (h : List Action) (closed : List Nat) : Prop where
  nodup : closed.Nodup
  mem_iff : ∀ n, n ∈ closed ↔ Closed h n
  ordered : closed.Pairwise (ClosesBefore h)

/-- The value that an action gives to a span. Fields that the span does not
    declare get none. -/
def gift? (n : Nat) (declared : List String) : Action → Option (String × Value)
  | .record number field value =>
    if number = n ∧ field ∈ declared then some (field, value) else none
  | _ => none

/-- The values that a span is given as it opens, and then until it closes. -/
def Life.given (l : Life) (n : Nat) : Fields :=
  l.fields ++ (l.later.takeWhile (· ≠ .close n)).filterMap (gift? n l.declared)

/-! ## One action more -/

/-- A span after one action more. -/
def Life.extend (l : Life) (a : Action) : Life := { l with later := l.later ++ [a] }

theorem Life.close_mem_extend :
    .close n ∈ (l.extend a).later ↔ .close n ∈ l.later ∨ a = .close n := by
  rw [Life.extend, List.mem_append, List.mem_singleton, eq_comm (a := a)]

theorem openedCount_concat (h : List Action) (a : Action) :
    openedCount (h ++ [a]) = openedCount h + if a.opens then 1 else 0 := by
  rw [openedCount, List.countP_append, List.countP_singleton]
  rfl

theorem Opens.lt (hopens : Opens h n l) : n < openedCount h := by
  obtain ⟨before, rfl, rfl⟩ := hopens
  rw [openedCount, openedCount, List.countP_append, List.countP_cons_of_pos rfl]
  omega

theorem Opens.extend (hopens : Opens h n l) (a : Action) : Opens (h ++ [a]) n (l.extend a) := by
  obtain ⟨before, rfl, hcount⟩ := hopens
  exact ⟨before, by simp [Life.extend], hcount⟩

/-- A span opened before the last action, or by it. -/
theorem opens_concat_cases (hopens : Opens (h ++ [a]) n l) :
    (∃ l', Opens h n l' ∧ l = l'.extend a) ∨
    (a = .openSpan l.name l.declared l.fields ∧ l.later = [] ∧ openedCount h = n) := by
  obtain ⟨before, hsplit, hcount⟩ := hopens
  -- The last action is the opening itself, or the last of those after it.
  obtain hnil | ⟨rest, last, hlater⟩ := l.later.eq_nil_or_concat
  · rw [hnil] at hsplit
    obtain ⟨rfl, hlast⟩ := List.append_inj' hsplit rfl
    exact .inr ⟨List.singleton_injective hlast, hnil, hcount⟩
  · rw [hlater, List.concat_eq_append, ← List.cons_append, ← List.append_assoc] at hsplit
    obtain ⟨hbefore, hlast⟩ := List.append_inj' hsplit rfl
    obtain rfl := List.singleton_injective hlast
    refine .inl ⟨{ l with later := rest }, ⟨before, hbefore, hcount⟩, ?_⟩
    rw [Life.extend, ← List.concat_eq_append, ← hlater]

/-- There is one span of a number. -/
theorem Opens.unique {l' : Life} (hl : Opens h n l) (hl' : Opens h n l') : l = l' := by
  induction h using List.reverseRecOn generalizing l l' with
  | nil => exact absurd hl.lt (Nat.not_lt_zero n)
  | append_singleton h a ih =>
    obtain ⟨k, hk, rfl⟩ | ⟨ha, hnil, hcount⟩ := opens_concat_cases hl
    · obtain ⟨k', hk', rfl⟩ | ⟨-, -, hcount⟩ := opens_concat_cases hl'
      · rw [ih hk hk']
      · exact absurd hk.lt hcount.not_gt
    · obtain ⟨k', hk', rfl⟩ | ⟨ha', hnil', -⟩ := opens_concat_cases hl'
      · exact absurd hk'.lt hcount.not_gt
      · obtain ⟨name, declared, fields, later⟩ := l
        obtain ⟨name', declared', fields', later'⟩ := l'
        obtain ⟨rfl, rfl, rfl⟩ := Action.openSpan.inj (ha.symm.trans ha')
        rw [show later = [] from hnil, show later' = [] from hnil']

theorem exists_opens (hn : n < openedCount h) : ∃ l, Opens h n l := by
  induction h using List.reverseRecOn with
  | nil => exact absurd hn (Nat.not_lt_zero n)
  | append_singleton h a ih =>
    by_cases hlt : n < openedCount h
    · obtain ⟨l, hl⟩ := ih hlt
      exact ⟨_, hl.extend a⟩
    · rw [openedCount_concat] at hn
      cases a with
      | openSpan name declared fields =>
        have hn : n < openedCount h + 1 := hn
        exact ⟨⟨name, declared, fields, []⟩, h, rfl, by omega⟩
      | record | close | event => exact absurd hn hlt

/-- A closing closes a span that has opened. -/
theorem closed_concat_iff :
    Closed (h ++ [a]) n ↔ Closed h n ∨ a = .close n ∧ n < openedCount h := by
  constructor
  · rintro ⟨l, hopens, hclose⟩
    obtain ⟨l', hl', rfl⟩ | ⟨-, hnil, -⟩ := opens_concat_cases hopens
    · obtain hclose | rfl := Life.close_mem_extend.1 hclose
      · exact .inl ⟨l', hl', hclose⟩
      · exact .inr ⟨rfl, hl'.lt⟩
    · rw [hnil] at hclose
      exact absurd hclose List.not_mem_nil
  · rintro (⟨l, hopens, hclose⟩ | ⟨rfl, hn⟩)
    · exact ⟨_, hopens.extend a, Life.close_mem_extend.2 (.inl hclose)⟩
    · obtain ⟨l, hopens⟩ := exists_opens hn
      exact ⟨_, hopens.extend _, Life.close_mem_extend.2 (.inr rfl)⟩

theorem ClosesBefore.concat (hbefore : ClosesBefore h n m) (a : Action) :
    ClosesBefore (h ++ [a]) n m := by
  obtain ⟨before, hprefix, hclosed⟩ := hbefore
  exact ⟨before, hprefix.trans (List.prefix_append h [a]), hclosed⟩

/-- An action that closes no span leaves the order. -/
theorem ClosingOrder.concat (horder : ClosingOrder h closed)
    (hsame : ∀ n, a = .close n → n < openedCount h → Closed h n) :
    ClosingOrder (h ++ [a]) closed where
  nodup := horder.nodup
  mem_iff n := by
    rw [closed_concat_iff, horder.mem_iff, iff_self_or]
    exact fun ⟨hclose, hn⟩ => hsame n hclose hn
  ordered := horder.ordered.imp fun hbefore => hbefore.concat a

/-- A span that is closed is the last one so far. -/
theorem ClosingOrder.close (horder : ClosingOrder h closed) (hn : n < openedCount h)
    (hopen : ¬ Closed h n) : ClosingOrder (h ++ [.close n]) (closed ++ [n]) where
  nodup := by
    rw [← List.concat_eq_append]
    exact horder.nodup.concat (mt (horder.mem_iff n).1 hopen)
  mem_iff k := by
    rw [List.mem_append, List.mem_singleton, closed_concat_iff, horder.mem_iff]
    constructor
    · rintro (hk | rfl)
      · exact .inl hk
      · exact .inr ⟨rfl, hn⟩
    · rintro (hk | ⟨hclose, -⟩)
      · exact .inl hk
      · exact .inr (Action.close.inj hclose).symm
  ordered := by
    rw [List.pairwise_append]
    refine ⟨horder.ordered.imp fun hbefore => hbefore.concat _, List.pairwise_singleton .., ?_⟩
    intro k hk last hlast
    obtain rfl := List.mem_singleton.1 hlast
    exact ⟨h, List.prefix_append .., (horder.mem_iff k).1 hk, hopen⟩

/-! ## What a span is given -/

/-- A closed span is given nothing any more. -/
theorem Life.given_extend_of_mem (hclose : .close n ∈ l.later) (a : Action) :
    (l.extend a).given n = l.given n := by
  -- The values stop at the closing, so they do not reach the end of the history.
  have hstop : (l.later.takeWhile (· ≠ .close n)).length ≠ l.later.length := by
    intro hlength
    have hself := List.takeWhile_eq_self_iff.1
      ((List.takeWhile_prefix _).eq_of_length hlength) _ hclose
    exact absurd rfl (of_decide_eq_true hself)
  unfold Life.given Life.extend
  rw [List.takeWhile_append, if_neg hstop]

/-- An open span is given the value that an action has for it. -/
theorem Life.given_extend_of_not_mem (hopen : .close n ∉ l.later) (a : Action) :
    (l.extend a).given n = l.given n ++ (gift? n l.declared a).toList := by
  have hall : ∀ b ∈ l.later, decide (b ≠ .close n) = true := by
    intro b hb
    rw [decide_eq_true_eq]
    rintro rfl
    exact hopen hb
  have hone : ([a].takeWhile (· ≠ .close n)).filterMap (gift? n l.declared) =
      (gift? n l.declared a).toList := by
    by_cases ha : a = .close n
    · subst ha
      simp [gift?]
    · have hstep : decide (a ≠ .close n) = true := decide_eq_true ha
      have hself : [a].takeWhile (· ≠ .close n) = [a] :=
        List.takeWhile_eq_self_iff.2 (List.forall_mem_singleton.2 hstep)
      rw [hself, List.filterMap_cons]
      cases gift? n l.declared a <;> rfl
  unfold Life.given Life.extend
  rw [List.takeWhile_append_of_pos hall, List.takeWhile_eq_self_iff.2 hall, List.filterMap_append,
    hone, List.append_assoc]

end SpanForest.Recorder
