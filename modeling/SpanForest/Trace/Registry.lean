import SpanForest.Trace

/-! # Registries of spans

    Who records spans does not keep track of the open ones. A registry does:
    it knows an open span by an identifier, and an entry can be left with the
    span until it closes.

    * **`SpanRegistry`**: what is asked of a registry, and its laws. Nothing
      else about it is used, so all that is said of records holds for every
      registry.
    * **`SpanRegistry.slots`**: a registry with numbered slots, which are used
      again.
-/

namespace SpanForest

/-- A registry of spans with states of type `σ` and identifiers of type `ι`,
    where entries of type `β` can be left. -/
structure SpanRegistry (σ ι β : Type) where
  /-- The registry before a span has opened. -/
  empty : σ
  /-- Takes in one more span, under an identifier. -/
  register : σ → ι × σ
  /-- The entry that has been left with a span; nothing if there is no span of
      this identifier. -/
  held? : σ → ι → Option (Option β)
  /-- Leaves an entry with a span, or takes away the one that is there. -/
  leave : σ → ι → Option β → σ
  /-- Forgets a span. -/
  forget : σ → ι → σ
  /-- What is passed on of values for a span that declares the given fields. -/
  forward : List String → Fields → Fields
  /-- An identifier is given out while no span has it. -/
  held?_fresh : ∀ s, held? s (register s).1 = none
  /-- From then on there is a span of this identifier, without an entry. -/
  held?_register_self : ∀ s, held? (register s).2 (register s).1 = some none
  /-- Taking in a span does not touch another one. -/
  held?_register_ne : ∀ {s id}, id ≠ (register s).1 → held? (register s).2 id = held? s id
  /-- What is left with a span is found there. -/
  held?_leave_self : ∀ s id entry, held? (leave s id entry) id = (held? s id).map fun _ => entry
  /-- It is found with no other span. -/
  held?_leave_ne : ∀ {s id other entry}, other ≠ id →
    held? (leave s id entry) other = held? s other
  /-- Forgetting a span does not touch another one. -/
  held?_forget_ne : ∀ {s id other}, other ≠ id → held? (forget s id) other = held? s other
  /-- Values are passed on for the fields that are declared, and for no other. -/
  forward_eq : ∀ declared fields,
    forward declared fields = fields.filter fun field => declared.contains field.1

namespace SpanRegistry

variable {β : Type}

/-- The slot for the next span: the first one that is free, or a new one. -/
def freeSlot (s : Array (Option (Option β))) : Nat :=
  (s.findIdx? Option.isNone).getD s.size

theorem join_freeSlot (s : Array (Option (Option β))) : (s[freeSlot s]?).join = none := by
  unfold freeSlot
  cases h : s.findIdx? Option.isNone with
  | none => simp
  | some i =>
    obtain ⟨hi, hfree, -⟩ := Array.findIdx?_eq_some_iff_getElem.1 h
    rw [Option.getD_some, Array.getElem?_eq_getElem hi]
    simpa using hfree

/-- Puts a span without an entry into a slot, which may be a new one. -/
def occupy (s : Array (Option (Option β))) (id : Nat) : Array (Option (Option β)) :=
  if id < s.size then s.setIfInBounds id (some none) else s.push (some none)

theorem freeSlot_le_size (s : Array (Option (Option β))) : freeSlot s ≤ s.size := by
  unfold freeSlot
  cases h : s.findIdx? Option.isNone with
  | none => simp
  | some i =>
    obtain ⟨hi, -⟩ := Array.findIdx?_eq_some_iff_getElem.1 h
    exact Nat.le_of_lt hi

theorem getElem?_occupy {s : Array (Option (Option β))} {id : Nat} (hid : id ≤ s.size)
    (other : Nat) : (occupy s id)[other]? = if other = id then some (some none) else s[other]? := by
  unfold occupy
  split
  · rename_i hlt
    rw [Array.getElem?_setIfInBounds]
    by_cases h : id = other
    · subst h
      simp [hlt]
    · simp [h, Ne.symm h]
  · have hsize : id = s.size := by omega
    subst hsize
    exact Array.getElem?_push

/-- A registry with numbered slots. A span that is forgotten leaves its slot to
    the next one. -/
def slots : SpanRegistry (Array (Option (Option β))) Nat β where
  empty := #[]
  register s := (freeSlot s, occupy s (freeSlot s))
  held? s id := s[id]?.join
  leave s id entry := s.modify id (·.map fun _ => entry)
  forget s id := s.setIfInBounds id none
  forward declared fields := fields.filter fun field => declared.contains field.1
  held?_fresh := join_freeSlot
  held?_register_self s := by
    rw [getElem?_occupy (freeSlot_le_size s), if_pos rfl]
    rfl
  held?_register_ne {s id} h := by rw [getElem?_occupy (freeSlot_le_size s), if_neg h]
  held?_leave_self s id entry := by
    rw [Array.getElem?_modify, if_pos rfl]
    cases s[id]? <;> rfl
  held?_leave_ne h := by rw [Array.getElem?_modify, if_neg (Ne.symm h)]
  held?_forget_ne h := by rw [Array.getElem?_setIfInBounds_ne (Ne.symm h)]
  forward_eq _ _ := rfl

end SpanRegistry

end SpanForest
