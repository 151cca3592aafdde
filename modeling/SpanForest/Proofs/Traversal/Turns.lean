import SpanForest.Traversal

/-! # The single changes of a traversal

    Whatever is asked of a traversal, only three things can happen: it
    refuses because of an addition, it is fused, or it hands out its pending
    edge.

    * **`Turn`**: one of the three, with what it reports and what it leaves.
    * **`Turns`**: any number of them, one after another.
    * **`pull_cases`**, **`next_cases`**: the situations in which a traversal is
      asked, and its replies.
    * **`pull_turns`**, **`next_turns`**, **`finish_turns`** and so on: every
      question is answered by turns, so that what turns keep is kept.
    * **`drain_of_current`**: on an unchanged graph, draining succeeds and
      leaves nothing pending.
    * **`forest_of_finish`**: what finishing sums up.
-/

namespace SpanForest

namespace Traversal

variable {α : Type u} {ω : Type v}

/-! ## Turns -/

/-- A single change of a traversal and its graph, with its report. -/
inductive Turn (t : Traversal ω) (g : Graph α ω) :
    List Notice → Traversal ω → Graph α ω → Prop where
  /-- The traversal has noticed an addition. -/
  | refuse : g.modificationCount ≠ t.expected →
      Turn t g [.additionNoticed t.expected g.modificationCount] t g
  /-- The stream of the traversal ends, after the last edge or at an addition. -/
  | fuse : t.pending = none ∨ g.modificationCount ≠ t.expected → Turn t g [] t.fuse g
  /-- The traversal hands out its pending edge. -/
  | emit (e : Edge ω) : g.modificationCount = t.expected → t.pending = some e →
      Turn t g (t.emit g e).notices (t.emit g e).traversal (t.emit g e).graph

/-- Any number of changes, one after another. -/
inductive Turns : Traversal ω → Graph α ω → List Notice → Traversal ω → Graph α ω → Prop where
  | refl (t : Traversal ω) (g : Graph α ω) : Turns t g [] t g
  | head {t t' t'' : Traversal ω} {g g' g'' : Graph α ω} {first later : List Notice} :
      Turn t g first t' g' → Turns t' g' later t'' g'' → Turns t g (first ++ later) t'' g''

variable {t t' t'' : Traversal ω} {g g' g'' : Graph α ω} {first later : List Notice} {e : Edge ω}

theorem Turn.turns (h : Turn t g first t' g') : Turns t g first t' g' := by
  have hone := Turns.head h (.refl t' g')
  rwa [List.append_nil] at hone

theorem Turns.trans (h : Turns t g first t' g') (h' : Turns t' g' later t'' g'') :
    Turns t g (first ++ later) t'' g'' := by
  induction h with
  | refl => exact h'
  | head hturn _ ih =>
    rw [List.append_assoc]
    exact .head hturn (ih h')

/-- What every turn keeps, any number of turns keep. -/
theorem Turns.induction (Inv : Traversal ω → Graph α ω → Prop)
    (hturn : ∀ {t t' g g' notices}, Turn t g notices t' g' → Inv t g → Inv t' g')
    (h : Turns t g first t' g') (hinv : Inv t g) : Inv t' g' := by
  induction h with
  | refl => exact hinv
  | head hone _ ih => exact ih (hturn hone hinv)

/-! ## The answers case by case -/

theorem hasNext_of_current (h : g.modificationCount = t.expected) :
    t.hasNext g = { answer := .ok t.pending.isSome, traversal := t, graph := g } := by
  rw [hasNext, if_pos h]

theorem hasNext_of_stale (h : g.modificationCount ≠ t.expected) : t.hasNext g = t.stale g := by
  rw [hasNext, if_neg h]

theorem pull_of_pending (h : g.modificationCount = t.expected) (he : t.pending = some e) :
    t.pull g = (t.emit g e).map .ok := by
  rw [pull, if_pos h, he]

theorem pull_of_exhausted (h : g.modificationCount = t.expected) (he : t.pending = none) :
    t.pull g = { answer := .error .exhausted, traversal := t, graph := g } := by
  rw [pull, if_pos h, he]

theorem pull_of_stale (h : g.modificationCount ≠ t.expected) : t.pull g = t.stale g := by
  rw [pull, if_neg h]

theorem next_of_fused (h : t.fused = true) :
    t.next g = { answer := none, traversal := t, graph := g } := by
  rw [next, if_pos h]

theorem next_of_pending (hf : t.fused = false) (h : g.modificationCount = t.expected)
    (he : t.pending = some e) : t.next g = (t.emit g e).map fun e => some (.ok e) := by
  rw [next, if_neg (by simp [hf])]
  simp only [hasNext_of_current h, pull_of_pending h he, he]
  rfl

theorem next_of_exhausted (hf : t.fused = false) (h : g.modificationCount = t.expected)
    (he : t.pending = none) : t.next g = { answer := none, traversal := t.fuse, graph := g } := by
  rw [next, if_neg (by simp [hf])]
  simp only [hasNext_of_current h, he]
  rfl

theorem next_of_stale (hf : t.fused = false) (h : g.modificationCount ≠ t.expected) :
    t.next g =
      { answer := some (.error (.concurrentModification t.expected g.modificationCount))
        traversal := t.fuse
        graph := g
        notices := [.additionNoticed t.expected g.modificationCount] } := by
  rw [next, if_neg (by simp [hf])]
  simp only [hasNext_of_stale h, stale]

/-- What holds of the reply in each situation holds of every pull. -/
@[elab_as_elim]
theorem pull_cases {motive : Reply α ω (Except Failure (Edge ω)) → Prop} (t : Traversal ω)
    (g : Graph α ω) (stale : g.modificationCount ≠ t.expected → motive (t.stale g))
    (exhausted : g.modificationCount = t.expected → t.pending = none →
      motive { answer := .error .exhausted, traversal := t, graph := g })
    (pending : ∀ e, g.modificationCount = t.expected → t.pending = some e →
      motive ((t.emit g e).map .ok)) : motive (t.pull g) := by
  by_cases h : g.modificationCount = t.expected
  · cases he : t.pending with
    | none => exact pull_of_exhausted h he ▸ exhausted h he
    | some e => exact pull_of_pending h he ▸ pending e h he
  · exact pull_of_stale h ▸ stale h

/-- The same of every item of the stream. -/
@[elab_as_elim]
theorem next_cases {motive : Reply α ω (Option (Except Failure (Edge ω))) → Prop}
    (t : Traversal ω) (g : Graph α ω)
    (fused : t.fused = true → motive { answer := none, traversal := t, graph := g })
    (stale : t.fused = false → g.modificationCount ≠ t.expected → motive
      { answer := some (.error (.concurrentModification t.expected g.modificationCount))
        traversal := t.fuse
        graph := g
        notices := [.additionNoticed t.expected g.modificationCount] })
    (exhausted : t.fused = false → g.modificationCount = t.expected → t.pending = none →
      motive { answer := none, traversal := t.fuse, graph := g })
    (pending : ∀ e, t.fused = false → g.modificationCount = t.expected → t.pending = some e →
      motive ((t.emit g e).map fun e => some (.ok e))) : motive (t.next g) := by
  cases hf : t.fused with
  | true => exact next_of_fused hf ▸ fused hf
  | false =>
    by_cases h : g.modificationCount = t.expected
    · cases he : t.pending with
      | none => exact next_of_exhausted hf h he ▸ exhausted hf h he
      | some e => exact next_of_pending hf h he ▸ pending e hf h he
    · exact next_of_stale hf h ▸ stale hf h

theorem drain_of_stale (h : g.modificationCount ≠ t.expected) : t.drain g = t.stale g := by
  rw [drain]
  simp only [hasNext_of_stale h, stale, Reply.map]

theorem drain_of_exhausted (h : g.modificationCount = t.expected) (he : t.pending = none) :
    t.drain g = { answer := .ok (), traversal := t, graph := g } := by
  rw [drain]
  simp only [hasNext_of_current h, he, Option.isSome_none, Reply.map]

theorem drain_of_pending (h : g.modificationCount = t.expected) (he : t.pending = some e) :
    t.drain g = ((t.emit g e).traversal.drain (t.emit g e).graph).after (t.emit g e).notices := by
  have hpulled := pull_of_pending h he
  rw [drain]
  simp only [hasNext_of_current h, he, Option.isSome_some]
  split
  -- The pull succeeds, so the branch of a failure is never taken.
  · rename_i failure hanswer
    rw [hpulled] at hanswer
    exact absurd hanswer (by simp [Reply.map])
  · rw [hpulled]
    rfl

theorem finish_of_stale (h : g.modificationCount ≠ t.expected) : t.finish g = t.stale g := by
  unfold finish
  rw [drain_of_stale h]
  rfl

/-- Each edge handed out leaves fewer edges to examine, so whatever follows
    for a traversal from what happens after its next edge, holds of all. -/
theorem emit_induction {motive : Traversal ω → Graph α ω → Prop}
    (stale : ∀ t g, g.modificationCount ≠ t.expected → motive t g)
    (exhausted : ∀ t g, g.modificationCount = t.expected → t.pending = none → motive t g)
    (pending : ∀ t g e, g.modificationCount = t.expected → t.pending = some e →
      motive (t.emit g e).traversal (t.emit g e).graph → motive t g)
    (t : Traversal ω) (g : Graph α ω) : motive t g := by
  by_cases h : g.modificationCount = t.expected
  · cases he : t.pending with
    | none => exact exhausted t g h he
    | some e =>
      have hless : (t.emit g e).traversal.remaining < t.remaining := by
        have hanswer : (t.pull g).answer = .ok e := by
          rw [pull_of_pending h he]
          rfl
        have hlt := remaining_pull_lt hanswer
        rwa [pull_of_pending h he] at hlt
      exact pending t g e h he (emit_induction stale exhausted pending _ _)
  · exact stale t g h
termination_by t.remaining

/-! ## Answering in turns -/

theorem hasNext_turns (t : Traversal ω) (g : Graph α ω) :
    Turns t g (t.hasNext g).notices (t.hasNext g).traversal (t.hasNext g).graph := by
  by_cases h : g.modificationCount = t.expected
  · rw [hasNext_of_current h]
    exact .refl t g
  · rw [hasNext_of_stale h]
    exact (Turn.refuse h).turns

theorem pull_turns (t : Traversal ω) (g : Graph α ω) :
    Turns t g (t.pull g).notices (t.pull g).traversal (t.pull g).graph := by
  refine t.pull_cases g ?stale ?exhausted ?pending
  case stale =>
    intro h
    exact (Turn.refuse h).turns
  case exhausted =>
    intro _ _
    exact .refl t g
  case pending =>
    intro e h he
    exact (Turn.emit e h he).turns

theorem next_turns (t : Traversal ω) (g : Graph α ω) :
    Turns t g (t.next g).notices (t.next g).traversal (t.next g).graph := by
  refine t.next_cases g ?fused ?stale ?exhausted ?pending
  case fused =>
    intro _
    exact .refl t g
  case stale =>
    intro _ h
    exact (Turn.refuse h).turns.trans (Turn.fuse (.inr h)).turns
  case exhausted =>
    intro _ _ he
    exact (Turn.fuse (.inl he)).turns
  case pending =>
    intro e _ h he
    exact (Turn.emit e h he).turns

theorem drain_turns (t : Traversal ω) (g : Graph α ω) :
    Turns t g (t.drain g).notices (t.drain g).traversal (t.drain g).graph := by
  induction t, g using emit_induction with
  | stale t g h =>
    rw [drain_of_stale h]
    exact (Turn.refuse h).turns
  | exhausted t g h he =>
    rw [drain_of_exhausted h he]
    exact .refl t g
  | pending t g e h he ih =>
    rw [drain_of_pending h he]
    exact .head (Turn.emit e h he) ih

theorem finish_turns (t : Traversal ω) (g : Graph α ω) :
    Turns t g (t.finish g).notices (t.finish g).traversal (t.finish g).graph :=
  t.drain_turns g

/-! ## Draining -/

/-- On an unchanged graph, draining succeeds and leaves nothing pending. -/
theorem drain_of_current (h : g.modificationCount = t.expected) :
    (t.drain g).answer = .ok () ∧ (t.drain g).traversal.pending = none := by
  induction t, g using emit_induction with
  | stale t g hstale => exact absurd h hstale
  | exhausted t g _ he =>
    rw [drain_of_exhausted h he]
    exact ⟨rfl, he⟩
  | pending t g e _ he ih =>
    rw [drain_of_pending h he]
    exact ih h

/-- Turns issue no handles. -/
theorem Turns.size_eq (h : Turns t g first t' g') : g'.partition.size = g.partition.size := by
  refine h.induction (fun _ g' => g'.partition.size = g.partition.size) ?_ rfl
  intro t₁ t₂ g₁ g₂ notices hturn hsize
  cases hturn with
  | refuse _ => exact hsize
  | fuse _ => exact hsize
  | emit e _ _ => exact (Partition.size_union g₁.partition e.first e.second).trans hsize

/-- Turns add no nodes and no edges. -/
theorem Turns.nodes_edges_eq (h : Turns t g first t' g') :
    g'.nodes = g.nodes ∧ g'.edges = g.edges := by
  refine h.induction (fun _ g' => g'.nodes = g.nodes ∧ g'.edges = g.edges) ?_ ⟨rfl, rfl⟩
  intro t₁ t₂ g₁ g₂ notices hturn hsame
  cases hturn with
  | refuse _ => exact hsame
  | fuse _ => exact hsame
  | emit e _ _ => exact hsame

/-- When finishing succeeds, it sums up all edges handed out by then. -/
theorem forest_of_finish {f : Forest ω} (h : (t.finish g).answer = .ok f) :
    f = .ofEdges (t.finish g).traversal.emitted g.partition.size := by
  have hsize := (t.drain_turns g).size_eq
  simp only [finish, Reply.map] at h ⊢
  cases hdrained : (t.drain g).answer with
  | error failure =>
    rw [hdrained] at h
    cases h
  | ok _ =>
    rw [hdrained] at h
    rw [← hsize]
    exact (Except.ok.inj h).symm

end Traversal

end SpanForest
