import SpanForest.Proofs.Traversal.Turns
import SpanForest.Trace

/-! # What traversals report

    A traversal reports every edge that it examines, either as handed out or
    as skipped, and every addition that it notices.

    * **`Verdict`**: an edge that was examined, and what became of it.
    * **`Notice.isAcceptance`**, **`Notice.isVerdict`**, **`Notice.isWarning`**:
      the notices of each kind.
    * **`Moment.isVerdict`**, **`Moment.isWarning`**: the same in a trace, told by
      the level and the sentence of an event.
    * **`filter_emitNotices`** and the lemmas beside it: how much of each kind
      the parts of a traversal report.
-/

namespace SpanForest

variable {α : Type u} {ω : Type v}

/-! ## Verdicts -/

/-- What is reported when an edge is handed out. -/
def Edge.acceptance (e : Edge ω) : Notice := .edgeAccepted e.first e.second e.sequence

/-- What is reported when an edge is skipped. -/
def Edge.omission (e : Edge ω) : Notice := .edgeSkipped e.sequence

/-- An edge that was examined. -/
structure Verdict (ω : Type v) where
  /-- The edge. -/
  edge : Edge ω
  /-- Whether it was handed out; otherwise it was skipped. -/
  accepted : Bool

namespace Verdict

/-- The edge was skipped. -/
def skip (e : Edge ω) : Verdict ω := ⟨e, false⟩

/-- What is reported of an edge that was examined. -/
def notice (v : Verdict ω) : Notice :=
  if v.accepted then v.edge.acceptance else v.edge.omission

/-- How this appears in a trace. -/
def moment (v : Verdict ω) : Moment := v.notice.moment

end Verdict

/-! ## Kinds of notices -/

namespace Notice

/-- The notice reports that an edge was handed out. -/
def isAcceptance : Notice → Bool
  | .edgeAccepted _ _ _ => true
  | _ => false

/-- The notice reports that an edge was examined. -/
def isVerdict : Notice → Bool
  | .edgeAccepted _ _ _ | .edgeSkipped _ => true
  | _ => false

end Notice

/-! ## Kinds of events -/

/-- The event has this level and says this. -/
def Event.says (event : Event) (level : Level) (message : String) : Bool :=
  event.level == level && event.fields.lookup "message" == some (.text message)

namespace Moment

/-- The step of a trace tells that an edge was examined. -/
def isVerdict : Moment → Bool
  | .happens event => event.says .debug "accepted forest edge"
      || event.says .trace "skipping edge that would close a cycle"
  | _ => false

end Moment

namespace Traversal

theorem filter_skipNotices (t : Traversal ω) (p : Partition) :
    (t.skipNotices p).filter Notice.isAcceptance = [] := by
  rw [List.filter_eq_nil_iff]
  intro notice hnotice
  obtain ⟨e, -, rfl⟩ := List.mem_map.1 hnotice
  exact Bool.false_ne_true

/-- Handing out an edge reports this edge and those that are skipped after it. -/
theorem filter_emitNotices (t : Traversal ω) (g : Graph α ω) (e : Edge ω) :
    (t.emit g e).notices.filter Notice.isAcceptance = [e.acceptance] := by
  unfold emit
  rw [List.filter_cons_of_pos rfl, filter_skipNotices]
  rfl

theorem filter_startNotices [Ord ω] (g : Graph α ω) :
    (startNotices g).filter Notice.isAcceptance = [] := by
  unfold startNotices
  rw [List.cons_append, List.filter_cons_of_neg Bool.false_ne_true, List.filter_append,
    filter_skipNotices]
  rfl

end Traversal

end SpanForest
