import SpanForest.Proofs.Traversal.Alone
import SpanForest.Proofs.Traversal.Reports

/-! # What a traversal has examined

    A traversal examines the edges in order, each of them once: it hands an
    edge out, or it skips it. Others may change the partition in the meantime,
    and so decide which of the two happens, but never which edge comes next.

    * **`unexamined`**: the edges that are left, the pending one first.
    * **`Turn.passes`**: a turn takes edges from what is left and reports its
      verdicts on them. What it skips has its endpoints in one set right after
      the turn.
    * **`Examined`**: the traversal has come to a place in the order, and has
      reported its verdicts on all edges before.
    * **`examined_start`**, **`Examined.passes`**: this holds at the beginning,
      and new verdicts are added to the old ones.
-/

namespace SpanForest

variable {α : Type u} {ω : Type v}

namespace Traversal

variable {t t' : Traversal ω} {g g' : Graph α ω} {e : Edge ω} {p : Partition}
  {order : List (Edge ω)} {past notices : List Notice} {verdicts : List (Verdict ω)}

/-! ## Edges that are left -/

/-- The edges that have not been examined, in the order of examination. -/
def unexamined (t : Traversal ω) : List (Edge ω) := t.pending.toList ++ t.queue

theorem length_unexamined (t : Traversal ω) : t.unexamined.length = t.remaining := by
  cases h : t.pending with
  | none => simp [unexamined, remaining, h]
  | some e => simp [unexamined, remaining, h]

/-! ## Verdicts of looking ahead -/

/-- The verdicts on the edges that looking ahead passes over. -/
def skips (t : Traversal ω) (p : Partition) : List (Verdict ω) :=
  (t.skipped p).map Verdict.skip

theorem mem_skipped_of_skip (h : Verdict.skip e ∈ t.skips p) : e ∈ t.skipped p := by
  obtain ⟨e', he', hskip⟩ := List.mem_map.1 h
  obtain rfl : e' = e := congrArg Verdict.edge hskip
  exact he'

theorem queue_eq_skips (t : Traversal ω) (p : Partition) :
    t.queue = (t.skips p).map Verdict.edge ++ (t.advance p).unexamined := by
  have hedges : (t.skips p).map Verdict.edge = t.skipped p := by
    unfold skips
    rw [List.map_map]
    exact List.map_id _
  rw [hedges]
  exact t.queue_eq_advance p

theorem accepted_skips (t : Traversal ω) (p : Partition) :
    (t.skips p).filter Verdict.accepted = [] := by
  rw [List.filter_eq_nil_iff]
  intro v hv
  obtain ⟨e, -, rfl⟩ := List.mem_map.1 hv
  exact Bool.false_ne_true

theorem sameSet_of_mem_skips {v : Verdict ω} (hv : v ∈ t.skips p) :
    p.sameSet v.edge.first v.edge.second = true := by
  obtain ⟨e, he, rfl⟩ := List.mem_map.1 hv
  exact sameSet_of_mem_skipped he

theorem verdicts_skipNotices (t : Traversal ω) (p : Partition) :
    (t.skipNotices p).filter Notice.isVerdict = (t.skips p).map Verdict.notice := by
  have hall : (t.skipNotices p).filter Notice.isVerdict = t.skipNotices p := by
    rw [List.filter_eq_self]
    intro notice hnotice
    obtain ⟨e, -, rfl⟩ := List.mem_map.1 hnotice
    rfl
  rw [hall, skips, List.map_map]
  rfl

/-- What is reported as skipped was skipped. -/
theorem exists_skip_of_reported {k : Nat}
    (hreported : notices.filter Notice.isVerdict = verdicts.map Verdict.notice)
    (hk : .edgeSkipped k ∈ notices) : ∃ e, Verdict.skip e ∈ verdicts ∧ e.sequence = k := by
  have hmem : Notice.edgeSkipped k ∈ verdicts.map Verdict.notice := by
    rw [← hreported]
    exact List.mem_filter.2 ⟨hk, rfl⟩
  obtain ⟨⟨e, accepted⟩, hv, hnotice⟩ := List.mem_map.1 hmem
  cases accepted with
  | true => cases hnotice
  | false => exact ⟨e, hv, Notice.edgeSkipped.inj hnotice⟩

/-! ## Verdicts of a turn -/

/-- On the way from one state of a traversal to another, these verdicts were
    reached and reported. -/
structure Passes (t t' : Traversal ω) (notices : List Notice) (fresh : List (Verdict ω)) :
    Prop where
  /-- What was left before is what was examined and what is left now. -/
  split : t.unexamined = fresh.map Verdict.edge ++ t'.unexamined
  /-- Each edge was reported when it was examined. -/
  reported : notices.filter Notice.isVerdict = fresh.map Verdict.notice
  /-- The edges accepted are those handed out. -/
  accepted : t'.emitted.toList =
    t.emitted.toList ++ (fresh.filter Verdict.accepted).map Verdict.edge
  /-- When nothing is pending, nothing is left. -/
  ended : (t.pending = none → t.queue = []) → t'.pending = none → t'.queue = []

/-- Handing out the pending edge examines it, and all that is skipped after it. -/
theorem passes_emit (t : Traversal ω) (g : Graph α ω) (he : t.pending = some e) :
    Passes t (t.emit g e).traversal (t.emit g e).notices
      (⟨e, true⟩ ::
        { t with emitted := t.emitted.push e }.skips (g.union e.first e.second).partition) where
  split := by
    have hqueue := { t with emitted := t.emitted.push e }.queue_eq_skips
      (g.union e.first e.second).partition
    rw [unexamined, he]
    exact congrArg (e :: ·) hqueue
  reported := by
    unfold emit
    rw [List.filter_cons_of_pos rfl, verdicts_skipNotices]
    rfl
  accepted := by
    rw [List.filter_cons_of_pos rfl, accepted_skips]
    exact Array.toList_push
  ended := fun _ => queue_of_advance_none

/-- A turn adds verdicts. An edge that it skips has its endpoints in one set
    right after it, and an edge that it hands out was merged. -/
theorem Turn.passes (hturn : t.Turn g notices t' g') :
    ∃ fresh, Passes t t' notices fresh ∧
      ∀ v ∈ fresh, if v.accepted then g' = g.union v.edge.first v.edge.second
        else g'.partition.sameSet v.edge.first v.edge.second = true := by
  cases hturn with
  | refuse _ =>
    refine ⟨[], ⟨rfl, rfl, ?_, fun h => h⟩, fun v hv => absurd hv List.not_mem_nil⟩
    exact (List.append_nil _).symm
  | fuse _ =>
    refine ⟨[], ⟨rfl, rfl, ?_, fun h => h⟩, fun v hv => absurd hv List.not_mem_nil⟩
    exact (List.append_nil _).symm
  | emit e _ he =>
    refine ⟨_, passes_emit t g he, fun v hv => ?_⟩
    rcases List.mem_cons.1 hv with rfl | hv
    · rfl
    · have hskip : v.accepted = false := by
        obtain ⟨e', -, rfl⟩ := List.mem_map.1 hv
        rfl
      rw [hskip]
      exact sameSet_of_mem_skips hv

theorem Turn.unexamined_subset (hturn : t.Turn g notices t' g') :
    t'.unexamined ⊆ t.unexamined := by
  obtain ⟨fresh, hpasses, -⟩ := hturn.passes
  rw [hpasses.split]
  exact List.subset_append_right _ _

/-- What a turn reports as skipped is one of the edges that were left. -/
theorem Turn.skipped {k : Nat} (hturn : t.Turn g notices t' g')
    (hk : .edgeSkipped k ∈ notices) :
    ∃ e ∈ t.unexamined, e.sequence = k ∧ g'.partition.sameSet e.first e.second = true := by
  obtain ⟨fresh, hpasses, hfresh⟩ := hturn.passes
  obtain ⟨e, he, hsequence⟩ := exists_skip_of_reported hpasses.reported hk
  refine ⟨e, ?_, hsequence, hfresh _ he⟩
  rw [hpasses.split]
  exact List.mem_append_left _ (List.mem_map_of_mem he)

/-! ## The place of a traversal -/

/-- A traversal has come to a place in the order, and `past` is what it has
    reported on the way. -/
structure Examined (order : List (Edge ω)) (t : Traversal ω) (past : List Notice)
    (verdicts : List (Verdict ω)) : Prop where
  /-- The edges before the place have been examined, those behind it have not. -/
  split : order = verdicts.map Verdict.edge ++ t.unexamined
  /-- Each edge was reported when it was examined. -/
  reported : past.filter Notice.isVerdict = verdicts.map Verdict.notice
  /-- The edges accepted are those handed out. -/
  accepted : t.emitted.toList = (verdicts.filter Verdict.accepted).map Verdict.edge
  /-- When nothing is pending, nothing is left. -/
  ended : t.pending = none → t.queue = []

theorem verdicts_startNotices [Ord ω] (g : Graph α ω) :
    (startNotices g).filter Notice.isVerdict =
      ((prepare g).skips g.partition).map Verdict.notice := by
  unfold startNotices
  rw [List.cons_append, List.filter_cons_of_neg Bool.false_ne_true, List.filter_append,
    verdicts_skipNotices]
  exact List.append_nil _

theorem examined_start [Ord ω] (g : Graph α ω) :
    Examined (g.tieBreak.arrange g.edges.toList) (start g) (startNotices g)
      ((prepare g).skips g.partition) where
  split := (prepare g).queue_eq_skips g.partition
  reported := verdicts_startNotices g
  accepted := by
    rw [accepted_skips]
    rfl
  ended := queue_of_advance_none

namespace Examined

theorem passes {fresh : List (Verdict ω)} (h : Examined order t past verdicts)
    (hpasses : Passes t t' notices fresh) :
    Examined order t' (past ++ notices) (verdicts ++ fresh) where
  split := by rw [h.split, hpasses.split, List.map_append, List.append_assoc]
  reported := by rw [List.filter_append, h.reported, hpasses.reported, List.map_append]
  accepted := by rw [hpasses.accepted, h.accepted, List.filter_append, List.map_append]
  ended := hpasses.ended h.ended

end Examined

end Traversal

end SpanForest
