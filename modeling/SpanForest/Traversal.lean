import SpanForest.Forest
import SpanForest.Graph
import SpanForest.Traversal.Failure

/-! # Lazy traversals

    A traversal hands out the edges of a minimum spanning forest one at a
    time, lightest first. It takes the edges of the graph when it begins,
    arranges them, and from then on looks for the next edge only as far as it
    must: up to the first one whose endpoints lie in different sets.

    * **`start`** begins a traversal and finds its first edge.
    * **`hasNext`** asks whether an edge is left; **`pull`** hands it out and
      merges the sets of its endpoints in the graph.
    * **`next`** is `pull` for those who want the end of the edges as a
      value: after the end, or after a failure, it yields nothing for good.
    * **`finish`** hands out all the rest and sums up; **`Graph.traverse`**
      does so with a new traversal.

    Several traversals may share a graph, and each sees the merges of the
    others. None survives an addition: every question first compares the
    graph's modification count with the one at the beginning, and fails when
    they differ.
-/

namespace SpanForest

/-- A traversal under way. -/
structure Traversal (ω : Type u) where
  /-- The edges not yet examined, in the order of examination. -/
  queue : List (Edge ω)
  /-- The edge to hand out next; none when the edges have run out. -/
  pending : Option (Edge ω) := none
  /-- The edges handed out so far. -/
  emitted : Array (Edge ω) := #[]
  /-- The modification count of the graph when the traversal began. -/
  expected : Nat
  /-- Whether `next` yields nothing for good. -/
  fused : Bool := false
deriving DecidableEq

/-- The answer to a question asked of a traversal, what answering it
    reported, and the traversal and the graph afterwards. -/
structure Reply (α : Type u) (ω : Type v) (β : Type w) where
  /-- The answer. -/
  answer : β
  /-- The traversal afterwards. -/
  traversal : Traversal ω
  /-- The graph afterwards. -/
  graph : Graph α ω
  /-- What was reported, in order. -/
  notices : List Notice := []

/-- Changes the answer of a reply. -/
def Reply.map (f : β → γ) (r : Reply α ω β) : Reply α ω γ :=
  { r with answer := f r.answer }

/-- Puts what was reported before in front of a reply. -/
def Reply.after (r : Reply α ω β) (earlier : List Notice) : Reply α ω β :=
  { r with notices := earlier ++ r.notices }

namespace Traversal

variable {α : Type u} {ω : Type v}

/-! ## Looking ahead -/

/-- How many edges have not been examined, the one to hand out next included. -/
def remaining (t : Traversal ω) : Nat :=
  t.queue.length + if t.pending.isSome then 1 else 0

/-- An edge is redundant when its endpoints are in one set. -/
def isRedundant (p : Partition) (e : Edge ω) : Bool :=
  p.sameSet e.first e.second

/-- The redundant edges at the head of the queue. -/
def skipped (t : Traversal ω) (p : Partition) : List (Edge ω) :=
  t.queue.takeWhile (isRedundant p)

/-- Passes over the redundant edges at the head of the queue and takes the
    edge behind them as the next to hand out. -/
def advance (t : Traversal ω) (p : Partition) : Traversal ω :=
  let rest := t.queue.dropWhile (isRedundant p)
  { t with queue := rest.drop 1, pending := rest.head? }

/-- The report of `advance`. -/
def skipNotices (t : Traversal ω) (p : Partition) : List Notice :=
  (t.skipped p).map fun e => .edgeSkipped e.sequence

/-! ## Beginning -/

/-- A traversal that holds all edges of the graph and has examined none. -/
def prepare [Ord ω] (g : Graph α ω) : Traversal ω :=
  { queue := g.tieBreak.arrange g.edges.toList, expected := g.modificationCount }

/-- Begins a traversal of the graph. -/
def start [Ord ω] (g : Graph α ω) : Traversal ω :=
  (prepare g).advance g.partition

/-- The report of `start`. -/
def startNotices [Ord ω] (g : Graph α ω) : List Notice :=
  .traversalOpens g.edgeCount g.modificationCount g.tieBreak
    :: (prepare g).skipNotices g.partition ++ [.traversalOpened]

/-! ## Asking and pulling -/

/-- The reply of a traversal that has noticed an addition. -/
def stale (t : Traversal ω) (g : Graph α ω) : Reply α ω (Except Failure β) :=
  { answer := .error (.concurrentModification t.expected g.modificationCount)
    traversal := t
    graph := g
    notices := [.additionNoticed t.expected g.modificationCount] }

/-- Whether an edge is left to hand out. -/
def hasNext (t : Traversal ω) (g : Graph α ω) : Reply α ω (Except Failure Bool) :=
  if g.modificationCount = t.expected then
    { answer := .ok t.pending.isSome, traversal := t, graph := g }
  else t.stale g

/-- Hands out an edge: merges the sets of its endpoints, and looks for the
    edge after it. -/
def emit (t : Traversal ω) (g : Graph α ω) (e : Edge ω) : Reply α ω (Edge ω) :=
  let g := g.union e.first e.second
  let t := { t with emitted := t.emitted.push e }
  { answer := e
    traversal := t.advance g.partition
    graph := g
    notices := .edgeAccepted e.first e.second e.sequence :: t.skipNotices g.partition }

/-- Hands out the next edge. -/
def pull (t : Traversal ω) (g : Graph α ω) : Reply α ω (Except Failure (Edge ω)) :=
  if g.modificationCount = t.expected then
    match t.pending with
    | none => { answer := .error .exhausted, traversal := t, graph := g }
    | some e => (t.emit g e).map .ok
  else t.stale g

/-! ## Pulling as a stream -/

/-- The traversal that yields nothing more through `next`. -/
def fuse (t : Traversal ω) : Traversal ω := { t with fused := true }

/-- The next item of the stream: an edge, or once the failure that ends it. -/
def next (t : Traversal ω) (g : Graph α ω) :
    Reply α ω (Option (Except Failure (Edge ω))) :=
  if t.fused then { answer := none, traversal := t, graph := g }
  else
    let asked := t.hasNext g
    match asked.answer with
    | .ok true => ((t.pull g).map some).after asked.notices
    | .ok false => { asked with answer := none, traversal := t.fuse }
    | .error failure => { asked with answer := some (.error failure), traversal := t.fuse }

/-- Bounds of the number of items that `next` still yields. An addition ends
    the stream with one more item, hence the upper bound of at least one. -/
def sizeHint (t : Traversal ω) : Nat × Nat :=
  if t.fused then (0, 0)
  else (if t.pending.isSome then 1 else 0, max t.remaining 1)

/-! ## Finishing -/

theorem remaining_advance_le (t : Traversal ω) (p : Partition) :
    (t.advance p).remaining ≤ t.queue.length := by
  have shorter : (t.queue.dropWhile (isRedundant p)).length ≤ t.queue.length :=
    (List.dropWhile_suffix _).length_le
  cases h : t.queue.dropWhile (isRedundant p) with
  | nil => simp [advance, remaining, h]
  | cons e rest =>
    rw [h, List.length_cons] at shorter
    simp only [advance, remaining, h, List.drop_one, List.tail_cons, List.head?_cons,
      Option.isSome_some, if_true]
    exact shorter

/-- A successful pull leaves fewer edges to examine. -/
theorem remaining_pull_lt {t : Traversal ω} {g : Graph α ω} {e : Edge ω}
    (h : (t.pull g).answer = .ok e) : (t.pull g).traversal.remaining < t.remaining := by
  unfold pull at h ⊢
  split at h
  · rename_i current
    rw [if_pos current]
    split at h
    · simp at h
    · rename_i pending
      refine Nat.lt_of_le_of_lt (remaining_advance_le _ _) ?_
      simp [remaining, pending]
  · simp [stale] at h

/-- Hands out all edges that are left. -/
def drain (t : Traversal ω) (g : Graph α ω) : Reply α ω (Except Failure Unit) :=
  let asked := t.hasNext g
  match asked.answer with
  | .error failure => asked.map fun _ => .error failure
  | .ok false => asked.map fun _ => .ok ()
  | .ok true =>
    let pulled := t.pull g
    match _h : pulled.answer with
    | .error failure => (pulled.map fun _ => .error failure).after asked.notices
    | .ok _ => (drain pulled.traversal pulled.graph).after (asked.notices ++ pulled.notices)
termination_by t.remaining
decreasing_by exact remaining_pull_lt _h

/-- Hands out all edges that are left and sums up every edge that this
    traversal has handed out. -/
def finish (t : Traversal ω) (g : Graph α ω) : Reply α ω (Except Failure (Forest ω)) :=
  let drained := t.drain g
  drained.map fun outcome =>
    outcome.map fun _ => .ofEdges drained.traversal.emitted drained.graph.partition.size

end Traversal

/-- Drains a new traversal of a graph. -/
def Graph.traverse [Ord ω] (g : Graph α ω) : Reply α ω (Except Failure (Forest ω)) :=
  ((Traversal.start g).finish g).after (Traversal.startNotices g)

end SpanForest
