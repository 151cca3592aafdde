import SpanForest.NodeId

/-! # Partitions of a growing set of handles

    A partition issues handles one after another, each in a class of its own,
    and merges classes on request. Every handle stores a link to a parent;
    the handle at the end of its chain of links *represents* its class.

    * **Lookups never write**: `find` follows links and compresses nothing,
      so asking twice gives the same answer and changes no link.
    * **Union by rank**: the representative of higher rank adopts the other;
      on equal ranks the left one does, and its rank grows by one. This keeps
      every chain logarithmic in the size of its class.
    * **Foreign handles** are isolated: each is its own parent and its own
      representative, has rank zero, and takes part in no merge.
-/

namespace SpanForest

/-- What a partition stores for one handle. -/
structure Slot where
  /-- The next handle on the way to the representative; a representative
      links to itself. -/
  parent : NodeId
  /-- An upper bound on the length of the chains that end here. -/
  rank : Nat
deriving DecidableEq, Inhabited

/-- Disjoint classes of the handles `0 .. size - 1`. -/
structure Partition where
  /-- One slot for each issued handle, in the order of issue. -/
  slots : Array Slot := #[]
deriving DecidableEq, Inhabited

namespace Partition

/-! ## Reading -/

/-- The partition that has issued no handle. -/
def empty : Partition := {}

/-- How many handles have been issued. -/
def size (p : Partition) : Nat := p.slots.size

/-- Whether no handle has been issued. -/
def isEmpty (p : Partition) : Bool := p.slots.isEmpty

/-- A handle is issued when it has a slot; all others are foreign. -/
def Issued (p : Partition) (x : NodeId) : Prop := x.index < p.size

instance (p : Partition) (x : NodeId) : Decidable (p.Issued x) :=
  inferInstanceAs (Decidable (x.index < p.size))

/-- The handles issued so far, in the order of issue. -/
def handles (p : Partition) : List NodeId :=
  (List.range p.size).map NodeId.mk

/-- The stored link of a handle; a foreign handle links to itself. -/
def parent (p : Partition) (x : NodeId) : NodeId :=
  p.slots[x.index]?.elim x Slot.parent

/-- The stored rank of a handle; a foreign handle has rank zero. -/
def rank (p : Partition) (x : NodeId) : Nat :=
  p.slots[x.index]?.elim 0 Slot.rank

/-- A handle represents its class when it links to itself. -/
def isRepresentative (p : Partition) (x : NodeId) : Bool :=
  p.parent x == x

/-- Follows at most `steps` links from `x`. -/
def climb (p : Partition) : Nat → NodeId → NodeId
  | 0, x => x
  | steps + 1, x =>
    let next := p.parent x
    if next = x then x else climb p steps next

/-- The representative of a handle. No chain visits a handle twice, so it has
    fewer links than the partition has handles. -/
def find (p : Partition) (x : NodeId) : NodeId :=
  p.climb p.size x

/-- Two handles are in one class when they have the same representative. -/
def sameSet (p : Partition) (a b : NodeId) : Bool :=
  p.find a == p.find b

/-- The number of classes of issued handles, counted by representatives. -/
def componentCount (p : Partition) : Nat :=
  p.handles.countP p.isRepresentative

/-! ## Growing -/

/-- The handle that the next `makeSet` issues. -/
def nextId (p : Partition) : NodeId := ⟨p.size⟩

/-- Issues one more handle, in a class of its own. -/
def makeSet (p : Partition) : Partition :=
  ⟨p.slots.push ⟨p.nextId, 0⟩⟩

/-- Issues `count` more handles. -/
def makeSets (p : Partition) : Nat → Partition
  | 0 => p
  | count + 1 => p.makeSet.makeSets count

/-! ## Merging -/

/-- The largest rank that a slot holds: `2 ^ 32 - 1`. -/
def rankLimit : Nat := 4294967295

/-- The partition in which `x`, if issued, links to `target`. -/
def link (p : Partition) (x target : NodeId) : Partition :=
  ⟨p.slots.modify x.index fun slot => { slot with parent := target }⟩

/-- Links `x` to `target`, and says whether it could: both must be issued, the
    target first. -/
def setParent (p : Partition) (x target : NodeId) : Bool × Partition :=
  if ¬ p.Issued target then (false, p)
  else if ¬ p.Issued x then (false, p)
  else (true, p.link x target)

/-- Raises the rank of `x`, if issued, by one, up to the limit. -/
def bumpRank (p : Partition) (x : NodeId) : Partition :=
  ⟨p.slots.modify x.index fun slot => { slot with rank := min (slot.rank + 1) rankLimit }⟩

/-- Merges the classes of `a` and `b`, and says whether two classes became one.
    The representative of higher rank adopts the other; on equal ranks the one
    of `a` does, and its rank grows. -/
def merge (p : Partition) (a b : NodeId) : Bool × Partition :=
  let left := p.find a
  let right := p.find b
  if left = right then (false, p)
  else
    match compare (p.rank left) (p.rank right) with
    | .gt => p.setParent right left
    | .lt =>
      -- A representative is its own parent.
      let target := p.parent right
      p.setParent left target
    | .eq =>
      let (linked, p) := p.setParent right left
      (linked, if linked then p.bumpRank left else p)

/-- Whether a merge of these two handles joins two classes. -/
def joins (p : Partition) (a b : NodeId) : Bool := (p.merge a b).1

/-- The partition after a merge of these two handles. -/
def union (p : Partition) (a b : NodeId) : Partition := (p.merge a b).2

/-- Merges one pair of handles after another, and says of each merge whether
    it joined two classes. -/
def unions (p : Partition) : List (NodeId × NodeId) → List Bool × Partition
  | [] => ([], p)
  | (a, b) :: rest =>
    let (joined, p) := p.merge a b
    let (answers, p) := p.unions rest
    (joined :: answers, p)

/-! ## Sizes -/

@[simp] theorem size_makeSet (p : Partition) : p.makeSet.size = p.size + 1 := by
  simp [size, makeSet]

@[simp] theorem size_link (p : Partition) (x target : NodeId) :
    (p.link x target).size = p.size := by
  simp [size, link]

@[simp] theorem size_bumpRank (p : Partition) (x : NodeId) : (p.bumpRank x).size = p.size := by
  simp [size, bumpRank]

@[simp] theorem size_setParent (p : Partition) (x target : NodeId) :
    (p.setParent x target).2.size = p.size := by
  unfold setParent
  split
  · rfl
  · split
    · rfl
    · exact p.size_link x target

@[simp] theorem size_union (p : Partition) (a b : NodeId) : (p.union a b).size = p.size := by
  unfold union merge
  dsimp only
  split
  · rfl
  · split
    · exact p.size_setParent _ _
    · exact p.size_setParent _ _
    · dsimp only
      split <;> simp

/-! ## Foreign handles -/

theorem parent_of_not_issued {p : Partition} {x : NodeId} (h : ¬ p.Issued x) :
    p.parent x = x := by
  have absent : p.slots[x.index]? = none :=
    Array.getElem?_eq_none (Nat.le_of_not_lt h)
  simp [parent, absent]

theorem rank_of_not_issued {p : Partition} {x : NodeId} (h : ¬ p.Issued x) : p.rank x = 0 := by
  have absent : p.slots[x.index]? = none :=
    Array.getElem?_eq_none (Nat.le_of_not_lt h)
  simp [rank, absent]

theorem find_of_not_issued {p : Partition} {x : NodeId} (h : ¬ p.Issued x) :
    p.find x = x := by
  unfold find
  cases p.size with
  | zero => rfl
  | succ n => simp [climb, parent_of_not_issued h]

end Partition

end SpanForest
