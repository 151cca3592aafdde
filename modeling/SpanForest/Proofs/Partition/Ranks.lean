import SpanForest.Proofs.Partition.History

/-! # Ranks

    A rank pays for the length of chains and is paid for by the size of
    classes: it grows along every link, and a representative of rank `k` has a
    class of at least `2 ^ k` handles. So no chain has more links than the
    logarithm of the number of handles.

    * **`WellLinked.rank_union`**: the one rank that a merge changes.
    * **`population`**: the number of handles in a class, and
      **`population_union`**: what a merge adds to it.
    * **`Ranked`**: the two facts above. Every request keeps them as long as
      ranks stay below their limit, and they do: a rank at the limit would need
      a class of more than `2 ^ 64` handles.
    * **`replay_ranked`**: the main result.
-/

namespace SpanForest

/-- Where there are no elements with both properties, those with one of them
    are counted separately. -/
theorem countP_or_of_disjoint {α : Type u} {l : List α} {first second : α → Bool}
    (h : ∀ y, first y = true → second y = false) :
    l.countP (fun y => first y || second y) = l.countP first + l.countP second := by
  induction l with
  | nil => rfl
  | cons y l ih =>
    rw [List.countP_cons, List.countP_cons, List.countP_cons, ih]
    by_cases hfirst : first y
    · have hsecond := h y hfirst
      simp [hfirst, hsecond]
      omega
    · simp [hfirst]
      omega

namespace Partition

variable {p : Partition} {a b x y r root : NodeId} {steps : Nat} {history : List Request}

/-! ## How ranks change -/

/-- A new handle has the rank that it had while it was foreign. -/
@[simp] theorem rank_makeSet (p : Partition) (x : NodeId) : p.makeSet.rank x = p.rank x := by
  by_cases hx : p.Issued x
  · have hlt : x.index < p.slots.size := hx
    simp [rank, makeSet, Array.getElem?_push_lt hlt, Array.getElem?_eq_getElem hlt]
  · rw [rank_of_not_issued hx]
    by_cases hnew : x.index = p.slots.size
    · simp [rank, makeSet, hnew]
    · apply rank_of_not_issued
      intro hlt
      have hle : x.index < p.size + 1 := p.size_makeSet ▸ hlt
      simp only [Issued, size] at hx hle
      omega

theorem rank_link (p : Partition) (x target y : NodeId) : (p.link x target).rank y = p.rank y := by
  unfold rank link
  rw [Array.getElem?_modify]
  split
  · cases p.slots[y.index]? <;> rfl
  · rfl

theorem rank_bumpRank (hx : p.Issued x) (y : NodeId) :
    (p.bumpRank x).rank y = if y = x then min (p.rank y + 1) rankLimit else p.rank y := by
  have hlt : x.index < p.slots.size := hx
  by_cases hy : y = x
  · subst hy
    simp [rank, bumpRank, Array.getElem?_modify, Array.getElem?_eq_getElem hlt]
  · have hne : x.index ≠ y.index := fun heq => hy (NodeId.ext heq.symm)
    simp [rank, bumpRank, Array.getElem?_modify, hne, hy]

namespace WellLinked

/-- A merge of representatives of equal rank raises the winner; no other rank
    ever changes. -/
theorem rank_union (hp : p.WellLinked) (h : p.joins a b = true) (y : NodeId) :
    (p.union a b).rank y =
      if p.rank (p.find a) = p.rank (p.find b) ∧ y = p.winner a b then min (p.rank y + 1) rankLimit
      else p.rank y := by
  rw [hp.union_eq h]
  by_cases htie : p.rank (p.find a) = p.rank (p.find b)
  · have hissued : (p.link (p.loser a b) (p.winner a b)).Issued (p.winner a b) := by
      simpa [Issued] using hp.issued_winner h
    simp only [htie, if_true, true_and, rank_bumpRank hissued, rank_link]
  · simp only [htie, if_false, false_and, rank_link]

theorem rank_union_winner (hp : p.WellLinked) (h : p.joins a b = true) :
    (p.union a b).rank (p.winner a b) =
      if p.rank (p.find a) = p.rank (p.find b) then min (p.rank (p.winner a b) + 1) rankLimit
      else p.rank (p.winner a b) := by
  simp [hp.rank_union h]

theorem rank_union_of_ne (hp : p.WellLinked) (h : p.joins a b = true) (hy : y ≠ p.winner a b) :
    (p.union a b).rank y = p.rank y := by
  rw [hp.rank_union h, if_neg (fun htie => hy htie.2)]

end WellLinked

/-- The winner is of no lower rank than the loser, and of the same only when
    the two representatives tie. -/
theorem rank_loser_cases (p : Partition) (a b : NodeId) :
    (p.rank (p.find a) = p.rank (p.find b) ∧ p.rank (p.loser a b) = p.rank (p.winner a b)) ∨
    (p.rank (p.find a) ≠ p.rank (p.find b) ∧ p.rank (p.loser a b) < p.rank (p.winner a b)) := by
  unfold winner loser
  split <;> omega

/-! ## The size of classes -/

/-- The number of issued handles in the class of a handle. -/
def population (p : Partition) (x : NodeId) : Nat :=
  p.handles.countP fun y => p.sameSet y x

theorem population_le_size (p : Partition) (x : NodeId) : p.population x ≤ p.size := by
  have hle : p.population x ≤ p.handles.length := List.countP_le_length
  simpa [handles] using hle

theorem population_makeSet (hp : p.WellLinked) (x : NodeId) :
    p.makeSet.population x = p.population x + if p.sameSet p.nextId x then 1 else 0 := by
  have hsame : ∀ y, p.makeSet.sameSet y x = p.sameSet y x := by
    intro y
    rw [sameSet, sameSet, hp.find_makeSet, hp.find_makeSet]
  simp [population, handles_makeSet, hsame, List.countP_cons]

/-- A merge adds the class of the loser to that of the winner. -/
theorem population_union (hp : p.WellLinked) (h : p.joins a b = true) (hroot : p.parent r = r)
    (hr : r ≠ p.loser a b) : (p.union a b).population r =
      p.population r + if r = p.winner a b then p.population (p.loser a b) else 0 := by
  have hfind : p.find r = r := hp.find_of_parent_eq hroot
  have hloser : p.find (p.loser a b) = p.loser a b := hp.find_of_parent_eq (hp.parent_loser a b)
  have hhandles : (p.union a b).handles = p.handles := by simp [handles]
  have hnew : (p.union a b).find r = r := by rw [hp.find_union h, hfind, if_neg hr]
  unfold population
  rw [hhandles]
  by_cases hwinner : r = p.winner a b
  · subst hwinner
    rw [if_pos rfl, ← countP_or_of_disjoint]
    · apply List.countP_congr
      intro y _
      simp only [sameSet, hnew, hfind, hloser, hp.find_union h y]
      by_cases hy : p.find y = p.loser a b <;> simp [hy]
    · intro y hy
      simp only [sameSet, hfind, beq_iff_eq] at hy
      simp [sameSet, hloser, hy, hr]
  · rw [if_neg hwinner, Nat.add_zero]
    apply List.countP_congr
    intro y _
    simp only [sameSet, hnew, hfind, hp.find_union h y]
    by_cases hy : p.find y = p.loser a b
    · simp [hy, Ne.symm hwinner, Ne.symm hr]
    · simp [hy]

/-! ## Ranked partitions -/

/-- Ranks grow along links, and large ranks belong to large classes. -/
structure Ranked (p : Partition) : Prop where
  /-- A parent has a higher rank than its child. -/
  rank_lt_parent : ∀ x, p.parent x ≠ x → p.rank x < p.rank (p.parent x)
  /-- The class of a representative is exponential in its rank. -/
  two_pow_rank_le : ∀ r, p.Issued r → p.parent r = r → 2 ^ p.rank r ≤ p.population r

/-- Each link of a chain takes one rank. -/
theorem Leads.add_rank_le (h : p.Leads steps x root) (hr : p.Ranked) :
    steps + p.rank x ≤ p.rank root := by
  induction h with
  | stop _ => omega
  | follow hne _ ih =>
    have hlt := hr.rank_lt_parent _ hne
    omega

namespace Ranked

theorem two_pow_rank_le_size (hr : p.Ranked) (hp : p.WellLinked) (hx : p.Issued x) :
    2 ^ p.rank x ≤ p.size := by
  obtain ⟨steps, hchain, -⟩ := hp.leads_find x
  have hrank := hchain.add_rank_le hr
  calc 2 ^ p.rank x ≤ 2 ^ p.rank (p.find x) := Nat.pow_le_pow_right Nat.two_pos (by omega)
    _ ≤ p.population (p.find x) :=
      hr.two_pow_rank_le _ (hp.issued_find_iff.2 hx) (hp.parent_find x)
    _ ≤ p.size := p.population_le_size _

/-- In a partition of less than `2 ^ 64` handles there is room for a raise. -/
theorem rank_lt_limit (hr : p.Ranked) (hp : p.WellLinked) (hsize : p.size < 2 ^ 64)
    (x : NodeId) : p.rank x < rankLimit := by
  have hlimit : 64 < rankLimit := by decide
  by_cases hx : p.Issued x
  · have hpow := hr.two_pow_rank_le_size hp hx
    have hlt : p.rank x < 64 := (Nat.pow_lt_pow_iff_right Nat.one_lt_two).1 (by omega)
    omega
  · rw [rank_of_not_issued hx]
    omega

/-- No chain is longer than the logarithm of the number of handles. -/
theorem steps_le_log2 (hr : p.Ranked) (hp : p.WellLinked) (h : p.Leads steps x (p.find x)) :
    steps ≤ Nat.log2 p.size := by
  by_cases hx : p.Issued x
  · have hrank := h.add_rank_le hr
    have hpow := hr.two_pow_rank_le_size hp (hp.issued_find_iff.2 hx)
    have hpos : p.size ≠ 0 := by
      have := Nat.zero_lt_of_lt hx
      omega
    have hlog : p.rank (p.find x) ≤ Nat.log2 p.size := (Nat.le_log2 hpos).2 hpow
    omega
  · have hself := parent_of_not_issued hx
    generalize p.find x = root at h
    cases h with
    | stop _ => omega
    | follow hne _ => exact absurd hself hne

/-! ## What requests keep -/

theorem empty : Partition.empty.Ranked where
  rank_lt_parent := fun _ hne => absurd (parent_of_not_issued (Nat.not_lt_zero _)) hne
  two_pow_rank_le := fun _ hissued => absurd hissued (Nat.not_lt_zero _)

theorem makeSet (hr : p.Ranked) (hp : p.WellLinked) : p.makeSet.Ranked where
  rank_lt_parent := by
    intro x hne
    rw [parent_makeSet] at hne ⊢
    simpa using hr.rank_lt_parent x hne
  two_pow_rank_le := by
    intro r hissued hroot
    rw [parent_makeSet] at hroot
    rw [rank_makeSet, population_makeSet hp]
    rcases issued_makeSet.1 hissued with hold | rfl
    · have hpow := hr.two_pow_rank_le r hold hroot
      omega
    -- The new handle is alone, and its rank is zero.
    · have hself : p.sameSet p.nextId p.nextId = true := by simp [sameSet]
      rw [rank_of_not_issued p.not_issued_nextId, if_pos hself]
      omega

theorem union (hr : p.Ranked) (hp : p.WellLinked) (hroom : ∀ x, p.rank x < rankLimit)
    (a b : NodeId) : (p.union a b).Ranked := by
  cases h : p.joins a b with
  | false => rwa [hp.union_of_not_joins h]
  | true =>
    have hlw := hp.winner_ne_loser h
    have hroomWinner := hroom (p.winner a b)
    have hranks := p.rank_loser_cases a b
    refine ⟨?_, ?_⟩
    · intro x hne
      rw [hp.parent_union h] at hne ⊢
      by_cases hx : x = p.loser a b
      -- The new link: a tie has raised the winner above the loser.
      · rw [if_pos hx, hx, hp.rank_union_of_ne h hlw.symm, hp.rank_union_winner h]
        split <;> omega
      -- An old link: its lower end is no representative, so it was not raised.
      · rw [if_neg hx] at hne ⊢
        have hlt := hr.rank_lt_parent x hne
        have hroomParent := hroom (p.parent x)
        have hxw : x ≠ p.winner a b := by
          intro heq
          subst heq
          exact hne (hp.parent_winner a b)
        rw [hp.rank_union_of_ne h hxw, hp.rank_union h]
        split <;> omega
    · intro r hissued hroot
      rw [issued_union] at hissued
      have hrl : r ≠ p.loser a b := by
        intro heq
        subst heq
        rw [hp.parent_union h, if_pos rfl] at hroot
        exact hlw hroot
      rw [hp.parent_union h, if_neg hrl] at hroot
      have hpow := hr.two_pow_rank_le r hissued hroot
      rw [population_union hp h hroot hrl]
      by_cases hrw : r = p.winner a b
      · subst hrw
        have hpowLoser := hr.two_pow_rank_le _ (hp.issued_loser h) (hp.parent_loser a b)
        rw [hp.rank_union_winner h, if_pos rfl]
        split
        -- On a tie both classes have paid for the old rank.
        · have hequal : p.rank (p.loser a b) = p.rank (p.winner a b) := by omega
          have hraised : min (p.rank (p.winner a b) + 1) rankLimit =
              p.rank (p.winner a b) + 1 := by omega
          rw [hequal] at hpowLoser
          rw [hraised, Nat.pow_succ]
          omega
        · omega
      · rw [hp.rank_union_of_ne h hrw, if_neg hrw]
        omega

end Ranked

/-- A history that has issued less than `2 ^ 64` handles leaves a ranked
    partition. -/
theorem ranked_replay (hsize : (empty.replay history).size < 2 ^ 64) :
    (empty.replay history).Ranked := by
  induction history using List.reverseRecOn with
  | nil => exact .empty
  | append_singleton history request ih =>
    have hp := (accounts_replay history).wellLinked
    rw [replay_concat] at hsize ⊢
    cases request with
    | makeSet =>
      have hless : (empty.replay history).size < 2 ^ 64 := by
        simp only [perform, size_makeSet] at hsize
        omega
      exact (ih hless).makeSet hp
    | union a b =>
      have hsame : (empty.replay history).size < 2 ^ 64 := by
        simpa only [perform, size_union] using hsize
      have hroom := (ih hsame).rank_lt_limit hp hsame
      exact (ih hsame).union hp hroom a b

/-! ## The main result -/

/-- After any history that has issued less than `2 ^ 64` handles, parents are
    issued handles of higher rank, and classes are exponential in the rank of
    their representative. So every handle leads to its representative by at
    most as many links as their ranks differ by, and as the logarithm of the
    number of handles; and there is always room to raise a rank. -/
theorem replay_ranked {p : Partition} (hp : p = empty.replay history) (hsize : p.size < 2 ^ 64) :
    (∀ x, p.Issued x → p.Issued (p.parent x)) ∧
    (∀ x, p.parent x ≠ x → p.rank x < p.rank (p.parent x)) ∧
    (∀ r, p.Issued r → p.parent r = r → 2 ^ p.rank r ≤ p.population r) ∧
    (∀ x, p.parent (p.find x) = p.find x ∧ ∃ steps, p.Leads steps x (p.find x) ∧
      steps + p.rank x ≤ p.rank (p.find x) ∧ steps ≤ Nat.log2 p.size) ∧
    (∀ x, p.rank x < rankLimit) ∧
    ∀ a b, p.joins a b = true → p.rank (p.find a) = p.rank (p.find b) →
      (p.union a b).rank (p.find a) = p.rank (p.find a) + 1 := by
  subst hp
  have hlinked := (accounts_replay history).wellLinked
  have hranked := ranked_replay hsize
  have hroom := hranked.rank_lt_limit hlinked hsize
  refine ⟨fun x => hlinked.issued_parent, hranked.rank_lt_parent, hranked.two_pow_rank_le,
    ?_, hroom, ?_⟩
  · intro x
    obtain ⟨steps, hchain, -⟩ := hlinked.leads_find x
    exact ⟨hlinked.parent_find x, steps, hchain, hchain.add_rank_le hranked,
      hranked.steps_le_log2 hlinked hchain⟩
  · intro a b hjoins htie
    have hwinner : (empty.replay history).winner a b = (empty.replay history).find a := by
      simp [winner, htie]
    have hlt := hroom ((empty.replay history).find a)
    rw [hlinked.rank_union hjoins, if_pos ⟨htie, hwinner.symm⟩]
    omega

/-- Two ties make a representative of rank two, which the fourth handle reaches
    over two links. A merge with a foreign handle does not count. -/
theorem replay_ranked_of_two_ties :
    let p := empty.replay [.makeSet, .makeSet, .makeSet, .makeSet, .union ⟨0⟩ ⟨1⟩,
      .union ⟨2⟩ ⟨3⟩, .union ⟨7⟩ ⟨1⟩, .union ⟨1⟩ ⟨3⟩]
    p.rank ⟨0⟩ = 2 ∧ 2 ^ p.rank ⟨0⟩ ≤ p.population ⟨0⟩ ∧
      ∃ steps, p.Leads steps ⟨3⟩ ⟨0⟩ ∧ steps + p.rank ⟨3⟩ ≤ p.rank ⟨0⟩ ∧
        steps ≤ Nat.log2 p.size := by
  intro p
  have hsize : p.size < 2 ^ 64 := by decide
  have hfind : p.find ⟨3⟩ = ⟨0⟩ := by decide
  obtain ⟨-, -, hpow, hchains, -⟩ := replay_ranked rfl hsize
  obtain ⟨-, hchain⟩ := hchains ⟨3⟩
  rw [hfind] at hchain
  exact ⟨by decide, hpow ⟨0⟩ (by decide) (by decide), hchain⟩

end Partition

end SpanForest
