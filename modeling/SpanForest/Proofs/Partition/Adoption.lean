import SpanForest.Proofs.Partition.Ranks

/-! # Adoption

    A merge of two classes writes at most twice: one representative gets the
    other one as its parent, and on equal ranks the new parent is raised. What
    `find` answers follows, for every handle at whatever depth.

    * **`Adopts`**: the whole difference between two partitions when one
      representative has adopted another.
    * **`WellLinked.adopts_union`**: every merge that joins two classes is an
      adoption.
    * **`replay_union_adopts`**: the main result. It says which merges join
      nothing, and change nothing, and who adopts whom otherwise.
-/

namespace SpanForest

namespace Partition

variable {p : Partition} {a b : NodeId} {history : List Request}

/-- The only differences between `p` and `p'` are those of an adoption. -/
structure Adopts (p : Partition) (winner loser : NodeId) (p' : Partition) : Prop where
  /-- No handle is issued. -/
  size_eq : p'.size = p.size
  /-- The loser, and nothing else, changes its parent. -/
  parent_ne_iff : ∀ x, p'.parent x ≠ p.parent x ↔ x = loser
  /-- The winner is the new parent. -/
  parent_loser : p'.parent loser = winner
  /-- The winner changes its rank on a tie, and nothing else does. -/
  rank_ne_iff : ∀ x, p'.rank x ≠ p.rank x ↔ p.rank loser = p.rank winner ∧ x = winner
  /-- The change is by one. -/
  rank_winner : p.rank loser = p.rank winner → p'.rank winner = p.rank winner + 1
  /-- The winner represents both classes, and every other class keeps its
      representative. -/
  find_eq : ∀ x, p'.find x = if p.find x = winner ∨ p.find x = loser then winner else p.find x

/-- The winner and the loser are of equal rank when the two representatives are. -/
theorem rank_loser_eq_iff (p : Partition) (a b : NodeId) :
    p.rank (p.loser a b) = p.rank (p.winner a b) ↔ p.rank (p.find a) = p.rank (p.find b) := by
  have hranks := p.rank_loser_cases a b
  omega

theorem WellLinked.adopts_union (hp : p.WellLinked) (hroom : ∀ x, p.rank x < rankLimit)
    (h : p.joins a b = true) : p.Adopts (p.winner a b) (p.loser a b) (p.union a b) where
  size_eq := size_union p a b
  parent_ne_iff := by
    intro x
    rw [hp.parent_union h]
    by_cases hx : x = p.loser a b
    -- The loser was its own parent, and the winner is somebody else.
    · rw [if_pos hx, hx, hp.parent_loser]
      exact iff_of_true (hp.winner_ne_loser h) rfl
    · rw [if_neg hx]
      exact iff_of_false (fun hne => hne rfl) hx
  parent_loser := by rw [hp.parent_union h, if_pos rfl]
  rank_ne_iff := by
    intro x
    have hlimit := hroom x
    rw [hp.rank_union h, rank_loser_eq_iff]
    split
    · rename_i htie
      exact iff_of_true (by omega) htie
    · rename_i hkept
      exact iff_of_false (fun hne => hne rfl) hkept
  rank_winner := by
    intro htie
    have hlimit := hroom (p.winner a b)
    rw [hp.rank_union_winner h, if_pos ((p.rank_loser_eq_iff a b).1 htie)]
    omega
  find_eq := by
    intro x
    rw [hp.find_union h]
    by_cases hloser : p.find x = p.loser a b
    · rw [if_pos hloser, if_pos (.inr hloser)]
    · rw [if_neg hloser]
      split
      · rename_i heither
        exact heither.resolve_right hloser
      · rfl

/-! ## The main result -/

/-- After any history that has issued less than `2 ^ 64` handles, a merge that
    names a foreign handle, or two handles of one class, is answered with no and
    changes nothing. Any other merge is answered with yes: the representative of
    higher rank adopts the other, and the one of the left handle does on equal
    ranks. -/
theorem replay_union_adopts (hp : p = empty.replay history) (hsize : p.size < 2 ^ 64)
    (a b : NodeId) :
    (¬ p.Issued a ∨ ¬ p.Issued b ∨ p.find a = p.find b →
      p.respond (.union a b) = .merged false ∧ p.perform (.union a b) = p) ∧
    (p.Issued a → p.Issued b → p.find a ≠ p.find b →
      p.respond (.union a b) = .merged true ∧
        if p.rank (p.find a) < p.rank (p.find b) then
          p.Adopts (p.find b) (p.find a) (p.perform (.union a b))
        else p.Adopts (p.find a) (p.find b) (p.perform (.union a b))) := by
  subst hp
  have hlinked := (accounts_replay history).wellLinked
  have hroom := (ranked_replay hsize).rank_lt_limit hlinked hsize
  refine ⟨fun hidle => ?_, fun ha hb hne => ?_⟩
  · have hjoins : (empty.replay history).joins a b = false := by
      rw [← Bool.not_eq_true, hlinked.joins_iff]
      tauto
    exact ⟨congrArg Response.merged hjoins, hlinked.union_of_not_joins hjoins⟩
  · have hjoins := hlinked.joins_iff.2 ⟨ha, hb, hne⟩
    have hadopts := hlinked.adopts_union hroom hjoins
    refine ⟨congrArg Response.merged hjoins, ?_⟩
    unfold winner loser at hadopts
    split at hadopts
    · rename_i hlt
      rwa [if_pos hlt]
    · rename_i hge
      rwa [if_neg hge]

/-- Two representatives tie, each above a further handle. The one of the left
    handle adopts the other and so represents all four; a foreign handle still
    represents itself. -/
theorem replay_union_adopts_of_tie :
    let p := empty.replay [.makeSet, .makeSet, .makeSet, .makeSet, .union ⟨0⟩ ⟨1⟩,
      .union ⟨2⟩ ⟨3⟩]
    let p' := p.perform (.union ⟨3⟩ ⟨1⟩)
    p.perform (.union ⟨3⟩ ⟨7⟩) = p ∧ p.respond (.union ⟨3⟩ ⟨1⟩) = .merged true ∧
      (∀ x, p'.parent x ≠ p.parent x ↔ x = ⟨0⟩) ∧ p'.rank ⟨2⟩ = 2 ∧ p'.find ⟨1⟩ = ⟨2⟩ ∧
      p'.find ⟨7⟩ = ⟨7⟩ := by
  intro p p'
  have hsize : p.size < 2 ^ 64 := by decide
  obtain ⟨hidle, -⟩ := replay_union_adopts (p := p) rfl hsize ⟨3⟩ ⟨7⟩
  obtain ⟨-, hmerge⟩ := replay_union_adopts (p := p) rfl hsize ⟨3⟩ ⟨1⟩
  obtain ⟨hanswer, hadopts⟩ := hmerge (by decide) (by decide) (by decide)
  have hequal : ¬ p.rank (p.find ⟨3⟩) < p.rank (p.find ⟨1⟩) := by decide
  rw [if_neg hequal] at hadopts
  have hwinner : p.find ⟨3⟩ = ⟨2⟩ := by decide
  have hloser : p.find ⟨1⟩ = ⟨0⟩ := by decide
  rw [hwinner, hloser] at hadopts
  refine ⟨(hidle (.inr (.inl (by decide)))).2, hanswer, hadopts.parent_ne_iff, ?_, ?_, ?_⟩
  · exact hadopts.rank_winner (by decide)
  · exact (hadopts.find_eq ⟨1⟩).trans (by decide)
  · exact (hadopts.find_eq ⟨7⟩).trans (by decide)

end Partition

end SpanForest
