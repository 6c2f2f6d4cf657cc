import Aptos.Consensus.LeaderReputation

/-!
# Aptos consensus — how often each candidate is elected

`get_valid_proposers` draws `next(round.to_le_bytes()) % W` and elects the candidate whose
prefix-sum interval holds the draw. Candidate `i` owns `w[i]` of the residues mod `W`.
Over the `2^64` values `next` can return, each residue occurs `⌊2^64 / W⌋` or
`⌊2^64 / W⌋ + 1` times. So candidate `i` is elected for between `w[i] * ⌊2^64 / W⌋` and
`w[i] * (⌊2^64 / W⌋ + 1)` of them: proportionally to its weight, up to the bias of the
`%` when `W` does not divide `2^64`.

Results:
* `card_filter_mod_mem_Ico`: how many numbers below `N` have their residue in `[a, b)`;
* `getValidProposers_draw_count`: the election's counts, over every output of `next`.
-/

namespace Aptos.Consensus

open Aptos.Rust

variable {Author : Type} [DecidableEq Author]

-- ---------------------------------------------------------------------------
-- Residues below `N`
-- ---------------------------------------------------------------------------

/-- Below `N`, the residue `d < W` occurs `N / W` times, once more when `d < N % W`. -/
theorem card_filter_mod_eq (N : Nat) {W d : Nat} (hd : d < W) :
    ((Finset.range N).filter fun x => x % W = d).card =
      N / W + if d < N % W then 1 else 0 := by
  rw [← Nat.mod_eq_of_lt hd, ← Nat.count_modEq_card N (by omega) d,
    Nat.count_eq_card_filter_range]
  rfl

/-- Below `N`, between `(b - a) * (N / W)` and `(b - a) * (N / W + 1)` numbers have
their residue mod `W` in `[a, b)`, for `b ≤ W`. -/
theorem card_filter_mod_mem_Ico (N : Nat) {W a b : Nat} (hb : b ≤ W) :
    (b - a) * (N / W) ≤ ((Finset.range N).filter fun x => a ≤ x % W ∧ x % W < b).card ∧
      ((Finset.range N).filter fun x => a ≤ x % W ∧ x % W < b).card ≤
        (b - a) * (N / W + 1) := by
  rw [Finset.card_eq_sum_card_fiberwise fun x hx =>
    (Finset.mem_Ico.mpr (Finset.mem_filter.mp hx).2 : x % W ∈ Finset.Ico a b)]
  have hfiber : ∀ d ∈ Finset.Ico a b,
      (((Finset.range N).filter fun x => a ≤ x % W ∧ x % W < b).filter
        fun x => x % W = d).card = N / W + if d < N % W then 1 else 0 := by
    intro d hd
    obtain ⟨hda, hdb⟩ := Finset.mem_Ico.mp hd
    rw [Finset.filter_filter, ← card_filter_mod_eq N (by omega : d < W)]
    congr 1
    exact Finset.filter_congr fun x _ => ⟨And.right, fun h => ⟨h ▸ ⟨hda, hdb⟩, h⟩⟩
  rw [Finset.sum_congr rfl hfiber]
  constructor
  · calc (b - a) * (N / W) = ∑ _d ∈ Finset.Ico a b, N / W := by simp
      _ ≤ _ := Finset.sum_le_sum fun d _ => Nat.le_add_right _ _
  · calc _ ≤ ∑ _d ∈ Finset.Ico a b, (N / W + 1) :=
          Finset.sum_le_sum fun d _ => by split <;> omega
      _ = (b - a) * (N / W + 1) := by simp

-- ---------------------------------------------------------------------------
-- The election's counts
-- ---------------------------------------------------------------------------

/-- **Fairness up to the modulo bias.** With weights of the candidates' length and exact
total `0 < W < 2^64`, and distinct candidates, candidate `i` is elected for between
`w[i] * ⌊2^64 / W⌋` and `w[i] * (⌊2^64 / W⌋ + 1)` of the `2^64` values `next` can
return. -/
theorem getValidProposers_draw_count (self : LeaderReputation Author) (round : UInt64)
    (window : List (NewBlockEvent Author)) (weights : List UInt64)
    (hb : self.backend.getBlockMetadata self.windowSize (targetRound round) = .ok window)
    (hw : self.heuristic.getWeights self.proposers window = weights)
    (hlen : weights.length = self.proposers.length) (hpos : 0 < weightSum weights)
    (hsum : weightSum weights < UInt64.size) (hnodup : self.proposers.Nodup)
    (i : Nat) (hi : i < self.proposers.length) :
    weights[i].toNat * (UInt64.size / weightSum weights) ≤
        ((Finset.range UInt64.size).filter fun x =>
          self.getValidProposers (fun _ => UInt64.ofNat x) round = .ok [self.proposers[i]]).card ∧
      ((Finset.range UInt64.size).filter fun x =>
          self.getValidProposers (fun _ => UInt64.ofNat x) round = .ok [self.proposers[i]]).card ≤
        weights[i].toNat * (UInt64.size / weightSum weights + 1) := by
  have hiw : i < (weights.map UInt64.toNat).length := by simp; omega
  have helected : ((Finset.range UInt64.size).filter fun x =>
      self.getValidProposers (fun _ => UInt64.ofNat x) round = .ok [self.proposers[i]]) =
      (Finset.range UInt64.size).filter fun x =>
        ((weights.map UInt64.toNat).take i).sum ≤ x % weightSum weights ∧
          x % weightSum weights < ((weights.map UInt64.toNat).take (i + 1)).sum := by
    refine Finset.filter_congr fun x hx => ?_
    obtain ⟨hj, heq⟩ := getValidProposers_eq (fun _ => UInt64.ofNat x) self round hb hw
      ⟨hlen, hpos, hsum⟩
    rw [heq, Except.ok.injEq, List.cons.injEq, and_iff_left rfl, hnodup.getElem_inj_iff,
      UInt64.toNat_ofNat_of_lt (Finset.mem_range.mp hx), leastIndexAbove_eq_iff _ _ _ hiw]
  have hwidth : ((weights.map UInt64.toNat).take (i + 1)).sum -
      ((weights.map UInt64.toNat).take i).sum = weights[i].toNat := by
    rw [List.sum_take_succ _ _ hiw]
    simp
  have htop : ((weights.map UInt64.toNat).take (i + 1)).sum ≤ weightSum weights := by
    rw [weightSum, ← List.sum_take_add_sum_drop (weights.map UInt64.toNat) (i + 1)]
    omega
  rw [helected, ← hwidth]
  exact card_filter_mod_mem_Ico UInt64.size htop

/-- In the spec's example (weights `[100, 100, 1]`), `B` is elected for between
`100 * ⌊2^64 / 201⌋` and `100 * (⌊2^64 / 201⌋ + 1)` of the outputs of `next`. -/
theorem getValidProposers_draw_count_specExample :
    100 * (UInt64.size / 201) ≤
        ((Finset.range UInt64.size).filter fun x =>
          specExampleElection.getValidProposers (fun _ => UInt64.ofNat x) 9 = .ok [2]).card ∧
      ((Finset.range UInt64.size).filter fun x =>
          specExampleElection.getValidProposers (fun _ => UInt64.ofNat x) 9 = .ok [2]).card ≤
        100 * (UInt64.size / 201 + 1) :=
  getValidProposers_draw_count specExampleElection 9 _ [100, 100, 1] rfl (by decide) rfl
    (by decide) (by decide) (by decide) 1 (by decide)

end Aptos.Consensus
