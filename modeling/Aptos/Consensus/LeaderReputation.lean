import Aptos.Consensus.Selection
import Aptos.Consensus.Heuristic

/-!
# Aptos consensus — the `LeaderReputation` engine

`get_valid_proposers(round)` reads the history window of `round - 4` from the backend,
weighs the candidates with the heuristic, asserts one weight per candidate, turns the
weights into prefix sums, draws `next(round.to_le_bytes()) % total_weight`, and returns
the candidate found by the binary search (`selectIndex`). `is_valid_proposer` and
`process_proposal` accept exactly the author it returns.

`proposer_election::next` is not among the repository's files: it is the parameter
`next`, a function of the round's bytes.

The election is well defined when the weights satisfy `WeightsFit`: one per candidate,
a positive exact total that fits a `u64`. Results:

* `getValidProposers_eq` — then the engine returns the candidate at the spec's index
  `leastIndexAbove` for the draw; `getValidProposers_inv` — and only then does it return.
* `getValidProposers_selects` — the spec's selection law, with its strict tie-break.
* `getValidProposers_total`, `getValidProposers_fails` — it never panics on well-formed
  weights, and never returns on ill-formed ones; `getValidProposers_panics` names the
  panic of each ill-formed case.
* `isValidProposer_consistent` — the three entry points agree on one author.
-/

namespace Aptos.Consensus

open Aptos.Rust

variable {Author : Type}

/-- `LeaderReputation<T>`. The `PhantomData<T>` field carries no behaviour and is left
out. -/
structure LeaderReputation (Author : Type) where
  proposers : List Author
  backend : MetadataBackend Author
  windowSize : UInt64
  heuristic : ReputationHeuristic Author

/-- The spec's `WeightVector` invariants for `n` candidates — one weight per candidate, a
positive total — with the exact total fitting a `u64`. -/
structure WeightsFit (weights : List UInt64) (n : Nat) : Prop where
  length_eq : weights.length = n
  sum_pos : 0 < weightSum weights
  sum_fits : weightSum weights < UInt64.size

section Election

variable (next : List UInt8 → UInt64)

/-- `get_valid_proposers(round)`. The draw `next(..) % total_weight` needs the total of the
prefix-sum loop before the search; the loop's run gives it, and `selectIndex` is the loop and
the search at the draw. The loop is pure, so both runs rewrite the weights to the same
prefix sums that the source's single run leaves for its search. -/
def LeaderReputation.getValidProposers (self : LeaderReputation Author) (round : UInt64) :
    Except Panic (List Author) := do
  let slidingWindow ← self.backend.getBlockMetadata self.windowSize (targetRound round)
  let weights := self.heuristic.getWeights self.proposers slidingWindow
  assertEq weights.length self.proposers.length
  let (_, totalWeight) ← accumulateWeights weights
  let chosenWeight ← u64Rem (next (toLeBytes round)) totalWeight
  let chosenIndex ← selectIndex weights chosenWeight
  let proposer ← index self.proposers chosenIndex
  pure [proposer]

/-- The election of `round` reads a window, and the heuristic's weights for it satisfy
`WeightsFit`. -/
def LeaderReputation.WellWeighted (self : LeaderReputation Author) (round : UInt64) : Prop :=
  ∃ window, self.backend.getBlockMetadata self.windowSize (targetRound round) = .ok window ∧
    WeightsFit (self.heuristic.getWeights self.proposers window) self.proposers.length

/-- `take_backup_proposal(round)`. -/
def LeaderReputation.takeBackupProposal {T : Type} (_self : LeaderReputation Author)
    (_round : UInt64) : Option (Block T Author) :=
  none

-- ---------------------------------------------------------------------------
-- `get_valid_proposers`
-- ---------------------------------------------------------------------------

/-- **What `get_valid_proposers` returns** on well-formed weights: the candidate at the
spec's index for the draw `next(round) % W`. -/
theorem getValidProposers_eq (self : LeaderReputation Author) (round : UInt64)
    {window : List (NewBlockEvent Author)} {weights : List UInt64}
    (hb : self.backend.getBlockMetadata self.windowSize (targetRound round) = .ok window)
    (hw : self.heuristic.getWeights self.proposers window = weights)
    (hfit : WeightsFit weights self.proposers.length) :
    let i := leastIndexAbove (weights.map UInt64.toNat)
      ((next (toLeBytes round)).toNat % weightSum weights)
    ∃ hi : i < self.proposers.length,
      self.getValidProposers next round = .ok [self.proposers[i]] := by
  intro i
  obtain ⟨hlen, hpos, hsum⟩ := hfit
  obtain ⟨_, total, hrun, -, htotal⟩ := accumulateWeights_of_lt hsum
  have hdraw : (next (toLeBytes round) % total).toNat =
      (next (toLeBytes round)).toNat % weightSum weights := by
    rw [UInt64.toNat_mod, htotal]
  have hi : i < self.proposers.length := by
    rw [← hlen]
    simpa using (leastIndexAbove_spec (weights.map UInt64.toNat) _
      (Nat.mod_lt _ hpos)).1
  refine ⟨hi, ?_⟩
  rw [LeaderReputation.getValidProposers, hb, ok_bind]
  simp only [hw, assertEq_of_eq hlen, ok_bind, hrun, u64Rem_of_pos (htotal ▸ hpos),
    selectIndex_eq hsum, hdraw]
  rw [index_of_lt hi]
  rfl

/-- **Only well-formed weights elect**: if `get_valid_proposers` returns, the backend
returned a window and the heuristic's weights for it satisfy `WeightsFit`. -/
theorem getValidProposers_inv {self : LeaderReputation Author} {round : UInt64}
    {proposers : List Author} (h : self.getValidProposers next round = .ok proposers) :
    self.WellWeighted round := by
  rw [LeaderReputation.getValidProposers] at h
  obtain ⟨window, hb, h⟩ := bind_eq_ok.mp h
  obtain ⟨_, hassert, h⟩ := bind_eq_ok.mp h
  obtain ⟨⟨cum, total⟩, hrun, h⟩ := bind_eq_ok.mp h
  obtain ⟨_, hrem, -⟩ := bind_eq_ok.mp h
  have hsum : weightSum (self.heuristic.getWeights self.proposers window) < UInt64.size := by
    by_contra hle
    rw [accumulateWeights_of_le (Nat.le_of_not_lt hle)] at hrun
    cases hrun
  obtain ⟨cum', total', hrun', -, htotal⟩ := accumulateWeights_of_lt hsum
  obtain ⟨-, rfl⟩ := Prod.mk.inj (Except.ok.inj (hrun.symm.trans hrun'))
  refine ⟨window, hb, assertEq_eq_ok.mp hassert, ?_, hsum⟩
  rw [← htotal]
  exact Nat.pos_of_ne_zero fun h0 => (u64Rem_eq_ok.mp hrem).1 (UInt64.toNat.inj h0)

/-- What a successful election returns: one candidate of the list. -/
theorem getValidProposers_singleton {self : LeaderReputation Author} {round : UInt64}
    {proposers : List Author} (h : self.getValidProposers next round = .ok proposers) :
    ∃ p ∈ self.proposers, proposers = [p] := by
  obtain ⟨window, hb, hfit⟩ := getValidProposers_inv next h
  obtain ⟨hi, heq⟩ := getValidProposers_eq next self round hb rfl hfit
  exact ⟨_, List.getElem_mem hi, Except.ok.inj (h.symm.trans heq)⟩

-- ---------------------------------------------------------------------------
-- `is_valid_proposer` and `process_proposal`
-- ---------------------------------------------------------------------------

variable [DecidableEq Author]

/-- `is_valid_proposer(author, round)`. -/
def LeaderReputation.isValidProposer (self : LeaderReputation Author) (author : Author)
    (round : UInt64) : Except Panic (Option Author) := do
  let proposers ← self.getValidProposers next round
  pure (if author ∈ proposers then some author else none)

/-- `process_proposal(proposal)`: `proposal.author()?` first, so a block without an
author is dropped before the election is consulted. -/
def LeaderReputation.processProposal {T : Type} (self : LeaderReputation Author)
    (proposal : Block T Author) : Except Panic (Option (Block T Author)) :=
  match proposal.author with
  | none => pure none
  | some author => do
    let proposers ← self.getValidProposers next proposal.round
    pure (if author ∈ proposers then some proposal else none)

/-- `is_valid_proposer` once the election has returned `[p]`: `Some` for `p` alone. -/
theorem isValidProposer_of_singleton {self : LeaderReputation Author} {round : UInt64}
    {p : Author} (h : self.getValidProposers next round = .ok [p]) (a : Author) :
    self.isValidProposer next a round = .ok (if a = p then some a else none) := by
  simp [LeaderReputation.isValidProposer, h, pure, Except.pure]

theorem processProposal_of_author_none {T : Type} (self : LeaderReputation Author)
    {b : Block T Author} (ha : b.author = none) : self.processProposal next b = .ok none := by
  simp [LeaderReputation.processProposal, ha, pure, Except.pure]

/-- `process_proposal` once the election for the block's round has returned `[p]`. -/
theorem processProposal_of_singleton {T : Type} {self : LeaderReputation Author} {p : Author}
    {b : Block T Author} (h : self.getValidProposers next b.round = .ok [p]) :
    self.processProposal next b = .ok (if b.author = some p then some b else none) := by
  cases ha : b.author with
  | none => simp [processProposal_of_author_none next self ha]
  | some a => simp [LeaderReputation.processProposal, ha, h, pure, Except.pure]

/-- An accepted block's round elected its author. -/
theorem processProposal_inv {T : Type} {self : LeaderReputation Author} {b b' : Block T Author}
    (h : self.processProposal next b = .ok (some b')) :
    ∃ a proposers, b.author = some a ∧ self.getValidProposers next b.round = .ok proposers ∧
      a ∈ proposers ∧ b' = b := by
  unfold LeaderReputation.processProposal at h
  split at h
  · cases h
  · rename_i a ha
    obtain ⟨proposers, hp, h⟩ := bind_eq_ok.mp h
    by_cases hmem : a ∈ proposers
    · simp only [hmem, if_true, pure, Except.pure, Except.ok.injEq, Option.some.injEq] at h
      exact ⟨a, proposers, ha, hp, hmem, h.symm⟩
    · simp [hmem, pure, Except.pure] at h

end Election

-- ---------------------------------------------------------------------------
-- The election's contracts
-- ---------------------------------------------------------------------------

section Contracts

variable (next : List UInt8 → UInt64)

/-- **The selection law of `get_valid_proposers`.** With `weights` the heuristic's output
for the window, one per candidate, of exact total `0 < W < 2^64`: the engine returns
exactly `[P[i]]` for the least `i` whose prefix sum `w[0] + … + w[i]` is strictly greater
than the draw `next(round.to_le_bytes()) % W`; a prefix sum equal to the draw does not
select its index. -/
theorem getValidProposers_selects (self : LeaderReputation Author) (round : UInt64)
    (window : List (NewBlockEvent Author)) (weights : List UInt64)
    (hb : self.backend.getBlockMetadata self.windowSize (targetRound round) = .ok window)
    (hw : self.heuristic.getWeights self.proposers window = weights)
    (hlen : weights.length = self.proposers.length) (hpos : 0 < weightSum weights)
    (hfit : weightSum weights < UInt64.size) :
    let draw := (next (toLeBytes round)).toNat % weightSum weights
    ∃ (i : Nat) (hi : i < self.proposers.length),
      draw < ((weights.map UInt64.toNat).take (i + 1)).sum ∧
      (∀ j < i, ((weights.map UInt64.toNat).take (j + 1)).sum ≤ draw) ∧
      self.getValidProposers next round = .ok [self.proposers[i]] := by
  obtain ⟨hi, heq⟩ := getValidProposers_eq next self round hb hw ⟨hlen, hpos, hfit⟩
  obtain ⟨-, habove, hbelow⟩ := leastIndexAbove_spec _ _ (Nat.mod_lt _ hpos)
  exact ⟨_, hi, habove, hbelow, heq⟩

/-- **Which panic.** Once the window is read, a length mismatch fails the `assert_eq!`,
an exact total past `2^64 - 1` overflows a prefix-sum addition, and a zero total divides
by zero — each check names itself. -/
theorem getValidProposers_panics (self : LeaderReputation Author) (round : UInt64)
    (window : List (NewBlockEvent Author))
    (hb : self.backend.getBlockMetadata self.windowSize (targetRound round) = .ok window) :
    let weights := self.heuristic.getWeights self.proposers window
    (weights.length ≠ self.proposers.length → self.getValidProposers next round =
      .error (.assertEq weights.length self.proposers.length)) ∧
    (weights.length = self.proposers.length → UInt64.size ≤ weightSum weights →
      self.getValidProposers next round = .error .addOverflow) ∧
    (weights.length = self.proposers.length → weightSum weights = 0 →
      self.getValidProposers next round = .error .remByZero) := by
  intro weights
  rw [LeaderReputation.getValidProposers, hb, ok_bind]
  refine ⟨fun hne => ?_, fun hlen hover => ?_, fun hlen hzero => ?_⟩
  · simp only [assertEq_of_ne hne, error_bind]
  · simp only [assertEq_of_eq hlen, ok_bind, accumulateWeights_of_le hover, error_bind]
  · obtain ⟨cum, total, hrun, -, htotal⟩ :=
      accumulateWeights_of_lt (by rw [hzero]; decide : weightSum weights < UInt64.size)
    have h0 : total = 0 := UInt64.toNat.inj (htotal.trans hzero)
    simp only [assertEq_of_eq hlen, ok_bind, hrun, h0, u64Rem_zero, error_bind]

variable [DecidableEq Author]

/-- The spec's heuristic example as an election: candidates `A, B, C` (`1, 2, 3`), a mock
backend serving `{proposer: A, voters: {B}}, {proposer: B, voters: {A}}`, and
`ActiveInactiveHeuristic(100, 1)`, so weights `[100, 100, 1]`. -/
def specExampleElection : LeaderReputation Nat where
  proposers := [1, 2, 3]
  backend := ⟨fun _ _ => .ok [⟨1, 1, [2]⟩, ⟨2, 2, [1]⟩]⟩
  windowSize := 20
  heuristic := (⟨100, 1⟩ : ActiveInactiveHeuristic).toReputationHeuristic

/-- With draw `150` the example elects `B`: `100 ≤ 150 < 200`. -/
theorem getValidProposers_selects_specExample :
    specExampleElection.getValidProposers (fun _ => 150) 9 = .ok [2] := by
  obtain ⟨i, hi, habove, hbelow, h⟩ := getValidProposers_selects (fun _ => 150)
    specExampleElection 9 _ [100, 100, 1] rfl (by decide) rfl (by decide) (by decide)
  have hi1 : i = 1 := by
    match i, hi with
    | 0, _ => exact absurd habove (by decide)
    | 1, _ => rfl
    | 2, _ => exact absurd (hbelow 1 (by omega)) (by decide)
  subst hi1
  exact h

/-- **Authorization consistency.** Whenever `get_valid_proposers(round)` returns, it
returns `[p]` for one candidate `p`; `is_valid_proposer(a, round)` is `Some(a)` for
`a = p` and `None` for every other author, in the list or not; and `process_proposal`
passes a block of that round unchanged exactly when its author is valid and drops it
otherwise, blocks without an author included — so no two blocks of the round by
different authors are both accepted. -/
theorem isValidProposer_consistent (self : LeaderReputation Author) (round : UInt64)
    (proposers : List Author) (h : self.getValidProposers next round = .ok proposers) :
    ∃ p, proposers = [p] ∧ p ∈ self.proposers ∧
      (∀ a, self.isValidProposer next a round = .ok (if a = p then some a else none)) ∧
      ∀ {T : Type} (b : Block T Author), b.round = round →
        (self.processProposal next b = .ok (some b) ↔
          ∃ a, b.author = some a ∧ self.isValidProposer next a b.round = .ok (some a)) ∧
        (self.processProposal next b = .ok (some b) ∨
          self.processProposal next b = .ok none) ∧
        ∀ b' : Block T Author, b'.round = round →
          self.processProposal next b = .ok (some b) →
          self.processProposal next b' = .ok (some b') → b.author = b'.author := by
  obtain ⟨p, hp, rfl⟩ := getValidProposers_singleton next h
  have hvalid := isValidProposer_of_singleton next h
  refine ⟨p, rfl, hp, hvalid, fun {T} b hb => ?_⟩
  have hproc {b : Block T Author} (hb : b.round = round) :=
    processProposal_of_singleton next (hb ▸ h : self.getValidProposers next b.round = .ok [p])
  have haccept {b : Block T Author} (hb : b.round = round) :
      self.processProposal next b = .ok (some b) ↔ b.author = some p := by
    rw [hproc hb]
    by_cases ha : b.author = some p <;> simp [ha]
  refine ⟨?_, ?_, fun b' hb' h1 h2 => ((haccept hb).mp h1).trans ((haccept hb').mp h2).symm⟩
  · rw [haccept hb, hb]
    simp [hvalid]
  · rw [hproc hb]
    split <;> simp

/-- At a round of the example that elects `B`, only `B` is valid. -/
theorem isValidProposer_consistent_specExample :
    ∃ p, [2] = [p] ∧ p ∈ specExampleElection.proposers ∧
      ∀ a, specExampleElection.isValidProposer (fun _ => 150) a 9 =
        .ok (if a = p then some a else none) := by
  obtain ⟨p, hp, hmem, hvalid, -⟩ := isValidProposer_consistent (fun _ => 150)
    specExampleElection 9 [2] ((@getValidProposers_eq _ (fun _ => 150) specExampleElection 9 _
      [100, 100, 1] rfl (by decide) ⟨rfl, by decide, by decide⟩).2.trans rfl)
  exact ⟨p, hp, hmem, hvalid⟩

/-- `ActiveInactiveHeuristic(a, i)` with `a, i ≥ 1` gives a non-empty candidate list
well-formed weights whenever `n * max(a, i)` fits a `u64`, whatever the history. -/
theorem activeInactive_weightsFit (h : ActiveInactiveHeuristic) (candidates : List Author)
    (history : List (NewBlockEvent Author)) (hn : 1 ≤ candidates.length)
    (ha : 1 ≤ h.activeWeight.toNat) (hi : 1 ≤ h.inactiveWeight.toNat)
    (hmax : candidates.length * max h.activeWeight.toNat h.inactiveWeight.toNat < UInt64.size) :
    WeightsFit (h.getWeights candidates history) candidates.length := by
  have hentry : ∀ w ∈ h.getWeights candidates history,
      1 ≤ w.toNat ∧ w.toNat ≤ max h.activeWeight.toNat h.inactiveWeight.toNat := by
    simp only [h.getWeights_eq_map, List.mem_map]
    rintro _ ⟨a, -, rfl⟩
    split <;> omega
  have hlen : (h.getWeights candidates history).length = candidates.length := by
    simp [h.getWeights_eq_map]
  have hle := weightSum_le_length_mul fun w hw => (hentry w hw).2
  have hge := length_le_weightSum fun w hw => (hentry w hw).1
  rw [hlen] at hle hge
  exact ⟨hlen, by omega, by omega⟩

/-- **`get_valid_proposers` does not panic on well-formed weights.** Once the backend has
returned a window, weights of the candidates' length with exact total `0 < W < 2^64`
make every step succeed: the `assert_eq!`, every prefix-sum addition, the `%` by
`total_weight`, the `unwrap_err` of the search and the final index. In particular this
holds for `ActiveInactiveHeuristic(a, i)` on every window when `n ≥ 1`, `a, i ≥ 1` and
`n * max(a, i) ≤ 2^64 - 1`. -/
theorem getValidProposers_total (self : LeaderReputation Author) (round : UInt64)
    (window : List (NewBlockEvent Author))
    (hb : self.backend.getBlockMetadata self.windowSize (targetRound round) = .ok window) :
    ((self.heuristic.getWeights self.proposers window).length = self.proposers.length →
      0 < weightSum (self.heuristic.getWeights self.proposers window) →
      weightSum (self.heuristic.getWeights self.proposers window) < UInt64.size →
      ∃ proposers, self.getValidProposers next round = .ok proposers) ∧
    ∀ h : ActiveInactiveHeuristic, self.heuristic = h.toReputationHeuristic →
      1 ≤ self.proposers.length → 1 ≤ h.activeWeight.toNat →
      1 ≤ h.inactiveWeight.toNat →
      self.proposers.length * max h.activeWeight.toNat h.inactiveWeight.toNat < UInt64.size →
      ∃ proposers, self.getValidProposers next round = .ok proposers := by
  have hok (hfit : WeightsFit (self.heuristic.getWeights self.proposers window)
      self.proposers.length) : ∃ proposers, self.getValidProposers next round = .ok proposers :=
    ⟨_, (getValidProposers_eq next self round hb rfl hfit).2⟩
  refine ⟨fun hlen hpos hsum => hok ⟨hlen, hpos, hsum⟩, fun h hh hn ha hi hmax => hok ?_⟩
  rw [hh]
  exact activeInactive_weightsFit h self.proposers window hn ha hi hmax

/-- The example election returns, by its `ActiveInactiveHeuristic(100, 1)`. -/
theorem getValidProposers_total_specExample :
    ∃ proposers, specExampleElection.getValidProposers (fun _ => 150) 9 = .ok proposers :=
  (getValidProposers_total (fun _ => 150) specExampleElection 9 _ rfl).2 ⟨100, 1⟩ rfl
    (by decide) (by decide) (by decide) (by decide)

/-- **Ill-formed weights never elect.** `get_valid_proposers`, `is_valid_proposer` and
`process_proposal` return a proposer only if the election read a window whose weights
have the candidates' length and an exact total `0 < W < 2^64`; a length mismatch, a zero
total or an overflowing total makes the call fail, never pick a candidate from wrapped
prefix sums. -/
theorem getValidProposers_fails (self : LeaderReputation Author) (round : UInt64) :
    (∀ proposers, self.getValidProposers next round = .ok proposers →
      self.WellWeighted round) ∧
    (∀ a a', self.isValidProposer next a round = .ok (some a') → self.WellWeighted round) ∧
    ∀ {T : Type} (b b' : Block T Author), self.processProposal next b = .ok (some b') →
      self.WellWeighted b.round := by
  refine ⟨fun _ h => getValidProposers_inv next h, fun a a' h => ?_, fun b b' h => ?_⟩
  · obtain ⟨proposers, hp, -⟩ := bind_eq_ok.mp h
    exact getValidProposers_inv next hp
  · obtain ⟨_, _, -, hp, -⟩ := processProposal_inv next h
    exact getValidProposers_inv next hp

/-- The spec's fatal path: with `ActiveInactiveHeuristic(0, 0)` the example's weights
sum to zero, and the election panics at the `%`. -/
theorem getValidProposers_panics_zeroWeights :
    ({ specExampleElection with
        heuristic := (⟨0, 0⟩ : ActiveInactiveHeuristic).toReputationHeuristic
      }).getValidProposers (fun _ => 150) 9 = .error .remByZero :=
  (getValidProposers_panics (fun _ => 150) _ 9 _ rfl).2.2 (by decide) (by decide)

end Contracts

end Aptos.Consensus
