import Aptos.Rust.Slice

/-!
# Aptos consensus — the weighted selection of `get_valid_proposers`

After the weights are computed, `get_valid_proposers` rewrites them in place into
inclusive prefix sums (`accumulateWeights`), draws `chosen_weight` below their total, and
binary-searches the first prefix sum above the draw (`selectIndex`). The spec states the
selection as "the smallest `i` with `cum[i] > chosen`": `leastIndexAbove`, over exact
`Nat` prefix sums (`cumulative`).

Results:

* `accumulateWeights_of_lt` / `accumulateWeights_of_le` — the loop returns the prefix sums
  and the exact total when that total fits a `u64`, and panics on overflow otherwise.
* `selectIndex_eq` — the code's selection is the spec's whenever the total fits.
* `leastIndexAbove_eq_iff` — index `i` is selected exactly by the draws in
  `[w₀ + … + wᵢ₋₁, w₀ + … + wᵢ)`, whence the exact counts of `selectIndex_card`.
-/

namespace Aptos.Consensus

open Aptos.Rust

/-- The exact sum of a weight vector, with no wrap-around. -/
def weightSum (weights : List UInt64) : Nat := (weights.map UInt64.toNat).sum

/-- The prefix-sum loop of `get_valid_proposers`,
`for w in &mut weights { total_weight += *w; *w = total_weight; }`, from a running total:
the rewritten vector and the final `total_weight`. -/
def accumulateWeightsFrom (total : UInt64) :
    List UInt64 → Except Panic (List UInt64 × UInt64)
  | [] => .ok ([], total)
  | w :: weights => do
    let total ← u64Add total w
    let (rest, final) ← accumulateWeightsFrom total weights
    pure (total :: rest, final)

/-- The loop from `let mut total_weight = 0`. -/
def accumulateWeights (weights : List UInt64) : Except Panic (List UInt64 × UInt64) :=
  accumulateWeightsFrom 0 weights

/-- The selection of `get_valid_proposers` at a draw `chosen_weight`: the prefix-sum loop,
then `weights.binary_search_by(|w| if *w <= chosen_weight { Less } else { Greater })`
and `unwrap_err()`. -/
def selectIndex (weights : List UInt64) (chosenWeight : UInt64) : Except Panic Nat := do
  let (weights, _) ← accumulateWeights weights
  unwrapErr (binarySearchBy weights fun w => if w ≤ chosenWeight then .lt else .gt)

/-- Exact inclusive prefix sums from a running total:
`cumulative t [w₀, w₁, …] = [t + w₀, t + w₀ + w₁, …]`. -/
def cumulative (total : Nat) : List Nat → List Nat
  | [] => []
  | w :: weights => (total + w) :: cumulative (total + w) weights

/-- The spec's selection: the smallest index whose inclusive prefix sum is strictly
greater than the draw (the length of the vector if there is none). -/
def leastIndexAbove (weights : List Nat) (draw : Nat) : Nat :=
  (cumulative 0 weights).findIdx fun s => draw < s

@[simp] theorem weightSum_nil : weightSum [] = 0 := rfl

@[simp] theorem weightSum_cons (w : UInt64) (weights : List UInt64) :
    weightSum (w :: weights) = w.toNat + weightSum weights := by
  simp [weightSum]

theorem weightSum_le_length_mul {m : Nat} :
    ∀ {weights : List UInt64}, (∀ w ∈ weights, w.toNat ≤ m) →
      weightSum weights ≤ weights.length * m
  | [], _ => by simp
  | w :: weights, h => by
    have := weightSum_le_length_mul fun x hx => h x (List.mem_cons_of_mem _ hx)
    have hw := h w (List.mem_cons_self _ _)
    rw [weightSum_cons, List.length_cons, Nat.add_one_mul]
    omega

theorem length_le_weightSum :
    ∀ {weights : List UInt64}, (∀ w ∈ weights, 1 ≤ w.toNat) →
      weights.length ≤ weightSum weights
  | [], _ => by simp
  | w :: weights, h => by
    have := length_le_weightSum fun x hx => h x (List.mem_cons_of_mem _ hx)
    have hw := h w (List.mem_cons_self _ _)
    rw [weightSum_cons, List.length_cons]
    omega

-- ---------------------------------------------------------------------------
-- Exact prefix sums
-- ---------------------------------------------------------------------------

@[simp] theorem length_cumulative (total : Nat) (weights : List Nat) :
    (cumulative total weights).length = weights.length := by
  induction weights generalizing total <;> simp [cumulative, *]

theorem getElem_cumulative (total : Nat) :
    ∀ (weights : List Nat) (j : Nat) (hj : j < (cumulative total weights).length),
      (cumulative total weights)[j] = total + (weights.take (j + 1)).sum
  | [], _, hj => absurd hj (by simp [cumulative])
  | w :: weights, 0, _ => by simp [cumulative]
  | w :: weights, j + 1, hj => by
    simp only [cumulative, List.getElem_cons_succ, List.take_succ_cons, List.sum_cons]
    rw [getElem_cumulative (total + w) weights j (by simpa [cumulative] using hj)]
    omega

theorem sum_take_le_sum_take (weights : List Nat) {m n : Nat} (h : m ≤ n) :
    (weights.take m).sum ≤ (weights.take n).sum := by
  have := List.sum_take_add_sum_drop (weights.take n) m
  rw [List.take_take, Nat.min_eq_left h] at this
  omega

theorem cumulative_pairwise (total : Nat) (weights : List Nat) :
    (cumulative total weights).Pairwise (· ≤ ·) := by
  refine List.pairwise_iff_getElem.mpr fun i j hi hj hij => ?_
  rw [getElem_cumulative, getElem_cumulative]
  exact Nat.add_le_add_left (sum_take_le_sum_take weights (by omega)) total

theorem getLastD_cumulative (total : Nat) (weights : List Nat) :
    (cumulative total weights).getLastD total = total + weights.sum := by
  induction weights generalizing total with
  | nil => simp [cumulative]
  | cons w weights ih =>
    rw [cumulative, List.getLastD_cons, ih, List.sum_cons]
    omega

-- ---------------------------------------------------------------------------
-- The prefix-sum loop
-- ---------------------------------------------------------------------------

/-- **The loop's run** when the exact total fits a `u64`: no addition overflows, the
vector becomes its inclusive prefix sums, and `total_weight` ends at the exact sum. -/
theorem accumulateWeightsFrom_of_lt (total : UInt64) :
    ∀ (weights : List UInt64), total.toNat + weightSum weights < UInt64.size →
      ∃ cum final, accumulateWeightsFrom total weights = .ok (cum, final) ∧
        cum.map UInt64.toNat = cumulative total.toNat (weights.map UInt64.toNat) ∧
        final.toNat = total.toNat + weightSum weights
  | [], _ => ⟨[], total, rfl, rfl, rfl⟩
  | w :: weights, h => by
    simp only [weightSum_cons] at h
    have hw : total.toNat + w.toNat < UInt64.size := by omega
    obtain ⟨cum, final, hrun, hcum, hfinal⟩ :=
      accumulateWeightsFrom_of_lt (total + w) weights (by rw [toNat_add_of_lt hw]; omega)
    refine ⟨(total + w) :: cum, final, ?_, ?_, ?_⟩
    · simp [accumulateWeightsFrom, u64Add_of_lt hw, hrun, pure, Except.pure]
    · simp [cumulative, hcum, toNat_add_of_lt hw]
    · rw [hfinal, toNat_add_of_lt hw, weightSum_cons]
      omega

/-- The loop panics on overflow exactly when the exact total does not fit a `u64`. -/
theorem accumulateWeightsFrom_of_le :
    ∀ (total : UInt64) (weights : List UInt64),
      UInt64.size ≤ total.toNat + weightSum weights →
        accumulateWeightsFrom total weights = .error .addOverflow
  | total, [], h => absurd h (by simpa using UInt64.toNat_lt_size total)
  | total, w :: weights, h => by
    simp only [weightSum_cons] at h
    by_cases hw : total.toNat + w.toNat < UInt64.size
    · rw [accumulateWeightsFrom, u64Add_of_lt hw, ok_bind,
        accumulateWeightsFrom_of_le (total + w) weights (by rw [toNat_add_of_lt hw]; omega),
        error_bind]
    · rw [accumulateWeightsFrom, u64Add_of_le (by omega), error_bind]

theorem accumulateWeights_of_lt {weights : List UInt64} (h : weightSum weights < UInt64.size) :
    ∃ cum total, accumulateWeights weights = .ok (cum, total) ∧
      cum.map UInt64.toNat = cumulative 0 (weights.map UInt64.toNat) ∧
      total.toNat = weightSum weights := by
  simpa using accumulateWeightsFrom_of_lt 0 weights (by simpa using h)

theorem accumulateWeights_of_le {weights : List UInt64} (h : UInt64.size ≤ weightSum weights) :
    accumulateWeights weights = .error .addOverflow :=
  accumulateWeightsFrom_of_le 0 weights (by simpa using h)

/-- The rewritten vector is sorted: its `toNat` image is. -/
theorem pairwise_of_map_toNat {cum : List UInt64} {ns : List Nat}
    (h : cum.map UInt64.toNat = cumulative 0 ns) : cum.Pairwise (· ≤ ·) := by
  have := cumulative_pairwise 0 ns
  rw [← h, List.pairwise_map] at this
  exact this

-- ---------------------------------------------------------------------------
-- The selection
-- ---------------------------------------------------------------------------

/-- Counting the prefix sums at or below a draw finds the spec's index. -/
theorem countP_le_eq_leastIndexAbove {cum : List UInt64} {ns : List Nat}
    (h : cum.map UInt64.toNat = cumulative 0 ns) (chosenWeight : UInt64) :
    (cum.countP fun x => x ≤ chosenWeight) = leastIndexAbove ns chosenWeight.toNat := by
  have hcount : (cum.countP fun x => x ≤ chosenWeight) =
      (cum.map UInt64.toNat).countP fun n => n ≤ chosenWeight.toNat := by
    rw [List.countP_map]
    rfl
  rw [hcount, h, leastIndexAbove, countP_eq_findIdx_of_pairwise
    ((cumulative_pairwise 0 ns).imp fun hab hbc => by simp only [decide_eq_true_eq] at *; omega)]
  congr 1
  funext n
  by_cases hn : n ≤ chosenWeight.toNat <;> simp [hn]
  omega

/-- **The code's selection is the spec's**: whenever the exact total fits a `u64`, the
prefix-sum loop and the binary search pick the least index whose prefix sum exceeds the
draw. -/
theorem selectIndex_eq {weights : List UInt64} (h : weightSum weights < UInt64.size)
    (chosenWeight : UInt64) :
    selectIndex weights chosenWeight =
      .ok (leastIndexAbove (weights.map UInt64.toNat) chosenWeight.toNat) := by
  obtain ⟨cum, total, hrun, hcum, -⟩ := accumulateWeights_of_lt h
  rw [selectIndex, hrun, ok_bind]
  simp only [binarySearchBy_le_eq_error (pairwise_of_map_toNat hcum), unwrapErr,
    countP_le_eq_leastIndexAbove hcum]

/-- For a draw below the total, the selected index is in range, its prefix sum exceeds
the draw, and no earlier prefix sum does. -/
theorem leastIndexAbove_spec (weights : List Nat) (draw : Nat) (h : draw < weights.sum) :
    leastIndexAbove weights draw < weights.length ∧
      draw < (weights.take (leastIndexAbove weights draw + 1)).sum ∧
      ∀ j < leastIndexAbove weights draw, (weights.take (j + 1)).sum ≤ draw := by
  have hlen : leastIndexAbove weights draw < (cumulative 0 weights).length := by
    have hn : weights.length - 1 < (cumulative 0 weights).length := by
      cases weights with
      | nil => simp at h
      | cons w weights => simp
    refine List.findIdx_lt_length_of_exists ⟨_, List.getElem_mem hn, ?_⟩
    rw [getElem_cumulative, List.take_of_length_le (by omega)]
    simpa using h
  refine ⟨by simpa using hlen, ?_, fun j hj => ?_⟩
  · have := @List.findIdx_getElem _ _ _ hlen
    rw [getElem_cumulative] at this
    simpa using this
  · have := List.not_of_lt_findIdx hj
    rw [getElem_cumulative] at this
    simpa using this

/-- **Which draws select `i`**: below the total, exactly those in
`[w₀ + … + wᵢ₋₁, w₀ + … + wᵢ)`. -/
theorem leastIndexAbove_eq_iff (weights : List Nat) (draw : Nat) (i : Nat)
    (hi : i < weights.length) :
    leastIndexAbove weights draw = i ↔
      (weights.take i).sum ≤ draw ∧ draw < (weights.take (i + 1)).sum := by
  rw [leastIndexAbove, List.findIdx_eq (by simpa using hi)]
  simp only [getElem_cumulative, decide_eq_true_eq, decide_eq_false_iff_not, Nat.not_lt,
    zero_add]
  constructor
  · rintro ⟨hlt, hbefore⟩
    refine ⟨?_, hlt⟩
    cases i with
    | zero => simp
    | succ i => exact hbefore i (Nat.lt_succ_self i)
  · rintro ⟨hle, hlt⟩
    exact ⟨hlt, fun j hj => (sum_take_le_sum_take weights hj).trans hle⟩

-- ---------------------------------------------------------------------------
-- The search over the prefix sums
-- ---------------------------------------------------------------------------

/-- **`binary_search_by` over the prefix sums.** On every non-decreasing `u64` slice the
search returns `Err(k)`, `k` the number of elements `≤ c`, which is the first index of an
element `> c` (the length if there is none). When the exact total of the weights fits a
`u64`, the prefix-sum loop produces such a slice, of the weights' length, ending at that
total, and a draw below the total lands strictly inside it. -/
theorem binarySearchBy_prefixSums (s : List UInt64) (hs : s.Pairwise (· ≤ ·)) (c : UInt64)
    (weights : List UInt64) (hsum : weightSum weights < UInt64.size) :
    binarySearchBy s (fun x => if x ≤ c then .lt else .gt) =
        .error (s.countP fun x => x ≤ c) ∧
      (s.countP fun x => x ≤ c) = s.findIdx (fun x => c < x) ∧
      ∃ cum total, accumulateWeights weights = .ok (cum, total) ∧
        cum.Pairwise (· ≤ ·) ∧ cum.length = weights.length ∧
        total.toNat = weightSum weights ∧ cum.getLastD 0 = total ∧
        ∀ chosenWeight, chosenWeight < total →
          (cum.countP fun x => x ≤ chosenWeight) < weights.length := by
  refine ⟨binarySearchBy_le_eq_error hs c, ?_, ?_⟩
  · rw [countP_eq_findIdx_of_pairwise (hs.imp fun hab hbc => by
      simp only [decide_eq_true_eq, u64_le_iff] at *; omega)]
    congr 1
    funext x
    simp only [← decide_not, UInt64.not_le]
  obtain ⟨cum, total, hrun, hcum, htotal⟩ := accumulateWeights_of_lt hsum
  have hlen : cum.length = weights.length := by
    simpa using congrArg List.length hcum
  refine ⟨cum, total, hrun, pairwise_of_map_toNat hcum, hlen, htotal, ?_, fun c hc => ?_⟩
  · have hlast := List.getLastD_map UInt64.toNat cum 0
    rw [hcum, UInt64.toNat_zero, getLastD_cumulative] at hlast
    rw [u64_eq_iff, ← hlast, htotal, weightSum, zero_add]
  · rw [countP_le_eq_leastIndexAbove hcum]
    simpa using (leastIndexAbove_spec _ _ ((u64_lt_iff.mp hc).trans_eq htotal)).1

/-- The spec's tie-break weights: over their prefix sums `[10, 30, 60]` the draw `10`
is searched to index `1`, past the prefix sum equal to it. -/
theorem binarySearchBy_prefixSums_tieBreak :
    ([10, 30, 60] : List UInt64).Pairwise (· ≤ ·) ∧ weightSum [10, 20, 30] < UInt64.size ∧
      binarySearchBy [10, 30, 60] (fun x => if x ≤ (10 : UInt64) then .lt else .gt) =
        .error 1 :=
  ⟨by decide, by decide,
    (binarySearchBy_prefixSums [10, 30, 60] (by decide) 10 [10, 20, 30] (by decide)).1⟩

/-- The draws in `[0, W)` that select index `i` are the interval of its weight. -/
theorem selectIndex_filter_eq_Ico {weights : List UInt64} (hsum : weightSum weights < UInt64.size)
    {i : Nat} (hi : i < weights.length) :
    ((Finset.range (weightSum weights)).filter fun c =>
        selectIndex weights (UInt64.ofNat c) = .ok i) =
      Finset.Ico ((weights.map UInt64.toNat).take i).sum
        ((weights.map UInt64.toNat).take (i + 1)).sum := by
  ext c
  have hle := sum_take_le_sum_take (weights.map UInt64.toNat) (Nat.le_refl (i + 1))
  have htop : ((weights.map UInt64.toNat).take (i + 1)).sum ≤ weightSum weights := by
    rw [weightSum, ← List.sum_take_add_sum_drop (weights.map UInt64.toNat) (i + 1)]
    omega
  simp only [Finset.mem_filter, Finset.mem_range, Finset.mem_Ico]
  constructor
  · rintro ⟨hc, hsel⟩
    rw [selectIndex_eq hsum, UInt64.toNat_ofNat_of_lt (by omega), Except.ok.injEq,
      leastIndexAbove_eq_iff _ _ _ (by simpa using hi)] at hsel
    exact hsel
  · rintro ⟨hlo, hhi⟩
    refine ⟨by omega, ?_⟩
    rw [selectIndex_eq hsum, UInt64.toNat_ofNat_of_lt (by omega), Except.ok.injEq,
      leastIndexAbove_eq_iff _ _ _ (by simpa using hi)]
    exact ⟨hlo, hhi⟩

/-- **Exact election frequencies.** When the exact total `W` of the weights fits a `u64`,
index `i` is selected by exactly `w[i]` of the draws in `[0, W)`: never when its weight
is `0`, and by at least one draw when its weight is positive. -/
theorem selectIndex_card (weights : List UInt64) (hsum : weightSum weights < UInt64.size)
    (i : Nat) (hi : i < weights.length) :
    ((Finset.range (weightSum weights)).filter fun c =>
        selectIndex weights (UInt64.ofNat c) = .ok i).card = weights[i].toNat ∧
      (weights[i] = 0 →
        ∀ c < weightSum weights, selectIndex weights (UInt64.ofNat c) ≠ .ok i) ∧
      (0 < weights[i].toNat →
        ∃ c < weightSum weights, selectIndex weights (UInt64.ofNat c) = .ok i) := by
  have hcard : ((Finset.range (weightSum weights)).filter fun c =>
      selectIndex weights (UInt64.ofNat c) = .ok i).card = weights[i].toNat := by
    rw [selectIndex_filter_eq_Ico hsum hi, Nat.card_Ico,
      List.sum_take_succ _ _ (by simpa using hi)]
    simp
  refine ⟨hcard, fun h0 c hc hsel => ?_, fun hpos => ?_⟩
  · have hempty := Finset.card_eq_zero.mp (hcard.trans (by rw [h0]; rfl))
    exact Finset.filter_eq_empty_iff.mp hempty (Finset.mem_range.mpr hc) hsel
  · obtain ⟨c, hc, hsel⟩ := Finset.filter_nonempty_iff.mp (Finset.card_pos.mp (hcard ▸ hpos))
    exact ⟨c, Finset.mem_range.mp hc, hsel⟩

/-- Of the draws `0..59` for the weights `[10, 20, 30]`, the twenty in `[10, 30)`
select index `1`. -/
theorem selectIndex_card_tieBreak :
    weightSum [10, 20, 30] < UInt64.size ∧
      ((Finset.range 60).filter fun c => selectIndex [10, 20, 30] (UInt64.ofNat c) = .ok 1).card =
        20 :=
  ⟨by decide, (selectIndex_card [10, 20, 30] (by decide) 1 (by decide)).1⟩

end Aptos.Consensus
