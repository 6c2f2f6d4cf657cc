import Aptos.Rust.Core

/-!
# Aptos — `slice::binary_search_by`

The standard library's `binary_search_by`, in the `left`/`right` form the library has
used since Rust 1.52: the loop keeps the half-open window `[left, right)`, probes
`mid = left + size / 2`, moves `left` past a `Less`, `right` onto a `Greater`, and
returns `Ok(mid)` on an `Equal`; when the window closes it returns `Err(left)`.

The loop is `binarySearchByGo`, with `right ≤ s.length` threaded so that the probe is
in bounds (the library's `get_unchecked`), and terminating because `right - left`
shrinks. The main result, `binarySearchBy_eq_error`, is the loop's answer whenever the
comparator splits the slice at some `k` (`Less` exactly before `k`, never `Equal`): it
returns `Err(k)`. For a sorted slice and a comparator `x ≤ c`, that `k` is the number
of elements `≤ c` (`lt_countP_iff_of_pairwise`).
-/

namespace Aptos.Rust

variable {α : Type}

/-- The `while left < right` loop of `slice::binary_search_by`. -/
def binarySearchByGo (s : List α) (f : α → Ordering) (left right : Nat)
    (h : right ≤ s.length) : Except Nat Nat :=
  if hlt : left < right then
    let mid := left + (right - left) / 2
    have hmid : mid < s.length := by omega
    if f s[mid] = .lt then binarySearchByGo s f (mid + 1) right h
    else if f s[mid] = .gt then binarySearchByGo s f left mid (by omega)
    else .ok mid
  else .error left
termination_by right - left

/-- `s.binary_search_by(f)`: `Ok` at an index where `f` says `Equal`, or `Err` at the
insertion point. -/
def binarySearchBy (s : List α) (f : α → Ordering) : Except Nat Nat :=
  binarySearchByGo s f 0 s.length (Nat.le_refl _)

/-- **The loop's answer.** If `f` says `Less` exactly at the indices before `k` and
never says `Equal`, every window with `left ≤ k ≤ right` ends at `Err(k)`. -/
theorem binarySearchByGo_eq_error {s : List α} {f : α → Ordering} {k : Nat}
    (hlt : ∀ j (hj : j < s.length), f s[j] = .lt ↔ j < k)
    (hne : ∀ j (hj : j < s.length), f s[j] ≠ .eq) :
    ∀ left right (h : right ≤ s.length), left ≤ k → k ≤ right →
      binarySearchByGo s f left right h = .error k := by
  intro left right h
  induction left, right, h using binarySearchByGo.induct s f with
  | case1 left right h hlr mid hmid hless ih =>
    intro hl hr
    rw [binarySearchByGo, dif_pos hlr]
    simp only [hless, if_true]
    exact ih (by have := (hlt _ hmid).mp hless; omega) hr
  | case2 left right h hlr mid hmid hless hgt ih =>
    intro hl hr
    rw [binarySearchByGo, dif_pos hlr]
    simp only [hless, hgt, if_true, if_false]
    exact ih hl (by have := (hlt _ hmid).not.mp hless; omega)
  | case3 left right h hlr mid hmid hless hgt =>
    intro _ _
    refine absurd ?_ (hne _ hmid)
    cases hf : f s[mid]
    · exact absurd hf hless
    · rfl
    · exact absurd hf hgt
  | case4 left right h hlr =>
    intro hl hr
    rw [binarySearchByGo, dif_neg hlr]
    congr 1
    omega

theorem binarySearchBy_eq_error {s : List α} {f : α → Ordering} {k : Nat}
    (hlt : ∀ j (hj : j < s.length), f s[j] = .lt ↔ j < k)
    (hne : ∀ j (hj : j < s.length), f s[j] ≠ .eq) (hk : k ≤ s.length) :
    binarySearchBy s f = .error k :=
  binarySearchByGo_eq_error hlt hne 0 s.length _ (Nat.zero_le k) hk

/-- On a list along which `p` can only turn from true to false, `p` holds exactly at
the indices before `s.countP p`. -/
theorem lt_countP_iff_of_pairwise {p : α → Bool} :
    ∀ {s : List α}, s.Pairwise (fun a b => p b = true → p a = true) →
      ∀ j (hj : j < s.length), p s[j] = true ↔ j < s.countP p
  | [], _, j, hj => absurd hj (Nat.not_lt_zero j)
  | x :: xs, hs, j, hj => by
    rw [List.pairwise_cons] at hs
    by_cases hx : p x = true
    · cases j with
      | zero => simp only [List.getElem_cons_zero, hx, List.countP_cons_of_pos,
          Nat.zero_lt_succ]
      | succ j =>
        simpa only [List.getElem_cons_succ, hx, List.countP_cons_of_pos, Nat.add_lt_add_iff_right]
          using lt_countP_iff_of_pairwise hs.2 j (Nat.lt_of_succ_lt_succ hj)
    · have hxs : xs.countP p = 0 :=
        List.countP_eq_zero.mpr fun y hy hpy => hx (hs.1 y hy hpy)
      cases j with
      | zero => simp only [List.getElem_cons_zero, hx, Bool.false_eq_true, not_false_eq_true,
          List.countP_cons_of_neg, hxs, Nat.lt_irrefl]
      | succ j =>
        simpa only [List.getElem_cons_succ, hx, Bool.false_eq_true, not_false_eq_true,
          List.countP_cons_of_neg, hxs, Nat.not_lt_zero, iff_false, Bool.not_eq_true, imp_false]
          using fun hpy => hx (hs.1 _ (List.getElem_mem _) hpy)

/-- On such a list `s.countP p` is also the first index where `p` fails. -/
theorem countP_eq_findIdx_of_pairwise {p : α → Bool} :
    ∀ {s : List α}, s.Pairwise (fun a b => p b = true → p a = true) →
      s.countP p = s.findIdx fun x => !p x
  | [], _ => rfl
  | x :: xs, hs => by
    rw [List.pairwise_cons] at hs
    rw [List.countP_cons, List.findIdx_cons]
    by_cases hx : p x = true
    · simp [hx, countP_eq_findIdx_of_pairwise hs.2]
    · have : xs.countP p = 0 := List.countP_eq_zero.mpr fun y hy hpy => hx (hs.1 y hy hpy)
      simp [hx, this]

/-- **`binary_search_by` with the comparator `x ≤ c ↦ Less, else Greater`.** On a
non-decreasing `u64` slice it returns `Err(k)`, `k` the number of elements `≤ c`, and
never `Ok`. -/
theorem binarySearchBy_le_eq_error {s : List UInt64} (hs : s.Pairwise (· ≤ ·)) (c : UInt64) :
    binarySearchBy s (fun x => if x ≤ c then .lt else .gt) =
      .error (s.countP fun x => x ≤ c) := by
  have hsplit := @lt_countP_iff_of_pairwise _ (fun x => decide (x ≤ c)) s
    (hs.imp fun hab hbc => by simp only [decide_eq_true_eq, u64_le_iff] at *; omega)
  refine binarySearchBy_eq_error (fun j hj => ?_) (fun j hj => ?_) (List.countP_le_length _)
  · simpa [apply_ite (· = Ordering.lt)] using hsplit j hj
  · split <;> simp

end Aptos.Rust
