import Aptos.Rust.Str

/-!
# Forge — the Kubernetes swarm's node ids and health check

The Forge test harness finds the validators of a Kubernetes cluster by their load-balancer
services. `get_validators` keeps the services whose name contains `validator-fullnode-lb` and
reads each validator's index off the name with `parse_node_id`: the name split at `-` must
have five pieces or more, and the index is the first piece without its first three bytes,
parsed as a `usize`. `nodes_healthcheck` health-checks every validator, calling its
`health_check()` again after each failure while `k8s_retry_strategy()` has delays left, and
fails naming the validators that never answered.

Results:
* `parseNodeId_eq_error_iff`: the error, and its text, exactly for names with fewer than four
  dashes;
* `parseNodeId_service_name`: the index comes back from every name made of a three-byte prefix,
  the index, and four pieces or more;
* `parseNodeId_ok_and_panic_iff`: the names `parse_node_id` reads an index from, and the index;
  every other name with four dashes or more makes it panic;
* `retry_isOk`: `retry` succeeds exactly when one of its calls does, one call more than there
  are delays;
* `nodesHealthcheck_eq`: the health check fails exactly when a validator fails its first
  thirty-one checks, and names those validators in order.
-/

namespace Aptos.Forge

open Aptos.Rust

-- ---------------------------------------------------------------------------
-- `parse_node_id`
-- ---------------------------------------------------------------------------

section ParseNodeId

variable [Debug String]

/-- `parse_node_id`: the index of a validator, read off the name `s` of its service as the first
`-`-separated piece after its first three bytes. An error when the name has fewer than five
pieces; `none` where `v[0][3..]` or the `unwrap` of the parse panics. -/
def parseNodeId (s : String) : Option (Except String Nat) :=
  let v := s.data.splitOn '-'
  if h : v.length < 5 then some (.error ("Failed to parse " ++ Debug.fmt s ++ " node id format"))
  else do
    let digits ← sliceFrom v[0] 3
    let idx ← usizeFromStr digits
    pure (.ok idx)

/-- Past the length check, `parse_node_id` slices and parses the first piece. -/
theorem parseNodeId_of_splitOn {s : String} {first : List Char} {rest : List (List Char)}
    (hv : s.data.splitOn '-' = first :: rest) (hlen : 4 ≤ rest.length) :
    parseNodeId s = (sliceFrom first 3).bind fun ds => (usizeFromStr ds).map .ok := by
  unfold parseNodeId
  simp only [hv, List.length_cons, dif_neg (by omega : ¬ rest.length + 1 < 5),
    List.getElem_cons_zero, Option.map_eq_bind]
  rfl

/-- **`parse_node_id` fails with its error exactly for names with fewer than four dashes**, and
the error quotes the name. -/
theorem parseNodeId_eq_error_iff (s e : String) :
    parseNodeId s = some (.error e) ↔
      s.data.count '-' < 4 ∧ e = "Failed to parse " ++ Debug.fmt s ++ " node id format" := by
  unfold parseNodeId
  dsimp only
  split <;> rename_i h <;> rw [length_splitOn] at h
  · exact ⟨fun he => ⟨by omega, (Except.error.inj (Option.some.inj he)).symm⟩,
      fun ⟨_, he⟩ => he ▸ rfl⟩
  · simp only [Option.bind_eq_bind, Option.bind_eq_some, Option.pure_def, Option.some.injEq,
      reduceCtorEq, and_false, exists_false, false_iff, not_and]
    omega

/-- The names `parse_node_id` reads the index `n` from: a first piece made of three bytes without
`-` and a `usize` text spelling `n`, then at least four more pieces. -/
def NodeIdName (s : String) (n : Nat) : Prop :=
  ∃ p ds rest, s.data = p ++ ds ++ '-' :: rest ∧ String.utf8Len p = 3 ∧ '-' ∉ p ∧
    3 ≤ rest.count '-' ∧ UsizeText ds n

/-- The names `parse_node_id` reads an index from, and the index. -/
theorem parseNodeId_eq_ok_iff (s : String) (n : Nat) :
    parseNodeId s = some (.ok n) ↔ NodeIdName s n := by
  constructor
  · intro h
    have hcount : 4 ≤ s.data.count '-' := by
      by_contra hlt
      cases h ▸ (parseNodeId_eq_error_iff s _).mpr ⟨by omega, rfl⟩
    obtain ⟨first, rest, hfirst, hs⟩ :=
      exists_eq_append_cons_of_mem (List.count_pos_iff.mp (by omega : 0 < s.data.count '-'))
    have hrest : 3 ≤ rest.count '-' := by
      rw [hs, List.count_append, List.count_cons_self, List.count_eq_zero.mpr hfirst] at hcount
      omega
    have hv : s.data.splitOn '-' = first :: rest.splitOn '-' :=
      hs ▸ splitOn_append_cons hfirst rest
    rw [parseNodeId_of_splitOn hv (by rw [length_splitOn]; omega)] at h
    simp only [Option.bind_eq_some, Option.map_eq_some', Except.ok.injEq] at h
    obtain ⟨ds, hslice, _, hparse, rfl⟩ := h
    obtain ⟨p, rfl, hp⟩ := (sliceFrom_eq_some_iff _ _ _).mp hslice
    exact ⟨p, ds, rest, hs, hp, fun hm => hfirst (List.mem_append_left _ hm), hrest,
      (usizeFromStr_eq_some_iff _ _).mp hparse⟩
  · rintro ⟨p, ds, rest, hs, hp, hdash, hrest, hds⟩
    have hfirst : '-' ∉ p ++ ds := by
      rw [List.mem_append, not_or]
      refine ⟨hdash, fun hm => ?_⟩
      rcases hds.mem _ hm with h | h
      exacts [absurd h (by decide), absurd h (by decide)]
    have hv : s.data.splitOn '-' = (p ++ ds) :: rest.splitOn '-' :=
      hs ▸ splitOn_append_cons hfirst rest
    rw [parseNodeId_of_splitOn hv (by rw [length_splitOn]; omega), ← hp, sliceFrom_append,
      Option.some_bind, (usizeFromStr_eq_some_iff ds n).mpr hds]
    rfl

/-- **`parse_node_id` reads an index exactly from the names `NodeIdName` describes, and panics on
every other name with four dashes or more**, at the slice `v[0][3..]` or at the `unwrap`. -/
theorem parseNodeId_ok_and_panic_iff (s : String) :
    (∀ n, parseNodeId s = some (.ok n) ↔ NodeIdName s n) ∧
      (parseNodeId s = none ↔ 4 ≤ s.data.count '-' ∧ ∀ n, ¬ NodeIdName s n) := by
  refine ⟨parseNodeId_eq_ok_iff s, ?_⟩
  cases hp : parseNodeId s with
  | none =>
    refine iff_of_true rfl ⟨Nat.le_of_not_lt fun hlt => ?_, fun n hn => ?_⟩
    · cases hp ▸ (parseNodeId_eq_error_iff s _).mpr ⟨hlt, rfl⟩
    · cases hp ▸ (parseNodeId_eq_ok_iff s n).mpr hn
  | some r =>
    refine iff_of_false (Option.some_ne_none r) fun ⟨hcount, hnone⟩ => ?_
    cases r with
    | error e => exact absurd ((parseNodeId_eq_error_iff s e).mp hp).1 (by omega)
    | ok n => exact hnone n ((parseNodeId_eq_ok_iff s n).mp hp)

/-- **`parse_node_id` reads the index back from every service name** made of a prefix of three
bytes without `-`, the index in decimal, a `-`, and text with three dashes or more. -/
theorem parseNodeId_service_name (p : String) (n : Nat) (rest : String)
    (hp : p.utf8ByteSize = 3) (hdash : '-' ∉ p.data) (hrest : 3 ≤ rest.data.count '-')
    (hn : n < UInt64.size) :
    parseNodeId (p ++ toString n ++ "-" ++ rest) = some (.ok n) := by
  obtain ⟨d, hd, -, hdigits, -⟩ := toDigitsCore_spec (n + 1) n [] (Nat.lt_succ_self n)
  rw [List.append_nil] at hd
  have hfirst : '-' ∉ p.data ++ Nat.toDigits 10 n := by
    rw [List.mem_append, not_or, Nat.toDigits, hd]
    exact ⟨hdash, fun h => absurd (hdigits _ h) (by decide)⟩
  have hv : (p ++ toString n ++ "-" ++ rest).data.splitOn '-' =
      (p.data ++ Nat.toDigits 10 n) :: rest.data.splitOn '-' := by
    rw [← splitOn_append_cons hfirst]
    simp only [String.data_append, List.append_assoc]
    rfl
  have hslice : sliceFrom (p.data ++ Nat.toDigits 10 n) 3 = some (Nat.toDigits 10 n) :=
    hp ▸ sliceFrom_append p.data _
  rw [parseNodeId_of_splitOn hv (by rw [length_splitOn]; omega), hslice, Option.some_bind,
    usizeFromStr_toDigits hn]
  rfl

end ParseNodeId

/-- A service name `val7-aptos-validator-fullnode-lb` gives the index `7`. -/
theorem parseNodeId_service_name_val7 :
    "val".utf8ByteSize = 3 ∧ '-' ∉ "val".data ∧
      3 ≤ "aptos-validator-fullnode-lb".data.count '-' ∧ 7 < UInt64.size ∧
      @parseNodeId ⟨id⟩ ("val" ++ toString 7 ++ "-" ++ "aptos-validator-fullnode-lb") =
        some (.ok 7) :=
  ⟨by decide, by decide, by decide, by decide,
    @parseNodeId_service_name ⟨id⟩ "val" 7 "aptos-validator-fullnode-lb" (by decide) (by decide)
      (by decide) (by decide)⟩

-- ---------------------------------------------------------------------------
-- `retry` and `nodes_healthcheck`
-- ---------------------------------------------------------------------------

section Healthcheck

variable {ε : Type}

/-- `diem_retrier::retry(delays, f)`: calls `f` until it returns `Ok`, sleeping for the next of
`delays` after each `Err`; when no delay is left, the `Err` of the last call is returned. The
`k`-th call of `f`, from `0`, returns `f k`. -/
def retry {δ α : Type} (f : Nat → Except ε α) : List δ → Nat → Except ε α
  | [], k => f k
  | _ :: delays, k =>
    match f k with
    | .ok t => .ok t
    | .error _ => retry f delays (k + 1)

/-- `k8s_retry_strategy()`: `exp_retry_strategy(1000, 5000, 30)`, thirty delays. Their
lengths only time the sleeps between calls and are left out. -/
def k8sRetryStrategy : List Unit := List.replicate 30 ()

/-- A validator as `nodes_healthcheck` sees it: its name, and what its `k`-th
`health_check()` returns. -/
structure Node (ε : Type) where
  name : String
  healthCheck : Nat → Except ε Unit

/-- `nodes_healthcheck`: the names of the validators whose health check still fails after the
retries, and an error naming them if there is one. -/
def nodesHealthcheck [Debug String] (nodes : List (Node ε)) : Except String Unit :=
  let unhealthyNodes := nodes.filterMap fun node =>
    let check := retry (fun k => match node.healthCheck k with
      | .ok _ => .ok ()
      | .error _ => .error ()) k8sRetryStrategy 0
    match check with
    | .error _ => some node.name
    | .ok _ => none
  if !unhealthyNodes.isEmpty then
    .error ("Unhealthy validators after cleanup: " ++ Debug.fmt unhealthyNodes)
  else .ok ()

/-- A validator passes the health check when one of its first thirty-one `health_check()`
calls returns `Ok`: the first, and one after each of the thirty delays. -/
def Node.Healthy (node : Node ε) : Prop := ∃ k < 31, (node.healthCheck k).isOk

instance (node : Node ε) : Decidable node.Healthy :=
  inferInstanceAs (Decidable (∃ k < 31, (node.healthCheck k).isOk = true))

/-- **`retry` succeeds exactly when one of its calls does**: the first, or one of those after
the delays, one call per delay. -/
theorem retry_isOk {δ α : Type} (f : Nat → Except ε α) :
    ∀ (delays : List δ) (k : Nat),
      (retry f delays k).isOk ↔ ∃ j ≤ delays.length, (f (k + j)).isOk
  | [], k => by simp [retry]
  | _ :: delays, k => by
    rw [retry]
    split
    · rename_i t ht
      exact ⟨fun _ => ⟨0, Nat.zero_le _, by rw [Nat.add_zero, ht]; rfl⟩, fun _ => rfl⟩
    · rename_i e he
      rw [retry_isOk f delays (k + 1)]
      constructor
      · rintro ⟨j, hj, h⟩
        exact ⟨j + 1, by simp; omega, by rwa [← Nat.add_assoc, Nat.add_right_comm]⟩
      · rintro ⟨_ | j, hj, h⟩
        · rw [Nat.add_zero, he] at h
          cases h
        · exact ⟨j, by simp at hj; omega, by rwa [Nat.add_assoc, Nat.add_comm 1]⟩

theorem isOk_retry_healthCheck (node : Node ε) :
    (retry (fun k => match node.healthCheck k with
      | .ok _ => .ok ()
      | .error _ => .error ()) k8sRetryStrategy 0).isOk ↔ node.Healthy := by
  rw [retry_isOk, Node.Healthy]
  simp only [k8sRetryStrategy, List.length_replicate, Nat.zero_add]
  refine exists_congr fun k => and_congr (by omega) ?_
  cases node.healthCheck k <;> rfl

/-- A validator is reported exactly when it is not healthy. -/
theorem unhealthyNode_eq (node : Node ε) :
    (match retry (fun k => match node.healthCheck k with
        | .ok _ => .ok ()
        | .error _ => .error ()) k8sRetryStrategy 0 with
      | .error _ => some node.name
      | .ok _ => none) = if node.Healthy then none else some node.name := by
  have h := isOk_retry_healthCheck node
  split <;> rename_i hr <;> rw [hr] at h <;> simp_all

/-- **`nodes_healthcheck` fails exactly when some validator fails its first thirty-one
checks**, and its error names those validators, in the order of `nodes`. -/
theorem nodesHealthcheck_eq [Debug String] (nodes : List (Node ε)) :
    nodesHealthcheck nodes =
      if (nodes.filter fun node => !decide node.Healthy).isEmpty then .ok ()
      else .error ("Unhealthy validators after cleanup: " ++
        Debug.fmt ((nodes.filter fun node => !decide node.Healthy).map Node.name)) := by
  have hfilter : ∀ nodes : List (Node ε),
      (nodes.filterMap fun node => if node.Healthy then none else some node.name) =
        (nodes.filter fun node => !decide node.Healthy).map Node.name := by
    intro nodes
    induction nodes with
    | nil => rfl
    | cons node nodes ih => by_cases hh : node.Healthy <;> simp [hh, ih]
  simp only [nodesHealthcheck, unhealthyNode_eq, hfilter, isEmpty_map]
  cases (nodes.filter fun node => !decide node.Healthy).isEmpty <;> rfl

end Healthcheck

end Aptos.Forge
