import Aptos.Consensus.Types

/-!
# Aptos consensus — `LibraDBBackend`, the committed-history window

`LibraDBBackend::get_block_metadata(window_size, target_round)` reads the newest
`window_size + 10` new-block events from the store, keeps those with
`round ≤ target_round`, takes `window_size` of them and sorts them by round. The
`MetadataBackend` contract (and the spec) asks for the last `window_size` committed
records at or below `target_round`: `historyWindow`.

The store itself is not among the repository's files; `LibraDB` models it from the spec,
with committed rounds strictly increasing as a field. A read of the store can fail with a
storage I/O error (spec 4.1); the backend `unwrap`s the read, so the error is a panic
(`getBlockMetadata_readError`).

Results:

* `getBlockMetadata_eq` — what the backend computes on every history the store serves: the
  newest `window_size + 10` events, filtered, cut to `window_size`, in commit order.
* `getBlockMetadata_eq_historyWindow` — it is the contract's window whenever at most ten
  committed records lie past `target_round`.
* `getBlockMetadata_suffix_historyWindow` — on every history it is a suffix of the
  contract's window: it can miss only the oldest records.
* `getBlockMetadata_rounds_bug` — with more than ten past it the window comes up short:
  the spec's own example (rounds `1..50`, window `20`, target `30`) gives `21..30`.
-/

namespace Aptos.Consensus

open Aptos.Rust

variable {Author : Type}

/-- Modelled from the spec: the committed history store behind `LibraDBTrait`, which is not
among the repository's files — an append-only ledger of finalized blocks whose committed
rounds strictly increase, in the state a read finds it. Its new-block events are kept
decoded: the spec leaves their encoding to the store, so `lcs::from_bytes` is not
modelled. -/
structure LibraDB (Author : Type) where
  /-- The new-block events in commit order; an event's sequence number is its position. -/
  events : List (NewBlockEvent Author)
  rounds_increase : events.Pairwise fun a b => a.round < b.round
  /-- Sequence numbers are `u64`. -/
  seqNums_fit : events.length ≤ UInt64.size
  /-- The storage I/O error a read returns while the store cannot serve it; `none` while it
  serves reads. -/
  readError : Option String

/-- Modelled from the spec: `get_events(&new_block_event_key(), start, limit)`, which reads
the event log most recent first: the events with sequence number at most `start`, newest
first, at most `limit` of them; or the store's I/O error. -/
def LibraDB.getEvents (db : LibraDB Author) (start limit : UInt64) :
    Except String (List (NewBlockEvent Author)) :=
  match db.readError with
  | some err => .error err
  | none => .ok (((db.events.take (start.toNat + 1)).reverse).take limit.toNat)

/-- `LibraDBBackend`. -/
structure LibraDBBackend (Author : Type) where
  libraDb : LibraDB Author

/-- `LibraDBBackend::get_block_metadata`. The sort is `sort_by` on `round()`, a stable
sort. -/
def LibraDBBackend.getBlockMetadata (self : LibraDBBackend Author)
    (windowSize targetRound : UInt64) : Except Panic (List (NewBlockEvent Author)) := do
  let buffer : UInt64 := 10
  let limit ← u64Add windowSize buffer
  let events ← unwrap (self.libraDb.getEvents u64Max limit)
  let events := (events.filter fun e => e.round ≤ targetRound).take windowSize.toNat
  pure (events.mergeSort fun a b => a.round ≤ b.round)

/-- `impl MetadataBackend for LibraDBBackend`. -/
def LibraDBBackend.toMetadataBackend (self : LibraDBBackend Author) : MetadataBackend Author :=
  ⟨self.getBlockMetadata⟩

/-- The window of the `MetadataBackend` contract: of the committed records with round at
most `targetRound`, the last `windowSize` (all of them if there are fewer), in commit
order. -/
def historyWindow (events : List (NewBlockEvent Author)) (windowSize targetRound : UInt64) :
    List (NewBlockEvent Author) :=
  let eligible := events.filter fun e => e.round ≤ targetRound
  eligible.drop (eligible.length - windowSize.toNat)

-- ---------------------------------------------------------------------------
-- The store
-- ---------------------------------------------------------------------------

/-- From `u64::max_value()` a store that serves reads returns its newest events. -/
theorem LibraDB.getEvents_max (db : LibraDB Author) (limit : UInt64)
    (hread : db.readError = none) :
    db.getEvents u64Max limit = .ok (db.events.reverse.take limit.toNat) := by
  have h : db.events.length ≤ u64Max.toNat + 1 := db.seqNums_fit.trans (Nat.le_of_eq rfl)
  rw [LibraDB.getEvents, hread, List.take_of_length_le h]

/-- A committed history is its records at or below a round followed by those above it. -/
theorem filter_append_filter_of_pairwise (t : UInt64) :
    ∀ {l : List (NewBlockEvent Author)}, l.Pairwise (fun a b => a.round < b.round) →
      l.filter (fun e => e.round ≤ t) ++ l.filter (fun e => t < e.round) = l
  | [], _ => rfl
  | e :: l, h => by
    rw [List.pairwise_cons] at h
    by_cases he : e.round ≤ t
    · simp [he, filter_append_filter_of_pairwise t h.2]
    · have hl : ∀ x ∈ e :: l, t < x.round := by
        intro x hx
        rcases List.mem_cons.mp hx with rfl | hx
        · exact UInt64.not_le.mp he
        · have := h.1 x hx
          simp only [u64_le_iff, u64_lt_iff] at *
          omega
      rw [List.filter_eq_nil_iff.mpr fun x hx => by simpa using hl x hx,
        List.filter_eq_self.mpr fun x hx => by simpa using hl x hx]
      rfl

-- ---------------------------------------------------------------------------
-- What the backend computes
-- ---------------------------------------------------------------------------

/-- The stable sort by round of a list with strictly decreasing rounds reverses it. -/
theorem mergeSort_round_of_decreasing {l : List (NewBlockEvent Author)}
    (h : l.Pairwise fun a b => b.round < a.round) :
    l.mergeSort (fun a b => a.round ≤ b.round) = l.reverse := by
  haveI : IsAntisymm (NewBlockEvent Author) fun a b => a.round < b.round :=
    ⟨fun _ _ hab hba => absurd (UInt64.lt_trans hab hba) (UInt64.lt_irrefl _)⟩
  have hperm := List.mergeSort_perm l fun a b => a.round ≤ b.round
  have hne : (l.mergeSort fun a b => a.round ≤ b.round).Pairwise fun a b => a.round ≠ b.round :=
    hperm.symm.pairwise (h.imp fun hab => (UInt64.ne_of_lt hab).symm) Ne.symm
  have hle := @List.sorted_mergeSort _ (fun a b : NewBlockEvent Author => a.round ≤ b.round)
    (fun _ _ _ hab hbc => by simp only [decide_eq_true_eq] at *; exact UInt64.le_trans hab hbc)
    (fun a b => by simpa using UInt64.le_total a.round b.round) l
  refine List.eq_of_perm_of_sorted (hperm.trans (List.reverse_perm l).symm) ?_
    (List.pairwise_reverse.mpr h)
  exact (hle.and hne).imp fun ⟨hab, hne⟩ => by
    simp only [decide_eq_true_eq, u64_le_iff, u64_lt_iff, ne_eq, u64_eq_iff] at *
    omega

/-- **What `get_block_metadata` returns**, on every history the store serves: the newest
`window_size + 10` events, those at or below `target_round`, cut to `window_size`, in
commit order. -/
theorem getBlockMetadata_eq (self : LibraDBBackend Author) (windowSize targetRound : UInt64)
    (h : windowSize.toNat + 10 < UInt64.size) (hread : self.libraDb.readError = none) :
    self.getBlockMetadata windowSize targetRound =
      .ok (((self.libraDb.events.reverse.take (windowSize.toNat + 10)).filter
        fun e => e.round ≤ targetRound).take windowSize.toNat).reverse := by
  rw [LibraDBBackend.getBlockMetadata, u64Add_of_lt h, ok_bind,
    LibraDB.getEvents_max _ _ hread, toNat_add_of_lt h]
  refine congrArg Except.ok (mergeSort_round_of_decreasing ?_)
  refine List.Pairwise.sublist ((List.take_sublist _ _).trans ((List.filter_sublist _).trans
    (List.take_sublist _ _))) ?_
  exact List.pairwise_reverse.mpr self.libraDb.rounds_increase

/-- Past `2^64 - 1`, `window_size + 10` overflows before the store is read. -/
theorem getBlockMetadata_overflow (self : LibraDBBackend Author) (windowSize targetRound : UInt64)
    (h : UInt64.size ≤ windowSize.toNat + 10) :
    self.getBlockMetadata windowSize targetRound = .error .addOverflow := by
  rw [LibraDBBackend.getBlockMetadata, u64Add_of_le h, error_bind]

/-- A storage I/O error of the read is the panic of its `unwrap`. -/
theorem getBlockMetadata_readError (self : LibraDBBackend Author)
    (windowSize targetRound : UInt64) (h : windowSize.toNat + 10 < UInt64.size) {err : String}
    (hread : self.libraDb.readError = some err) :
    self.getBlockMetadata windowSize targetRound = .error (.unwrapOnErr err) := by
  rw [LibraDBBackend.getBlockMetadata, u64Add_of_lt h, ok_bind, LibraDB.getEvents, hread]
  rfl

-- ---------------------------------------------------------------------------
-- Against the contract
-- ---------------------------------------------------------------------------

/-- The history of the spec's window example: one committed block in each round
`1, …, n`. -/
def roundsOneTo (n : Nat) : List (NewBlockEvent Nat) :=
  (List.range n).map fun i => ⟨UInt64.ofNat (i + 1), 0, []⟩

/-- The store holding rounds `1..50`, serving reads. -/
def roundsOneToFifty : LibraDBBackend Nat :=
  ⟨⟨roundsOneTo 50, by decide, by decide, none⟩⟩

/-- Over a strictly increasing history with at most ten records past `target_round`, the
newest `window_size + 10` records reach past all of them, and the newest `window_size`
eligible records among them are the contract's window. -/
theorem overFetch_eq_historyWindow {events : List (NewBlockEvent Author)}
    (hinc : events.Pairwise fun a b => a.round < b.round) (windowSize targetRound : UInt64)
    (hbeyond : (events.filter fun e => targetRound < e.round).length ≤ 10) :
    (((events.reverse.take (windowSize.toNat + 10)).filter
        fun e => e.round ≤ targetRound).take windowSize.toNat).reverse =
      historyWindow events windowSize targetRound := by
  set le := events.filter fun e => e.round ≤ targetRound
  set gt := events.filter fun e => targetRound < e.round
  have hgt : (gt.reverse.filter fun e => e.round ≤ targetRound) = [] :=
    List.filter_eq_nil_iff.mpr fun e he => by
      have := (List.mem_filter.mp (List.mem_reverse.mp he)).2
      simp only [decide_eq_true_eq, u64_le_iff, u64_lt_iff] at *
      omega
  have hle (m : Nat) : ((le.reverse.take m).filter fun e => e.round ≤ targetRound) =
      le.reverse.take m :=
    List.filter_eq_self.mpr fun e he =>
      (List.mem_filter.mp (List.mem_reverse.mp (List.mem_of_mem_take he))).2
  have hrev : events.reverse = gt.reverse ++ le.reverse := by
    rw [← List.reverse_append, filter_append_filter_of_pairwise targetRound hinc]
  have hgtake : gt.reverse.take (windowSize.toNat + 10) = gt.reverse :=
    List.take_of_length_le (by simp only [List.length_reverse]; omega)
  rw [hrev, List.take_append_eq_append_take, hgtake, List.filter_append, hgt, hle,
    List.nil_append, List.take_take, List.length_reverse, Nat.min_eq_left (by omega),
    List.take_reverse, List.reverse_reverse]
  rfl

/-- **The contract's window**, whenever at most ten committed records lie past
`target_round`, `window_size + 10` fits a `u64` and the store serves the read: the
over-fetch then reaches past all of them, and the cut keeps the newest `window_size`
eligible records. -/
theorem getBlockMetadata_eq_historyWindow (self : LibraDBBackend Author)
    (windowSize targetRound : UInt64) (hfit : windowSize.toNat + 10 < UInt64.size)
    (hread : self.libraDb.readError = none)
    (hbeyond : (self.libraDb.events.filter fun e => targetRound < e.round).length ≤ 10) :
    self.getBlockMetadata windowSize targetRound =
      .ok (historyWindow self.libraDb.events windowSize targetRound) := by
  rw [getBlockMetadata_eq self windowSize targetRound hfit hread,
    overFetch_eq_historyWindow self.libraDb.rounds_increase windowSize targetRound hbeyond]

/-- On rounds `1..50` five records lie past target `45`, and the backend serves the
contract's window. -/
theorem getBlockMetadata_eq_historyWindow_fifty :
    (roundsOneToFifty.libraDb.events.filter fun e => (45 : UInt64) < e.round).length ≤ 10 ∧
      roundsOneToFifty.getBlockMetadata 20 45 =
        .ok (historyWindow roundsOneToFifty.libraDb.events 20 45) :=
  ⟨by decide,
    getBlockMetadata_eq_historyWindow roundsOneToFifty 20 45 (by decide) rfl (by decide)⟩

/-- The last `n` elements of a suffix are a suffix of the last `n` elements. -/
theorem drop_suffix_of_suffix {α : Type} {s l : List α} (h : s <:+ l) (n : Nat) :
    s.drop (s.length - n) <:+ l.drop (l.length - n) := by
  have hlen := h.length_le
  rw [List.suffix_iff_eq_drop.mp h, List.drop_drop, List.length_drop]
  exact List.drop_suffix_drop_left _ (by omega)

/-- **The backend's window is a suffix of the contract's**, on every history: whenever
`window_size + 10` fits a `u64` and the store serves the read, every record it returns is in
the contract's window, in the same order, and the ones it misses are the oldest. -/
theorem getBlockMetadata_suffix_historyWindow (self : LibraDBBackend Author)
    (windowSize targetRound : UInt64) (hfit : windowSize.toNat + 10 < UInt64.size)
    (hread : self.libraDb.readError = none) :
    ∃ window, self.getBlockMetadata windowSize targetRound = .ok window ∧
      window <:+ historyWindow self.libraDb.events windowSize targetRound := by
  refine ⟨_, getBlockMetadata_eq self windowSize targetRound hfit hread, ?_⟩
  rw [List.take_reverse, List.filter_reverse, List.take_reverse, List.reverse_reverse]
  exact drop_suffix_of_suffix ((List.drop_suffix _ _).filter _) _

/-- On rounds `1..50` with window `20` and target `30`, the backend's window is a suffix
of the contract's. -/
theorem getBlockMetadata_suffix_historyWindow_fifty :
    ∃ window, roundsOneToFifty.getBlockMetadata 20 30 = .ok window ∧
      window <:+ historyWindow roundsOneToFifty.libraDb.events 20 30 :=
  getBlockMetadata_suffix_historyWindow roundsOneToFifty 20 30 (by decide) rfl

/-- **The window comes up short** once more than ten records lie past `target_round`:
on rounds `1..50` with window `20` and target `30` the backend returns the ten records
of rounds `21..30`, where the contract's window is the twenty of rounds `11..30`. -/
theorem getBlockMetadata_rounds_bug :
    (∃ window, roundsOneToFifty.getBlockMetadata 20 30 = .ok window ∧
      window.map NewBlockEvent.round = (List.range 10).map fun i => UInt64.ofNat (i + 21)) ∧
    (historyWindow roundsOneToFifty.libraDb.events 20 30).map NewBlockEvent.round =
      (List.range 20).map fun i => UInt64.ofNat (i + 11) :=
  ⟨⟨_, getBlockMetadata_eq _ _ _ (by decide) rfl, by decide⟩, by decide⟩

end Aptos.Consensus
