import Aptos.Rust.Core

/-!
# Aptos consensus — the data of the leader-reputation election

The values `consensus/src/chained_bft/liveness/leader_reputation.rs` reads and passes
around: committed-block events, proposal blocks, and the two pluggable interfaces of the
engine, `MetadataBackend` and `ReputationHeuristic`, as records of their one method.

`Author` is a type parameter with decidable equality: the code only compares and hashes
authors. `Round` is `u64`.
-/

namespace Aptos.Consensus

open Aptos.Rust

/-- `NewBlockEvent` of `libra_types::block_metadata`: the record the commit path emits once
per committed block, with the fields the election reads. Its timestamp, which nothing here
reads, is left out. -/
structure NewBlockEvent (Author : Type) where
  round : UInt64
  proposer : Author
  votes : List Author
  deriving DecidableEq, Repr

/-- `Block<T>` of `consensus_types`, as the election reads it: `round()`, and `author()`,
which is `None` for NIL and genesis blocks. -/
structure Block (T Author : Type) where
  round : UInt64
  author : Option Author
  payload : T
  deriving DecidableEq, Repr

/-- The `MetadataBackend` trait: `get_block_metadata(window_size, target_round)`. An
implementation may panic (the store's `unwrap`s). -/
structure MetadataBackend (Author : Type) where
  getBlockMetadata : UInt64 → UInt64 → Except Panic (List (NewBlockEvent Author))

/-- The `ReputationHeuristic` trait: `get_weights(candidates, history)`. -/
structure ReputationHeuristic (Author : Type) where
  getWeights : List Author → List (NewBlockEvent Author) → List UInt64

/-- The round whose history elects the leader of `round`: `round - 4`, or `0` for the
first rounds (the hard-coded round gap of `get_valid_proposers`). -/
def targetRound (round : UInt64) : UInt64 :=
  if round ≥ 4 then round - 4 else 0

theorem targetRound_toNat (round : UInt64) : (targetRound round).toNat = round.toNat - 4 := by
  unfold targetRound
  split <;> rename_i h
  · rw [UInt64.toNat_sub_of_le _ _ h]
    rfl
  · have : round.toNat < 4 := Nat.lt_of_not_le h
    rw [UInt64.toNat_zero]
    omega

end Aptos.Consensus
