import Aptos.Consensus.LeaderReputation
import Aptos.Consensus.MetadataBackend

/-!
# Aptos consensus — the engine over a `LibraDB` store

`LeaderReputation::new` with a `LibraDBBackend` is the production engine.

Totality: with `ActiveInactiveHeuristic(a, i)`, `a, i ≥ 1`, and a non-empty candidate
list whose `n * max(a, i)` fits a `u64`, it elects for every round exactly when
`window_size + 10` fits a `u64` and the store serves the read; otherwise it panics, at the
addition or at the read's `unwrap` (`overLibraDB_getValidProposers_ok_iff`).

Agreement: every validator runs the election on its own committed history, and the
protocol needs them to agree. The engine reads the history only through the backend's
window for `target(r) = r - 4` (`getValidProposers_congr`), so agreement on the window
gives agreement on the leader. For `LibraDBBackend` the window depends only on the
records at or below `target(r)` as long as at most ten committed records lie past it and
the two stores fail their reads alike (`getBlockMetadata_agree`). A validator electing
round `r` has, in normal operation, committed no round `≥ r`. Then at most three records
lie past `r - 4`, and validators whose histories agree up to the target elect the same
leader (`getValidProposers_agree_of_lt_round`). With more than ten records past the
target the windows differ, and so can the leaders: `getBlockMetadata_agreement_bug`.
-/

namespace Aptos.Consensus

open Aptos.Rust

variable {Author : Type}

/-- The engine over a store, as `LeaderReputation::new` builds it with a
`LibraDBBackend`. -/
def LeaderReputation.overLibraDB (proposers : List Author) (db : LibraDBBackend Author)
    (windowSize : UInt64) (heuristic : ReputationHeuristic Author) : LeaderReputation Author :=
  ⟨proposers, db.toMetadataBackend, windowSize, heuristic⟩

/-- The engine reads the history only through the window of the target round. -/
theorem getValidProposers_congr (next : List UInt8 → UInt64)
    {self other : LeaderReputation Author} {round : UInt64} (hp : self.proposers = other.proposers)
    (hh : self.heuristic = other.heuristic)
    (hb : self.backend.getBlockMetadata self.windowSize (targetRound round) =
      other.backend.getBlockMetadata other.windowSize (targetRound round)) :
    self.getValidProposers next round = other.getValidProposers next round := by
  rw [LeaderReputation.getValidProposers, LeaderReputation.getValidProposers, hb, hp, hh]

/-- **Window agreement.** Two stores whose committed records at or below `target_round`
coincide, each with at most ten records past it, and whose reads fail alike, serve the same
window, or panic alike. -/
theorem getBlockMetadata_agree (db₁ db₂ : LibraDBBackend Author)
    (windowSize targetRound : UInt64)
    (hread : db₁.libraDb.readError = db₂.libraDb.readError)
    (hsame : db₁.libraDb.events.filter (fun e => e.round ≤ targetRound) =
      db₂.libraDb.events.filter (fun e => e.round ≤ targetRound))
    (hbeyond₁ : (db₁.libraDb.events.filter fun e => targetRound < e.round).length ≤ 10)
    (hbeyond₂ : (db₂.libraDb.events.filter fun e => targetRound < e.round).length ≤ 10) :
    db₁.getBlockMetadata windowSize targetRound =
      db₂.getBlockMetadata windowSize targetRound := by
  by_cases hfit : windowSize.toNat + 10 < UInt64.size
  · cases he : db₁.libraDb.readError with
    | none =>
      rw [getBlockMetadata_eq db₁ windowSize targetRound hfit he,
        getBlockMetadata_eq db₂ windowSize targetRound hfit (hread.symm.trans he),
        overFetch_eq_historyWindow db₁.libraDb.rounds_increase windowSize targetRound hbeyond₁,
        overFetch_eq_historyWindow db₂.libraDb.rounds_increase windowSize targetRound hbeyond₂,
        historyWindow, historyWindow, hsame]
    | some err =>
      rw [getBlockMetadata_readError db₁ windowSize targetRound hfit he,
        getBlockMetadata_readError db₂ windowSize targetRound hfit (hread.symm.trans he)]
  · rw [getBlockMetadata_overflow db₁ windowSize targetRound (Nat.not_lt.mp hfit),
      getBlockMetadata_overflow db₂ windowSize targetRound (Nat.not_lt.mp hfit)]

/-- Strictly increasing rounds inside `[lo, hi)` number at most `hi - lo`. -/
theorem length_le_of_rounds_mem (lo hi : Nat) :
    ∀ {l : List (NewBlockEvent Author)}, l.Pairwise (fun a b => a.round < b.round) →
      (∀ e ∈ l, lo ≤ e.round.toNat ∧ e.round.toNat < hi) → l.length ≤ hi - lo
  | [], _, _ => Nat.zero_le _
  | e :: l, hp, hb => by
    rw [List.pairwise_cons] at hp
    have he := hb e (List.mem_cons_self _ _)
    have hl := length_le_of_rounds_mem (e.round.toNat + 1) hi hp.2 fun x hx =>
      ⟨hp.1 x hx, (hb x (List.mem_cons_of_mem _ hx)).2⟩
    rw [List.length_cons]
    omega

/-- A store that has committed no round `≥ r` holds at most three records past
`target(r)`. -/
theorem length_beyond_target_le_three (db : LibraDBBackend Author) (round : UInt64)
    (hbelow : ∀ e ∈ db.libraDb.events, e.round < round) :
    (db.libraDb.events.filter fun e => targetRound round < e.round).length ≤ 3 := by
  refine (length_le_of_rounds_mem (round.toNat - 4 + 1) round.toNat
    (db.libraDb.rounds_increase.sublist (List.filter_sublist _)) fun e he => ?_).trans (by omega)
  obtain ⟨hmem, hgt⟩ := List.mem_filter.mp he
  have hlt := hbelow e hmem
  simp only [decide_eq_true_eq, u64_lt_iff, targetRound_toNat] at hgt hlt
  omega

/-- The store holding rounds `1..30`, the first thirty commits of `roundsOneToFifty`, serving
reads. -/
def roundsOneToThirty : LibraDBBackend Nat :=
  ⟨⟨roundsOneTo 30, by decide, by decide, none⟩⟩

/-- A heuristic of the trait that weighs two candidates by whether the window is full:
`[1, 0]` for a window of twenty records, `[0, 1]` otherwise. -/
def fullWindowHeuristic : ReputationHeuristic Nat :=
  ⟨fun _ history => if history.length = 20 then [1, 0] else [0, 1]⟩

/-- **Leader agreement in normal operation.** Validators whose committed histories agree
at or below `target(r)` and hold no round `≥ r`, and whose stores fail their reads alike,
read the same window and elect the same leader for round `r` (or fail alike). -/
theorem getValidProposers_agree_of_lt_round (next : List UInt8 → UInt64)
    (proposers : List Author) (windowSize : UInt64) (heuristic : ReputationHeuristic Author)
    (db₁ db₂ : LibraDBBackend Author) (round : UInt64)
    (hread : db₁.libraDb.readError = db₂.libraDb.readError)
    (hsame : db₁.libraDb.events.filter (fun e => e.round ≤ targetRound round) =
      db₂.libraDb.events.filter (fun e => e.round ≤ targetRound round))
    (hbelow₁ : ∀ e ∈ db₁.libraDb.events, e.round < round)
    (hbelow₂ : ∀ e ∈ db₂.libraDb.events, e.round < round) :
    db₁.getBlockMetadata windowSize (targetRound round) =
        db₂.getBlockMetadata windowSize (targetRound round) ∧
      (LeaderReputation.overLibraDB proposers db₁ windowSize heuristic).getValidProposers next
          round =
        (LeaderReputation.overLibraDB proposers db₂ windowSize heuristic).getValidProposers next
          round := by
  have hwin := getBlockMetadata_agree db₁ db₂ windowSize (targetRound round) hread hsame
    ((length_beyond_target_le_three db₁ round hbelow₁).trans (by decide))
    ((length_beyond_target_le_three db₂ round hbelow₂).trans (by decide))
  exact ⟨hwin, getValidProposers_congr next rfl rfl hwin⟩

/-- A validator that has committed rounds `1..30` and one that has also committed round
`31` elect the same leader for round `32`. -/
theorem getValidProposers_agree_of_lt_round_thirtyOne :
    let db : LibraDBBackend Nat := ⟨⟨roundsOneTo 31, by decide, by decide, none⟩⟩
    roundsOneToThirty.libraDb.readError = db.libraDb.readError ∧
      roundsOneToThirty.libraDb.events.filter (fun e => e.round ≤ targetRound 32) =
        db.libraDb.events.filter (fun e => e.round ≤ targetRound 32) ∧
      (∀ e ∈ roundsOneToThirty.libraDb.events, e.round < 32) ∧
      (∀ e ∈ db.libraDb.events, e.round < 32) ∧
      (LeaderReputation.overLibraDB [0, 1] roundsOneToThirty 20
          fullWindowHeuristic).getValidProposers (fun _ => 0) 32 =
        (LeaderReputation.overLibraDB [0, 1] db 20 fullWindowHeuristic).getValidProposers
          (fun _ => 0) 32 :=
  by
  intro db
  exact ⟨rfl, by decide, by decide, by decide,
    (getValidProposers_agree_of_lt_round (fun _ => 0) [0, 1] 20 fullWindowHeuristic
      roundsOneToThirty db 32 rfl (by decide) (by decide) (by decide)).2⟩

-- ---------------------------------------------------------------------------
-- Past the buffer
-- ---------------------------------------------------------------------------

/-- **Validators diverge past the buffer.** The histories of rounds `1..30` and `1..50`
agree on every record at or below `target(34) = 30`, yet their backends serve different
windows for it (rounds `11..30` against `21..30`), and with `fullWindowHeuristic` the two
validators elect different leaders for round `34`, whatever `next` is. -/
theorem getBlockMetadata_agreement_bug :
    roundsOneToThirty.libraDb.events.filter (fun e => e.round ≤ targetRound 34) =
        roundsOneToFifty.libraDb.events.filter (fun e => e.round ≤ targetRound 34) ∧
      roundsOneToThirty.getBlockMetadata 20 (targetRound 34) ≠
        roundsOneToFifty.getBlockMetadata 20 (targetRound 34) ∧
      ∀ next : List UInt8 → UInt64,
        (LeaderReputation.overLibraDB [0, 1] roundsOneToThirty 20
            fullWindowHeuristic).getValidProposers next 34 = .ok [0] ∧
        (LeaderReputation.overLibraDB [0, 1] roundsOneToFifty 20
            fullWindowHeuristic).getValidProposers next 34 = .ok [1] := by
  have h30 := getBlockMetadata_eq roundsOneToThirty 20 (targetRound 34) (by decide) rfl
  have h50 := getBlockMetadata_eq roundsOneToFifty 20 (targetRound 34) (by decide) rfl
  refine ⟨by decide, by rw [h30, h50]; decide, fun next => ⟨?_, ?_⟩⟩
  · obtain ⟨_, h⟩ := @getValidProposers_eq _ next
      (.overLibraDB [0, 1] roundsOneToThirty 20 fullWindowHeuristic) 34 _ [1, 0] h30
      (by decide) ⟨rfl, by decide, by decide⟩
    simp only [show weightSum [1, 0] = 1 from rfl, Nat.mod_one] at h
    exact h.trans rfl
  · obtain ⟨_, h⟩ := @getValidProposers_eq _ next
      (.overLibraDB [0, 1] roundsOneToFifty 20 fullWindowHeuristic) 34 _ [0, 1] h50
      (by decide) ⟨rfl, by decide, by decide⟩
    simp only [show weightSum [0, 1] = 1 from rfl, Nat.mod_one] at h
    exact h.trans rfl

end Aptos.Consensus
