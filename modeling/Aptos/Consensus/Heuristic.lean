import Aptos.Consensus.Types

/-!
# Aptos consensus — `ActiveInactiveHeuristic`

`get_weights(candidates, history)` folds the history into a `HashSet` of every proposer
and every voter, then gives each candidate `active_weight` if it is in the set and
`inactive_weight` otherwise. The `HashSet` is a `Finset`: the code only inserts into it
and asks for membership.

The result, `activeInactive_getWeights`, says the weights are a map over the candidates
of whether each took part in the history (`Participates`), so they depend on the history
only through the set of its participants.
-/

namespace Aptos.Consensus

variable {Author : Type} [DecidableEq Author]

/-- `ActiveInactiveHeuristic { active_weight, inactive_weight }`. -/
structure ActiveInactiveHeuristic where
  activeWeight : UInt64
  inactiveWeight : UInt64
  deriving DecidableEq, Repr

/-- The fold step of `get_weights`: `set.insert(meta.proposer())`, then
`set.extend(meta.votes())`. -/
def insertParticipants (set : Finset Author) (meta : NewBlockEvent Author) : Finset Author :=
  meta.votes.foldl (fun set v => insert v set) (insert meta.proposer set)

/-- `ActiveInactiveHeuristic::get_weights`. -/
def ActiveInactiveHeuristic.getWeights (self : ActiveInactiveHeuristic)
    (candidates : List Author) (history : List (NewBlockEvent Author)) : List UInt64 :=
  let set := history.foldl insertParticipants ∅
  candidates.map fun author =>
    if author ∈ set then self.activeWeight else self.inactiveWeight

/-- `impl ReputationHeuristic for ActiveInactiveHeuristic`. -/
def ActiveInactiveHeuristic.toReputationHeuristic (self : ActiveInactiveHeuristic) :
    ReputationHeuristic Author :=
  ⟨self.getWeights⟩

/-- `a` took part in the history: it proposed, or voted for, one of its blocks. -/
def Participates (a : Author) (history : List (NewBlockEvent Author)) : Prop :=
  ∃ meta ∈ history, a = meta.proposer ∨ a ∈ meta.votes

instance (a : Author) (history : List (NewBlockEvent Author)) :
    Decidable (Participates a history) :=
  inferInstanceAs (Decidable (∃ meta ∈ history, a = meta.proposer ∨ a ∈ meta.votes))

-- ---------------------------------------------------------------------------
-- The participant set
-- ---------------------------------------------------------------------------

theorem mem_foldl_insert (a : Author) :
    ∀ (votes : List Author) (set : Finset Author),
      a ∈ votes.foldl (fun set v => insert v set) set ↔ a ∈ set ∨ a ∈ votes
  | [], set => by simp
  | v :: votes, set => by
    rw [List.foldl_cons, mem_foldl_insert a votes, Finset.mem_insert, List.mem_cons]
    tauto

theorem mem_insertParticipants (a : Author) (set : Finset Author) (meta : NewBlockEvent Author) :
    a ∈ insertParticipants set meta ↔ a ∈ set ∨ a = meta.proposer ∨ a ∈ meta.votes := by
  rw [insertParticipants, mem_foldl_insert, Finset.mem_insert]
  tauto

/-- The fold of `get_weights` collects exactly the participants. -/
theorem mem_foldl_insertParticipants (a : Author) :
    ∀ (history : List (NewBlockEvent Author)) (set : Finset Author),
      a ∈ history.foldl insertParticipants set ↔ a ∈ set ∨ Participates a history
  | [], set => by simp [Participates]
  | meta :: history, set => by
    rw [List.foldl_cons, mem_foldl_insertParticipants a history, mem_insertParticipants]
    simp only [Participates, List.mem_cons, exists_eq_or_imp, or_assoc]

theorem ActiveInactiveHeuristic.getWeights_eq_map (self : ActiveInactiveHeuristic)
    (candidates : List Author) (history : List (NewBlockEvent Author)) :
    self.getWeights candidates history = candidates.map fun a =>
      if Participates a history then self.activeWeight else self.inactiveWeight := by
  simp only [ActiveInactiveHeuristic.getWeights, mem_foldl_insertParticipants,
    Finset.not_mem_empty, false_or]

/-- **The weights of `ActiveInactiveHeuristic`**: one per candidate, `active_weight`
exactly for the candidates that took part in the history; so two histories with the same
participants give the same weights. -/
theorem activeInactive_getWeights (self : ActiveInactiveHeuristic) (candidates : List Author)
    (history : List (NewBlockEvent Author)) :
    (self.getWeights candidates history).length = candidates.length ∧
    self.getWeights candidates history = candidates.map (fun a =>
      if Participates a history then self.activeWeight else self.inactiveWeight) ∧
    ∀ history' : List (NewBlockEvent Author),
      (∀ a, Participates a history ↔ Participates a history') →
        self.getWeights candidates history = self.getWeights candidates history' := by
  refine ⟨by simp [self.getWeights_eq_map], self.getWeights_eq_map candidates history,
    fun history' hsame => ?_⟩
  simp only [ActiveInactiveHeuristic.getWeights_eq_map, hsame]

end Aptos.Consensus
