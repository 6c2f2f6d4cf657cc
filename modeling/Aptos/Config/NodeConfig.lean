import Aptos.Rust.Core

/-!
# Aptos config — the role of a node and the checks of `NodeConfig::load`

`NodeConfig::load` parses a YAML file into a `NodeConfig` and checks it before the node
starts:
* a validator has a validator network, and a full node has none;
* the execution config and every network config load (`ExecutionConfig::load`,
  `NetworkConfig::load`, outside this file: they are the parameters `Loaders`);
* the networks' `network_id`s are pairwise distinct. The validator network's id goes into a
  `HashSet` first; then each full-node network's id is checked against the set and added.

`NodeConfig.WellFormed` says what a loaded config satisfies. `load` is sound (every config it
returns is well formed), complete (when the execution config loads and the loads `load` makes
of the config's networks keep their ids, it accepts exactly the well-formed configs), and a
rejection by its own checks says which check failed, naming the repeated id.

`RoleType::from_str` reads back exactly the names `RoleType::as_str` prints.

Left out: `load_config` (the file and `serde_yaml`), the root path handed to
`ExecutionConfig::load`, and what `set_data_dir` writes into the consensus, metrics and
storage configs, which no check reads.

Results:
* `RoleType.fromStr_eq_ok_iff`: parsing a role;
* `loadFullNodeNetworks_eq_ok_iff`: the `HashSet` loop, in one statement;
* `load_eq_ok_iff`: what `load` returns, and when.
-/

namespace Aptos.Config

open Aptos.Rust

-- ---------------------------------------------------------------------------
-- Roles
-- ---------------------------------------------------------------------------

/-- `RoleType`. -/
inductive RoleType
  | validator
  | fullNode
  deriving DecidableEq, Repr

/-- `RoleType::is_validator`. -/
def RoleType.isValidator (self : RoleType) : Bool := self == .validator

/-- `RoleType::as_str`: the role's name in a config file. -/
def RoleType.asStr : RoleType → String
  | .validator => "validator"
  | .fullNode => "full_node"

/-- `ParseRoleError(String)`: the text that names no role. -/
structure ParseRoleError where
  input : String
  deriving DecidableEq, Repr

/-- `<RoleType as FromStr>::from_str`. -/
def RoleType.fromStr (s : String) : Except ParseRoleError RoleType :=
  match s with
  | "validator" => .ok .validator
  | "full_node" => .ok .fullNode
  | _ => .error ⟨s⟩

/-- **Parsing a role**: `from_str` accepts exactly the names `as_str` prints and reads each
back to its role; any other text is returned in the error. -/
theorem RoleType.fromStr_eq_ok_iff (s : String) :
    (∀ role : RoleType, RoleType.fromStr s = .ok role ↔ role.asStr = s) ∧
      ((∀ role : RoleType, role.asStr ≠ s) → RoleType.fromStr s = .error ⟨s⟩) := by
  unfold RoleType.fromStr
  split
  · exact ⟨fun role => by cases role <;> simp [RoleType.asStr], fun h => absurd rfl (h .validator)⟩
  · exact ⟨fun role => by cases role <;> simp [RoleType.asStr], fun h => absurd rfl (h .fullNode)⟩
  · rename_i hv hf
    refine ⟨fun role => ?_, fun _ => rfl⟩
    cases role
    · simpa [RoleType.asStr, eq_comm] using hv
    · simpa [RoleType.asStr, eq_comm] using hf

-- ---------------------------------------------------------------------------
-- The config and its callees
-- ---------------------------------------------------------------------------

/-- `config::Error`, with the variants this file raises. `InvariantViolation` is `load`'s own;
the callees' errors reach `load` through `?`. The `io` and `serde_yaml` payloads are left out. -/
inductive Error
  | invariantViolation (msg : String)
  | io (path : String)
  | yaml (what : String)
  deriving DecidableEq, Repr

/-- `invariant(cond, msg)` (config/src/config/error.rs): `Err(InvariantViolation(msg))` unless
`cond`. -/
def invariant (cond : Bool) (msg : String) : Except Error Unit :=
  if cond then .ok () else .error (.invariantViolation msg)

@[simp] theorem invariant_true (msg : String) : invariant true msg = .ok () := rfl

@[simp] theorem invariant_false (msg : String) :
    invariant false msg = .error (.invariantViolation msg) := rfl

/-- `BaseConfig`, less the chain id and the waypoint, which nothing here reads. -/
structure BaseConfig where
  dataDir : String
  role : RoleType
  deriving DecidableEq, Repr

/-- `BaseConfig::default()`. -/
def BaseConfig.default : BaseConfig := ⟨"/opt/libra/data/commmon", .validator⟩

/-- `NodeConfig`, over the types of the sections `load` hands to a callee: `Exec` for
`execution` and `Net` for a `NetworkConfig`; `Test` for `test`. The sections that are only
cloned and saved are left out. -/
structure NodeConfig (Exec Net Test : Type) where
  base : BaseConfig
  execution : Exec
  fullNodeNetworks : List Net
  test : Option Test
  validatorNetwork : Option Net
  deriving DecidableEq, Repr

/-- What `load` calls outside this file, and the id it reads off a network config. -/
structure Loaders (Exec Net NetworkId : Type) where
  /-- `ExecutionConfig::load`. -/
  execution : Exec → Except Error Exec
  /-- `NetworkConfig::load(role)`. -/
  network : RoleType → Net → Except Error Net
  /-- The field `NetworkConfig::network_id`. -/
  networkId : Net → NetworkId

section Load

variable {Exec Net Test NetworkId : Type} (ld : Loaders Exec Net NetworkId)

/-- The role check at the top of `load`. -/
def checkRole (config : NodeConfig Exec Net Test) : Except Error Unit :=
  if config.base.role.isValidator then
    invariant config.validatorNetwork.isSome
      "Missing a validator network config for a validator node"
  else
    invariant config.validatorNetwork.isNone
      "Provided a validator network config for a full_node node"

/-- The `if let Some(network) = &mut config.validator_network` block: load the validator
network, if there is one. -/
def loadValidatorNetwork : Option Net → Except Error (Option Net)
  | some network => some <$> ld.network .validator network
  | none => .ok none

/-- The `for network in &mut config.full_node_networks` loop: load each network, check its
id against `network_ids`, the ids seen so far, and add it. -/
def loadFullNodeNetworks [DecidableEq NetworkId] [Debug NetworkId] (networkIds : List NetworkId) :
    List Net → Except Error (List Net)
  | [] => .ok []
  | network :: rest => do
    let network ← ld.network .fullNode network
    let networkId := ld.networkId network
    invariant (!networkIds.contains networkId)
      ("network_id " ++ Debug.fmt networkId ++ " was repeated")
    let rest ← loadFullNodeNetworks (networkId :: networkIds) rest
    pure (network :: rest)

/-- `NodeConfig::load`, from the parsed config on. The final `set_data_dir` of the config's
own data dir changes none of the modelled fields. -/
def NodeConfig.load [DecidableEq NetworkId] [Debug NetworkId] (config : NodeConfig Exec Net Test) :
    Except Error (NodeConfig Exec Net Test) := do
  checkRole config
  let execution ← ld.execution config.execution
  let validatorNetwork ← loadValidatorNetwork ld config.validatorNetwork
  let fullNodeNetworks ← loadFullNodeNetworks ld
    (validatorNetwork.toList.map ld.networkId) config.fullNodeNetworks
  pure { config with execution, validatorNetwork, fullNodeNetworks }

end Load

-- ---------------------------------------------------------------------------
-- What a loaded config satisfies
-- ---------------------------------------------------------------------------

section WellFormed

variable {Exec Net Test NetworkId : Type}

/-- The networks' ids: the validator network's, then the full-node networks' in order. -/
def NodeConfig.networkIds (networkId : Net → NetworkId) (c : NodeConfig Exec Net Test) :
    List NetworkId :=
  c.validatorNetwork.toList.map networkId ++ c.fullNodeNetworks.map networkId

/-- A validator has a validator network, and a full node has none. -/
def NodeConfig.RoleFits (c : NodeConfig Exec Net Test) : Prop :=
  c.base.role.isValidator = c.validatorNetwork.isSome

/-- What `load` checks of a config: its role fits its networks, and their ids are pairwise
distinct. -/
structure NodeConfig.WellFormed (networkId : Net → NetworkId) (c : NodeConfig Exec Net Test) :
    Prop where
  roleFits : c.RoleFits
  networkIds_nodup : (c.networkIds networkId).Nodup

instance (c : NodeConfig Exec Net Test) : Decidable c.RoleFits :=
  inferInstanceAs (Decidable (_ = _))

instance [DecidableEq NetworkId] (networkId : Net → NetworkId) (c : NodeConfig Exec Net Test) :
    Decidable (c.WellFormed networkId) :=
  decidable_of_iff (c.RoleFits ∧ (c.networkIds networkId).Nodup)
    ⟨fun ⟨h₁, h₂⟩ => ⟨h₁, h₂⟩, fun ⟨h₁, h₂⟩ => ⟨h₁, h₂⟩⟩

/-- The ids `ids` are pairwise distinct and none is among `seen`. -/
def FreshAt (seen ids : List NetworkId) : Prop :=
  ids.Nodup ∧ ∀ x ∈ ids, x ∉ seen

@[simp] theorem freshAt_nil (seen : List NetworkId) : FreshAt seen [] := by
  simp [FreshAt]

/-- One step of the loop: the head is not yet seen, and the tail is fresh once it is. -/
theorem freshAt_cons {seen ids : List NetworkId} {x : NetworkId} :
    FreshAt seen (x :: ids) ↔ x ∉ seen ∧ FreshAt (x :: seen) ids := by
  simp only [FreshAt, List.nodup_cons, List.forall_mem_cons]
  simp only [List.mem_cons, not_or]
  constructor
  · rintro ⟨⟨hx, hids⟩, hxs, hrest⟩
    exact ⟨hxs, hids, fun y hy => ⟨fun e => hx (e ▸ hy), hrest y hy⟩⟩
  · rintro ⟨hxs, hids, hrest⟩
    exact ⟨⟨fun h => (hrest x h).1 rfl, hids⟩, hxs, fun y hy => (hrest y hy).2⟩

/-- Ids fresh at a duplicate-free `seen` extend it without a repeat. -/
theorem nodup_append_iff_freshAt {seen ids : List NetworkId} (hseen : seen.Nodup) :
    (seen ++ ids).Nodup ↔ FreshAt seen ids := by
  rw [List.nodup_append, FreshAt]
  exact ⟨fun ⟨_, hids, hd⟩ => ⟨hids, fun x hx hs => hd hs hx⟩,
    fun ⟨hids, hd⟩ => ⟨hseen, hids, fun x hs hx => hd x hx hs⟩⟩

end WellFormed

section Spec

variable {Exec Net Test NetworkId : Type} (ld : Loaders Exec Net NetworkId)

/-- The role check passes exactly when the role fits. -/
theorem checkRole_eq_ok_iff (c : NodeConfig Exec Net Test) (u : Unit) :
    checkRole c = .ok u ↔ c.RoleFits := by
  unfold checkRole NodeConfig.RoleFits
  cases c.base.role.isValidator <;> cases c.validatorNetwork <;> simp

/-- The text `checkRole` rejects a role with. -/
def roleMsg (role : RoleType) : String :=
  if role.isValidator then "Missing a validator network config for a validator node"
  else "Provided a validator network config for a full_node node"

theorem checkRole_of_not_roleFits {c : NodeConfig Exec Net Test} (h : ¬ c.RoleFits) :
    checkRole c = .error (.invariantViolation (roleMsg c.base.role)) := by
  unfold checkRole roleMsg NodeConfig.RoleFits at *
  cases hr : c.base.role.isValidator <;> cases hv : c.validatorNetwork <;> simp_all

theorem loadValidatorNetwork_eq_ok_iff (vn vn' : Option Net) :
    loadValidatorNetwork ld vn = .ok vn' ↔
      Option.Rel (fun n n' => ld.network .validator n = .ok n') vn vn' := by
  constructor
  · intro h
    cases vn with
    | none => cases h; exact .none
    | some n =>
      cases hn : ld.network .validator n with
      | error e => simp [loadValidatorNetwork, hn, Functor.map, Except.map] at h
      | ok n' =>
        simp only [loadValidatorNetwork, hn, Functor.map, Except.map, Except.ok.injEq] at h
        exact h ▸ .some hn
  · rintro (⟨hn⟩ | ⟨⟩)
    · simp [loadValidatorNetwork, hn, Functor.map, Except.map]
    · rfl

/-- Related options are both present or both absent. -/
theorem isSome_eq_of_rel {α β : Type} {r : α → β → Prop} {a : Option α} {b : Option β}
    (h : Option.Rel r a b) : a.isSome = b.isSome := by
  cases h <;> rfl

/-- A network config whose load keeps its id loads to one with that id. -/
theorem exists_of_keepsId {role : RoleType} {n : Net}
    (h : (ld.network role n).map ld.networkId = .ok (ld.networkId n)) :
    ∃ n', ld.network role n = .ok n' ∧ ld.networkId n' = ld.networkId n := by
  cases hn : ld.network role n <;> simp_all [Except.map]

/-- A load that keeps ids gives the loaded network the id it was loaded from. -/
theorem networkId_of_keepsId {role : RoleType} {n n' : Net}
    (h : (ld.network role n).map ld.networkId = .ok (ld.networkId n))
    (hn : ld.network role n = .ok n') : ld.networkId n' = ld.networkId n := by
  rw [hn] at h
  exact Except.ok.inj h

/-- Loaded networks have the ids of the networks they were loaded from, when each load keeps
its id. -/
theorem map_networkId_of_forall₂ {role : RoleType} {ns ns' : List Net}
    (h : List.Forall₂ (fun n n' => ld.network role n = .ok n') ns ns') :
    (∀ n ∈ ns, (ld.network role n).map ld.networkId = .ok (ld.networkId n)) →
      ns'.map ld.networkId = ns.map ld.networkId := by
  induction h with
  | nil => exact fun _ => rfl
  | cons hn _ ih =>
    intro hnet
    rw [List.forall_mem_cons] at hnet
    simp [networkId_of_keepsId ld hnet.1 hn, ih hnet.2]

/-- Networks whose loads keep their ids all load. -/
theorem exists_forall₂_of_keepsId {role : RoleType} :
    ∀ ns : List Net, (∀ n ∈ ns, (ld.network role n).map ld.networkId = .ok (ld.networkId n)) →
      ∃ ns', List.Forall₂ (fun n n' => ld.network role n = .ok n') ns ns'
  | [], _ => ⟨[], .nil⟩
  | n :: ns, hnet =>
    have ⟨n', hn, _⟩ := exists_of_keepsId ld (hnet n (List.mem_cons_self n ns))
    have ⟨ns', hns⟩ := exists_forall₂_of_keepsId ns fun m hm =>
      hnet m (List.mem_cons_of_mem n hm)
    ⟨n' :: ns', .cons hn hns⟩

/-- An optional network loaded with a load that keeps its id keeps its id. -/
theorem toList_map_networkId_of_rel {role : RoleType} {vn vn' : Option Net}
    (hnet : ∀ n ∈ vn, (ld.network role n).map ld.networkId = .ok (ld.networkId n))
    (h : Option.Rel (fun n n' => ld.network role n = .ok n') vn vn') :
    vn'.toList.map ld.networkId = vn.toList.map ld.networkId := by
  cases h with
  | none => rfl
  | some hn => simp [networkId_of_keepsId ld (hnet _ rfl) hn]

/-- An optional network whose load keeps its id loads. -/
theorem exists_rel_of_keepsId {role : RoleType} :
    ∀ vn : Option Net, (∀ n ∈ vn, (ld.network role n).map ld.networkId = .ok (ld.networkId n)) →
      ∃ vn', Option.Rel (fun n n' => ld.network role n = .ok n') vn vn'
  | none, _ => ⟨none, .none⟩
  | some n, hnet =>
    have ⟨n', hn, _⟩ := exists_of_keepsId ld (hnet n rfl)
    ⟨some n', .some hn⟩

/-- The network loads `load` makes keep the ids of the networks they load: the validator
network's, loaded as a validator's, and each full-node network's, loaded as a full node's. -/
structure Loaders.KeepsIds (config : NodeConfig Exec Net Test) : Prop where
  validator : ∀ n ∈ config.validatorNetwork,
    (ld.network .validator n).map ld.networkId = .ok (ld.networkId n)
  fullNode : ∀ n ∈ config.fullNodeNetworks,
    (ld.network .fullNode n).map ld.networkId = .ok (ld.networkId n)

variable [DecidableEq NetworkId] [Debug NetworkId]

/-- The text the `HashSet` loop rejects a repeated id with. -/
def repeatedMsg (x : NetworkId) : String := "network_id " ++ Debug.fmt x ++ " was repeated"

/-- **The `HashSet` loop**: it returns the loaded networks exactly when each network loads
and the loaded ids are pairwise distinct and new to `seen`. -/
theorem loadFullNodeNetworks_eq_ok_iff (seen : List NetworkId) (ns ns' : List Net) :
    loadFullNodeNetworks ld seen ns = .ok ns' ↔
      List.Forall₂ (fun n n' => ld.network .fullNode n = .ok n') ns ns' ∧
        FreshAt seen (ns'.map ld.networkId) := by
  induction ns generalizing seen ns' with
  | nil => cases ns' <;> simp [loadFullNodeNetworks]
  | cons n ns ih =>
    simp only [loadFullNodeNetworks, bind_eq_ok, pure, Except.pure, Except.ok.injEq]
    constructor
    · rintro ⟨n', hn, u, hu, rest', hrest, rfl⟩
      have hfresh : ld.networkId n' ∉ seen := by
        cases hc : seen.contains (ld.networkId n') <;> simp_all
      obtain ⟨hall, hfr⟩ := (ih _ _).mp hrest
      exact ⟨.cons hn hall, List.map_cons .. ▸ freshAt_cons.mpr ⟨hfresh, hfr⟩⟩
    · intro ⟨hall, hfr⟩
      cases hall with
      | cons hn hall =>
        rename_i n' rest'
        obtain ⟨hfresh, hfr⟩ := freshAt_cons.mp (List.map_cons .. ▸ hfr)
        refine ⟨n', hn, (), ?_, rest', (ih _ _).mpr ⟨hall, hfr⟩, rfl⟩
        simp [hfresh]

/-- When each network loads and keeps its id, the loop rejects ids that are not fresh,
naming one that occurs twice. -/
theorem loadFullNodeNetworks_eq_error :
    ∀ (seen : List NetworkId) (ns : List Net),
      (∀ n ∈ ns, (ld.network .fullNode n).map ld.networkId = .ok (ld.networkId n)) →
      ¬ FreshAt seen (ns.map ld.networkId) →
      ∃ x, 2 ≤ (seen ++ ns.map ld.networkId).count x ∧
        loadFullNodeNetworks ld seen ns = .error (.invariantViolation (repeatedMsg x))
  | seen, [], _, h => absurd (freshAt_nil seen) h
  | seen, n :: ns, hnet, h => by
    rw [List.forall_mem_cons] at hnet
    obtain ⟨n', hn, hid⟩ := exists_of_keepsId ld hnet.1
    by_cases hs : ld.networkId n ∈ seen
    · refine ⟨ld.networkId n, ?_, ?_⟩
      · have := List.count_pos_iff.mpr hs
        simp only [List.map_cons, List.count_append, List.count_cons_self]
        omega
      · simp [loadFullNodeNetworks, hn, hid, hs, repeatedMsg]
    · have hfr : ¬ FreshAt (ld.networkId n :: seen) (ns.map ld.networkId) := fun hf =>
        h (List.map_cons .. ▸ freshAt_cons.mpr ⟨hs, hf⟩)
      obtain ⟨x, hx, herr⟩ := loadFullNodeNetworks_eq_error _ ns hnet.2 hfr
      refine ⟨x, ?_, ?_⟩
      · simp only [List.map_cons, List.cons_append, List.count_append, List.count_cons] at hx ⊢
        omega
      · simp [loadFullNodeNetworks, hn, hid, hs, herr]

/-- **What `load` returns, and when**: the role fits, the execution config and every network
load, the loaded ids are pairwise distinct, and the result is the config with its loaded
sections. -/
theorem load_eq_ok_iff (config c' : NodeConfig Exec Net Test) :
    config.load ld = .ok c' ↔
      config.RoleFits ∧
        ld.execution config.execution = .ok c'.execution ∧
        Option.Rel (fun n n' => ld.network .validator n = .ok n')
          config.validatorNetwork c'.validatorNetwork ∧
        List.Forall₂ (fun n n' => ld.network .fullNode n = .ok n')
          config.fullNodeNetworks c'.fullNodeNetworks ∧
        (c'.networkIds ld.networkId).Nodup ∧
        c'.base = config.base ∧ c'.test = config.test := by
  have hvnodup (vn : Option Net) : (vn.toList.map ld.networkId).Nodup := by
    cases vn <;> simp
  simp only [NodeConfig.load, bind_eq_ok, checkRole_eq_ok_iff, loadValidatorNetwork_eq_ok_iff,
    loadFullNodeNetworks_eq_ok_iff, NodeConfig.networkIds, nodup_append_iff_freshAt (hvnodup _),
    pure, Except.pure, Except.ok.injEq]
  constructor
  · rintro ⟨-, hrole, e, he, vn, hvn, fns, ⟨hall, hfr⟩, rfl⟩
    exact ⟨hrole, he, hvn, hall, hfr, rfl, rfl⟩
  · rintro ⟨hrole, he, hvn, hall, hfr, hbase, htest⟩
    refine ⟨(), hrole, _, he, _, hvn, _, ⟨hall, hfr⟩, ?_⟩
    cases c'
    simp_all

-- ---------------------------------------------------------------------------
-- Soundness, completeness, rejections
-- ---------------------------------------------------------------------------

/-- Network configs that are their own ids, and loaders that accept every section as it is. -/
def idLoaders : Loaders Unit Nat Nat := ⟨.ok, fun _ n => .ok n, id⟩

/-- A validator with validator network `0` and full-node networks `fullNodeNetworks`. -/
def validatorConfig (fullNodeNetworks : List Nat) : NodeConfig Unit Nat Unit :=
  ⟨BaseConfig.default, (), fullNodeNetworks, none, some 0⟩

/-- **A loaded config is well formed**: its role fits its networks and their ids are pairwise
distinct; its base section is the file's. -/
theorem load_wellFormed (config c' : NodeConfig Exec Net Test) (h : config.load ld = .ok c') :
    c'.WellFormed ld.networkId ∧ c'.base = config.base := by
  obtain ⟨hrole, -, hvn, -, hnodup, hbase, -⟩ := (load_eq_ok_iff ld config c').mp h
  exact ⟨⟨by rw [NodeConfig.RoleFits, hbase, ← isSome_eq_of_rel hvn]; exact hrole, hnodup⟩, hbase⟩

/-- A validator with networks `0` and `1` loads, and is well formed. -/
theorem load_wellFormed_validatorConfig :
    (validatorConfig [1]).load idLoaders = .ok (validatorConfig [1]) ∧
      (validatorConfig [1]).WellFormed idLoaders.networkId ∧
        (validatorConfig [1]).base = (validatorConfig [1]).base :=
  ⟨rfl, load_wellFormed idLoaders _ _ rfl⟩

/-- When the network loads keep ids, a loaded config has the ids of the file's. -/
theorem load_networkIds {config c' : NodeConfig Exec Net Test} (hnet : ld.KeepsIds config)
    (h : config.load ld = .ok c') :
    c'.networkIds ld.networkId = config.networkIds ld.networkId := by
  obtain ⟨-, -, hvn, hall, -⟩ := (load_eq_ok_iff ld config c').mp h
  rw [NodeConfig.networkIds, NodeConfig.networkIds,
    toList_map_networkId_of_rel ld hnet.validator hvn,
    map_networkId_of_forall₂ ld hall hnet.fullNode]

/-- When the execution config loads and the network loads keep ids, a well-formed config
loads. -/
theorem exists_load_eq_ok_of_wellFormed (config : NodeConfig Exec Net Test)
    (hexec : ∃ e, ld.execution config.execution = .ok e) (hnet : ld.KeepsIds config)
    (hwf : config.WellFormed ld.networkId) : ∃ c', config.load ld = .ok c' := by
  obtain ⟨e, he⟩ := hexec
  obtain ⟨vn', hvn⟩ := exists_rel_of_keepsId ld config.validatorNetwork hnet.validator
  obtain ⟨ns', hall⟩ := exists_forall₂_of_keepsId ld config.fullNodeNetworks hnet.fullNode
  refine ⟨{ config with execution := e, validatorNetwork := vn', fullNodeNetworks := ns' },
    (load_eq_ok_iff ld _ _).mpr ⟨hwf.roleFits, he, hvn, hall, ?_, rfl, rfl⟩⟩
  rw [NodeConfig.networkIds, toList_map_networkId_of_rel ld hnet.validator hvn,
    map_networkId_of_forall₂ ld hall hnet.fullNode]
  exact hwf.networkIds_nodup

/-- When the network loads keep ids, a config that loads is well formed. -/
theorem wellFormed_of_load_eq_ok {config c' : NodeConfig Exec Net Test}
    (hnet : ld.KeepsIds config) (h : config.load ld = .ok c') :
    config.WellFormed ld.networkId := by
  obtain ⟨hrole, -, -, -, hnodup, -⟩ := (load_eq_ok_iff ld config c').mp h
  exact ⟨hrole, load_networkIds ld hnet h ▸ hnodup⟩

/-- **`load` accepts exactly the well-formed configs** when the execution config loads and the
loads of the config's networks keep their ids. -/
theorem load_isOk_iff (config : NodeConfig Exec Net Test)
    (hexec : ∃ e, ld.execution config.execution = .ok e) (hnet : ld.KeepsIds config) :
    (∃ c', config.load ld = .ok c') ↔ config.WellFormed ld.networkId :=
  ⟨fun ⟨_, h⟩ => wellFormed_of_load_eq_ok ld hnet h,
    exists_load_eq_ok_of_wellFormed ld config hexec hnet⟩

/-- The validator with networks `0` and `1` is accepted, being well formed. -/
theorem load_isOk_iff_validatorConfig :
    (∃ e, idLoaders.execution (validatorConfig [1]).execution = .ok e) ∧
      idLoaders.KeepsIds (validatorConfig [1]) ∧
      ((∃ c', (validatorConfig [1]).load idLoaders = .ok c') ↔
        (validatorConfig [1]).WellFormed idLoaders.networkId) :=
  ⟨⟨(), rfl⟩, ⟨fun _ _ => rfl, fun _ _ => rfl⟩,
    load_isOk_iff idLoaders _ ⟨(), rfl⟩ ⟨fun _ _ => rfl, fun _ _ => rfl⟩⟩

/-- **A rejection names the failed check.** When the execution config loads and the loads of
the config's networks keep their ids, a config that is not well formed is rejected with an
`InvariantViolation`: with the role's text when its role does not fit its networks, and
otherwise naming an id that occurs twice among its networks. -/
theorem load_eq_error_of_not_wellFormed (config : NodeConfig Exec Net Test)
    (hexec : ∃ e, ld.execution config.execution = .ok e) (hnet : ld.KeepsIds config)
    (hwf : ¬ config.WellFormed ld.networkId) :
    (¬ config.RoleFits ∧
        config.load ld = .error (.invariantViolation (roleMsg config.base.role))) ∨
      (config.RoleFits ∧ ∃ x, 2 ≤ (config.networkIds ld.networkId).count x ∧
        config.load ld = .error (.invariantViolation (repeatedMsg x))) := by
  by_cases hrole : config.RoleFits
  · obtain ⟨e, he⟩ := hexec
    obtain ⟨vn', hvn⟩ := exists_rel_of_keepsId ld config.validatorNetwork hnet.validator
    have hseen := toList_map_networkId_of_rel ld hnet.validator hvn
    have hfresh : ¬ FreshAt (vn'.toList.map ld.networkId)
        (config.fullNodeNetworks.map ld.networkId) := by
      rw [← nodup_append_iff_freshAt (by cases vn' <;> simp), hseen]
      exact fun h => hwf ⟨hrole, h⟩
    obtain ⟨x, hx, herr⟩ := loadFullNodeNetworks_eq_error ld _ _ hnet.fullNode hfresh
    refine .inr ⟨hrole, x, by rwa [hseen] at hx, ?_⟩
    simp [NodeConfig.load, (checkRole_eq_ok_iff config ()).mpr hrole, he,
      (loadValidatorNetwork_eq_ok_iff ld _ _).mpr hvn, herr]
  · exact .inl ⟨hrole, by simp [NodeConfig.load, checkRole_of_not_roleFits hrole]⟩

/-- The validator with full-node networks `1` and `0` repeats the id of its validator network,
and is rejected naming it. -/
theorem load_eq_error_of_not_wellFormed_repeat :
    (∃ e, idLoaders.execution (validatorConfig [1, 0]).execution = .ok e) ∧
      idLoaders.KeepsIds (validatorConfig [1, 0]) ∧
      ¬ (validatorConfig [1, 0]).WellFormed idLoaders.networkId ∧
      ((¬ (validatorConfig [1, 0]).RoleFits ∧
          (validatorConfig [1, 0]).load idLoaders =
            .error (.invariantViolation (roleMsg (validatorConfig [1, 0]).base.role))) ∨
        ((validatorConfig [1, 0]).RoleFits ∧
          ∃ x, 2 ≤ ((validatorConfig [1, 0]).networkIds idLoaders.networkId).count x ∧
            (validatorConfig [1, 0]).load idLoaders =
              .error (.invariantViolation (repeatedMsg x)))) :=
  ⟨⟨(), rfl⟩, ⟨fun _ _ => rfl, fun _ _ => rfl⟩, by decide,
    load_eq_error_of_not_wellFormed idLoaders _ ⟨(), rfl⟩ ⟨fun _ _ => rfl, fun _ _ => rfl⟩
      (by decide)⟩

end Spec

-- ---------------------------------------------------------------------------
-- Random configs
-- ---------------------------------------------------------------------------

/-- What `random_internal` and `clone_for_template` call outside this file, with the generator
`StdRng` as `Rng`. -/
structure RandomOps (Net NetworkId Test Rng PeerId : Type) where
  /-- `TestConfig::new_with_temp_dir()`. -/
  newWithTempDir : Test
  /-- `test.initialize_storage = true; test.random_account_key(rng)`. -/
  randomAccountKey : Test → Rng → Test × Rng
  /-- `from_public_key(&test.operator_keypair.as_ref().unwrap().public_key())`; `none` where
  the `unwrap` panics. -/
  operatorPeerId : Test → Option PeerId
  /-- `NetworkConfig::network_with_id`. -/
  networkWithId : NetworkId → Net
  /-- `network.random_with_peer_id(rng, Some(peer_id))`. -/
  randomWithPeerId : Net → Rng → PeerId → Net × Rng
  /-- `test.random_consensus_key(rng)`. -/
  randomConsensusKey : Test → Rng → Test × Rng
  /-- `test.random_execution_key(rng)`. -/
  randomExecutionKey : Test → Rng → Test × Rng
  /-- `network.random(rng)`. -/
  random : Net → Rng → Net × Rng
  /-- `test.temp_dir()`; `none` where its `unwrap` panics. -/
  tempDir : Test → Option String
  /-- `NetworkConfig::clone_for_template`. -/
  cloneForTemplate : Net → Net
  /-- `NetworkId::Validator`. -/
  validatorId : NetworkId
  /-- `NetworkId::Public`. -/
  publicId : NetworkId

/-- The callees of `random_internal` keep the `network_id` of the networks they touch, and
`network_with_id` makes a network with the id it is given. -/
structure RandomOps.KeepsIds {Net NetworkId Test Rng PeerId : Type}
    (ops : RandomOps Net NetworkId Test Rng PeerId) (networkId : Net → NetworkId) : Prop where
  networkWithId : ∀ x, networkId (ops.networkWithId x) = x
  randomWithPeerId : ∀ n rng p, networkId (ops.randomWithPeerId n rng p).1 = networkId n
  random : ∀ n rng, networkId (ops.random n rng).1 = networkId n
  cloneForTemplate : ∀ n, networkId (ops.cloneForTemplate n) = networkId n

section Random

variable {Exec Net NetworkId Test Rng PeerId : Type} (ops : RandomOps Net NetworkId Test Rng PeerId)

/-- `NodeConfig::default()`, over `ExecutionConfig::default()`. -/
def NodeConfig.default (execution : Exec) : NodeConfig Exec Net Test :=
  ⟨BaseConfig.default, execution, [], none, none⟩

/-- `NodeConfig::clone_for_template`: the config without its test section, its networks cloned
without their keys. -/
def NodeConfig.cloneForTemplate (c : NodeConfig Exec Net Test) : NodeConfig Exec Net Test :=
  { c with
    fullNodeNetworks := c.fullNodeNetworks.map ops.cloneForTemplate
    test := none
    validatorNetwork := c.validatorNetwork.map ops.cloneForTemplate }

/-- The `for network in &mut self.full_node_networks { network.random(rng) }` loop. -/
def randomNetworks : List Net → Rng → List Net × Rng
  | [], rng => ([], rng)
  | network :: rest, rng =>
    let (network, rng) := ops.random network rng
    let (rest, rng) := randomNetworks rest rng
    (network :: rest, rng)

/-- `NodeConfig::random_internal`; `none` where an `unwrap` panics. The data dir is set to the
test's temporary directory. -/
def NodeConfig.randomInternal (c : NodeConfig Exec Net Test) (rng : Rng) :
    Option (NodeConfig Exec Net Test × Rng) :=
  let test := ops.newWithTempDir
  if c.base.role = .validator then do
    let (test, rng) := ops.randomAccountKey test rng
    let peerId ← ops.operatorPeerId test
    let network := c.validatorNetwork.getD (ops.networkWithId ops.validatorId)
    let (network, rng) := ops.randomWithPeerId network rng peerId
    let (test, rng) := ops.randomConsensusKey test rng
    let (test, rng) := ops.randomExecutionKey test rng
    let dataDir ← ops.tempDir test
    pure ({ c with
      base := { c.base with dataDir := dataDir }
      validatorNetwork := some network
      test := some test }, rng)
  else do
    let networks := if c.fullNodeNetworks.isEmpty then [ops.networkWithId ops.publicId]
      else c.fullNodeNetworks
    let (networks, rng) := randomNetworks ops networks rng
    let dataDir ← ops.tempDir test
    pure ({ c with
      base := { c.base with dataDir := dataDir }
      fullNodeNetworks := networks
      validatorNetwork := none
      test := some test }, rng)

/-- `NodeConfig::random_with_rng`: the default config, randomised. -/
def NodeConfig.randomWithRng (execution : Exec) (rng : Rng) :
    Option (NodeConfig Exec Net Test × Rng) :=
  (NodeConfig.default execution).randomInternal ops rng

/-- `NodeConfig::random_with_template`: the template's clone, randomised. -/
def NodeConfig.randomWithTemplate (template : NodeConfig Exec Net Test) (rng : Rng) :
    Option (NodeConfig Exec Net Test × Rng) :=
  (template.cloneForTemplate ops).randomInternal ops rng

theorem length_randomNetworks :
    ∀ (ns : List Net) (rng : Rng), (randomNetworks ops ns rng).1.length = ns.length
  | [], _ => rfl
  | _ :: ns, rng => by simp [randomNetworks, length_randomNetworks ns]

/-- What `random_internal` can return: the config with its test section set, and either a
validator network randomised from the validator's own (or a new `NetworkId::Validator` one),
or, for a full node, no validator network and its full-node networks randomised (a new
`NetworkId::Public` one if it had none). -/
theorem randomInternal_cases {c c' : NodeConfig Exec Net Test} {rng rng' : Rng}
    (h : c.randomInternal ops rng = some (c', rng')) :
    c'.base.role = c.base.role ∧ c'.execution = c.execution ∧ c'.test.isSome ∧
      ((c.base.role = .validator ∧ c'.fullNodeNetworks = c.fullNodeNetworks ∧
          ∃ rng₀ peerId, c'.validatorNetwork = some (ops.randomWithPeerId
            (c.validatorNetwork.getD (ops.networkWithId ops.validatorId)) rng₀ peerId).1) ∨
        (c.base.role ≠ .validator ∧ c'.validatorNetwork = none ∧
          c'.fullNodeNetworks = (randomNetworks ops (if c.fullNodeNetworks.isEmpty then
            [ops.networkWithId ops.publicId] else c.fullNodeNetworks) rng).1)) := by
  unfold NodeConfig.randomInternal at h
  split at h <;> simp only [Option.bind_eq_bind, Option.bind_eq_some, Option.some.injEq] at h
  · obtain ⟨_, -, _, -, rfl, -⟩ := h
    exact ⟨rfl, rfl, rfl, .inl ⟨‹_›, rfl, _, _, rfl⟩⟩
  · obtain ⟨_, -, rfl, -⟩ := h
    exact ⟨rfl, rfl, rfl, .inr ⟨‹_›, rfl, rfl⟩⟩

/-- What `random_internal` builds: a validator gets a validator network, keeping its full-node
networks; a full node loses its validator network and keeps at least one full-node network,
each randomised. The role and the execution config are kept, and the test section set. -/
theorem randomInternal_eq_some {c c' : NodeConfig Exec Net Test} {rng rng' : Rng}
    (h : c.randomInternal ops rng = some (c', rng')) :
    c'.base.role = c.base.role ∧ c'.execution = c.execution ∧ c'.test.isSome ∧
      (c.base.role = .validator → c'.validatorNetwork.isSome ∧
        c'.fullNodeNetworks = c.fullNodeNetworks) ∧
      (c.base.role = .fullNode → c'.validatorNetwork = none ∧ c'.fullNodeNetworks ≠ [] ∧
        c'.fullNodeNetworks.length = max c.fullNodeNetworks.length 1) := by
  obtain ⟨hrole, hexec, htest, ⟨hv, hfull, _, _, hnet⟩ | ⟨hv, hnone, hfull⟩⟩ :=
    randomInternal_cases ops h
  · exact ⟨hrole, hexec, htest, fun _ => ⟨by rw [hnet]; rfl, hfull⟩,
      fun hf => absurd (hf ▸ hv) (by decide)⟩
  · refine ⟨hrole, hexec, htest, fun hval => absurd hval hv, fun _ => ⟨hnone, ?_⟩⟩
    rw [hfull, ← List.length_pos, length_randomNetworks]
    cases c.fullNodeNetworks <;> simp

/-- `random_internal` leaves a config whose role fits its networks. -/
theorem randomInternal_roleFits {c c' : NodeConfig Exec Net Test} {rng rng' : Rng}
    (h : c.randomInternal ops rng = some (c', rng')) : c'.RoleFits := by
  obtain ⟨hrole, -, -, hval, hfull⟩ := randomInternal_eq_some ops h
  rw [NodeConfig.RoleFits, hrole]
  cases hr : c.base.role
  · rw [(hval hr).1]; rfl
  · rw [(hfull hr).1]; rfl

theorem map_networkId_randomNetworks {networkId : Net → NetworkId}
    (hk : ops.KeepsIds networkId) :
    ∀ (ns : List Net) (rng : Rng), (randomNetworks ops ns rng).1.map networkId = ns.map networkId
  | [], _ => rfl
  | n :: ns, rng => by
    simp [randomNetworks, hk.random, map_networkId_randomNetworks hk ns]

/-- The network ids `random_internal` leaves, under callees that keep ids: a validator's
validator network, `NetworkId::Validator` if it had none, before its full-node networks; a
full node's full-node networks, or `NetworkId::Public` if it had none. -/
theorem randomInternal_networkIds {networkId : Net → NetworkId} (hk : ops.KeepsIds networkId)
    {c c' : NodeConfig Exec Net Test} {rng rng' : Rng}
    (h : c.randomInternal ops rng = some (c', rng')) :
    c'.networkIds networkId =
      if c.base.role = .validator then
        (c.validatorNetwork.map networkId).getD ops.validatorId ::
          c.fullNodeNetworks.map networkId
      else if c.fullNodeNetworks.isEmpty then [ops.publicId]
      else c.fullNodeNetworks.map networkId := by
  obtain ⟨-, -, -, ⟨hv, hfull, _, _, hnet⟩ | ⟨hv, hnone, hfull⟩⟩ := randomInternal_cases ops h
  · rw [if_pos hv, NodeConfig.networkIds, hnet, hfull]
    cases c.validatorNetwork <;> simp [hk.randomWithPeerId, hk.networkWithId]
  · rw [if_neg hv]
    simp only [NodeConfig.networkIds, hnone, hfull, Option.toList_none, List.map_nil,
      List.nil_append, map_networkId_randomNetworks ops hk]
    cases c.fullNodeNetworks <;> simp [hk.networkWithId]

/-- `NodeConfig::random_with_rng` builds a config `load` accepts: the default config is a
validator without networks, so `random_internal` gives it exactly one network, the
validator's. -/
theorem randomWithRng_load [DecidableEq NetworkId] [Debug NetworkId]
    (ld : Loaders Exec Net NetworkId) (execution : Exec) (rng rng' : Rng)
    (c : NodeConfig Exec Net Test) (h : NodeConfig.randomWithRng ops execution rng = some (c, rng'))
    (hexec : ∃ e, ld.execution execution = .ok e) (hnet : ld.KeepsIds c) :
    ∃ c', c.load ld = .ok c' := by
  obtain ⟨-, hexec', -, hval, -⟩ := randomInternal_eq_some ops h
  obtain ⟨hsome, hfull⟩ := hval rfl
  obtain ⟨n, hn⟩ := Option.isSome_iff_exists.mp hsome
  refine exists_load_eq_ok_of_wellFormed ld c (hexec' ▸ hexec) hnet
    ⟨randomInternal_roleFits ops h, ?_⟩
  simp [NodeConfig.networkIds, hn, hfull, NodeConfig.default]

/-- **`NodeConfig::random_with_template` builds a config `load` accepts exactly when the
template's network ids are distinct**, counting the network `random_internal` adds: the
validator network of a validator without one, and the public network of a full node without
full-node networks. This holds under callees that keep network ids, when `ExecutionConfig::load`
succeeds and the loads of the built config's networks keep their ids. -/
theorem randomWithTemplate_load_iff [DecidableEq NetworkId] [Debug NetworkId]
    (ld : Loaders Exec Net NetworkId) (hk : ops.KeepsIds ld.networkId)
    (template c : NodeConfig Exec Net Test) (rng rng' : Rng)
    (h : NodeConfig.randomWithTemplate ops template rng = some (c, rng'))
    (hexec : ∃ e, ld.execution template.execution = .ok e) (hnet : ld.KeepsIds c) :
    (∃ c', c.load ld = .ok c') ↔
      (if template.base.role = .validator then
          (template.validatorNetwork.map ld.networkId).getD ops.validatorId ::
            template.fullNodeNetworks.map ld.networkId
        else if template.fullNodeNetworks.isEmpty then [ops.publicId]
        else template.fullNodeNetworks.map ld.networkId).Nodup := by
  obtain ⟨-, hexec', -⟩ := randomInternal_eq_some ops h
  have hclone : ld.networkId ∘ ops.cloneForTemplate = ld.networkId := funext hk.cloneForTemplate
  have hids : c.networkIds ld.networkId = _ := randomInternal_networkIds ops hk h
  simp only [NodeConfig.cloneForTemplate, List.map_map, Option.map_map, hclone,
    isEmpty_map] at hids
  rw [← hids]
  exact ⟨fun ⟨_, hl⟩ => (wellFormed_of_load_eq_ok ld hnet hl).networkIds_nodup,
    fun hnodup => exists_load_eq_ok_of_wellFormed ld c (hexec' ▸ hexec) hnet
      ⟨randomInternal_roleFits ops h, hnodup⟩⟩

end Random

/-- Callees over a generator that counts its draws, with network configs that are their ids:
the validator network is `0`, the public one `1`. -/
def counterOps : RandomOps Nat Nat Unit Nat Nat where
  newWithTempDir := ()
  randomAccountKey t rng := (t, rng + 1)
  operatorPeerId _ := some 0
  networkWithId := id
  randomWithPeerId n rng _ := (n, rng + 1)
  randomConsensusKey t rng := (t, rng + 1)
  randomExecutionKey t rng := (t, rng + 1)
  random n rng := (n, rng + 1)
  tempDir _ := some "/tmp/node"
  cloneForTemplate := id
  validatorId := 0
  publicId := 1

/-- A validator template whose full-node network reuses the validator network's id `0`:
`random_with_template` still builds a config, and `load` rejects it. -/
theorem randomWithTemplate_load_iff_repeat :
    NodeConfig.randomWithTemplate counterOps (validatorConfig [0]) 0 =
        some (⟨⟨"/tmp/node", .validator⟩, (), [0], some (), some 0⟩, 4) ∧
      counterOps.KeepsIds idLoaders.networkId ∧
      (∃ e, idLoaders.execution (validatorConfig [0]).execution = .ok e) ∧
      idLoaders.KeepsIds (⟨⟨"/tmp/node", .validator⟩, (), [0], some (), some 0⟩ :
        NodeConfig Unit Nat Unit) ∧
      ¬ ∃ c', (⟨⟨"/tmp/node", .validator⟩, (), [0], some (), some 0⟩ :
        NodeConfig Unit Nat Unit).load idLoaders = .ok c' :=
  ⟨rfl, ⟨fun _ => rfl, fun _ _ _ => rfl, fun _ _ => rfl, fun _ => rfl⟩, ⟨(), rfl⟩,
    ⟨fun _ _ => rfl, fun _ _ => rfl⟩,
    (randomWithTemplate_load_iff counterOps idLoaders
      ⟨fun _ => rfl, fun _ _ _ => rfl, fun _ _ => rfl, fun _ => rfl⟩ (validatorConfig [0]) _ 0 4
      rfl ⟨(), rfl⟩ ⟨fun _ _ => rfl, fun _ _ => rfl⟩).not.mpr (by decide)⟩

end Aptos.Config
