import Aptos.Framework.Bcs

/-!
# Aptos framework — `transaction_script_builder.rs`

The generated conversion between a structured `ScriptFunctionCall` (`CreateAccount`,
`Mint`, `Transfer`) and a `TransactionPayload`. Each encoder builds a `ScriptFunction`
payload for `0x1::BasicScripts` with the function's name, no type arguments and the two
BCS-encoded arguments. `decode` looks the module name followed by the function name up
in `SCRIPT_FUNCTION_DECODER_MAP`, and the decoder found BCS-decodes the first two
arguments.

The builder is taken over any `Bcs`: codecs whose `to_bytes` and `from_bytes` are
mutually inverse on well-formed bytes. The three encoders and the three decoders differ
only in the function name and the argument codecs, so each is the shared body applied
to its own values.

Results:
* `decode_encode`: every call round-trips;
* `decode_eq_some_iff`: exactly which payloads `decode` accepts;
* `encode_eq_of_decode_eq_some`: exactly which decoded payloads re-encode to themselves.

The decoder keys on the two names alone. So a payload for `BasicScripts` at another
address, with type arguments, or with extra arguments decodes too;
`decode_ignores_module_address` is such a payload under BCS.
-/

namespace Aptos.Framework

/-- `AccountAddress::new([0, …, 0, 1])`, the address of the framework modules. -/
def coreCodeAddress : AccountAddress :=
  ⟨[0, 0, 0, 0, 0, 0, 0, 0, 0, 0, 0, 0, 0, 0, 0, 1], rfl⟩

/-- `TypeTag`, without the struct tags no modelled function builds or reads. -/
inductive TypeTag
  | bool | u8 | u64 | u128 | address | signer
  | vector (element : TypeTag)
  deriving DecidableEq

/-- `ModuleId`: an address and a module name. -/
structure ModuleId where
  address : AccountAddress
  name : String
  deriving DecidableEq

/-- `ScriptFunction`: module, function name, type arguments, BCS-encoded arguments. -/
structure ScriptFunction where
  module : ModuleId
  function : String
  tyArgs : List TypeTag
  args : List Bytes
  deriving DecidableEq

/-- `TransactionPayload`; only the `ScriptFunction` variant's contents are read. -/
inductive TransactionPayload
  | writeSet
  | script
  | moduleBundle
  | scriptFunction (script : ScriptFunction)
  deriving DecidableEq

/-- `ScriptFunctionCall`; the field `to` of `Transfer` is `recipient` here. -/
inductive ScriptFunctionCall
  | createAccount (newAccountAddress : AccountAddress) (authKeyPrefix : Bytes)
  | mint (addr : AccountAddress) (amount : UInt64)
  | transfer (recipient : AccountAddress) (amount : UInt64)
  deriving DecidableEq

section Builder

variable (bcs : Bcs)

-- ---------------------------------------------------------------------------
-- Encoders
-- ---------------------------------------------------------------------------

/-- The body of the three encoders: a `ScriptFunction` payload calling `function` of
`0x1::BasicScripts` with no type arguments. -/
def encodeBasicScriptsFunction (function : String) (args : List Bytes) : TransactionPayload :=
  .scriptFunction ⟨⟨coreCodeAddress, "BasicScripts"⟩, function, [], args⟩

/-- `encode_create_account_script_function`. -/
def encodeCreateAccountScriptFunction (newAccountAddress : AccountAddress)
    (authKeyPrefix : Bytes) : TransactionPayload :=
  encodeBasicScriptsFunction "create_account"
    [bcs.address.toBytes newAccountAddress, bcs.bytes.toBytes authKeyPrefix]

/-- `encode_mint_script_function`. -/
def encodeMintScriptFunction (addr : AccountAddress) (amount : UInt64) : TransactionPayload :=
  encodeBasicScriptsFunction "mint" [bcs.address.toBytes addr, bcs.u64.toBytes amount]

/-- `encode_transfer_script_function`. -/
def encodeTransferScriptFunction (recipient : AccountAddress) (amount : UInt64) :
    TransactionPayload :=
  encodeBasicScriptsFunction "transfer" [bcs.address.toBytes recipient, bcs.u64.toBytes amount]

/-- `ScriptFunctionCall::encode`. -/
def ScriptFunctionCall.encode : ScriptFunctionCall → TransactionPayload
  | .createAccount newAccountAddress authKeyPrefix =>
    encodeCreateAccountScriptFunction bcs newAccountAddress authKeyPrefix
  | .mint addr amount => encodeMintScriptFunction bcs addr amount
  | .transfer recipient amount => encodeTransferScriptFunction bcs recipient amount

-- ---------------------------------------------------------------------------
-- Decoders
-- ---------------------------------------------------------------------------

/-- The body of the three decoders: on a `ScriptFunction` payload,
`bcs::from_bytes(script.args().get(0)?).ok()?` and the same for `get(1)`. -/
def decodeScriptFunctionArgs {α β : Type} (first : BcsCodec α) (second : BcsCodec β)
    (payload : TransactionPayload) : Option (α × β) :=
  match payload with
  | .scriptFunction script => do
    let a ← first.fromBytes (← script.args[0]?)
    let b ← second.fromBytes (← script.args[1]?)
    pure (a, b)
  | _ => none

/-- `decode_create_account_script_function`. -/
def decodeCreateAccountScriptFunction (payload : TransactionPayload) :
    Option ScriptFunctionCall :=
  (decodeScriptFunctionArgs bcs.address bcs.bytes payload).map fun (a, k) =>
    ScriptFunctionCall.createAccount a k

/-- `decode_mint_script_function`. -/
def decodeMintScriptFunction (payload : TransactionPayload) : Option ScriptFunctionCall :=
  (decodeScriptFunctionArgs bcs.address bcs.u64 payload).map fun (a, n) =>
    ScriptFunctionCall.mint a n

/-- `decode_transfer_script_function`. -/
def decodeTransferScriptFunction (payload : TransactionPayload) : Option ScriptFunctionCall :=
  (decodeScriptFunctionArgs bcs.address bcs.u64 payload).map fun (a, n) =>
    ScriptFunctionCall.transfer a n

/-- `SCRIPT_FUNCTION_DECODER_MAP`, keyed by module name followed by function name. -/
def scriptFunctionDecoderMap :
    List (String × (TransactionPayload → Option ScriptFunctionCall)) :=
  [("BasicScriptscreate_account", decodeCreateAccountScriptFunction bcs),
   ("BasicScriptsmint", decodeMintScriptFunction bcs),
   ("BasicScriptstransfer", decodeTransferScriptFunction bcs)]

/-- `ScriptFunctionCall::decode`. -/
def ScriptFunctionCall.decode (payload : TransactionPayload) : Option ScriptFunctionCall :=
  match payload with
  | .scriptFunction script =>
    match (scriptFunctionDecoderMap bcs).lookup (script.module.name ++ script.function) with
    | some decoder => decoder payload
    | none => none
  | _ => none

-- ---------------------------------------------------------------------------
-- What a call encodes to, and what decodes to it
-- ---------------------------------------------------------------------------

/-- The function name a call's encoder writes. -/
def ScriptFunctionCall.functionName : ScriptFunctionCall → String
  | .createAccount .. => "create_account"
  | .mint .. => "mint"
  | .transfer .. => "transfer"

/-- The two BCS-encoded arguments a call's encoder writes. -/
def ScriptFunctionCall.encodedArgs : ScriptFunctionCall → List Bytes
  | .createAccount newAccountAddress authKeyPrefix =>
    [bcs.address.toBytes newAccountAddress, bcs.bytes.toBytes authKeyPrefix]
  | .mint addr amount => [bcs.address.toBytes addr, bcs.u64.toBytes amount]
  | .transfer recipient amount => [bcs.address.toBytes recipient, bcs.u64.toBytes amount]

theorem encode_eq (c : ScriptFunctionCall) :
    c.encode bcs = encodeBasicScriptsFunction c.functionName (c.encodedArgs bcs) := by
  cases c <;> rfl

theorem length_encodedArgs (c : ScriptFunctionCall) : (c.encodedArgs bcs).length = 2 := by
  cases c <;> rfl

/-- A decoder reads the first two arguments, whatever follows them. -/
theorem decodeScriptFunctionArgs_eq_some {α β : Type} (first : BcsCodec α)
    (second : BcsCodec β) (script : ScriptFunction) (a : α) (b : β) :
    decodeScriptFunctionArgs first second (.scriptFunction script) = some (a, b) ↔
      script.args.take 2 = [first.toBytes a, second.toBytes b] := by
  obtain ⟨_, _, _, _ | ⟨x, _ | ⟨y, rest⟩⟩⟩ := script <;>
    simp only [decodeScriptFunctionArgs, List.getElem?_cons_zero, List.getElem?_cons_succ,
      List.getElem?_nil, Option.pure_def, Option.bind_eq_bind, Option.some_bind,
      Option.none_bind, Option.bind_none, Option.bind_eq_some, BcsCodec.fromBytes_eq_some_iff,
      Option.some.injEq, Prod.mk.injEq, exists_eq_right_right, List.take_succ_cons,
      List.take_zero, List.take_nil, List.cons.injEq, List.nil_eq, List.ne_cons_self,
      reduceCtorEq, and_true, and_false]

/-- The decoder map, as a chain of key comparisons. -/
theorem lookup_scriptFunctionDecoderMap (key : String) :
    (scriptFunctionDecoderMap bcs).lookup key =
      if key = "BasicScriptscreate_account" then some (decodeCreateAccountScriptFunction bcs)
      else if key = "BasicScriptsmint" then some (decodeMintScriptFunction bcs)
      else if key = "BasicScriptstransfer" then some (decodeTransferScriptFunction bcs)
      else none := by
  split_ifs with h₁ h₂ h₃ <;> simp [scriptFunctionDecoderMap, List.lookup, *]
  simp [beq_eq_false_iff_ne.mpr h₁, beq_eq_false_iff_ne.mpr h₂, beq_eq_false_iff_ne.mpr h₃]

/-- **What `decode` accepts.** A payload decodes to `c` exactly when it is a
`ScriptFunction` whose module name followed by its function name spells
`BasicScripts` and `c`'s function name, and whose first two arguments are `c`'s
encoded arguments. The module's address, the type arguments and any further
arguments are not read. -/
theorem decode_eq_some_iff (payload : TransactionPayload) (c : ScriptFunctionCall) :
    ScriptFunctionCall.decode bcs payload = some c ↔
      ∃ script, payload = .scriptFunction script ∧
        script.module.name ++ script.function = "BasicScripts" ++ c.functionName ∧
        script.args.take 2 = c.encodedArgs bcs := by
  cases payload with
  | scriptFunction script =>
    simp only [ScriptFunctionCall.decode, lookup_scriptFunctionDecoderMap,
      TransactionPayload.scriptFunction.injEq, exists_eq_left']
    split_ifs <;> cases c <;>
      simp only [decodeCreateAccountScriptFunction, decodeMintScriptFunction,
        decodeTransferScriptFunction, Option.map_eq_some', decodeScriptFunctionArgs_eq_some,
        ScriptFunctionCall.createAccount.injEq, ScriptFunctionCall.mint.injEq,
        ScriptFunctionCall.transfer.injEq, Prod.exists, exists_eq_right_right, exists_eq_right,
        reduceCtorEq, and_false, exists_false, ScriptFunctionCall.functionName,
        ScriptFunctionCall.encodedArgs, String.reduceAppend, String.reduceEq, true_and,
        false_and, *]
  | _ => simp only [ScriptFunctionCall.decode, reduceCtorEq, false_and, exists_false]

/-- **Round trip.** Every call decodes back from its encoding. -/
theorem decode_encode (c : ScriptFunctionCall) :
    ScriptFunctionCall.decode bcs (c.encode bcs) = some c :=
  (decode_eq_some_iff bcs _ c).mpr ⟨_, encode_eq bcs c, rfl,
    List.take_of_length_le (length_encodedArgs bcs c).le⟩

/-- A decoded payload is the encoding of its call exactly when it names
`0x1::BasicScripts`, has no type arguments and has exactly two arguments. -/
theorem encode_eq_of_decode_eq_some {payload : TransactionPayload} {c : ScriptFunctionCall}
    (h : ScriptFunctionCall.decode bcs payload = some c) :
    c.encode bcs = payload ↔
      ∃ script, payload = .scriptFunction script ∧
        script.module = ⟨coreCodeAddress, "BasicScripts"⟩ ∧ script.tyArgs = [] ∧
        script.args.length = 2 := by
  constructor
  · rintro rfl
    exact ⟨_, encode_eq bcs c, rfl, rfl, length_encodedArgs bcs c⟩
  · rintro ⟨⟨module, function, tyArgs, args⟩, rfl, rfl, rfl, hlen⟩
    obtain ⟨_, hs, hkey, hargs⟩ := (decode_eq_some_iff bcs _ c).mp h
    cases hs
    have hfun : function = c.functionName :=
      String.ext (by simpa [String.ext_iff] using hkey)
    rw [List.take_of_length_le hlen.le] at hargs
    rw [encode_eq, hfun, ← hargs]
    rfl

/-- **Encodings, exactly.** Every call round-trips; `decode` accepts a payload exactly
when its concatenated module and function names and its first two arguments match
the call; and a decoded payload re-encodes to itself exactly when it names
`0x1::BasicScripts`, has no type arguments and has two arguments. -/
theorem decode_recognises_encodings :
    (∀ c, ScriptFunctionCall.decode bcs (c.encode bcs) = some c) ∧
    (∀ payload c, ScriptFunctionCall.decode bcs payload = some c ↔
      ∃ script, payload = .scriptFunction script ∧
        script.module.name ++ script.function = "BasicScripts" ++ c.functionName ∧
        script.args.take 2 = c.encodedArgs bcs) ∧
    (∀ payload c, ScriptFunctionCall.decode bcs payload = some c →
      (c.encode bcs = payload ↔ ∃ script, payload = .scriptFunction script ∧
        script.module = ⟨coreCodeAddress, "BasicScripts"⟩ ∧ script.tyArgs = [] ∧
        script.args.length = 2)) :=
  ⟨decode_encode bcs, decode_eq_some_iff bcs, fun _ _ => encode_eq_of_decode_eq_some bcs⟩

end Builder

-- ---------------------------------------------------------------------------
-- Under BCS
-- ---------------------------------------------------------------------------

/-- The address `0x2`. -/
def addressTwo : AccountAddress :=
  ⟨[0, 0, 0, 0, 0, 0, 0, 0, 0, 0, 0, 0, 0, 0, 0, 2], rfl⟩

/-- A `mint` of `5` to `0x2`, calling `BasicScripts` at `0x2` in place of `0x1`, with
its arguments in BCS. -/
def mintAtAddressTwo : TransactionPayload :=
  .scriptFunction ⟨⟨addressTwo, "BasicScripts"⟩, "mint", [],
    [addressTwo.bytes, [5, 0, 0, 0, 0, 0, 0, 0]]⟩

/-- **`decode` ignores the module's address.** Under BCS, `mintAtAddressTwo` decodes to
a call whose encoding is the payload at `0x1`. -/
theorem decode_ignores_module_address :
    ScriptFunctionCall.decode Bcs.canonical mintAtAddressTwo = some (.mint addressTwo 5) ∧
      (ScriptFunctionCall.mint addressTwo 5).encode Bcs.canonical ≠ mintAtAddressTwo :=
  ⟨(decode_eq_some_iff Bcs.canonical _ _).mpr ⟨_, rfl, rfl, by decide⟩, by decide⟩

end Aptos.Framework
