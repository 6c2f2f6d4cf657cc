import Aptos.Rust.Core

/-!
# Aptos framework — BCS for the script arguments

The transaction builder encodes its arguments with `bcs::to_bytes` and decodes them with
`bcs::from_bytes`. The `bcs` crate is outside the repository. `BcsCodec` holds what the
builder relies on: an encoder, and a decoder that accepts exactly the encodings.

`Bcs.canonical` is BCS on the three argument types:
* an `AccountAddress` is its sixteen bytes;
* a `u64` is its eight little-endian bytes;
* a `Vec<u8>` is its ULEB128 length followed by its bytes.

Its decoders accept exactly the canonical encodings, as the crate's deserializer does: it
rejects non-canonical lengths and trailing input. The crate's cap of `2^31 - 1` on
sequence lengths is left out.

Results:
* `readUleb128_uleb128`: a length reads back, whatever follows it;
* `leValue_toLeBytes`: the eight bytes of a `u64` read back to it;
* `Bcs.canonical`: BCS, with its codec laws proved.
-/

namespace Aptos.Framework

open Aptos.Rust

/-- `type Bytes = Vec<u8>`. -/
abbrev Bytes := List UInt8

/-- `AccountAddress`: sixteen bytes. -/
structure AccountAddress where
  bytes : List UInt8
  length_eq : bytes.length = 16
  deriving DecidableEq

/-- A BCS codec for one type: `bcs::to_bytes` (its `unwrap` taken to succeed) and
`bcs::from_bytes(…).ok()`, mutually inverse on well-formed bytes. -/
structure BcsCodec (α : Type) where
  toBytes : α → Bytes
  fromBytes : Bytes → Option α
  fromBytes_toBytes : ∀ a, fromBytes (toBytes a) = some a
  toBytes_of_fromBytes : ∀ b a, fromBytes b = some a → toBytes a = b

/-- The BCS codecs of the three argument types the scripts take. -/
structure Bcs where
  address : BcsCodec AccountAddress
  bytes : BcsCodec Bytes
  u64 : BcsCodec UInt64

theorem BcsCodec.fromBytes_eq_some_iff {α : Type} (codec : BcsCodec α) (b : Bytes) (a : α) :
    codec.fromBytes b = some a ↔ b = codec.toBytes a :=
  ⟨fun h => (codec.toBytes_of_fromBytes b a h).symm, fun h => h ▸ codec.fromBytes_toBytes a⟩

/-- The codec of an encoder and a decoder that inverts it. Decoding keeps only a value
whose encoding is the input, so it accepts the encodings and nothing else. -/
def BcsCodec.ofDecoder {α : Type} (toBytes : α → Bytes) (decode : Bytes → Option α)
    (decode_toBytes : ∀ a, decode (toBytes a) = some a) : BcsCodec α where
  toBytes := toBytes
  fromBytes b := (decode b).filter fun a => toBytes a = b
  fromBytes_toBytes a := by simp [decode_toBytes]
  toBytes_of_fromBytes _ _ h := of_decide_eq_true (Option.filter_eq_some.mp h).2

-- ---------------------------------------------------------------------------
-- ULEB128 lengths
-- ---------------------------------------------------------------------------

/-- ULEB128: seven bits a byte, least significant first, the high bit set on every byte
but the last. -/
def uleb128 (n : Nat) : Bytes :=
  if n < 128 then [n.toUInt8] else (n % 128 + 128).toUInt8 :: uleb128 (n / 128)
termination_by n
decreasing_by omega

/-- The ULEB128 value at the front of the bytes, and the bytes after it; `none` when the
bytes end inside it. -/
def readUleb128 : Bytes → Option (Nat × Bytes)
  | [] => none
  | b :: rest =>
    if b.toNat < 128 then some (b.toNat, rest)
    else (readUleb128 rest).map fun (m, r) => (b.toNat - 128 + 128 * m, r)

theorem toNat_toUInt8_of_lt {n : Nat} (h : n < 256) : n.toUInt8.toNat = n := by
  simp [Nat.toUInt8, UInt8.toNat, UInt8.ofNat, Nat.mod_eq_of_lt h]

/-- **A length reads back**, and the bytes after it are untouched. -/
theorem readUleb128_uleb128 (n : Nat) (rest : Bytes) :
    readUleb128 (uleb128 n ++ rest) = some (n, rest) := by
  induction n using Nat.strongRecOn with
  | ind n ih =>
    rw [uleb128]
    split
    · simp [readUleb128, toNat_toUInt8_of_lt (by omega : n < 256), *]
    · have hbyte := toNat_toUInt8_of_lt (by omega : n % 128 + 128 < 256)
      rw [List.cons_append, readUleb128, hbyte, if_neg (by omega), ih (n / 128) (by omega),
        Option.map_some', Option.some.injEq, Prod.mk.injEq]
      exact ⟨by omega, rfl⟩

-- ---------------------------------------------------------------------------
-- Little-endian `u64`
-- ---------------------------------------------------------------------------

/-- The value of little-endian bytes. -/
def leValue : Bytes → Nat
  | [] => 0
  | b :: rest => b.toNat + 256 * leValue rest

theorem toNat_shiftRight_of_lt (x : UInt64) {k : Nat} (hk : k < 64) :
    (x >>> k.toUInt64).toNat = x.toNat / 2 ^ k := by
  show (x.toBitVec >>> (k.toUInt64 % 64).toBitVec.toNat).toNat = _
  rw [BitVec.toNat_ushiftRight, Nat.shiftRight_eq_div_pow]
  have hk' : k.toUInt64.toNat = k := UInt64.toNat_ofNat_of_lt (hk.trans (by decide))
  change x.toNat / 2 ^ (k.toUInt64 % 64).toNat = _
  rw [UInt64.toNat_mod, hk', show (64 : UInt64).toNat = 64 from rfl, Nat.mod_eq_of_lt hk]

theorem toNat_toUInt8 (x : UInt64) : x.toUInt8.toNat = x.toNat % 256 := by
  show (UInt8.ofNat x.toNat).toNat = _
  simp [UInt8.toNat, UInt8.ofNat]

/-- One byte of the little-endian expansion, and the rest above it, make up the value. -/
theorem div_two_pow_mod_add (n k : Nat) :
    n / 2 ^ k % 256 + 256 * (n / 2 ^ (k + 8)) = n / 2 ^ k := by
  rw [pow_add, ← Nat.div_div_eq_div_mul]
  exact Nat.mod_add_div _ _

/-- **The eight bytes of a `u64` read back to it.** -/
theorem leValue_toLeBytes (x : UInt64) : leValue (toLeBytes x) = x.toNat := by
  have hbyte (k : Nat) (hk : k < 64) :
      ((x >>> k.toUInt64).toUInt8).toNat = x.toNat / 2 ^ k % 256 := by
    rw [toNat_toUInt8, toNat_shiftRight_of_lt x hk]
  have htop : x.toNat / 2 ^ 56 < 256 :=
    Nat.div_lt_of_lt_mul (by have : x.toNat < 2 ^ 64 := x.toBitVec.isLt; omega)
  simp only [toLeBytes, List.range, List.range.loop, List.map, leValue]
  rw [hbyte 0 (by decide), hbyte 8 (by decide), hbyte 16 (by decide), hbyte 24 (by decide),
    hbyte 32 (by decide), hbyte 40 (by decide), hbyte 48 (by decide), hbyte 56 (by decide),
    Nat.mod_eq_of_lt htop, mul_zero, add_zero, div_two_pow_mod_add _ 48,
    div_two_pow_mod_add _ 40, div_two_pow_mod_add _ 32, div_two_pow_mod_add _ 24,
    div_two_pow_mod_add _ 16, div_two_pow_mod_add _ 8, div_two_pow_mod_add _ 0, pow_zero,
    Nat.div_one]

-- ---------------------------------------------------------------------------
-- The codecs
-- ---------------------------------------------------------------------------

/-- BCS of an `AccountAddress`: its sixteen bytes, with no length prefix. -/
def bcsAccountAddress : BcsCodec AccountAddress :=
  .ofDecoder AccountAddress.bytes (fun b => if h : b.length = 16 then some ⟨b, h⟩ else none)
    fun a => by simp [a.length_eq]

/-- BCS of a `u64`: `to_le_bytes`. -/
def bcsU64 : BcsCodec UInt64 :=
  .ofDecoder toLeBytes (fun b => some (UInt64.ofNat (leValue b)))
    fun x => congrArg some (UInt64.toNat.inj (by
      rw [leValue_toLeBytes]
      exact UInt64.toNat_ofNat_of_lt x.toBitVec.isLt))

/-- BCS of a `Vec<u8>`: its ULEB128 length, then its bytes. -/
def bcsBytes : BcsCodec Bytes :=
  .ofDecoder (fun v => uleb128 v.length ++ v) (fun b => (readUleb128 b).map Prod.snd)
    fun v => by simp [readUleb128_uleb128]

/-- BCS on the script arguments' types. -/
def Bcs.canonical : Bcs := ⟨bcsAccountAddress, bcsBytes, bcsU64⟩

end Aptos.Framework
