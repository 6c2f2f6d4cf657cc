import Mathlib

/-!
# Aptos — the Rust primitives of the modelled code

The Rust functions are modelled over `Except Panic`: a value the function returns is
`.ok`, and a panic is an `.error` naming it — a failed `assert_eq!`, an overflowing `+`,
a remainder by zero, an `unwrap` on an `Err`, an `unwrap_err` on an `Ok`, an index past the
end of a `Vec`.

`u64` is `UInt64`; so is `usize`, the validator running on 64-bit targets. The `+` of
`u64` is checked: it panics on overflow, as Rust's integer arithmetic does in builds
with overflow checks. Every fact about these types is moved to `Nat` through `toNat`,
by the small lemmas below.
-/

namespace Aptos.Rust

/-- The panics the modelled functions can raise. -/
inductive Panic
  /-- `assert_eq!(left, right)` with `left ≠ right`. -/
  | assertEq (left right : Nat)
  /-- "attempt to add with overflow". -/
  | addOverflow
  /-- "attempt to calculate the remainder with a divisor of zero". -/
  | remByZero
  /-- "called `Result::unwrap_err()` on an `Ok` value". -/
  | unwrapErrOnOk
  /-- "called `Result::unwrap()` on an `Err` value", with the error's text. -/
  | unwrapOnErr (err : String)
  /-- "index out of bounds: the len is `len` but the index is `index`". -/
  | indexOutOfBounds (len index : Nat)
  deriving DecidableEq, Repr

-- ---------------------------------------------------------------------------
-- `Except` plumbing
-- ---------------------------------------------------------------------------

/-- Results compare by their variant and contents, so that the model runs under
`decide`. -/
instance instDecidableEqExcept {ε α : Type} [DecidableEq ε] [DecidableEq α] :
    DecidableEq (Except ε α)
  | .ok a, .ok b => decidable_of_iff (a = b) (by simp)
  | .error e, .error e' => decidable_of_iff (e = e') (by simp)
  | .ok _, .error _ => isFalse (by simp)
  | .error _, .ok _ => isFalse (by simp)

@[simp] theorem ok_bind {ε α β} (a : α) (f : α → Except ε β) :
    (Except.ok a >>= f) = f a := rfl

@[simp] theorem error_bind {ε α β} (e : ε) (f : α → Except ε β) :
    (Except.error e >>= f) = Except.error e := rfl

@[simp] theorem isOk_ok {ε α} (a : α) : (Except.ok a : Except ε α).isOk = true := rfl

@[simp] theorem isOk_error {ε α} (e : ε) : (Except.error e : Except ε α).isOk = false := rfl

/-- A bind succeeds exactly when both halves do. -/
theorem bind_eq_ok {ε α β} {x : Except ε α} {f : α → Except ε β} {b : β} :
    (x >>= f) = .ok b ↔ ∃ a, x = .ok a ∧ f a = .ok b := by
  cases x <;> simp

-- ---------------------------------------------------------------------------
-- `u64`
-- ---------------------------------------------------------------------------

/-- `a + b` on `u64`, with overflow checks. -/
def u64Add (a b : UInt64) : Except Panic UInt64 :=
  if a.toNat + b.toNat < UInt64.size then .ok (a + b) else .error .addOverflow

/-- `a % b` on `u64`. -/
def u64Rem (a b : UInt64) : Except Panic UInt64 :=
  if b = 0 then .error .remByZero else .ok (a % b)

/-- `u64::max_value()`. -/
def u64Max : UInt64 := UInt64.ofNat (UInt64.size - 1)

theorem u64_le_iff {a b : UInt64} : a ≤ b ↔ a.toNat ≤ b.toNat := Iff.rfl

theorem u64_lt_iff {a b : UInt64} : a < b ↔ a.toNat < b.toNat := Iff.rfl

theorem u64_eq_iff {a b : UInt64} : a = b ↔ a.toNat = b.toNat :=
  ⟨congrArg _, UInt64.toNat.inj⟩

theorem toNat_add_of_lt {a b : UInt64} (h : a.toNat + b.toNat < UInt64.size) :
    (a + b).toNat = a.toNat + b.toNat := by
  simp only [UInt64.toNat, UInt64.add_def, BitVec.toNat_add]
  exact Nat.mod_eq_of_lt h

theorem u64Add_of_lt {a b : UInt64} (h : a.toNat + b.toNat < UInt64.size) :
    u64Add a b = .ok (a + b) := if_pos h

theorem u64Add_of_le {a b : UInt64} (h : UInt64.size ≤ a.toNat + b.toNat) :
    u64Add a b = .error .addOverflow := if_neg (Nat.not_lt.mpr h)

theorem u64Add_eq_ok {a b c : UInt64} :
    u64Add a b = .ok c ↔ a.toNat + b.toNat < UInt64.size ∧ c = a + b := by
  unfold u64Add
  split <;> simp_all [eq_comm]

theorem u64Rem_of_pos {a b : UInt64} (h : 0 < b.toNat) : u64Rem a b = .ok (a % b) :=
  if_neg fun hb => by simp [hb] at h

@[simp] theorem u64Rem_zero (a : UInt64) : u64Rem a 0 = .error .remByZero := rfl

theorem u64Rem_eq_ok {a b r : UInt64} : u64Rem a b = .ok r ↔ b ≠ 0 ∧ r = a % b := by
  unfold u64Rem
  split <;> simp_all [eq_comm]

/-- `round.to_le_bytes()`: the eight bytes of a `u64`, least significant first. -/
def toLeBytes (x : UInt64) : List UInt8 :=
  (List.range 8).map fun i => (x >>> (8 * i).toUInt64).toUInt8

-- ---------------------------------------------------------------------------
-- `assert_eq!`, `Result::unwrap`, `Result::unwrap_err`, `Vec` indexing
-- ---------------------------------------------------------------------------

/-- `assert_eq!(left, right)` on two lengths. -/
def assertEq (left right : Nat) : Except Panic Unit :=
  if left = right then .ok () else .error (.assertEq left right)

/-- `Result::unwrap`, on a result whose error is given by its text. -/
def unwrap {α} : Except String α → Except Panic α
  | .ok a => .ok a
  | .error e => .error (.unwrapOnErr e)

/-- `Result::unwrap_err`, a `Result<T, E>` being `Except E T`. -/
def unwrapErr {ε α} : Except ε α → Except Panic ε
  | .error e => .ok e
  | .ok _ => .error .unwrapErrOnOk

/-- `v[i]` on a `Vec`. -/
def index {α} (v : List α) (i : Nat) : Except Panic α :=
  match v[i]? with
  | some a => .ok a
  | none => .error (.indexOutOfBounds v.length i)

theorem assertEq_of_eq {m n : Nat} (h : m = n) : assertEq m n = .ok () := if_pos h

theorem assertEq_eq_ok {m n : Nat} {u : Unit} : assertEq m n = .ok u ↔ m = n := by
  unfold assertEq
  split <;> simp_all

theorem assertEq_of_ne {m n : Nat} (h : m ≠ n) : assertEq m n = .error (.assertEq m n) :=
  if_neg h

theorem index_eq_ok {α} {v : List α} {i : Nat} {a : α} : index v i = .ok a ↔ v[i]? = some a := by
  unfold index
  split <;> rename_i h <;> rw [h] <;> simp

theorem index_of_lt {α} {v : List α} {i : Nat} (h : i < v.length) :
    index v i = .ok v[i] := by
  simp [index, List.getElem?_eq_getElem h]

-- ---------------------------------------------------------------------------
-- `as` casts between `u64` and `i64`, and `{:?}`
-- ---------------------------------------------------------------------------

/-- `v as i64` for `v : u64`: the same 64 bits, read in two's complement. -/
def u64AsI64 (v : UInt64) : Int :=
  if v.toNat < 2 ^ 63 then v.toNat else v.toNat - 2 ^ 64

/-- `i as u64` for `i : i64`: the same 64 bits, read unsigned. -/
def i64AsU64 (i : Int) : UInt64 := UInt64.ofNat (i % 2 ^ 64).toNat

/-- **The casts undo each other**: a `u64` stored as an `i64` reads back unchanged. -/
theorem i64AsU64_u64AsI64 (v : UInt64) : i64AsU64 (u64AsI64 v) = v := by
  have hv : v.toNat < 2 ^ 64 := v.toBitVec.isLt
  have hmod : u64AsI64 v % 2 ^ 64 = v.toNat := by
    unfold u64AsI64
    split
    · exact Int.emod_eq_of_lt (by omega) (by omega)
    · rw [Int.sub_emod, Int.emod_self, Int.sub_zero, Int.emod_emod_of_dvd _ (dvd_refl _)]
      exact Int.emod_eq_of_lt (by omega) (by omega)
  apply UInt64.toNat.inj
  rw [i64AsU64, hmod, Int.toNat_ofNat]
  exact UInt64.toNat_ofNat_of_lt hv

theorem u64AsI64_injective : Function.Injective u64AsI64 :=
  Function.LeftInverse.injective i64AsU64_u64AsI64

/-- Below `2 ^ 63` the cast keeps the value, so it keeps the order there. -/
theorem u64AsI64_of_lt {v : UInt64} (h : v.toNat < 2 ^ 63) : u64AsI64 v = v.toNat := if_pos h

/-- `std::fmt::Debug`: the text `{:?}` writes for a value. -/
class Debug (α : Type) where
  fmt : α → String

/-- `{:?}` of an unsigned integer: its decimal digits. -/
instance : Debug Nat := ⟨toString⟩

/-- `{:?}` of a `Vec`: its items' `{:?}`, between brackets and separated by `, `. -/
instance {α : Type} [Debug α] : Debug (List α) :=
  ⟨fun xs => "[" ++ ", ".intercalate (xs.map Debug.fmt) ++ "]"⟩

/-- `v.iter().map(f).collect::<Vec<_>>().is_empty()` is `v.is_empty()`. -/
theorem isEmpty_map {α β : Type} (f : α → β) (l : List α) : (l.map f).isEmpty = l.isEmpty := by
  cases l <;> rfl

end Aptos.Rust
