import Aptos.Rust.Core

/-!
# Aptos — `str` slicing and `usize::from_str`

The `str` operations the Forge swarm calls on a service name, over the chars of the string:

* `s.split(c)` is `List.splitOn c`: the pieces between the `c`s, empty ones included, one more
  than there are `c`s (`length_splitOn`);
* `&s[i..]` starts at byte `i` of the UTF-8 encoding, and panics where `i` is past the end or
  inside a char (`sliceFrom`, `sliceFrom_eq_some_iff`);
* `s.parse::<usize>()` is `usize::from_str_radix(s, 10)` on a 64-bit `usize`: an optional `+`,
  then decimal digits accumulated by `checked_mul(10)` and `checked_add(digit)`
  (`usizeFromStr`). It accepts exactly the texts `UsizeText` describes
  (`usizeFromStr_eq_some_iff`) and reads back what `to_string` writes
  (`usizeFromStr_toDigits`).
-/

namespace Aptos.Rust

-- ---------------------------------------------------------------------------
-- `split`
-- ---------------------------------------------------------------------------

/-- `s.split(c)` gives one more piece than `s` has `c`s. -/
theorem length_splitOn (c : Char) (s : List Char) : (s.splitOn c).length = s.count c + 1 := by
  induction s with
  | nil => rfl
  | cons x s ih =>
    simp only [List.splitOn] at ih ⊢
    rw [List.splitOnP_cons, List.count_cons]
    split <;> simp_all

/-- The first piece of `s.split(c)` is what stands before the first `c`. -/
theorem splitOn_append_cons {c : Char} {first : List Char} (h : c ∉ first) (rest : List Char) :
    (first ++ c :: rest).splitOn c = first :: rest.splitOn c :=
  List.splitOnP_first (· == c) first (fun _ hx hxc => h (beq_iff_eq.mp hxc ▸ hx)) c
    (beq_self_eq_true c) rest

/-- A list holding `c` is a piece without `c`, then `c`, then the rest. -/
theorem exists_eq_append_cons_of_mem {c : Char} {s : List Char} (h : c ∈ s) :
    ∃ first rest, c ∉ first ∧ s = first ++ c :: rest := by
  induction s with
  | nil => cases h
  | cons x s ih =>
    by_cases hx : x = c
    · exact ⟨[], s, List.not_mem_nil c, by rw [hx]; rfl⟩
    · obtain ⟨first, rest, hc, rfl⟩ := ih ((List.mem_cons.mp h).resolve_left fun h => hx h.symm)
      exact ⟨x :: first, rest, by simp [hc, Ne.symm hx], rfl⟩

-- ---------------------------------------------------------------------------
-- `&s[i..]`
-- ---------------------------------------------------------------------------

/-- `&s[i..]` on a `str`: the chars after its first `i` bytes; `none` where `i` is past the end
or inside the UTF-8 encoding of a char, where the slice panics. -/
def sliceFrom : List Char → Nat → Option (List Char)
  | s, 0 => some s
  | [], _ + 1 => none
  | c :: s, i + 1 => if c.utf8Size ≤ i + 1 then sliceFrom s (i + 1 - c.utf8Size) else none

/-- The slice from byte `i` is what follows a prefix of `i` bytes. -/
theorem sliceFrom_eq_some_iff (s : List Char) (i : Nat) (t : List Char) :
    sliceFrom s i = some t ↔ ∃ p, s = p ++ t ∧ String.utf8Len p = i := by
  induction s, i using sliceFrom.induct with
  | case1 s =>
    simp only [sliceFrom, Option.some.injEq, String.utf8Len_eq_zero]
    exact ⟨fun h => ⟨[], by simp [h], rfl⟩, fun ⟨p, hs, hp⟩ => by simp [hs, hp]⟩
  | case2 i => simp [sliceFrom]
  | case3 c s i hc ih =>
    rw [sliceFrom, if_pos hc, ih]
    clear ih
    constructor
    · rintro ⟨p, rfl, hp⟩
      refine ⟨c :: p, rfl, ?_⟩
      simp only [String.utf8Len_cons]
      omega
    · rintro ⟨_ | ⟨c', p⟩, hs, hp⟩
      · simp at hp
      · obtain ⟨rfl, rfl⟩ := List.cons_eq_cons.mp hs
        exact ⟨p, rfl, by simp at hp; omega⟩
  | case4 c s i hc =>
    simp only [sliceFrom, if_neg hc, reduceCtorEq, false_iff, not_exists, not_and]
    rintro (_ | ⟨c', p⟩) hs hp
    · simp at hp
    · obtain ⟨rfl, -⟩ := List.cons_eq_cons.mp hs
      simp at hp
      omega

/-- Slicing a prefix's bytes off leaves what follows it. -/
theorem sliceFrom_append (p t : List Char) : sliceFrom (p ++ t) (String.utf8Len p) = some t :=
  (sliceFrom_eq_some_iff _ _ _).mpr ⟨p, rfl, rfl⟩

-- ---------------------------------------------------------------------------
-- `usize::from_str`
-- ---------------------------------------------------------------------------

/-- `(c as char).to_digit(10)` on a byte of the text. A byte of a multi-byte char is never an
ASCII digit, so over chars this is `c` when it is one of `0` to `9`. -/
def toDigit (c : Char) : Option Nat :=
  if c.isDigit then some (c.toNat - '0'.toNat) else none

/-- The digit loop of `usize::from_str_radix(src, 10)`: for each digit, `checked_mul(10)` and
then `checked_add(digit)` on a 64-bit `usize`; `none` at an invalid digit or an overflow. -/
def fromStrDigits : List Char → Nat → Option Nat
  | [], result => some result
  | c :: cs, result => do
    let x ← toDigit c
    let result ← if result * 10 < UInt64.size then some (result * 10) else none
    let result ← if result + x < UInt64.size then some (result + x) else none
    fromStrDigits cs result

/-- `<usize as FromStr>::from_str`, that is `usize::from_str_radix(src, 10)`: a lone sign is an
invalid digit, a leading `+` is skipped, and a leading `-` is an invalid digit of an unsigned
type. `none` for every `ParseIntError`. -/
def usizeFromStr : List Char → Option Nat
  | [] => none
  | c :: rest =>
    if (c = '+' ∨ c = '-') ∧ rest.isEmpty then none
    else fromStrDigits (if c = '+' then rest else c :: rest) 0

/-- The number the decimal digits `ds` spell, read after the digits of `acc`. -/
def decimalValue (acc : Nat) (ds : List Char) : Nat :=
  ds.foldl (fun acc c => acc * 10 + (c.toNat - '0'.toNat)) acc

/-- `src` is a text `usize::from_str` reads as `n`: an optional `+`, then one digit or more,
spelling `n < 2^64`. -/
def UsizeText (src : List Char) (n : Nat) : Prop :=
  ∃ ds, (src = ds ∨ src = '+' :: ds) ∧ ds ≠ [] ∧ (∀ c ∈ ds, c.isDigit) ∧
    decimalValue 0 ds = n ∧ n < UInt64.size

@[simp] theorem decimalValue_nil (acc : Nat) : decimalValue acc [] = acc := rfl

@[simp] theorem decimalValue_cons (acc : Nat) (c : Char) (ds : List Char) :
    decimalValue acc (c :: ds) = decimalValue (acc * 10 + (c.toNat - '0'.toNat)) ds := rfl

theorem decimalValue_append (acc : Nat) (ds ds' : List Char) :
    decimalValue acc (ds ++ ds') = decimalValue (decimalValue acc ds) ds' :=
  List.foldl_append ..

theorem le_decimalValue (acc : Nat) (ds : List Char) : acc ≤ decimalValue acc ds := by
  induction ds generalizing acc with
  | nil => exact le_rfl
  | cons c ds ih =>
    rw [decimalValue_cons]
    exact le_trans (by omega) (ih _)

theorem toNat_sub_lt_of_isDigit {c : Char} (h : c.isDigit) : c.toNat - '0'.toNat < 10 := by
  simp only [Char.isDigit, Bool.and_eq_true, decide_eq_true_eq] at h
  have : c.val.toNat ≤ 57 := h.2
  show c.val.toNat - 48 < 10
  omega

/-- The digit loop accepts exactly digits whose value, read after `result`, fits a `usize`:
the value only grows, so no step overflows when the last does not. -/
theorem fromStrDigits_eq_some_iff {cs : List Char} {result n : Nat}
    (hr : result < UInt64.size) :
    fromStrDigits cs result = some n ↔
      (∀ c ∈ cs, c.isDigit) ∧ decimalValue result cs = n ∧ n < UInt64.size := by
  induction cs generalizing result with
  | nil =>
    simp only [fromStrDigits, Option.some.injEq, List.not_mem_nil, decimalValue_nil]
    exact ⟨fun h => ⟨fun _ h => h.elim, h, h ▸ hr⟩, fun h => h.2.1⟩
  | cons c cs ih =>
    by_cases hc : c.isDigit
    · have hx := toNat_sub_lt_of_isDigit hc
      have hd : toDigit c = some (c.toNat - '0'.toNat) := if_pos hc
      simp only [fromStrDigits, hd, Option.bind_eq_bind, Option.some_bind, Option.none_bind,
        decimalValue_cons, List.forall_mem_cons, hc, true_and]
      by_cases hsum : result * 10 + (c.toNat - '0'.toNat) < UInt64.size
      · rw [if_pos (by omega), if_pos hsum, ih hsum]
      · have := le_decimalValue (result * 10 + (c.toNat - '0'.toNat)) cs
        simp only [if_neg hsum, ite_self, reduceCtorEq, false_iff, not_and]
        intro _ hv
        omega
    · simp [fromStrDigits, toDigit, hc]

/-- A text `usize::from_str` reads holds only digits and a `+`. -/
theorem UsizeText.mem {src : List Char} {n : Nat} (h : UsizeText src n) :
    ∀ c ∈ src, c = '+' ∨ c.isDigit := by
  obtain ⟨ds, rfl | rfl, -, hd, -⟩ := h
  · exact fun c hc => .inr (hd c hc)
  · rintro c (_ | ⟨_, hc⟩)
    exacts [.inl rfl, .inr (hd c hc)]

theorem usizeFromStr_plus {ds : List Char} (h : ds ≠ []) :
    usizeFromStr ('+' :: ds) = fromStrDigits ds 0 := by
  simp [usizeFromStr, List.isEmpty_iff, h]

theorem usizeFromStr_of_isDigit {c : Char} (hc : c.isDigit) (rest : List Char) :
    usizeFromStr (c :: rest) = fromStrDigits (c :: rest) 0 := by
  have hp : c ≠ '+' := fun h => by simp [h] at hc
  have hm : c ≠ '-' := fun h => by simp [h] at hc
  simp [usizeFromStr, hp, hm]

/-- **`usize::from_str` accepts exactly an optional `+` and one digit or more below `2^64`.** -/
theorem usizeFromStr_eq_some_iff (src : List Char) (n : Nat) :
    usizeFromStr src = some n ↔ UsizeText src n := by
  have hdigits : ∀ ds, fromStrDigits ds 0 = some n ↔
      (∀ c ∈ ds, c.isDigit) ∧ decimalValue 0 ds = n ∧ n < UInt64.size :=
    fun _ => fromStrDigits_eq_some_iff (by decide)
  constructor
  · intro h
    rcases src with _ | ⟨c, rest⟩
    · cases h
    · rw [usizeFromStr] at h
      split at h
      · cases h
      · rename_i hsign
        by_cases hp : c = '+'
        · subst hp
          rw [if_pos rfl] at h
          have hne : rest ≠ [] := fun hr => hsign ⟨.inl rfl, by simp [hr]⟩
          exact ⟨rest, .inr rfl, hne, (hdigits rest).mp h⟩
        · rw [if_neg hp] at h
          exact ⟨c :: rest, .inl rfl, List.cons_ne_nil _ _, (hdigits _).mp h⟩
  · rintro ⟨ds, rfl | rfl, hne, hd, hv, hn⟩
    · obtain ⟨c, rest, rfl⟩ := List.exists_cons_of_ne_nil hne
      rw [usizeFromStr_of_isDigit (hd c (List.mem_cons_self c rest))]
      exact (hdigits _).mpr ⟨hd, hv, hn⟩
    · rw [usizeFromStr_plus hne]
      exact (hdigits _).mpr ⟨hd, hv, hn⟩

/-- `Nat.toDigits 10 n`, which `to_string` writes, is one decimal digit or more, spelling `n`:
`toDigitsCore` puts the digits of `n` before `ds` while its fuel exceeds `n`. -/
theorem toDigitsCore_spec : ∀ (fuel n : Nat) (ds : List Char), n < fuel →
    ∃ d, Nat.toDigitsCore 10 fuel n ds = d ++ ds ∧ d ≠ [] ∧ (∀ c ∈ d, c.isDigit) ∧
      decimalValue 0 d = n
  | 0, _, _, h => absurd h (Nat.not_lt_zero _)
  | fuel + 1, n, ds, h => by
    have ⟨hdig, hval⟩ := (by decide : ∀ d : Fin 10, (Nat.digitChar d).isDigit ∧
      (Nat.digitChar d).toNat - '0'.toNat = d) ⟨n % 10, Nat.mod_lt _ (by decide)⟩
    simp only [Nat.toDigitsCore]
    split
    · refine ⟨[Nat.digitChar (n % 10)], rfl, List.cons_ne_nil _ _, by simpa using hdig, ?_⟩
      simp only [decimalValue_cons, decimalValue_nil, hval]
      omega
    · obtain ⟨d, hd, -, hdigits, hv⟩ := toDigitsCore_spec fuel (n / 10)
        (Nat.digitChar (n % 10) :: ds) (by omega)
      refine ⟨d ++ [Nat.digitChar (n % 10)], by simp [hd], by simp, ?_, ?_⟩
      · simpa [or_imp, forall_and, hdig] using hdigits
      · simp only [decimalValue_append, hv, decimalValue_cons, decimalValue_nil, hval]
        omega

/-- **`n.to_string().parse::<usize>()` gives back `n`**, for every `n < 2^64`. -/
theorem usizeFromStr_toDigits {n : Nat} (hn : n < UInt64.size) :
    usizeFromStr (Nat.toDigits 10 n) = some n := by
  obtain ⟨d, hd, hne, hdigits, hv⟩ := toDigitsCore_spec (n + 1) n [] (Nat.lt_succ_self n)
  rw [List.append_nil] at hd
  rw [Nat.toDigits, hd, usizeFromStr_eq_some_iff]
  exact ⟨d, .inl rfl, hne, hdigits, hv, hn⟩

end Aptos.Rust
