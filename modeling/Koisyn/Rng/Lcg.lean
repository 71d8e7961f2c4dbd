/-
# Koisyn.Rng.Lcg — the two generators of `rpng.h`

`Lcg32.next` multiplies the low 31 bits by 48271 modulo `2 ^ 31 - 1` and keeps the top bit.  The source
reduces without dividing: what is above the low 31 bits is added to them, twice.  `next_spec` says that
this is the remainder, with the two fixed points 0 and `2 ^ 31 - 1` of the comment; `lcg32_period` adds
that every other seed comes back after the multiples of `2 ^ 31 - 2` only.  The modulus is prime and
48271 one of its primitive roots, by the powers of 48271 that Lucas's test asks for.

`Lcg64.next` is an affine map on 64-bit words, and comes back after the multiples of `2 ^ 64` only.
-/
import Koisyn.Theory.Congruential
import Mathlib.Data.Nat.Bitwise
import Mathlib.NumberTheory.LucasPrimality
import Mathlib.Tactic.ReduceModChar
import Mathlib.Tactic.Simproc.Factors

namespace Koisyn.Rng

open Koisyn.Theory.Congruential

set_option autoImplicit false

/-! ## `Lcg32` -/

namespace Lcg32

/-- `Lcg32::Next`. -/
def next (x : BitVec 32) : BitVec 32 :=
  let sign := x &&& 0x80000000#32
  let x := x &&& 0x7fffffff#32
  let mul := x.setWidth 64 * 48271#64
  let hi33 := (mul >>> 31).setWidth 32
  let lo31 := (mul &&& 0x7fffffff#64).setWidth 32
  let seed1 := hi33 + lo31
  -- minus 2147483647 if it is a carry; nothing is done when it equals 2147483647
  let seed1 := (seed1 &&& 0x7fffffff#32) + (seed1 >>> 31)
  seed1 ||| sign

/-- The low 31 bits. -/
def low (x : BitVec 32) : Nat := x.toNat % 2 ^ 31

theorem toNat_eq (x : BitVec 32) : x.toNat = 2 ^ 31 * x.msb.toNat + low x := by
  have := x.isLt
  rw [low, BitVec.msb_eq_decide]
  by_cases high : 2 ^ 31 ≤ x.toNat
  · simp only [high, decide_true, Bool.toNat_true]
    omega
  · simp only [high, decide_false, Bool.toNat_false]
    omega

theorem low_lt (x : BitVec 32) : low x < 2 ^ 31 := Nat.mod_lt _ (by decide)

theorem eq_iff (x y : BitVec 32) : x = y ↔ x.msb = y.msb ∧ low x = low y := by
  constructor
  · rintro rfl
    exact ⟨rfl, rfl⟩
  · rintro ⟨top, same⟩
    apply BitVec.eq_of_toNat_eq
    rw [toNat_eq, toNat_eq y, top, same]

/-- The sum that `Next` folds into 31 bits. -/
def carried (y : Nat) : Nat := y * 48271 / 2 ^ 31 + y * 48271 % 2 ^ 31

theorem carried_lt {y : Nat} (small : y < 2 ^ 31) : carried y < 2 ^ 31 + 48271 := by
  unfold carried
  omega

theorem and_low (w : Nat) (z : BitVec w) : z.toNat &&& 0x7fffffff = z.toNat % 2 ^ 31 :=
  Nat.and_two_pow_sub_one_eq_mod z.toNat 31

theorem toNat_sign (x : BitVec 32) : (x &&& 0x80000000#32).toNat = 2 ^ 31 * x.msb.toNat := by
  rw [BitVec.toNat_and, show (0x80000000#32).toNat = 2 ^ 31 from rfl, Nat.and_two_pow, Nat.mul_comm]
  rfl

/-- The product and what is above and in its low 31 bits. -/
theorem toNat_seed1 (x : BitVec 32) :
    let mul := (x &&& 0x7fffffff#32).setWidth 64 * 48271#64
    ((mul >>> 31).setWidth 32 + (mul &&& 0x7fffffff#64).setWidth 32).toNat = carried (low x) := by
  have small := low_lt x
  have mul : ((x &&& 0x7fffffff#32).setWidth 64 * 48271#64).toNat = low x * 48271 := by
    have lower : (x &&& 0x7fffffff#32).toNat = low x := by
      rw [BitVec.toNat_and]
      exact and_low 32 x
    rw [BitVec.toNat_mul, BitVec.toNat_setWidth, lower, show (48271#64).toNat = 48271 from rfl]
    omega
  have lo31 : (((x &&& 0x7fffffff#32).setWidth 64 * 48271#64) &&& 0x7fffffff#64).toNat =
      low x * 48271 % 2 ^ 31 := by
    rw [BitVec.toNat_and, ← mul]
    exact and_low 64 _
  dsimp only
  rw [BitVec.toNat_add, BitVec.toNat_setWidth, BitVec.toNat_setWidth, lo31, BitVec.toNat_ushiftRight,
    mul, Nat.shiftRight_eq_div_pow, carried]
  omega

theorem toNat_next (x : BitVec 32) :
    (next x).toNat =
      2 ^ 31 * x.msb.toNat + (carried (low x) % 2 ^ 31 + carried (low x) / 2 ^ 31) := by
  have bound := carried_lt (low_lt x)
  rw [Nat.two_pow_add_eq_or_of_lt (by omega), next, BitVec.toNat_or, toNat_sign, Nat.or_comm,
    BitVec.toNat_add, BitVec.toNat_and, BitVec.toNat_ushiftRight, toNat_seed1,
    Nat.shiftRight_eq_div_pow, show (0x7fffffff#32).toNat = 2 ^ 31 - 1 from rfl,
    Nat.and_two_pow_sub_one_eq_mod, Nat.mod_eq_of_lt (by omega)]

/-- `Next` keeps the top bit and folds the low ones. -/
theorem next_bits (x : BitVec 32) :
    (next x).msb = x.msb ∧ low (next x) = carried (low x) % 2 ^ 31 + carried (low x) / 2 ^ 31 := by
  have bound := carried_lt (low_lt x)
  have whole := (toNat_eq (next x)).symm.trans (toNat_next x)
  have small := low_lt (next x)
  have same : (next x).msb.toNat = x.msb.toNat := by omega
  refine ⟨?_, by omega⟩
  cases top : (next x).msb <;> cases old : x.msb <;> simp [top, old] at same ⊢

/-! ### The modulus and the multiplier -/

theorem multiplier_pow : (48271 : ZMod 2147483647) ^ 2147483646 = 1 := by reduce_mod_char

theorem multiplier_pow_ne {q : Nat} (prime : q.Prime) (divides : q ∣ 2147483646) :
    (48271 : ZMod 2147483647) ^ (2147483646 / q) ≠ 1 := by
  have factors : ∀ q ∈ [2, 3, 3, 7, 11, 31, 151, 331],
      (48271 : ZMod 2147483647) ^ (2147483646 / q) ≠ 1 := by
    simp only [List.forall_mem_cons, Nat.reduceDiv]
    reduce_mod_char
    decide
  have listed : Nat.primeFactorsList 2147483646 = [2, 3, 3, 7, 11, 31, 151, 331] := by
    simp only [Nat.primeFactorsList_ofNat]
  exact factors q (listed ▸ (Nat.mem_primeFactorsList (by decide)).2 ⟨prime, divides⟩)

theorem modulus_prime : Nat.Prime 2147483647 :=
  lucas_primality _ 48271 multiplier_pow fun _ prime divides => multiplier_pow_ne prime divides

instance fact_modulus_prime : Fact (Nat.Prime 2147483647) := ⟨modulus_prime⟩

/-- 48271 is a primitive root. -/
theorem orderOf_multiplier : orderOf (48271 : ZMod 2147483647) = 2147483646 :=
  orderOf_eq_of_pow_and_pow_div_prime (by decide) multiplier_pow fun _ prime divides =>
    multiplier_pow_ne prime divides

/-- **The low bits are reduced exactly.** -/
theorem low_next (x : BitVec 32) :
    low (next x) = if 1 ≤ low x ∧ low x ≤ 2147483646 then 48271 * low x % 2147483647 else low x := by
  have small := low_lt x
  rw [(next_bits x).2, carried]
  split
  · rename_i inside
    -- the sum could only stand for zero as the modulus itself, which divides no product here
    have remains : ¬ 2147483647 ∣ low x * 48271 := by
      rw [modulus_prime.dvd_mul]
      rintro (divides | divides)
      · have := Nat.le_of_dvd inside.1 divides
        omega
      · exact absurd divides (by decide)
    have parts : low x * 48271 = low x * 48271 % 2 ^ 31 + 2 ^ 31 * (low x * 48271 / 2 ^ 31) :=
      (Nat.mod_add_div _ _).symm
    have small : low x * 48271 / 2 ^ 31 < 48271 := by omega
    have below : low x * 48271 % 2 ^ 31 < 2 ^ 31 := Nat.mod_lt _ (by decide)
    rw [Nat.mul_comm 48271]
    generalize low x * 48271 / 2 ^ 31 = upper, low x * 48271 % 2 ^ 31 = lower at *
    omega
  · omega

/-! ### The period -/

/-- A seed that `Next` moves. -/
def Moves (x : BitVec 32) : Prop := 1 ≤ low x ∧ low x ≤ 2147483646

/-- On such a seed `Next` is a product modulo the prime, and leaves another such seed. -/
theorem moves_next {x : BitVec 32} (moves : Moves x) :
    Moves (next x) ∧ (low (next x) : ZMod 2147483647) = 48271 * low x := by
  have reduced : low (next x) = 48271 * low x % 2147483647 :=
    (low_next x).trans (if_pos moves)
  have remains : ¬ 2147483647 ∣ 48271 * low x := by
    rw [modulus_prime.dvd_mul]
    rintro (divides | divides)
    · exact absurd divides (by decide)
    · have := Nat.le_of_dvd moves.1 divides
      have := moves.2
      omega
  refine ⟨⟨?_, ?_⟩, ?_⟩
  · omega
  · omega
  · rw [reduced, ZMod.natCast_mod, Nat.cast_mul]
    rfl

theorem moves_iterate {x : BitVec 32} (moves : Moves x) (n : Nat) :
    Moves (next^[n] x) ∧ (next^[n] x).msb = x.msb ∧
      (low (next^[n] x) : ZMod 2147483647) = (fun y => 48271 * y)^[n] (low x : ZMod 2147483647) := by
  induction n with
  | zero => exact ⟨moves, rfl, rfl⟩
  | succ n ih =>
      obtain ⟨moved, top, product⟩ := ih
      obtain ⟨moves, step⟩ := moves_next moved
      rw [Function.iterate_succ_apply', Function.iterate_succ_apply']
      exact ⟨moves, (next_bits _).1.trans top, by rw [step, product]⟩

/-- **The period**, of every seed that is not a fixed point. -/
theorem iterate_eq_self_iff {x : BitVec 32} (moves : Moves x) (n : Nat) :
    next^[n] x = x ↔ 2147483646 ∣ n := by
  obtain ⟨⟨-, moved⟩, top, product⟩ := moves_iterate moves n
  have residue : ∀ {y : Nat}, y ≤ 2147483646 → y % 2147483647 = y := fun small =>
    Nat.mod_eq_of_lt (by omega)
  have nonzero : (low x : ZMod 2147483647) ≠ 0 := by
    rw [ne_eq, ZMod.natCast_eq_zero_iff]
    intro divides
    have := Nat.le_of_dvd moves.1 divides
    have := moves.2
    omega
  have same : low (next^[n] x) = low x ↔
      (low (next^[n] x) : ZMod 2147483647) = (low x : ZMod 2147483647) := by
    rw [ZMod.natCast_eq_natCast_iff', residue moved, residue moves.2]
  rw [eq_iff, and_iff_right top, same, product, iterate_mul_eq_self_iff _ nonzero, orderOf_multiplier]

end Lcg32

/-- **`Lcg32` is `minstd_rand` on the low bits**, with its two further fixed points and its period. -/
theorem lcg32_minstd :
    (∀ x : BitVec 32, (Lcg32.next x).msb = x.msb ∧
      Lcg32.low (Lcg32.next x) =
        if 1 ≤ Lcg32.low x ∧ Lcg32.low x ≤ 2147483646 then 48271 * Lcg32.low x % 2147483647
        else Lcg32.low x) ∧
      ∀ seed : BitVec 32, 1 ≤ Lcg32.low seed → Lcg32.low seed ≤ 2147483646 →
        ∀ n, Lcg32.next^[n] seed = seed ↔ 2147483646 ∣ n := by
  refine ⟨?_, ?_⟩
  · intro x
    exact ⟨(Lcg32.next_bits x).1, Lcg32.low_next x⟩
  · intro seed positive below n
    exact Lcg32.iterate_eq_self_iff ⟨positive, below⟩ n

/-- The seed 1 with the top bit set comes back after `2 ^ 31 - 2` steps, and not after a third of
them. -/
theorem lcg32_minstd_one :
    Lcg32.next^[2147483646] 0x80000001#32 = 0x80000001#32 ∧
      Lcg32.next^[715827882] 0x80000001#32 ≠ 0x80000001#32 := by
  have period := lcg32_minstd.2 0x80000001#32 (by decide) (by decide)
  refine ⟨(period _).2 (dvd_refl _), ?_⟩
  intro back
  exact absurd ((period _).1 back) (by decide)

/-! ## `Lcg64` -/

namespace Lcg64

/-- `Lcg64::Next`. -/
def next (x : BitVec 64) : BitVec 64 := x * 2862933555777941757#64 + 3037000493#64

theorem iterate_eq_self_iff (x : BitVec 64) (n : Nat) : next^[n] x = x ↔ 2 ^ 64 ∣ n :=
  iterate_affine_eq_self_iff (by decide) (by decide) (by decide) x n

end Lcg64

/-- **`Lcg64` has full period**: no seed comes back earlier, and every state is reached from it. -/
theorem lcg64_full_period :
    (∀ (x : BitVec 64) (n : Nat), Lcg64.next^[n] x = x ↔ 2 ^ 64 ∣ n) ∧
      ∀ x y : BitVec 64, ∃ n, n < 2 ^ 64 ∧ Lcg64.next^[n] x = y := by
  refine ⟨Lcg64.iterate_eq_self_iff, ?_⟩
  intro x y
  let states : BitVec 64 ≃ Fin (2 ^ 64) :=
    ⟨BitVec.toFin, BitVec.ofFin, fun _ => rfl, fun _ => rfl⟩
  exact reaches_of_returns states (Lcg64.iterate_eq_self_iff x) y

end Koisyn.Rng
