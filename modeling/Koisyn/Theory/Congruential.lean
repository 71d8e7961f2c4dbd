/-
# Koisyn.Theory.Congruential — periods of congruential generators

Two kinds of generator are iterated here, and each comes with the exact set of numbers of steps after
which it is back where it started.

* `x ↦ x * a + c` on words of `w` bits.  `iterate_affine` is its closed form, in any commutative ring;
  where `a` is one modulo four and `c` is odd, `iterate_affine_eq_self_iff` says that it returns after
  the multiples of `2 ^ w` only.  The argument is that a sum of `n` powers of `a` has as many factors
  two as `n` (`two_pow_dvd_powers_iff`).
* `y ↦ g * y` in a field: it returns from a nonzero `y` after the multiples of the order of `g`
  (`iterate_mul_eq_self_iff`).

A map that needs as many steps to return as there are states has visited them all
(`reaches_of_returns`).
-/
import Mathlib.Algebra.Field.Basic
import Mathlib.Algebra.Ring.GeomSum
import Mathlib.Data.BitVec
import Mathlib.Data.Fintype.EquivFin
import Mathlib.Data.Nat.Prime.Basic
import Mathlib.GroupTheory.OrderOfElement
import Mathlib.Tactic.LinearCombination
import Mathlib.Tactic.Ring

namespace Koisyn.Theory.Congruential

open Finset

set_option autoImplicit false

universe u

/-! ## Orbits -/

/-- A map that returns only after as many steps as there are states has been everywhere. -/
theorem reaches_of_returns {α : Type u} {N : Nat} (states : α ≃ Fin N) {f : α → α} {x : α}
    (returns : ∀ n, f^[n] x = x ↔ N ∣ n) (y : α) : ∃ n, n < N ∧ f^[n] x = y := by
  have apart : ∀ i j, i ≤ j → j < N → f^[i] x = f^[j] x → i = j := by
    intro i j le below same
    -- what is left of a turn brings both to the start
    have turned := congrArg (f^[N - j]) same
    rw [← Function.iterate_add_apply, ← Function.iterate_add_apply, Nat.sub_add_cancel below.le,
      (returns _).2 (dvd_refl _), returns] at turned
    have := Nat.eq_of_dvd_of_lt_two_mul (by omega) turned (by omega)
    omega
  have injective : Function.Injective fun i : Fin N => states (f^[i] x) := by
    intro i j same
    have same : f^[i] x = f^[j] x := states.injective same
    rcases le_total i j with le | le
    · exact Fin.ext (apart i j le j.isLt same)
    · exact Fin.ext (apart j i le i.isLt same.symm).symm
  obtain ⟨i, reached⟩ := Finite.surjective_of_injective injective (states y)
  exact ⟨i, i.isLt, states.injective reached⟩

/-! ## Affine maps on words -/

/-- The closed form of an affine map's iterates. -/
theorem iterate_affine {R : Type u} [CommRing R] (a c x : R) (n : Nat) :
    (fun x => x * a + c)^[n] x = x + (∑ i ∈ range n, a ^ i) * (x * (a - 1) + c) := by
  induction n with
  | zero => simp
  | succ n ih =>
      have powers : a ^ n = (∑ i ∈ range n, a ^ i) * (a - 1) + 1 := by
        rw [geom_sum_mul, sub_add_cancel]
      rw [Function.iterate_succ_apply', ih, sum_range_succ, powers]
      ring

/-- A number that is one modulo four has powers that are. -/
theorem pow_mod_four {a : Nat} (one : a % 4 = 1) (n : Nat) : a ^ n % 4 = 1 := by
  rw [Nat.pow_mod, one, Nat.one_pow]

/-- **The factors two of a sum of powers** are those of the number of its terms. -/
theorem two_pow_dvd_powers_iff {a : Nat} (one : a % 4 = 1) (k n : Nat) :
    2 ^ k ∣ ∑ i ∈ range n, a ^ i ↔ 2 ^ k ∣ n := by
  induction k generalizing n with
  | zero => simp
  | succ k ih =>
      rcases Nat.even_or_odd' n with ⟨m, rfl | rfl⟩
      · -- the second half of the sum is the first times `a ^ m`, and `a ^ m + 1` is twice an odd number
        obtain ⟨odd, twice⟩ : ∃ odd, a ^ m + 1 = 2 * (2 * odd + 1) :=
          ⟨a ^ m / 4, by have := pow_mod_four one m; omega⟩
        have halves : ∑ i ∈ range (2 * m), a ^ i = 2 * ((∑ i ∈ range m, a ^ i) * (2 * odd + 1)) := by
          have second : ∑ i ∈ range m, a ^ (m + i) = a ^ m * ∑ i ∈ range m, a ^ i := by
            rw [mul_sum]
            exact sum_congr rfl fun i _ => pow_add a m i
          rw [two_mul m, sum_range_add, second]
          linear_combination (∑ i ∈ range m, a ^ i) * twice
        have coprime : Nat.Coprime (2 ^ k) (2 * odd + 1) :=
          Nat.Coprime.pow_left k (by simp)
        rw [halves, pow_succ', Nat.mul_dvd_mul_iff_left (by decide),
          Nat.mul_dvd_mul_iff_left (by decide), coprime.dvd_mul_right, ih]
      · have sumOdd : (∑ i ∈ range (2 * m + 1), a ^ i) % 2 = 1 := by
          rw [sum_nat_mod, sum_congr rfl fun i _ => show a ^ i % 2 = 1 by
            have := pow_mod_four one i; omega]
          simp
        have neither : ∀ s, s % 2 = 1 → ¬ 2 ^ (k + 1) ∣ s := by
          intro s isOdd divides
          have := (dvd_pow_self 2 k.succ_ne_zero).trans divides
          omega
        exact iff_of_false (neither _ sumOdd) (neither _ (by omega))

section Words

variable {w : Nat}

/-- An odd factor adds no factor two to a product of words. -/
theorem mul_eq_zero_iff_of_odd {s d : BitVec w} (odd : d.toNat % 2 = 1) :
    s * d = 0 ↔ 2 ^ w ∣ s.toNat := by
  have coprime : Nat.Coprime (2 ^ w) d.toNat :=
    Nat.Coprime.pow_left w (Nat.coprime_two_left.2 (Nat.odd_iff.2 odd))
  rw [BitVec.toNat_eq, BitVec.toNat_mul, BitVec.ofNat_eq_ofNat, BitVec.toNat_zero,
    ← Nat.dvd_iff_mod_eq_zero, coprime.dvd_mul_right]

/-- **The full period** of an affine map on words. -/
theorem iterate_affine_eq_self_iff {a c : BitVec w} (wide : 0 < w) (one : a.toNat % 4 = 1)
    (odd : c.toNat % 2 = 1) (x : BitVec w) (n : Nat) :
    (fun x => x * a + c)^[n] x = x ↔ 2 ^ w ∣ n := by
  have even : 2 ∣ 2 ^ w := dvd_pow_self 2 wide.ne'
  have less : (a - 1).toNat = a.toNat - 1 := by
    have unit : (1 : BitVec w).toNat = 1 := by
      rw [BitVec.ofNat_eq_ofNat, BitVec.toNat_ofNat, Nat.mod_eq_of_lt (Nat.one_lt_two_pow wide.ne')]
    rw [BitVec.toNat_sub_of_le (by rw [BitVec.le_def, unit]; omega), unit]
  have drift : (x * (a - 1) + c).toNat % 2 = 1 := by
    have steps : x.toNat * (a.toNat - 1) % 2 = 0 := by
      rw [Nat.mul_mod, show (a.toNat - 1) % 2 = 0 by omega]
      simp
    rw [BitVec.toNat_add, Nat.mod_mod_of_dvd _ even, Nat.add_mod, BitVec.toNat_mul,
      Nat.mod_mod_of_dvd _ even, less, steps, odd]
  have summed : (∑ i ∈ range n, a ^ i) = ((∑ i ∈ range n, a.toNat ^ i : Nat) : BitVec w) := by
    push_cast
    refine sum_congr rfl fun i _ => ?_
    rw [BitVec.natCast_eq_ofNat, BitVec.ofNat_toNat, BitVec.setWidth_eq]
  rw [iterate_affine, add_eq_left, mul_eq_zero_iff_of_odd drift, summed, BitVec.natCast_eq_ofNat,
    BitVec.toNat_ofNat, Nat.dvd_mod_iff (dvd_refl _), two_pow_dvd_powers_iff one]

end Words

/-! ## Multiplicative generators -/

/-- **The period of a multiplicative generator** is the order of its factor. -/
theorem iterate_mul_eq_self_iff {F : Type u} [Field F] (g : F) {y : F} (nonzero : y ≠ 0) (n : Nat) :
    (fun y => g * y)^[n] y = y ↔ orderOf g ∣ n := by
  rw [mul_left_iterate, mul_eq_right₀ nonzero, orderOf_dvd_iff_pow_eq_one]

end Koisyn.Theory.Congruential
