/-
# Koisyn.Theory.Mixing — steps of a word mixer that can be undone, and folds that hide nothing

A mixer built from `x ^ (x >> s)` and from products with a unit is a permutation of the words, whatever
their width.  `unXorShift` is the inverse of `xorShift`: as a shift twice undoes the carry of the shift
before (`xorShift_xorShift`), it takes as many rounds as the shift must be doubled to leave the word.  A
`Mixer` of two rounds carries what its inverse needs (`Mixer.unmix_mix`, `Mixer.mix_unmix`).

A fold whose step is injective in the accumulator and in the element tells apart any two lists that
differ in one place (`foldl_ne_of_one_changed`): the change gets into the accumulator and no later
step can take it out again.
-/
import Mathlib.Data.BitVec
import Mathlib.Algebra.Group.Basic

namespace Koisyn.Theory.Mixing

set_option autoImplicit false

universe u v

/-! ## Steps of a mixer -/

/-- A word with its upper part, moved down by `s`, folded in. -/
def xorShift {w : Nat} (s : Nat) (x : BitVec w) : BitVec w := (x >>> s) ^^^ x

/-- Folds by `s`, `2 * s`, `4 * s` and so on. -/
def unXorShift {w : Nat} : (rounds s : Nat) → BitVec w → BitVec w
  | 0, _, x => x
  | rounds + 1, s, x => xorShift s (unXorShift rounds (s + s) x)

section XorShift

variable {w : Nat} (x : BitVec w)

theorem xorShift_of_le {s : Nat} (out : w ≤ s) : xorShift s x = x := by
  rw [xorShift, BitVec.ushiftRight_eq_zero out, BitVec.zero_xor]

theorem xorShift_comm (s t : Nat) : xorShift s (xorShift t x) = xorShift t (xorShift s x) := by
  simp only [xorShift, BitVec.ushiftRight_xor_distrib, ← BitVec.shiftRight_add]
  rw [Nat.add_comm s t]
  ac_rfl

/-- What is moved down once is folded in twice, and so not at all. -/
theorem xorShift_xorShift (s : Nat) : xorShift s (xorShift s x) = xorShift (s + s) x := by
  simp only [xorShift, BitVec.ushiftRight_xor_distrib, ← BitVec.shiftRight_add]
  rw [BitVec.xor_assoc, ← BitVec.xor_assoc (x >>> s), BitVec.xor_self, BitVec.zero_xor]

theorem xorShift_unXorShift {rounds s : Nat} (covers : w ≤ 2 ^ rounds * s) :
    xorShift s (unXorShift rounds s x) = x := by
  induction rounds generalizing s with
  | zero => exact xorShift_of_le x (by simpa using covers)
  | succ rounds ih =>
      rw [unXorShift, xorShift_xorShift]
      apply ih
      calc w ≤ 2 ^ (rounds + 1) * s := covers
        _ = 2 ^ rounds * (s + s) := by rw [Nat.pow_succ, Nat.mul_assoc, Nat.two_mul]

theorem unXorShift_comm (rounds s t : Nat) :
    unXorShift rounds t (xorShift s x) = xorShift s (unXorShift rounds t x) := by
  induction rounds generalizing t with
  | zero => rfl
  | succ rounds ih => rw [unXorShift, ih, xorShift_comm, ← unXorShift]

theorem unXorShift_xorShift {rounds s : Nat} (covers : w ≤ 2 ^ rounds * s) :
    unXorShift rounds s (xorShift s x) = x := by
  rw [unXorShift_comm, xorShift_unXorShift x covers]

/-- A product with a word is undone by the product with its inverse. -/
theorem mul_unit_inverse {m inverse : BitVec w} (unit : m * inverse = 1) : x * m * inverse = x := by
  rw [mul_assoc, unit, mul_one]

end XorShift

/-- A mixer of two rounds, each a fold and a product, and a last fold. -/
structure Mixer (w : Nat) where
  shift₁ : Nat
  factor₁ : BitVec w
  shift₂ : Nat
  factor₂ : BitVec w
  shift₃ : Nat
  /-- as many as every shift needs to leave the word -/
  rounds : Nat
  inverse₁ : BitVec w
  inverse₂ : BitVec w
  covers₁ : w ≤ 2 ^ rounds * shift₁
  covers₂ : w ≤ 2 ^ rounds * shift₂
  covers₃ : w ≤ 2 ^ rounds * shift₃
  unit₁ : factor₁ * inverse₁ = 1
  unit₂ : factor₂ * inverse₂ = 1

namespace Mixer

variable {w : Nat} (μ : Mixer w)

def mix (x : BitVec w) : BitVec w :=
  xorShift μ.shift₃ (xorShift μ.shift₂ (xorShift μ.shift₁ x * μ.factor₁) * μ.factor₂)

/-- The steps undone, the last one first. -/
def unmix (y : BitVec w) : BitVec w :=
  let x := unXorShift μ.rounds μ.shift₃ y
  let x := unXorShift μ.rounds μ.shift₂ (x * μ.inverse₂)
  unXorShift μ.rounds μ.shift₁ (x * μ.inverse₁)

theorem unmix_mix : Function.LeftInverse μ.unmix μ.mix := by
  intro x
  rw [mix, unmix, unXorShift_xorShift _ μ.covers₃, mul_unit_inverse _ μ.unit₂,
    unXorShift_xorShift _ μ.covers₂, mul_unit_inverse _ μ.unit₁, unXorShift_xorShift _ μ.covers₁]

theorem mix_unmix : Function.RightInverse μ.unmix μ.mix := by
  intro y
  have unit₁ : μ.inverse₁ * μ.factor₁ = 1 := (mul_comm _ _).trans μ.unit₁
  have unit₂ : μ.inverse₂ * μ.factor₂ = 1 := (mul_comm _ _).trans μ.unit₂
  rw [mix, unmix, xorShift_unXorShift _ μ.covers₁, mul_unit_inverse _ unit₁,
    xorShift_unXorShift _ μ.covers₂, mul_unit_inverse _ unit₂, xorShift_unXorShift _ μ.covers₃]

end Mixer

/-! ## Folds -/

section Fold

variable {α : Type u} {β : Type v} {f : β → α → β}

theorem foldl_injective (keeps : ∀ a, Function.Injective fun h => f h a) (l : List α) :
    Function.Injective fun h => l.foldl f h := by
  induction l with
  | nil => exact fun _ _ same => same
  | cons a l ih => exact fun _ _ same => keeps a (ih same)

/-- **A fold tells a changed element.** -/
theorem foldl_ne_of_one_changed (keeps : ∀ a, Function.Injective fun h => f h a)
    (reads : ∀ h, Function.Injective (f h)) {before after : List α} {a b : α} (differ : a ≠ b)
    (h : β) : (before ++ a :: after).foldl f h ≠ (before ++ b :: after).foldl f h := by
  intro same
  simp only [List.foldl_append, List.foldl_cons] at same
  exact differ (reads _ (foldl_injective keeps after same))

end Fold

end Koisyn.Theory.Mixing
