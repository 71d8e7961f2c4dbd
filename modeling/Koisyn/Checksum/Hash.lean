/-
# Koisyn.Checksum.Hash — the integer hash of `checksum.h`

Integers of the source are values of an `IntType`: a size of 1, 2, 4 or 8 bytes and a signedness.
`IntLike T` is a value of the type, its range a field, so an out-of-range element cannot be built.

* `toU64WithoutSignExtension` casts to the unsigned type of the same size and widens by zeroes;
  `toU64_toNat` reads it as the value modulo `2 ^ bits`.
* `hash32`, `hash64`, `mixValue64` are the mixing functions, on bit vectors with their wrap-around.

`hash_permutations`: the two hashes are permutations, which `unhash32` and `unhash64` undo step by step.
-/
import Koisyn.Theory.Mixing
import Mathlib.Algebra.Order.Ring.Int

namespace Koisyn.Checksum

open Koisyn.Theory.Mixing

set_option autoImplicit false

/-- `sizeof(T)` of a `ConceptIntLike` type. -/
inductive SizeOf where
  | one | two | four | eight
  deriving DecidableEq, Repr

def SizeOf.bytes : SizeOf → Nat
  | .one => 1
  | .two => 2
  | .four => 4
  | .eight => 8

structure IntType where
  size : SizeOf
  signed : Bool
  deriving DecidableEq, Repr

namespace IntType

def bytes (T : IntType) : Nat := T.size.bytes

def bits (T : IntType) : Nat := 8 * T.bytes

def lowest (T : IntType) : Int := if T.signed then -(2 ^ (T.bits - 1)) else 0

def highest (T : IntType) : Int := if T.signed then 2 ^ (T.bits - 1) - 1 else 2 ^ T.bits - 1

theorem bytes_cases (T : IntType) : T.bytes = 1 ∨ T.bytes = 2 ∨ T.bytes = 4 ∨ T.bytes = 8 := by
  unfold bytes
  cases T.size <;> simp [SizeOf.bytes]

theorem bytes_pos (T : IntType) : 0 < T.bytes := by
  have := T.bytes_cases
  omega

end IntType

/-- A value of the integer type `T`. -/
structure IntLike (T : IntType) where
  val : Int
  lowest_le : T.lowest ≤ val
  le_highest : val ≤ T.highest
  deriving DecidableEq, Repr

/-- The value as an unsigned integer of its own width: `static_cast<uintN_t>(t)`. -/
def IntLike.toUnsigned {T : IntType} (t : IntLike T) : BitVec T.bits := BitVec.ofInt T.bits t.val

/-- `ToU64WithoutSignExtension`: to the unsigned type of the same size, then to 64 bits. -/
def toU64WithoutSignExtension {T : IntType} (t : IntLike T) : BitVec 64 :=
  match T.size with
  | .one => (BitVec.ofInt 8 t.val).setWidth 64
  | .two => (BitVec.ofInt 16 t.val).setWidth 64
  | .four => (BitVec.ofInt 32 t.val).setWidth 64
  | .eight => BitVec.ofInt 64 t.val

theorem toU64_toNat {T : IntType} (t : IntLike T) :
    (toU64WithoutSignExtension t).toNat = t.toUnsigned.toNat := by
  obtain ⟨size, signed⟩ := T
  cases size <;>
    simp only [toU64WithoutSignExtension, IntLike.toUnsigned, IntType.bits, IntType.bytes,
      SizeOf.bytes, BitVec.toNat_setWidth]
  all_goals exact Nat.mod_eq_of_lt (Nat.lt_of_lt_of_le (BitVec.isLt _) (by decide))

theorem toU64_lt {T : IntType} (t : IntLike T) :
    (toU64WithoutSignExtension t).toNat < 2 ^ T.bits :=
  toU64_toNat t ▸ t.toUnsigned.isLt

/-! ## The hashes -/

/-- `Hash32`. -/
def hash32 (x : BitVec 32) : BitVec 32 :=
  let x := ((x >>> 16) ^^^ x) * 0x21f0aaad#32
  let x := ((x >>> 15) ^^^ x) * 0x735a2d97#32
  (x >>> 15) ^^^ x

/-- `Hash64`. -/
def hash64 (x : BitVec 64) : BitVec 64 :=
  let x := ((x >>> 32) ^^^ x) * 0xe9846af9b1a615d#64
  let x := ((x >>> 32) ^^^ x) * 0xe9846af9b1a615d#64
  (x >>> 28) ^^^ x

/-- The steps of `Hash32`. -/
def mixer32 : Mixer 32 where
  shift₁ := 16
  factor₁ := 0x21f0aaad
  shift₂ := 15
  factor₂ := 0x735a2d97
  shift₃ := 15
  rounds := 2
  inverse₁ := 0x333c4925
  inverse₂ := 0x97132227
  covers₁ := by decide
  covers₂ := by decide
  covers₃ := by decide
  unit₁ := by decide
  unit₂ := by decide

/-- The steps of `Hash64`. -/
def mixer64 : Mixer 64 where
  shift₁ := 32
  factor₁ := 0xe9846af9b1a615d
  shift₂ := 32
  factor₂ := 0xe9846af9b1a615d
  shift₃ := 28
  rounds := 2
  inverse₁ := 0x153ed04bd89cfaf5
  inverse₂ := 0x153ed04bd89cfaf5
  covers₁ := by decide
  covers₂ := by decide
  covers₃ := by decide
  unit₁ := by decide
  unit₂ := by decide

theorem hash32_eq : hash32 = mixer32.mix := rfl

theorem hash64_eq : hash64 = mixer64.mix := rfl

/-- `Hash32` undone. -/
def unhash32 : BitVec 32 → BitVec 32 := mixer32.unmix

/-- `Hash64` undone. -/
def unhash64 : BitVec 64 → BitVec 64 := mixer64.unmix

theorem unhash32_hash32 : Function.LeftInverse unhash32 hash32 := by
  rw [hash32_eq]
  exact mixer32.unmix_mix

theorem unhash64_hash64 : Function.LeftInverse unhash64 hash64 := by
  rw [hash64_eq]
  exact mixer64.unmix_mix

/-- **The hashes are permutations**, each with its inverse. -/
theorem hash_permutations :
    (Function.Injective hash32 ∧ Function.LeftInverse unhash32 hash32 ∧
        Function.RightInverse unhash32 hash32) ∧
      Function.Injective hash64 ∧ Function.LeftInverse unhash64 hash64 ∧
        Function.RightInverse unhash64 hash64 := by
  have right32 : Function.RightInverse unhash32 hash32 := by
    rw [hash32_eq]
    exact mixer32.mix_unmix
  have right64 : Function.RightInverse unhash64 hash64 := by
    rw [hash64_eq]
    exact mixer64.mix_unmix
  exact ⟨⟨unhash32_hash32.injective, unhash32_hash32, right32⟩, unhash64_hash64.injective,
    unhash64_hash64, right64⟩

/-- `MixValue64`, called in the source on 64-bit arguments only, which
`ToU64WithoutSignExtension` leaves as they are. -/
def mixValue64 (ints : List (BitVec 64)) : BitVec 64 :=
  hash64 (ints.foldl (· + ·) 0x3c0aad46f555e0b9#64)

end Koisyn.Checksum
