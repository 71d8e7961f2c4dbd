/-
# Koisyn.Theory.Bytes — naturals as byte strings, in both byte orders

`bigEndian w n` is the low `w` bytes of `n` as the network writes them, `littleEndian w n` the same
bytes as a little-endian machine stores them; `ofBigEndian` and `ofLittleEndian` read them back.
Reading a value of at most `w` bytes back is exact (`ofBigEndian_bigEndian`,
`ofLittleEndian_littleEndian`), and a little-endian reading of a concatenation is the sum of the
shifted readings (`ofLittleEndian_append`), which is what lets a block copy of several stored
integers be read as one word.
-/
import Mathlib.Tactic.Ring

namespace Koisyn.Theory.Bytes

set_option autoImplicit false

/-- The low `w` bytes of `n`, least significant byte first. -/
def littleEndian : Nat → Nat → List UInt8
  | 0, _ => []
  | w + 1, n => UInt8.ofNat n :: littleEndian w (n / 256)

/-- A byte string read with its least significant byte first. -/
def ofLittleEndian : List UInt8 → Nat
  | [] => 0
  | b :: bytes => b.toNat + 256 * ofLittleEndian bytes

/-- The low `w` bytes of `n`, most significant byte first. -/
def bigEndian (w n : Nat) : List UInt8 := (littleEndian w n).reverse

/-- A byte string read with its most significant byte first. -/
def ofBigEndian (bytes : List UInt8) : Nat := ofLittleEndian bytes.reverse

@[simp] theorem length_littleEndian (w n : Nat) : (littleEndian w n).length = w := by
  induction w generalizing n with
  | zero => rfl
  | succ w ih => simp [littleEndian, ih]

@[simp] theorem length_bigEndian (w n : Nat) : (bigEndian w n).length = w := by
  simp [bigEndian]

theorem ofLittleEndian_littleEndian {w n : Nat} (fits : n < 256 ^ w) :
    ofLittleEndian (littleEndian w n) = n := by
  induction w generalizing n with
  | zero =>
      simp only [Nat.pow_zero] at fits
      simp only [littleEndian, ofLittleEndian]
      omega
  | succ w ih =>
      have high : n / 256 < 256 ^ w := by
        apply (Nat.div_lt_iff_lt_mul (by decide)).2
        rwa [Nat.pow_succ] at fits
      simp only [littleEndian, ofLittleEndian, ih high, UInt8.toNat_ofNat']
      omega

theorem ofBigEndian_bigEndian {w n : Nat} (fits : n < 256 ^ w) :
    ofBigEndian (bigEndian w n) = n := by
  simp [ofBigEndian, bigEndian, ofLittleEndian_littleEndian fits]

theorem littleEndian_ofLittleEndian (bytes : List UInt8) :
    littleEndian bytes.length (ofLittleEndian bytes) = bytes := by
  induction bytes with
  | nil => rfl
  | cons b bytes ih =>
      have byte : b.toNat < 256 := b.toNat_lt
      have low : UInt8.ofNat (b.toNat + 256 * ofLittleEndian bytes) = b := by
        apply UInt8.toNat_inj.1
        rw [UInt8.toNat_ofNat']
        omega
      have high : (b.toNat + 256 * ofLittleEndian bytes) / 256 = ofLittleEndian bytes := by omega
      simp only [List.length_cons, ofLittleEndian, littleEndian, low, high, ih]

theorem bigEndian_ofBigEndian (bytes : List UInt8) :
    bigEndian bytes.length (ofBigEndian bytes) = bytes := by
  have := littleEndian_ofLittleEndian bytes.reverse
  rw [List.length_reverse] at this
  rw [bigEndian, ofBigEndian, this, List.reverse_reverse]

theorem ofLittleEndian_append (a b : List UInt8) :
    ofLittleEndian (a ++ b) = ofLittleEndian a + 256 ^ a.length * ofLittleEndian b := by
  induction a with
  | nil => simp [ofLittleEndian]
  | cons x a ih =>
      simp only [List.cons_append, ofLittleEndian, ih, List.length_cons, Nat.pow_succ]
      ring

theorem ofLittleEndian_lt (bytes : List UInt8) : ofLittleEndian bytes < 256 ^ bytes.length := by
  induction bytes with
  | nil => simp [ofLittleEndian]
  | cons b bytes ih =>
      have byte : b.toNat < 256 := b.toNat_lt
      simp only [ofLittleEndian, List.length_cons, Nat.pow_succ]
      omega

theorem ofBigEndian_lt (bytes : List UInt8) : ofBigEndian bytes < 256 ^ bytes.length := by
  simpa [ofBigEndian] using ofLittleEndian_lt bytes.reverse

end Koisyn.Theory.Bytes
