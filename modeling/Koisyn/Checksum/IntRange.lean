/-
# Koisyn.Checksum.IntRange — the three ways `checksum.h` hashes a range of integers

A range of integers is hashed eight bytes at a time.  The source has three loops for it:

* `hashIntRange` (`HashIntRange_impl`): chunk by chunk, for compile time and ranges without a size;
* `hashIntSizedRange true` (`HashIntSizedRange_impl`): a computed number of whole words, each copied
  out of a contiguous little-endian range, then the rest element by element;
* `hashIntSizedRange false`: the same with every word gathered element by element.

A read past the end of the range and a shift by the width or more are undefined in the source, and
make the model's function `none`; so does a loop that does not end.  The loops meet in `value`, the
number a group of elements denotes in base `2 ^ bits`: `orShifted_eq` for the shift-and-or accumulation,
`copyWord_eq` for the block copy.  `hashIntRange_paths_agree` is the agreement of the three.
-/
import Koisyn.Checksum.Hash
import Koisyn.Theory.Bytes
import Koisyn.Theory.WhileLoop
import Mathlib.Algebra.Order.Ring.Nat
import Mathlib.Tactic.Linarith

namespace Koisyn.Checksum

open Koisyn.Theory
open Koisyn.Theory.Bytes

set_option autoImplicit false

variable {T : IntType}

/-! ## The source's loops -/

/-- `chunk_view`: consecutive groups of `n` elements, the last possibly shorter. -/
def chunkView {α : Type} (n : Nat) : List α → List (List α)
  | [] => []
  | x :: xs => (x :: xs.take (n - 1)) :: chunkView n (xs.drop (n - 1))
  termination_by xs => xs.length

/-- `sum1 |= elm << sizeof(T) * 8 * idx`. -/
def orShifted (sum1 : BitVec 64) (elm : IntLike T) (idx : Nat) : Option (BitVec 64) :=
  if T.bytes * 8 * idx < 64 then
    some (sum1 ||| toU64WithoutSignExtension elm <<< (T.bytes * 8 * idx))
  else none

/-- The locals of `HashIntRange_impl` inside one chunk. -/
structure ChunkLocals where
  sum1 : BitVec 64
  idx : BitVec 64
  count : BitVec 64

def hashChunkElement (s : ChunkLocals) (elm : IntLike T) : Option ChunkLocals :=
  (orShifted s.sum1 elm s.idx.toNat).map fun sum1 => ⟨sum1, s.idx + 1, s.count + 1⟩

/-- One chunk: the running hash and the running count. -/
def hashChunk (s : BitVec 64 × BitVec 64) (ck : List (IntLike T)) :
    Option (BitVec 64 × BitVec 64) :=
  (ck.foldlM hashChunkElement ⟨0, 0, s.2⟩).map fun r => (mixValue64 [s.1, r.sum1], r.count)

/-- `HashIntRange_impl`. -/
def hashIntRange (rng : List (IntLike T)) : Option (BitVec 64) :=
  ((chunkView (8 / T.bytes) rng).foldlM hashChunk (0, 0)).map fun s => mixValue64 [s.1, s.2]

/-- The bytes of an element in the memory of a little-endian machine. -/
def objectBytes (t : IntLike T) : List UInt8 := littleEndian T.bytes t.toUnsigned.toNat

/-- `memcpy(&sum1, to_address(begin + at_), 8)` on a little-endian machine. -/
def copyWord (rng : List (IntLike T)) (at_ : Nat) : Option (BitVec 64) :=
  let bytes := ((rng.flatMap objectBytes).drop (at_ * T.bytes)).take 8
  if bytes.length = 8 then some (BitVec.ofNat 64 (ofLittleEndian bytes)) else none

/-- The locals of an element-wise loop: the counter, the iterator and the word. -/
structure GatherLocals where
  i : BitVec 32
  now : Nat
  sum1 : BitVec 64

def gatherElement (rng : List (IntLike T)) (s : GatherLocals) : Option GatherLocals :=
  rng[s.now]?.bind fun elm =>
    (orShifted s.sum1 elm s.i.toNat).map fun sum1 => ⟨s.i + 1, s.now + 1, sum1⟩

/-- `for (uint32_t i = 0; i < bound; ++i)` over `*now++`: the word and the advanced iterator. -/
def gather (rng : List (IntLike T)) (bound : BitVec 64) (now : Nat) :
    Option (BitVec 64 × Nat) :=
  (WhileLoop.run (fun s : GatherLocals => decide (s.i.setWidth 64 < bound)) (gatherElement rng)
    bound.toNat ⟨0, now, 0⟩).map fun s => (s.sum1, s.now)

def countPer8 (T : IntType) : BitVec 32 := BitVec.ofNat 32 (8 / T.bytes)

/-- The locals of the loop over whole words. -/
structure WordLocals where
  ck : BitVec 32
  now : Nat
  hashSum : BitVec 64

/-- One whole word; `fast` is "contiguous range on a little-endian machine". -/
def hashWord (fast : Bool) (rng : List (IntLike T)) (s : WordLocals) : Option WordLocals :=
  let word :=
    if fast then (copyWord rng (s.now + s.ck.toNat)).map fun sum1 => (sum1, s.now)
    else gather rng ((countPer8 T).setWidth 64) s.now
  word.map fun w => ⟨s.ck + countPer8 T, w.2, mixValue64 [s.hashSum, w.1]⟩

/-- `static_cast<uint32_t>(count) & ~(countPer8 - 1)`. -/
def wholeCount (T : IntType) (count : BitVec 64) : BitVec 32 :=
  count.setWidth 32 &&& ~~~(countPer8 T - 1)

/-- The extra loop for the elements after the last whole word. -/
def hashRest (fast : Bool) (rng : List (IntLike T)) (count : BitVec 64) (s : WordLocals) :
    Option (BitVec 64) :=
  let chunks := wholeCount T count
  if chunks.setWidth 64 ≠ count then
    let now := if fast then s.now + chunks.toNat else s.now
    (gather rng (count - chunks.setWidth 64) now).map fun w => mixValue64 [s.hashSum, w.1]
  else some s.hashSum

/-- `HashIntSizedRange_impl`. -/
def hashIntSizedRange (fast : Bool) (rng : List (IntLike T)) : Option (BitVec 64) :=
  let count := BitVec.ofNat 64 rng.length
  let chunks := wholeCount T count
  (WhileLoop.run (fun s : WordLocals => decide (s.ck < chunks)) (hashWord fast rng)
    chunks.toNat ⟨0, 0, 0⟩).bind fun s =>
      (hashRest fast rng count s).map fun hashSum => mixValue64 [hashSum, count]

/-! ## The number a group of elements denotes -/

/-- The elements as digits in base `2 ^ bits`, the first least significant. -/
def value : List (IntLike T) → Nat
  | [] => 0
  | t :: ts => (toU64WithoutSignExtension t).toNat + 2 ^ T.bits * value ts

theorem value_lt (ts : List (IntLike T)) : value ts < 2 ^ (T.bits * ts.length) := by
  induction ts with
  | nil => simp [value]
  | cons t ts ih =>
      have digit := toU64_lt t
      simp only [value, List.length_cons, Nat.mul_succ, Nat.pow_add]
      rw [Nat.mul_comm (2 ^ (T.bits * ts.length))]
      nlinarith

theorem value_append (ts us : List (IntLike T)) :
    value (ts ++ us) = value ts + 2 ^ (T.bits * ts.length) * value us := by
  induction ts with
  | nil => simp [value]
  | cons t ts ih =>
      simp only [List.cons_append, value, ih, List.length_cons, Nat.mul_succ, Nat.pow_add]
      ring

/-- A digit shifted past a smaller number is or-ed in without a carry. -/
theorem orShifted_eq (ts : List (IntLike T)) (elm : IntLike T)
    (fits : T.bits * (ts.length + 1) ≤ 64) :
    orShifted (BitVec.ofNat 64 (value ts)) elm ts.length =
      some (BitVec.ofNat 64 (value (ts ++ [elm]))) := by
  have amount : T.bytes * 8 * ts.length = T.bits * ts.length := by
    rw [IntType.bits, Nat.mul_comm T.bytes 8]
  have bits_pos : 0 < T.bits := by
    have := T.bytes_pos
    simp only [IntType.bits]
    omega
  have below : T.bits * ts.length < 64 := by
    rw [Nat.mul_succ] at fits
    omega
  have digit := toU64_lt elm
  have low := value_lt ts
  have scaled : 2 ^ (T.bits * ts.length) * 2 ^ T.bits ≤ 2 ^ 64 := by
    rw [← Nat.pow_add]
    exact Nat.pow_le_pow_right (by decide) (by rw [Nat.mul_succ] at fits; exact fits)
  have shifted : (toU64WithoutSignExtension elm).toNat <<< (T.bits * ts.length) < 2 ^ 64 := by
    rw [Nat.shiftLeft_eq]
    nlinarith
  have small : value ts < 2 ^ 64 := lt_of_lt_of_le low (Nat.pow_le_pow_right (by decide) below.le)
  have whole : value (ts ++ [elm]) < 2 ^ 64 := by
    have := value_lt (ts ++ [elm])
    refine lt_of_lt_of_le this (Nat.pow_le_pow_right (by decide) ?_)
    simpa using fits
  rw [orShifted, amount, if_pos below, Option.some.injEq]
  apply BitVec.eq_of_toNat_eq
  rw [BitVec.toNat_or, BitVec.toNat_shiftLeft, BitVec.toNat_ofNat, BitVec.toNat_ofNat,
    Nat.mod_eq_of_lt small, Nat.mod_eq_of_lt shifted, Nat.mod_eq_of_lt whole, value_append,
    Nat.or_comm, ← Nat.shiftLeft_add_eq_or_of_lt low, Nat.shiftLeft_eq]
  simp only [value, Nat.mul_zero, Nat.add_zero]
  ring

/-! ## Groups of elements -/

/-- The groups hashed in order, from a running hash. -/
def hashGroups (hashSum : BitVec 64) (groups : List (List (IntLike T))) : BitVec 64 :=
  groups.foldl (fun h g => mixValue64 [h, BitVec.ofNat 64 (value g)]) hashSum

theorem chunkView_of_ne_nil {α : Type} {n : Nat} (pos : 0 < n) {xs : List α} (ne : xs ≠ []) :
    chunkView n xs = xs.take n :: chunkView n (xs.drop n) := by
  obtain ⟨m, rfl⟩ : ∃ m, n = m + 1 := ⟨n - 1, by omega⟩
  cases xs with
  | nil => exact absurd rfl ne
  | cons x xs => simp [chunkView]

theorem bits_groups (T : IntType) : T.bits * (8 / T.bytes) = 64 := by
  unfold IntType.bits
  rcases T.bytes_cases with h | h | h | h <;> rw [h]

theorem groupCount_pos (T : IntType) : 0 < 8 / T.bytes := by
  rcases T.bytes_cases with h | h | h | h <;> rw [h] <;> decide

theorem group_fits {n : Nat} (short : n ≤ 8 / T.bytes) : T.bits * n ≤ 64 :=
  bits_groups T ▸ Nat.mul_le_mul_left T.bits short

theorem ofNat_succ (n : Nat) : BitVec.ofNat 64 n + 1 = BitVec.ofNat 64 (n + 1) :=
  (BitVec.ofNat_add n 1).symm

/-- The chunk loop accumulates the number its elements denote, and counts them. -/
theorem foldlM_hashChunkElement (before ck : List (IntLike T)) (count : Nat)
    (fits : before.length + ck.length ≤ 8 / T.bytes) :
    ck.foldlM hashChunkElement
        ⟨BitVec.ofNat 64 (value before), BitVec.ofNat 64 before.length, BitVec.ofNat 64 count⟩ =
      some ⟨BitVec.ofNat 64 (value (before ++ ck)), BitVec.ofNat 64 (before.length + ck.length),
        BitVec.ofNat 64 (count + ck.length)⟩ := by
  induction ck generalizing before count with
  | nil => simp
  | cons elm ck ih =>
      simp only [List.length_cons] at fits
      have index : (BitVec.ofNat 64 before.length).toNat = before.length := by
        rw [BitVec.toNat_ofNat]
        apply Nat.mod_eq_of_lt
        have : 8 / T.bytes ≤ 8 := Nat.div_le_self _ _
        omega
      have next := ih (before ++ [elm]) (count + 1) (by simp; omega)
      simp only [List.append_assoc, List.singleton_append, List.length_append,
        List.length_singleton] at next
      simp only [List.foldlM_cons, hashChunkElement, index,
        orShifted_eq before elm (group_fits (by omega)), Option.map_some, Option.bind_eq_bind,
        Option.bind_some, ofNat_succ, List.length_cons, next]
      congr 3 <;> omega

theorem hashChunk_eq (hashSum : BitVec 64) (count : Nat) (ck : List (IntLike T))
    (fits : ck.length ≤ 8 / T.bytes) :
    hashChunk (hashSum, BitVec.ofNat 64 count) ck =
      some (mixValue64 [hashSum, BitVec.ofNat 64 (value ck)],
        BitVec.ofNat 64 (count + ck.length)) := by
  have folded := foldlM_hashChunkElement [] ck count (by simpa using fits)
  simp only [value, List.length_nil, List.nil_append] at folded
  simp only [hashChunk]
  rw [show (0 : BitVec 64) = BitVec.ofNat 64 0 from rfl, folded]
  rfl

theorem foldlM_hashChunk (rng : List (IntLike T)) (hashSum : BitVec 64) (count : Nat) :
    (chunkView (8 / T.bytes) rng).foldlM hashChunk (hashSum, BitVec.ofNat 64 count) =
      some (hashGroups hashSum (chunkView (8 / T.bytes) rng),
        BitVec.ofNat 64 (count + rng.length)) := by
  induction h : rng.length using Nat.strong_induction_on generalizing rng hashSum count with
  | _ n ih =>
      subst h
      by_cases empty : rng = []
      · subst empty
        simp [chunkView, hashGroups]
      · have pos := groupCount_pos T
        have shorter : (rng.drop (8 / T.bytes)).length < rng.length := by
          have := List.length_pos_iff.2 empty
          rw [List.length_drop]
          omega
        have whole : count + (rng.take (8 / T.bytes)).length + (rng.drop (8 / T.bytes)).length =
            count + rng.length := by
          rw [List.length_take, List.length_drop]
          omega
        rw [chunkView_of_ne_nil pos empty, List.foldlM_cons,
          hashChunk_eq hashSum count _ (List.length_take_le _ _), Option.bind_eq_bind,
          Option.bind_some, ih _ shorter (rng.drop (8 / T.bytes)) _ _ rfl, whole]
        rfl

/-- `HashIntRange_impl` hashes the groups and then the element count. -/
theorem hashIntRange_eq (rng : List (IntLike T)) :
    hashIntRange rng =
      some (mixValue64 [hashGroups 0 (chunkView (8 / T.bytes) rng),
        BitVec.ofNat 64 rng.length]) := by
  have folded := foldlM_hashChunk rng 0 0
  rw [Nat.zero_add] at folded
  rw [hashIntRange, show ((0 : BitVec 64), (0 : BitVec 64)) = (0, BitVec.ofNat 64 0) from rfl,
    folded]
  rfl

/-! ## The element-wise loop -/

/-- One round of the element-wise loop, at the `j`-th element of the group. -/
theorem gatherElement_eq (rng group : List (IntLike T)) (now j : Nat) (i : BitVec 32)
    (short : group.length ≤ 8 / T.bytes) (here : group <+: rng.drop now) (lt : j < group.length)
    (counter : i.toNat = j) :
    gatherElement rng ⟨i, now + j, BitVec.ofNat 64 (value (group.take j))⟩ =
      some ⟨i + 1, now + j + 1, BitVec.ofNat 64 (value (group.take (j + 1)))⟩ := by
  have member : rng[now + j]? = some group[j] := by
    obtain ⟨rest, whole⟩ := here
    rw [← List.getElem?_drop, ← whole, List.getElem?_append_left lt, List.getElem?_eq_getElem lt]
  have taken : (group.take j).length = j := by
    rw [List.length_take]
    omega
  have shifted := orShifted_eq (group.take j) group[j] (group_fits (by omega))
  rw [taken, List.take_append_getElem] at shifted
  simp only [gatherElement, member, Option.bind_some, counter, shifted, Option.map_some]

/-- A loop over a group's length reads the number the group denotes and passes the group. -/
theorem gather_eq (rng group : List (IntLike T)) (now : Nat) (bound : BitVec 64)
    (short : group.length ≤ 8 / T.bytes) (counted : bound.toNat = group.length)
    (here : group <+: rng.drop now) :
    gather rng bound now = some (BitVec.ofNat 64 (value group), now + group.length) := by
  have small : 8 / T.bytes ≤ 8 := Nat.div_le_self _ _
  have compared : ∀ i : BitVec 32, (i.setWidth 64 < bound) ↔ i.toNat < group.length := by
    intro i
    have := i.isLt
    rw [BitVec.lt_def, BitVec.toNat_setWidth, counted, Nat.mod_eq_of_lt (by omega)]
  let I : GatherLocals → Prop := fun s => s.i.toNat ≤ group.length ∧ s.now = now + s.i.toNat ∧
    s.sum1 = BitVec.ofNat 64 (value (group.take s.i.toNat))
  have round : ∀ s : GatherLocals, I s → decide (s.i.setWidth 64 < bound) = true →
      ∃ t, gatherElement rng s = some t ∧ I t ∧ group.length - t.i.toNat < group.length - s.i.toNat := by
    rintro ⟨i, now', sum1⟩ ⟨le, hnow, hsum⟩ going
    simp only at hnow hsum
    subst hnow hsum
    have going : i.toNat < group.length := (compared i).1 (of_decide_eq_true going)
    have advanced : (i + 1).toNat = i.toNat + 1 := by
      rw [BitVec.toNat_add]
      exact Nat.mod_eq_of_lt (by simp; omega)
    refine ⟨_, gatherElement_eq rng group now i.toNat i short here going rfl, ⟨?_, ?_, ?_⟩, ?_⟩
    · show (i + 1).toNat ≤ group.length
      rw [advanced]
      exact going
    · simp only [advanced, Nat.add_assoc]
    · simp only [advanced]
    · show group.length - (i + 1).toNat < group.length - i.toNat
      rw [advanced]
      omega
  obtain ⟨s, ended, ⟨le, hnow, hsum⟩, done⟩ :=
    WhileLoop.run_total round bound.toNat ⟨0, now, 0⟩
      ⟨Nat.zero_le _, rfl, rfl⟩ (by simp [counted])
  rw [decide_eq_false_iff_not, compared] at done
  have all : s.i.toNat = group.length := by omega
  rw [all] at hnow hsum
  simp only [gather, ended, Option.map_some, hnow, hsum, List.take_length]

/-! ## The block copy -/

theorem length_flatMap_objectBytes (ts : List (IntLike T)) :
    (ts.flatMap objectBytes).length = ts.length * T.bytes := by
  induction ts with
  | nil => simp
  | cons t ts ih =>
      rw [List.flatMap_cons, List.length_append, ih, List.length_cons, Nat.succ_mul, Nat.add_comm]
      simp [objectBytes]

theorem drop_flatMap_objectBytes (ts : List (IntLike T)) (n : Nat) :
    (ts.flatMap objectBytes).drop (n * T.bytes) = (ts.drop n).flatMap objectBytes := by
  induction n generalizing ts with
  | zero => simp
  | succ n ih =>
      cases ts with
      | nil => simp
      | cons t ts =>
          rw [Nat.succ_mul, Nat.add_comm, ← List.drop_drop]
          simp only [List.flatMap_cons, List.drop_succ_cons]
          rw [List.drop_left' (by simp [objectBytes]), ih]

theorem ofLittleEndian_objectBytes (ts : List (IntLike T)) :
    ofLittleEndian (ts.flatMap objectBytes) = value ts := by
  have power : 2 ^ T.bits = 256 ^ T.bytes := by
    rw [IntType.bits, Nat.pow_mul]
  induction ts with
  | nil => simp [ofLittleEndian, value]
  | cons t ts ih =>
      have own : ofLittleEndian (objectBytes t) = t.toUnsigned.toNat :=
        ofLittleEndian_littleEndian (power ▸ t.toUnsigned.isLt)
      rw [List.flatMap_cons, ofLittleEndian_append, own, ih, value, toU64_toNat, power]
      simp [objectBytes]

/-- Copying eight bytes reads the number the group stored there denotes. -/
theorem copyWord_eq (rng : List (IntLike T)) (at_ : Nat)
    (inside : at_ + 8 / T.bytes ≤ rng.length) :
    copyWord rng at_ = some (BitVec.ofNat 64 (value ((rng.drop at_).take (8 / T.bytes)))) := by
  have eight : 8 / T.bytes * T.bytes = 8 := by
    rcases T.bytes_cases with h | h | h | h <;> rw [h]
  have whole : ((rng.flatMap objectBytes).drop (at_ * T.bytes)).take 8 =
      ((rng.drop at_).take (8 / T.bytes)).flatMap objectBytes := by
    have split : (rng.drop at_).flatMap objectBytes =
        ((rng.drop at_).take (8 / T.bytes)).flatMap objectBytes ++
          ((rng.drop at_).drop (8 / T.bytes)).flatMap objectBytes := by
      rw [← List.flatMap_append, List.take_append_drop]
    rw [drop_flatMap_objectBytes, split]
    apply List.take_left'
    rw [length_flatMap_objectBytes, List.length_take, List.length_drop,
      Nat.min_eq_left (by omega), eight]
  simp only [copyWord, whole, ofLittleEndian_objectBytes]
  rw [if_pos]
  rw [length_flatMap_objectBytes, List.length_take, List.length_drop,
    Nat.min_eq_left (by omega), eight]

/-! ## The loop over whole words -/

theorem toNat_countPer8 (T : IntType) : (countPer8 T).toNat = 8 / T.bytes := by
  unfold countPer8
  rcases T.bytes_cases with h | h | h | h <;> rw [h] <;> rfl

/-- Clearing the low bits rounds the count down to a multiple of the group size. -/
theorem toNat_wholeCount (T : IntType) (count : BitVec 64) (small : count.toNat < 2 ^ 32) :
    (wholeCount T count).toNat = count.toNat / (8 / T.bytes) * (8 / T.bytes) := by
  have low : (count.setWidth 32).toNat = count.toNat := by
    rw [BitVec.toNat_setWidth, Nat.mod_eq_of_lt small]
  have shifts : ∀ k < 4, ∀ x : BitVec 32, x &&& ~~~(BitVec.ofNat 32 (2 ^ k) - 1) =
      (x >>> k) <<< k := by
    intro k hk x
    apply BitVec.eq_of_getLsbD_eq
    intro i hi
    have mask : ∀ k < 4, ∀ i < 32, (~~~(BitVec.ofNat 32 (2 ^ k) - 1)).getLsbD i = decide (k ≤ i) := by
      decide
    rw [BitVec.getLsbD_and, mask k hk i hi, BitVec.getLsbD_shiftLeft, BitVec.getLsbD_ushiftRight]
    by_cases below : k ≤ i
    · simp [below, hi, Nat.not_lt.2 below]
    · simp [below, Nat.not_le.1 below]
  obtain ⟨k, hk, size⟩ : ∃ k < 4, 8 / T.bytes = 2 ^ k := by
    rcases T.bytes_cases with h | h | h | h <;> rw [h]
    exacts [⟨3, by decide, rfl⟩, ⟨2, by decide, rfl⟩, ⟨1, by decide, rfl⟩, ⟨0, by decide, rfl⟩]
  rw [wholeCount, countPer8, size, shifts k hk, BitVec.toNat_shiftLeft, BitVec.toNat_ushiftRight,
    low, Nat.shiftLeft_eq, Nat.shiftRight_eq_div_pow]
  exact Nat.mod_eq_of_lt (lt_of_le_of_lt (Nat.div_mul_le_self _ _) small)

/-- Where the iterator stands at the word with index `ck`: the block copy never advances it. -/
def iteratorAt (fast : Bool) (ck : Nat) : Nat := if fast then 0 else ck

/-- One whole word, read either way, mixes in the next group. -/
theorem hashWord_eq (fast : Bool) (rng : List (IntLike T)) (ck : BitVec 32) (hashSum : BitVec 64)
    (inside : ck.toNat + 8 / T.bytes ≤ rng.length) :
    hashWord fast rng ⟨ck, iteratorAt fast ck.toNat, hashSum⟩ =
      some ⟨ck + countPer8 T, iteratorAt fast (ck.toNat + 8 / T.bytes),
        mixValue64 [hashSum, BitVec.ofNat 64 (value ((rng.drop ck.toNat).take (8 / T.bytes)))]⟩ := by
  cases fast with
  | true =>
      simp only [hashWord, iteratorAt, if_true, Nat.zero_add, copyWord_eq rng ck.toNat inside,
        Option.map_some]
  | false =>
      have size : ((rng.drop ck.toNat).take (8 / T.bytes)).length = 8 / T.bytes := by
        rw [List.length_take, List.length_drop]
        omega
      have bound : ((countPer8 T).setWidth 64).toNat = 8 / T.bytes := by
        have := (countPer8 T).isLt
        rw [BitVec.toNat_setWidth, toNat_countPer8] at *
        omega
      have gathered := gather_eq rng _ ck.toNat _ (le_of_eq size) (bound.trans size.symm)
        (List.take_prefix _ _)
      simp only [hashWord, iteratorAt, Bool.false_eq_true, if_false, gathered, Option.map_some, size]

/-- The loop over whole words ends before the last partial group, with that group still to hash. -/
theorem wordLoop_eq (fast : Bool) (rng : List (IntLike T)) (chunks : BitVec 32)
    (whole : chunks.toNat = rng.length / (8 / T.bytes) * (8 / T.bytes)) :
    ∃ hashSum, WhileLoop.run (fun s : WordLocals => decide (s.ck < chunks)) (hashWord fast rng)
        chunks.toNat ⟨0, 0, 0⟩ = some ⟨chunks, iteratorAt fast chunks.toNat, hashSum⟩ ∧
      hashGroups hashSum (chunkView (8 / T.bytes) (rng.drop chunks.toNat)) =
        hashGroups 0 (chunkView (8 / T.bytes) rng) := by
  have pos := groupCount_pos T
  have within : chunks.toNat ≤ rng.length := whole ▸ Nat.div_mul_le_self _ _
  let I : WordLocals → Prop := fun s => 8 / T.bytes ∣ s.ck.toNat ∧ s.ck.toNat ≤ chunks.toNat ∧
    s.now = iteratorAt fast s.ck.toNat ∧
    hashGroups s.hashSum (chunkView (8 / T.bytes) (rng.drop s.ck.toNat)) =
      hashGroups 0 (chunkView (8 / T.bytes) rng)
  have round : ∀ s : WordLocals, I s → decide (s.ck < chunks) = true →
      ∃ t, hashWord fast rng s = some t ∧ I t ∧ chunks.toNat - t.ck.toNat < chunks.toNat - s.ck.toNat := by
    rintro ⟨ck, now, hashSum⟩ ⟨divides, le, hnow, hhash⟩ going
    simp only at divides le hnow hhash
    subst hnow
    have lt : ck.toNat < chunks.toNat := by simpa [BitVec.lt_def] using going
    -- both counts are multiples of the group size, so a whole group lies between them
    have room : ck.toNat + 8 / T.bytes ≤ chunks.toNat := by
      have multiple : 8 / T.bytes ∣ chunks.toNat - ck.toNat :=
        Nat.dvd_sub (whole ▸ Nat.dvd_mul_left _ _) divides
      have := Nat.le_of_dvd (by omega) multiple
      omega
    have advanced : (ck + countPer8 T).toNat = ck.toNat + 8 / T.bytes := by
      have := chunks.isLt
      rw [BitVec.toNat_add, toNat_countPer8, Nat.mod_eq_of_lt (by omega)]
    have nonempty : rng.drop ck.toNat ≠ [] := by
      rw [Ne, List.drop_eq_nil_iff]
      omega
    refine ⟨_, hashWord_eq fast rng ck hashSum (by omega), ⟨?_, ?_, ?_, ?_⟩, ?_⟩ <;>
      simp only [advanced]
    · exact Nat.dvd_add divides (Nat.dvd_refl _)
    · exact room
    · rw [← hhash, chunkView_of_ne_nil pos nonempty, List.drop_drop]
      rfl
    · omega
  obtain ⟨⟨ck, now, hashSum⟩, ended, ⟨-, le, hnow, hhash⟩, done⟩ :=
    WhileLoop.run_total round chunks.toNat ⟨0, 0, 0⟩
      ⟨Nat.dvd_zero _, Nat.zero_le _, by cases fast <;> rfl, rfl⟩ (by simp)
  have all : ck = chunks := by
    apply BitVec.eq_of_toNat_eq
    simp only [decide_eq_false_iff_not, BitVec.lt_def] at done le
    omega
  subst all
  exact ⟨hashSum, by rw [ended]; simp only at hnow; rw [hnow], hhash⟩

/-- The extra loop mixes in the last partial group, if there is one. -/
theorem hashRest_eq (fast : Bool) (rng : List (IntLike T)) (count : BitVec 64)
    (hashSum : BitVec 64) (counted : count.toNat = rng.length)
    (whole : (wholeCount T count).toNat = rng.length / (8 / T.bytes) * (8 / T.bytes)) :
    hashRest fast rng count
        ⟨wholeCount T count, iteratorAt fast (wholeCount T count).toNat, hashSum⟩ =
      some (hashGroups hashSum (chunkView (8 / T.bytes)
        (rng.drop (wholeCount T count).toNat))) := by
  have pos := groupCount_pos T
  unfold hashRest
  generalize wholeCount T count = chunks at whole ⊢
  have within : chunks.toNat ≤ rng.length := whole ▸ Nat.div_mul_le_self _ _
  have partial_ : rng.length - chunks.toNat < 8 / T.bytes := by
    have := Nat.div_add_mod rng.length (8 / T.bytes)
    have := Nat.mod_lt rng.length pos
    rw [Nat.mul_comm] at whole
    omega
  have widened : (chunks.setWidth 64).toNat = chunks.toNat := by
    have := chunks.isLt
    rw [BitVec.toNat_setWidth, Nat.mod_eq_of_lt (by omega)]
  by_cases same : chunks.setWidth 64 = count
  · have nothing : rng.drop chunks.toNat = [] := by
      rw [List.drop_eq_nil_iff, ← counted, ← same, widened]
    simp [same, nothing, chunkView, hashGroups]
  · have differ : chunks.toNat ≠ rng.length := by
      intro equal
      exact same (BitVec.eq_of_toNat_eq (by rw [widened, counted, equal]))
    have length : (rng.drop chunks.toNat).length = rng.length - chunks.toNat := List.length_drop
    have nonempty : rng.drop chunks.toNat ≠ [] := by
      rw [Ne, List.drop_eq_nil_iff]
      omega
    have iterator : (if fast = true then iteratorAt fast chunks.toNat + chunks.toNat
        else iteratorAt fast chunks.toNat) = chunks.toNat := by
      cases fast <;> simp [iteratorAt]
    have bound : (count - chunks.setWidth 64).toNat = (rng.drop chunks.toNat).length := by
      rw [BitVec.toNat_sub_of_le (by rw [BitVec.le_def, widened, counted]; exact within), widened,
        counted, length]
    have gathered := gather_eq rng (rng.drop chunks.toNat) chunks.toNat _ (by omega) bound
      (List.prefix_refl _)
    have single : chunkView (8 / T.bytes) (rng.drop chunks.toNat) = [rng.drop chunks.toNat] := by
      have short : (rng.drop chunks.toNat).length ≤ 8 / T.bytes := by omega
      rw [chunkView_of_ne_nil pos nonempty, List.take_of_length_le short,
        List.drop_eq_nil_of_le short]
      simp [chunkView]
    simp only [ne_eq, same, not_false_eq_true, if_true, iterator, gathered, Option.map_some,
      single]
    rfl

/-- Both ways of reading whole words hash the groups and then the element count. -/
theorem hashIntSizedRange_eq (fast : Bool) (rng : List (IntLike T))
    (small : rng.length < 2 ^ 32) :
    hashIntSizedRange fast rng =
      some (mixValue64 [hashGroups 0 (chunkView (8 / T.bytes) rng),
        BitVec.ofNat 64 rng.length]) := by
  have counted : (BitVec.ofNat 64 rng.length).toNat = rng.length := by
    rw [BitVec.toNat_ofNat, Nat.mod_eq_of_lt (by omega)]
  have whole := toNat_wholeCount T (BitVec.ofNat 64 rng.length) (by rwa [counted])
  rw [counted] at whole
  obtain ⟨hashSum, ended, remaining⟩ := wordLoop_eq fast rng _ whole
  simp only [hashIntSizedRange, ended, Option.bind_some,
    hashRest_eq fast rng _ hashSum counted whole, Option.map_some, remaining]

/-! ## The three paths agree -/

/-- **One checksum on every path.**  Chunk iteration, the block copy and the element-wise loop end
without an undefined read or shift and return the same checksum, for every element type and every
range of fewer than `2 ^ 32` elements. -/
theorem hashIntRange_paths_agree (T : IntType) (rng : List (IntLike T))
    (small : rng.length < 2 ^ 32) :
    ∃ checksum, hashIntRange rng = some checksum ∧
      hashIntSizedRange true rng = some checksum ∧
      hashIntSizedRange false rng = some checksum :=
  ⟨_, hashIntRange_eq rng, hashIntSizedRange_eq true rng small,
    hashIntSizedRange_eq false rng small⟩

/-- Three `int16_t` elements, the middle one negative. -/
def shortSample : List (IntLike ⟨.two, true⟩) :=
  [⟨7, by decide, by decide⟩, ⟨-2, by decide, by decide⟩, ⟨300, by decide, by decide⟩]

theorem hashIntRange_paths_agree_shortSample :
    ∃ checksum, hashIntRange shortSample = some checksum ∧
      hashIntSizedRange true shortSample = some checksum ∧
      hashIntSizedRange false shortSample = some checksum :=
  hashIntRange_paths_agree ⟨.two, true⟩ shortSample (by decide)

end Koisyn.Checksum
