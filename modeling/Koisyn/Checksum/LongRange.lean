/-
# Koisyn.Checksum.LongRange — sized ranges of every size

`HashIntSizedRange_impl` gets the number of elements as 64 bits and cuts it to 32 for the number of
those in whole words.  `hashIntSizedRange_sound_iff` says when that is sound: exactly below `2 ^ 32`
elements.  From there on the extra loop for the last elements is left with `2 ^ 32` of them or more; its
32-bit counter never gets there, and before long its shift amount is the width of the word
(`hashIntSizedRange_undefined`).
-/
import Koisyn.Checksum.IntRange

namespace Koisyn.Checksum

open Koisyn.Theory

set_option autoImplicit false

variable {T : IntType}

/-! ## Ranges that are too long -/

/-- The loop over the last elements shifts too far when there are more of them than a word has. -/
theorem gather_undefined (rng : List (IntLike T)) {bound : BitVec 64} (now : Nat)
    (many : 8 / T.bytes < bound.toNat) : gather rng bound now = none := by
  have small : 8 / T.bytes ≤ 8 := Nat.div_le_self _ _
  have looping : WhileLoop.run (fun s : GatherLocals => decide (s.i.setWidth 64 < bound))
      (gatherElement rng) bound.toNat ⟨0, now, 0⟩ = none := by
    apply WhileLoop.run_eq_none (I := fun s => s.i.toNat ≤ 8 / T.bytes)
    · intro s within
      have := s.i.isLt
      rw [decide_eq_true_iff, BitVec.lt_def, BitVec.toNat_setWidth, Nat.mod_eq_of_lt (by omega)]
      omega
    · intro s t within taken
      obtain ⟨elm, -, shifted⟩ := Option.bind_eq_some_iff.1 taken
      obtain ⟨sum1, defined, rfl⟩ := Option.map_eq_some_iff.1 shifted
      have shift : T.bytes * 8 * s.i.toNat < 64 := by
        unfold orShifted at defined
        split at defined
        · assumption
        · cases defined
      show (s.i + 1).toNat ≤ 8 / T.bytes
      have next : (s.i + 1).toNat = s.i.toNat + 1 := by
        rw [BitVec.toNat_add]
        exact Nat.mod_eq_of_lt (by simp; omega)
      rw [next]
      rcases T.bytes_cases with h | h | h | h <;> rw [h] at shift within ⊢ <;> omega
    · exact Nat.zero_le _
  rw [gather, looping, Option.map_none]

/-- The number of elements in whole words is cut to 32 bits, and the loop over the rest is left with
all the others. -/
theorem hashIntSizedRange_undefined (fast : Bool) {rng : List (IntLike T)}
    (large : 2 ^ 32 ≤ rng.length) (counted : rng.length < 2 ^ 64) :
    hashIntSizedRange fast rng = none := by
  have count : (BitVec.ofNat 64 rng.length).toNat = rng.length := by
    rw [BitVec.toNat_ofNat, Nat.mod_eq_of_lt counted]
  have cut : (wholeCount T (BitVec.ofNat 64 rng.length)).toNat ≤ rng.length % 2 ^ 32 := by
    rw [wholeCount, BitVec.toNat_and, BitVec.toNat_setWidth, count]
    exact Nat.and_le_left
  have widened : ((wholeCount T (BitVec.ofNat 64 rng.length)).setWidth 64).toNat =
      (wholeCount T (BitVec.ofNat 64 rng.length)).toNat := by
    rw [BitVec.toNat_setWidth, Nat.mod_eq_of_lt (by omega)]
  have differ : (wholeCount T (BitVec.ofNat 64 rng.length)).setWidth 64 ≠
      BitVec.ofNat 64 rng.length := by
    intro same
    have equal := congrArg BitVec.toNat same
    rw [widened, count] at equal
    omega
  have many : 8 / T.bytes < (BitVec.ofNat 64 rng.length -
      (wholeCount T (BitVec.ofNat 64 rng.length)).setWidth 64).toNat := by
    have small : 8 / T.bytes ≤ 8 := Nat.div_le_self _ _
    rw [BitVec.toNat_sub_of_le (by rw [BitVec.le_def, widened, count]; omega), widened, count]
    omega
  rw [hashIntSizedRange]
  refine Option.bind_eq_none_iff.2 fun s _ => ?_
  have nothing : ∀ now, gather rng (BitVec.ofNat 64 rng.length -
      (wholeCount T (BitVec.ofNat 64 rng.length)).setWidth 64) now = none :=
    fun now => gather_undefined rng now many
  simp only [hashRest, if_pos differ, nothing, Option.map_none]

/-! ## Groups -/

/-- Every element is in one group, and the groups are in order. -/
theorem flatten_chunkView {n : Nat} (pos : 0 < n) (rng : List (IntLike T)) :
    (chunkView n rng).flatten = rng := by
  induction h : rng.length using Nat.strong_induction_on generalizing rng with
  | _ m ih =>
      subst h
      by_cases empty : rng = []
      · simp [empty, chunkView]
      · have shorter : (rng.drop n).length < rng.length := by
          have := List.length_pos_iff.2 empty
          rw [List.length_drop]
          omega
        rw [chunkView_of_ne_nil pos empty, List.flatten_cons, ih _ shorter _ rfl,
          List.take_append_drop]

/-- A group has an element, and at most as many as a word has. -/
theorem length_of_mem_chunkView {n : Nat} (pos : 0 < n) (rng : List (IntLike T)) :
    ∀ group ∈ chunkView n rng, group ≠ [] ∧ group.length ≤ n := by
  induction h : rng.length using Nat.strong_induction_on generalizing rng with
  | _ m ih =>
      subst h
      by_cases empty : rng = []
      · simp [empty, chunkView]
      · have positive := List.length_pos_iff.2 empty
        have shorter : (rng.drop n).length < rng.length := by
          rw [List.length_drop]
          omega
        rw [chunkView_of_ne_nil pos empty]
        intro group member
        rcases List.mem_cons.1 member with rfl | later
        · refine ⟨?_, List.length_take_le _ _⟩
          rw [ne_eq, ← List.length_eq_zero_iff, List.length_take]
          omega
        · exact ih _ shorter _ rfl group later

/-! ## When the loops are sound -/

/-- **Sound hashing of a sized range.**  The loops end, and with the hash of groups that hold every
element once, each group the elements of one word.  Neither the number of elements in whole words nor
that of the rest, which bounds the counter of the extra loop, is cut, and the counter of the loop over
whole words does not wrap. -/
structure Sound (fast : Bool) (rng : List (IntLike T)) : Prop where
  folded : ∃ groups : List (List (IntLike T)), groups.flatten = rng ∧
    (∀ group ∈ groups, group ≠ [] ∧ group.length ≤ 8 / T.bytes) ∧
    hashIntSizedRange fast rng =
      some (mixValue64 [hashGroups 0 groups, BitVec.ofNat 64 rng.length])
  whole : (wholeCount T (BitVec.ofNat 64 rng.length)).toNat =
    rng.length / (8 / T.bytes) * (8 / T.bytes)
  rest : (BitVec.ofNat 64 rng.length -
    (wholeCount T (BitVec.ofNat 64 rng.length)).setWidth 64).toNat = rng.length % (8 / T.bytes)
  counter : ∀ s : WordLocals,
    WhileLoop.Reached (fun s => decide (s.ck < wholeCount T (BitVec.ofNat 64 rng.length)))
      (hashWord fast rng) ⟨0, 0, 0⟩ s →
    s.ck < wholeCount T (BitVec.ofNat 64 rng.length) →
    (s.ck + countPer8 T).toNat = s.ck.toNat + 8 / T.bytes

/-- A multiple of the group size below another is a whole group below it. -/
theorem advance_word {ck chunks : BitVec 32} (divides : 8 / T.bytes ∣ ck.toNat)
    (multiple : 8 / T.bytes ∣ chunks.toNat) (going : ck < chunks) :
    (ck + countPer8 T).toNat = ck.toNat + 8 / T.bytes := by
  have lt : ck.toNat < chunks.toNat := BitVec.lt_def.1 going
  have room := Nat.le_of_dvd (by omega) (Nat.dvd_sub multiple divides)
  have := chunks.isLt
  rw [BitVec.toNat_add, toNat_countPer8, Nat.mod_eq_of_lt (by omega)]

theorem sound_of_small (fast : Bool) {rng : List (IntLike T)} (small : rng.length < 2 ^ 32) :
    Sound fast rng := by
  have pos := groupCount_pos T
  have counted : (BitVec.ofNat 64 rng.length).toNat = rng.length := by
    rw [BitVec.toNat_ofNat, Nat.mod_eq_of_lt (by omega)]
  have whole := toNat_wholeCount T (BitVec.ofNat 64 rng.length) (by rwa [counted])
  rw [counted] at whole
  refine ⟨?_, whole, ?_, ?_⟩
  · exact ⟨_, flatten_chunkView pos rng, length_of_mem_chunkView pos rng,
      hashIntSizedRange_eq fast rng small⟩
  · have parts := Nat.div_add_mod' rng.length (8 / T.bytes)
    have widened : ((wholeCount T (BitVec.ofNat 64 rng.length)).setWidth 64).toNat =
        rng.length / (8 / T.bytes) * (8 / T.bytes) := by
      rw [BitVec.toNat_setWidth, whole, Nat.mod_eq_of_lt (by omega)]
    rw [BitVec.toNat_sub_of_le (by rw [BitVec.le_def, widened, counted]; omega), widened, counted]
    omega
  · have multiple : 8 / T.bytes ∣ (wholeCount T (BitVec.ofNat 64 rng.length)).toNat :=
      whole ▸ Nat.dvd_mul_left _ _
    intro s reached going
    refine advance_word (reached.invariant (I := fun s => 8 / T.bytes ∣ s.ck.toNat) ?_ ?_) multiple
      going
    · intro s t divides going taken
      obtain ⟨w, -, rfl⟩ := Option.map_eq_some_iff.1 taken
      rw [advance_word divides multiple (of_decide_eq_true going)]
      exact Nat.dvd_add divides (Nat.dvd_refl _)
    · exact Nat.dvd_zero _

theorem unsound_of_large (fast : Bool) {rng : List (IntLike T)} (large : 2 ^ 32 ≤ rng.length)
    (counted : rng.length < 2 ^ 64) : ¬ Sound fast rng := by
  intro sound
  obtain ⟨groups, -, -, hashed⟩ := sound.folded
  rw [hashIntSizedRange_undefined fast large counted] at hashed
  cases hashed

/-- **When the hashing of a sized range is sound**: exactly below `2 ^ 32` elements. -/
theorem hashIntSizedRange_sound_iff (fast : Bool) (rng : List (IntLike T))
    (counted : rng.length < 2 ^ 64) : Sound fast rng ↔ rng.length < 2 ^ 32 := by
  refine ⟨?_, sound_of_small fast⟩
  intro sound
  by_contra large
  exact unsound_of_large fast (Nat.le_of_not_lt large) counted sound

/-- Three elements, copied a word at a time. -/
theorem hashIntSizedRange_sound_short : Sound true shortSample ↔ shortSample.length < 2 ^ 32 :=
  hashIntSizedRange_sound_iff true shortSample (by decide)

/-- A zero byte. -/
def zeroByte : IntLike ⟨.one, false⟩ := ⟨0, by decide, by decide⟩

/-- **Four gibibytes of zeroes are not hashed.** -/
theorem fourGibibytes_unsound : ¬ Sound true (List.replicate (2 ^ 32) zeroByte) := by
  apply unsound_of_large
  · rw [List.length_replicate]
  · rw [List.length_replicate]
    decide

end Koisyn.Checksum
