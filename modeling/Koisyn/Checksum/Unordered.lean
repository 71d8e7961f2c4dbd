/-
# Koisyn.Checksum.Unordered — when the checksum of an unordered container is one of its contents

The overloads of `GetChecksum` for `const unordered_set &` and `const unordered_map &` add up the
hashes of the elements, so the order of iteration does not matter (`getChecksumSet_perm`,
`getChecksumMap_perm`).  A set that is not const never gets there: the overload for ranges is the better
match, and hashes the elements in the order in which they are iterated, eight bytes at a time.

`getChecksum_unordered_iff` is exact for each number of elements: two calls agree on all sets of that
many elements and all orders of each exactly if both arguments are const, or the set is empty, or both
are not const and there is one element at most.
-/
import Koisyn.Checksum.GetChecksum
import Koisyn.Checksum.LongRange

namespace Koisyn.Checksum

open Koisyn.Theory

set_option autoImplicit false

variable {T : IntType}

/-! ## The calls -/

/-- The argument of a call: its constness and its value category. -/
inductive Argument where
  | constLvalue | lvalue | rvalue
  deriving DecidableEq, Repr

/-- The overload that a call on an `unordered_set` selects. -/
def callGetChecksum (B : Build) (arg : Argument) (rng : UnorderedSet T) : Option (BitVec 64) :=
  match arg with
  | .constLvalue => some (getChecksumSet rng)
  | .lvalue | .rvalue => getChecksum B (.range ⟨true, false⟩ (.int T)) rng.elements

/-- The two calls return the same value on all sets of `n` elements, whatever the orders in which they
are iterated on the two machines. -/
def AgreeOn (T : IntType) (B B' : Build) (arg arg' : Argument) (n : Nat) : Prop :=
  ∀ s s' : UnorderedSet T, s.elements.length = n → s.elements.Perm s'.elements →
    ∃ c, callGetChecksum B arg s = some c ∧ callGetChecksum B' arg' s' = some c

/-- The order of the elements does not get into either value, nor the choice between the two. -/
def OrderFree (arg arg' : Argument) (n : Nat) : Prop :=
  arg = .constLvalue ∧ arg' = .constLvalue ∨ n = 0 ∨
    arg ≠ .constLvalue ∧ arg' ≠ .constLvalue ∧ n ≤ 1

instance (arg arg' : Argument) (n : Nat) : Decidable (OrderFree arg arg' n) :=
  inferInstanceAs (Decidable (_ ∨ _ ∨ _))

/-! ## The sums -/

/-- A const set has one checksum in all orders. -/
theorem getChecksumSet_perm {s s' : UnorderedSet T} (same : s.elements.Perm s'.elements) :
    getChecksumSet s = getChecksumSet s' := by
  simp only [getChecksumSet, foldl_add_eq_sum, same.length_eq, (same.map hashConverted).sum_eq]

/-- A const map has one checksum in all orders. -/
theorem getChecksumMap_perm {K V : IntType} {m m' : UnorderedMap K V}
    (same : m.entries.Perm m'.entries) : getChecksumMap m = getChecksumMap m' := by
  simp only [getChecksumMap, add_assoc, foldl_add_eq_sum, same.length_eq,
    (same.map fun e => hashConverted e.1 + hashConverted e.2).sum_eq]

/-! ## What the calls return -/

/-- What the overload for ranges returns, if it returns. -/
theorem hash_of_call {B : Build} {arg : Argument} (forwarded : arg ≠ .constLvalue)
    {s : UnorderedSet T} (counted : s.elements.length < 2 ^ 64) {c : BitVec 64}
    (returned : callGetChecksum B arg s = some c) :
    c = mixValue64 [hashGroups 0 (chunkView (8 / T.bytes) s.elements),
      BitVec.ofNat 64 s.elements.length] := by
  have ranged : hashRangeOfInts B ⟨true, false⟩ s.elements = some c := by
    cases arg with
    | constLvalue => exact absurd rfl forwarded
    | lvalue => exact returned
    | rvalue => exact returned
  by_cases small : s.elements.length < 2 ^ 32
  · rw [hashRangeOfInts_eq B _ small] at ranged
    exact (Option.some.inj ranged).symm
  · unfold hashRangeOfInts at ranged
    simp only [if_true] at ranged
    split at ranged
    · rw [hashIntRange_eq] at ranged
      exact (Option.some.inj ranged).symm
    · rw [hashIntSizedRange_undefined _ (Nat.le_of_not_lt small) counted] at ranged
      cases ranged

theorem call_of_hash (B : Build) {arg : Argument} (forwarded : arg ≠ .constLvalue)
    {s : UnorderedSet T} (small : s.elements.length < 2 ^ 32) :
    callGetChecksum B arg s = some (mixValue64 [hashGroups 0 (chunkView (8 / T.bytes) s.elements),
      BitVec.ofNat 64 s.elements.length]) := by
  have ranged := hashRangeOfInts_eq B ⟨true, false⟩ small
  cases arg with
  | constLvalue => exact absurd rfl forwarded
  | lvalue => exact ranged
  | rvalue => exact ranged

/-! ## Sets that tell orders and overloads apart -/

/-- The `k`-th value of the type, from the lowest. -/
def valueAt (T : IntType) (k : Nat) (inside : k < 2 ^ T.bits) : IntLike T where
  val := T.lowest + k
  lowest_le := by omega
  le_highest := by
    have span : T.highest = T.lowest + 2 ^ T.bits - 1 := by
      obtain ⟨size, signed⟩ := T
      cases size <;> cases signed <;> rfl
    have less : (k : Int) < 2 ^ T.bits := by exact_mod_cast inside
    omega

theorem valueAt_inj {j k : Nat} {insideJ : j < 2 ^ T.bits} {insideK : k < 2 ^ T.bits} :
    valueAt T j insideJ = valueAt T k insideK ↔ j = k := by
  constructor
  · intro same
    have val := congrArg IntLike.val same
    simp only [valueAt] at val
    omega
  · rintro rfl
    rfl

/-- The first `n` values of the type. -/
def firstValues (T : IntType) (n : Nat) (enough : n ≤ 2 ^ T.bits) : List (IntLike T) :=
  List.ofFn fun k : Fin n => valueAt T k (k.isLt.trans_le enough)

theorem nodup_firstValues {n : Nat} (enough : n ≤ 2 ^ T.bits) : (firstValues T n enough).Nodup := by
  refine List.nodup_ofFn.2 fun j k same => ?_
  exact Fin.ext (valueAt_inj.1 same)

/-- A set of `n` elements, iterated from the lowest. -/
def ascending (T : IntType) (n : Nat) (enough : n ≤ 2 ^ T.bits) : UnorderedSet T :=
  ⟨firstValues T n enough, nodup_firstValues enough⟩

/-- Digits that are exchanged denote another number. -/
theorem value_swap_ne {a b : IntLike T} (differ : a ≠ b) (rest : List (IntLike T)) :
    value (a :: b :: rest) ≠ value (b :: a :: rest) := by
  intro same
  have low := congrArg (· % 2 ^ T.bits) same
  simp only [value, Nat.add_mul_mod_self_left, Nat.mod_eq_of_lt (toU64_lt a),
    Nat.mod_eq_of_lt (toU64_lt b)] at low
  exact differ (toU64_injective (BitVec.eq_of_toNat_eq low))

/-- The hash of two words, and of the two exchanged. -/
theorem mix_swap_ne : ∀ signed : Bool,
    mixValue64 [mixValue64 [0, BitVec.ofInt 64 (IntType.lowest ⟨.eight, signed⟩)],
        BitVec.ofInt 64 (IntType.lowest ⟨.eight, signed⟩ + 1)] ≠
      mixValue64 [mixValue64 [0, BitVec.ofInt 64 (IntType.lowest ⟨.eight, signed⟩ + 1)],
        BitVec.ofInt 64 (IntType.lowest ⟨.eight, signed⟩)] := by
  decide

/-- The lowest element alone, hashed by either overload. -/
theorem mix_single_ne : ∀ (size : SizeOf) (signed : Bool),
    mixValue64 [hash64 1, 0 + hash64 (BitVec.ofInt 64 (IntType.lowest ⟨size, signed⟩))] ≠
      mixValue64 [mixValue64 [0, (BitVec.ofInt (IntType.bits ⟨size, signed⟩)
        (IntType.lowest ⟨size, signed⟩)).setWidth 64], 1] := by
  intro size signed
  cases size <;> cases signed <;> decide

theorem toU64_eq_setWidth (a : IntLike T) :
    toU64WithoutSignExtension a = a.toUnsigned.setWidth 64 := by
  apply BitVec.eq_of_toNat_eq
  have widths : 2 ^ T.bits ≤ 2 ^ 64 := by
    unfold IntType.bits IntType.bytes
    cases T.size <;> decide
  rw [toU64_toNat, BitVec.toNat_setWidth, Nat.mod_eq_of_lt (a.toUnsigned.isLt.trans_le widths)]

/-- A single element is a word of its own. -/
theorem ofNat_value_singleton (a : IntLike T) :
    BitVec.ofNat 64 (value [a]) = toU64WithoutSignExtension a := by
  rw [value, value, Nat.mul_zero, Nat.add_zero, BitVec.ofNat_toNat, BitVec.setWidth_eq]

/-- **The two lowest values exchanged at the front leave another hash.** -/
theorem hashGroups_swap_ne {zero : 0 < 2 ^ T.bits} {one : 1 < 2 ^ T.bits} (rest : List (IntLike T)) :
    hashGroups 0 (chunkView (8 / T.bytes) (valueAt T 0 zero :: valueAt T 1 one :: rest)) ≠
      hashGroups 0 (chunkView (8 / T.bytes) (valueAt T 1 one :: valueAt T 0 zero :: rest)) := by
  have differ : valueAt T 0 zero ≠ valueAt T 1 one := fun same => absurd (valueAt_inj.1 same) (by decide)
  by_cases alone : 8 / T.bytes = 1
  · -- each of the two is a word
    obtain ⟨size, signed⟩ := T
    obtain rfl : size = .eight := by
      cases size <;> first | rfl | exact absurd alone (by cases signed <;> decide)
    have whole : ∀ a : IntLike ⟨.eight, signed⟩,
        toU64WithoutSignExtension a = BitVec.ofInt 64 a.val := fun _ => rfl
    have split : ∀ a b : IntLike ⟨.eight, signed⟩,
        hashGroups 0 (chunkView (8 / IntType.bytes ⟨.eight, signed⟩) (a :: b :: rest)) =
          hashGroups (mixValue64 [mixValue64 [0, BitVec.ofInt 64 a.val], BitVec.ofInt 64 b.val])
            (chunkView 1 rest) := by
      intro a b
      rw [alone, chunkView_of_ne_nil (by decide) (by simp), List.take_one, List.drop_one,
        List.tail_cons, chunkView_of_ne_nil (by decide) (by simp), List.take_one, List.drop_one]
      simp only [List.head?_cons, Option.toList_some, List.tail_cons, hashGroups, List.foldl_cons,
        ofNat_value_singleton, whole]
    rw [split, split]
    intro same
    have words := hashGroups_injective _ same
    simp only [valueAt, Nat.cast_zero, Nat.cast_one, add_zero] at words
    exact mix_swap_ne signed words
  · -- both are in the first word
    obtain ⟨m, room⟩ : ∃ m, 8 / T.bytes = m + 2 := by
      have pos := groupCount_pos T
      exact ⟨8 / T.bytes - 2, by omega⟩
    have split : ∀ a b : IntLike T, hashGroups 0 (chunkView (8 / T.bytes) (a :: b :: rest)) =
        hashGroups (mixValue64 [0, BitVec.ofNat 64 (value (a :: b :: rest.take m))])
          (chunkView (8 / T.bytes) (rest.drop m)) := by
      intro a b
      rw [chunkView_of_ne_nil (groupCount_pos T) (by simp), room]
      rfl
    have short : ∀ a b : IntLike T, (a :: b :: rest.take m).length ≤ 8 / T.bytes := by
      intro a b
      rw [room, List.length_cons, List.length_cons, List.length_take]
      omega
    rw [split, split]
    intro same
    exact mixGroup_ne (short _ _) (short _ _) (value_swap_ne differ _) 0 (hashGroups_injective _ same)

/-! ## The exact condition -/

/-- Sets of two elements or more tell whether the order of the elements gets into a value. -/
theorem exists_orders {n : Nat} (enough : n + 2 ≤ 2 ^ T.bits) :
    ∃ s s' : UnorderedSet T, s.elements.length = n + 2 ∧ s.elements.Perm s'.elements ∧
      hashGroups 0 (chunkView (8 / T.bytes) s.elements) ≠
        hashGroups 0 (chunkView (8 / T.bytes) s'.elements) := by
  obtain ⟨rest, split⟩ : ∃ rest, firstValues T (n + 2) enough =
      valueAt T 0 (by omega) :: valueAt T 1 (by omega) :: rest := by
    rw [firstValues, List.ofFn_succ, List.ofFn_succ]
    exact ⟨_, rfl⟩
  have nodup := nodup_firstValues enough
  have length : (firstValues T (n + 2) enough).length = n + 2 := List.length_ofFn
  rw [split] at nodup length
  have swapped := List.Perm.swap (valueAt T 1 (by omega)) (valueAt T 0 (by omega)) rest
  exact ⟨⟨_, nodup⟩, ⟨_, swapped.nodup_iff.1 nodup⟩, length, swapped, hashGroups_swap_ne rest⟩

/-- A set of one element tells the two overloads apart. -/
theorem exists_single {one : 1 ≤ 2 ^ T.bits} :
    getChecksumSet (ascending T 1 one) ≠
      mixValue64 [hashGroups 0 (chunkView (8 / T.bytes) (ascending T 1 one).elements), 1] := by
  have elements : (ascending T 1 one).elements = [valueAt T 0 one] := List.ofFn_succ
  have word : hashGroups 0 (chunkView (8 / T.bytes) [valueAt T 0 one]) =
      mixValue64 [0, (BitVec.ofInt T.bits T.lowest).setWidth 64] := by
    have short : [valueAt T 0 one].length ≤ 8 / T.bytes := groupCount_pos T
    rw [chunkView_of_ne_nil (groupCount_pos T) (by simp), List.take_of_length_le short,
      List.drop_eq_nil_of_le short, chunkView, hashGroups, List.foldl_cons, List.foldl_nil,
      ofNat_value_singleton, toU64_eq_setWidth, IntLike.toUnsigned]
    simp only [valueAt, Nat.cast_zero, add_zero]
  have sum : getChecksumSet (ascending T 1 one) =
      mixValue64 [hash64 1, 0 + hash64 (BitVec.ofInt 64 T.lowest)] := by
    simp only [getChecksumSet, elements, List.length_singleton, List.foldl_cons, List.foldl_nil,
      hashConverted, valueAt, Nat.cast_zero, add_zero]
    rfl
  rw [sum, elements, word]
  exact mix_single_ne T.size T.signed

/-- A forwarded and a const call agree on the empty set only. -/
theorem eq_zero_of_agreeOn {B B' : Build} {arg : Argument} (forwarded : arg ≠ .constLvalue) {n : Nat}
    (counted : n < 2 ^ 64) (enough : n ≤ 2 ^ T.bits)
    (agree : AgreeOn T B B' .constLvalue arg n) : n = 0 := by
  have same : ∀ s s' : UnorderedSet T, s.elements.length = n → s.elements.Perm s'.elements →
      getChecksumSet s = mixValue64 [hashGroups 0 (chunkView (8 / T.bytes) s'.elements),
        BitVec.ofNat 64 n] := by
    intro s s' length perm
    obtain ⟨c, sum, returned⟩ := agree s s' length perm
    have size : s'.elements.length = n := perm.length_eq ▸ length
    have hash := hash_of_call forwarded (size.symm ▸ counted) returned
    rw [size] at hash
    exact (Option.some.inj sum).trans hash
  match n with
  | 0 => rfl
  | 1 =>
      have length : (ascending T 1 enough).elements.length = 1 := List.length_ofFn
      exact absurd (same _ _ length (List.Perm.refl _)) exists_single
  | n + 2 =>
      obtain ⟨s, s', length, perm, differ⟩ := exists_orders enough
      have equal := (same s s length (List.Perm.refl _)).symm.trans (same s s' length perm)
      exact absurd (mixValue64_injective_left _ equal) differ

/-- Two forwarded calls agree on sets of one element at most. -/
theorem le_one_of_agreeOn {B B' : Build} {arg arg' : Argument} (forwarded : arg ≠ .constLvalue)
    (forwarded' : arg' ≠ .constLvalue) {n : Nat} (counted : n < 2 ^ 64) (enough : n ≤ 2 ^ T.bits)
    (agree : AgreeOn T B B' arg arg' n) : n ≤ 1 := by
  match n with
  | 0 | 1 => decide
  | n + 2 =>
      obtain ⟨s, s', length, perm, differ⟩ := exists_orders enough
      obtain ⟨c, returned, returned'⟩ := agree s s' length perm
      have size : s'.elements.length = n + 2 := perm.length_eq ▸ length
      have hash := hash_of_call forwarded (length.symm ▸ counted) returned
      have hash' := hash_of_call forwarded' (size.symm ▸ counted) returned'
      rw [length] at hash
      rw [size] at hash'
      exact absurd (mixValue64_injective_left _ (hash.symm.trans hash')) differ

theorem agreeOn_symm {B B' : Build} {arg arg' : Argument} {n : Nat}
    (agree : AgreeOn T B B' arg arg' n) : AgreeOn T B' B arg' arg n := by
  intro s s' length perm
  obtain ⟨c, here, there⟩ := agree s' s (perm.length_eq ▸ length) perm.symm
  exact ⟨c, there, here⟩

/-- The empty set has one checksum; the hash of its size is zero, like the sum over its words. -/
theorem call_of_empty (B : Build) (arg : Argument) {s : UnorderedSet T} (empty : s.elements = []) :
    callGetChecksum B arg s = some (mixValue64 [0, 0]) := by
  by_cases const : arg = .constLvalue
  · subst const
    have size : hash64 0 = 0 := by decide
    simp only [callGetChecksum, getChecksumSet, empty, List.length_nil, List.foldl_nil]
    exact congrArg (fun h => some (mixValue64 [h, 0])) size
  · rw [call_of_hash B const (by simp [empty]), empty, chunkView]
    rfl

/-- Forwarded calls agree on one order, on all machines. -/
theorem call_same_order (B B' : Build) {arg arg' : Argument} (forwarded : arg ≠ .constLvalue)
    (forwarded' : arg' ≠ .constLvalue) {s s' : UnorderedSet T} (same : s'.elements = s.elements)
    (small : s.elements.length < 2 ^ 32) :
    ∃ c, callGetChecksum B arg s = some c ∧ callGetChecksum B' arg' s' = some c := by
  refine ⟨_, call_of_hash B forwarded small, ?_⟩
  rw [call_of_hash B' forwarded' (by rwa [same]), same]

/-- Sets that no order and no overload tells apart. -/
theorem agreeOn_of_orderFree (B B' : Build) {arg arg' : Argument} {n : Nat}
    (free : OrderFree arg arg' n) : AgreeOn T B B' arg arg' n := by
  intro s s' length perm
  rcases free with ⟨rfl, rfl⟩ | rfl | ⟨forwarded, forwarded', atMost⟩
  · exact ⟨_, rfl, congrArg some (getChecksumSet_perm perm.symm)⟩
  · have empty : s.elements = [] := List.length_eq_zero_iff.1 length
    have empty' : s'.elements = [] := List.nil_perm.1 (empty ▸ perm)
    exact ⟨_, call_of_empty B arg empty, call_of_empty B' arg' empty'⟩
  · refine call_same_order B B' forwarded forwarded' ?_ (by omega)
    rcases Nat.le_one_iff_eq_zero_or_eq_one.1 (length.le.trans atMost) with none_ | one
    · have empty := List.length_eq_zero_iff.1 none_
      rw [empty] at perm ⊢
      exact List.nil_perm.1 perm
    · obtain ⟨a, single⟩ := List.length_eq_one_iff.1 one
      rw [single] at perm ⊢
      exact List.singleton_perm.1 perm |>.symm

/-- **When the checksum of an unordered container depends on nothing but its contents.**  For sets of
`n` elements: exactly if both arguments are const, or there are none, or neither is const and there is
one element at most.  For const maps: always. -/
theorem getChecksum_unordered_iff (T : IntType) (B B' : Build) (arg arg' : Argument) {n : Nat}
    (counted : n < 2 ^ 64) (enough : n ≤ 2 ^ T.bits) :
    (AgreeOn T B B' arg arg' n ↔ OrderFree arg arg' n) ∧
      ∀ (K V : IntType) (m m' : UnorderedMap K V), m.entries.Perm m'.entries →
        getChecksumMap m = getChecksumMap m' := by
  refine ⟨⟨fun agree => ?_, agreeOn_of_orderFree B B'⟩, fun K V m m' => getChecksumMap_perm⟩
  by_cases const : arg = .constLvalue <;> by_cases const' : arg' = .constLvalue
  · exact .inl ⟨const, const'⟩
  · subst const
    exact .inr (.inl (eq_zero_of_agreeOn const' counted enough agree))
  · subst const'
    exact .inr (.inl (eq_zero_of_agreeOn const counted enough (agreeOn_symm agree)))
  · exact .inr (.inr ⟨const, const', le_one_of_agreeOn const const' counted enough agree⟩)

/-- Sets of three bytes, const and not, and a map of two. -/
theorem getChecksum_unordered_sample :
    AgreeOn ⟨.one, false⟩ sampleBuild sampleBuild .constLvalue .constLvalue 3 ∧
      ¬ AgreeOn ⟨.one, false⟩ sampleBuild sampleBuild .lvalue .lvalue 3 ∧
      getChecksumMap ⟨[(sampleByte 1, sampleByte 2), (sampleByte 3, sampleByte 4)], by decide⟩ =
        getChecksumMap ⟨[(sampleByte 3, sampleByte 4), (sampleByte 1, sampleByte 2)], by decide⟩ := by
  have sample (arg : Argument) := getChecksum_unordered_iff ⟨.one, false⟩ sampleBuild sampleBuild arg arg
    (by decide : 3 < 2 ^ 64) (by decide)
  refine ⟨(sample .constLvalue).1.2 (.inl ⟨rfl, rfl⟩), ?_, ?_⟩
  · intro agree
    exact absurd ((sample .lvalue).1.1 agree) (by decide)
  · apply (sample .lvalue).2
    exact List.Perm.swap _ _ _

/-- A set of two bytes, iterated from the lower one, and from the higher one. -/
def lowerFirst : UnorderedSet ⟨.one, false⟩ := ⟨[sampleByte 1, sampleByte 2], by decide⟩

def higherFirst : UnorderedSet ⟨.one, false⟩ := ⟨[sampleByte 2, sampleByte 1], by decide⟩

/-- **Two orders of a set that is not const have two checksums**, and the const call returns a third. -/
theorem nonConst_checksum_varies :
    lowerFirst.elements.Perm higherFirst.elements ∧
      callGetChecksum sampleBuild .lvalue lowerFirst ≠
        callGetChecksum sampleBuild .lvalue higherFirst ∧
      callGetChecksum sampleBuild .constLvalue lowerFirst ≠
        callGetChecksum sampleBuild .lvalue lowerFirst := by
  decide

end Koisyn.Checksum
