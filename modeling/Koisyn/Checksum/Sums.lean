/-
# Koisyn.Checksum.Sums — what goes into the sums, and what does not come out of them

The checksums of unordered containers and of tuples are hashes of a sum.

What goes in: `GetChecksum` of an integer widens it with zeroes, but the loops over unordered containers
hand the integer itself to `Hash64`, and the conversion of the argument extends its sign.
`unordered_sums_iff`: the two agree exactly off the negative integers of fewer than eight bytes.

What does not come out: a sum keeps no places.  `exchange_unseen`: two components of a tuple, the values
of two keys of a map, and the key and the value of a single entry can be exchanged and the checksum is
the same.
-/
import Koisyn.Checksum.GetChecksum
import Mathlib.Data.Fin.VecNotation
import Mathlib.Data.List.FinRange

namespace Koisyn.Checksum

set_option autoImplicit false

variable {T K V : IntType}

/-! ## What an integer contributes -/

/-- `GetChecksum` of an integer. -/
def intChecksum (i : IntLike T) : BitVec 64 := hash64 (toU64WithoutSignExtension i)

theorem getChecksum_int (B : Build) (i : IntLike T) :
    getChecksum B (.int T) i = some (intChecksum i) := rfl

/-- A negative integer of fewer than 64 bits: its conversion to `uint64_t` extends the sign. -/
def SignExtended (i : IntLike T) : Prop := i.val < 0 ∧ T.size ≠ .eight

instance (i : IntLike T) : Decidable (SignExtended i) := inferInstanceAs (Decidable (_ ∧ _))

theorem ofInt_eq_toU64_iff (i : IntLike T) :
    BitVec.ofInt 64 i.val = toU64WithoutSignExtension i ↔ ¬ SignExtended i := by
  obtain ⟨val, above, below⟩ := i
  rw [BitVec.toNat_eq, toU64_toNat, IntLike.toUnsigned, BitVec.toNat_ofInt, BitVec.toNat_ofInt]
  obtain ⟨size, signed⟩ := T
  cases size <;> cases signed <;>
    simp [SignExtended, IntType.lowest, IntType.highest, IntType.bits, IntType.bytes,
      SizeOf.bytes] at above below ⊢ <;>
    omega

/-- The loops over unordered containers hash an integer as `GetChecksum` does, unless its sign is
extended. -/
theorem hashConverted_eq_iff (i : IntLike T) :
    hashConverted i = intChecksum i ↔ ¬ SignExtended i := by
  rw [← ofInt_eq_toU64_iff]
  exact hash64_injective.eq_iff

theorem map_hashConverted_eq {l : List (IntLike T)}
    (none_ : l.countP (fun i => SignExtended i) = 0) :
    l.map hashConverted = l.map intChecksum := by
  refine List.map_congr_left fun i inside => (hashConverted_eq_iff i).2 ?_
  simpa using List.countP_eq_zero.1 none_ i inside

/-- The same for a part of every entry. -/
theorem map_part_eq {α : Type} {part : α → IntLike T} {entries : List α}
    (each : ∀ e ∈ entries, hashConverted (part e) = intChecksum (part e)) :
    (entries.map part).map hashConverted = (entries.map part).map intChecksum := by
  rw [List.map_map, List.map_map]
  exact List.map_congr_left each

/-- Where one integer alone has its sign extended, the sum shows it. -/
theorem sum_ne_of_one {l : List (IntLike T)} (one : l.countP (fun i => SignExtended i) = 1) :
    (l.map hashConverted).sum ≠ (l.map intChecksum).sum := by
  obtain ⟨i, member, extended⟩ := List.countP_pos_iff.1 (one ▸ Nat.one_pos)
  obtain ⟨before, after, rfl⟩ := List.append_of_mem member
  have others : before.countP (fun i => SignExtended i) = 0 ∧
      after.countP (fun i => SignExtended i) = 0 := by
    rw [List.countP_append, List.countP_cons, if_pos extended] at one
    omega
  rw [List.map_append, List.map_append, List.map_cons, List.map_cons,
    map_hashConverted_eq others.1, map_hashConverted_eq others.2, List.sum_append, List.sum_append,
    List.sum_cons, List.sum_cons]
  intro equal
  have contributes := add_right_cancel (add_left_cancel equal)
  exact (hashConverted_eq_iff i).1 contributes (of_decide_eq_true extended)

/-! ## Unordered containers -/

namespace UnorderedSet

variable (s : UnorderedSet T)

/-- The checksum hashes the sum of the checksums of the elements. -/
def SumsChecksums : Prop :=
  getChecksumSet s = mixValue64
    [hash64 (BitVec.ofNat 64 s.elements.length), (s.elements.map intChecksum).sum]

/-- Every element contributes the checksum it has on its own. -/
structure Sums : Prop where
  whole : s.SumsChecksums
  each : ∀ i ∈ s.elements, hashConverted i = intChecksum i

theorem sumsChecksums_iff :
    s.SumsChecksums ↔ (s.elements.map hashConverted).sum = (s.elements.map intChecksum).sum := by
  rw [SumsChecksums, getChecksumSet, foldl_add_eq_sum]
  exact (mixValue64_injective_right _).eq_iff

end UnorderedSet

namespace UnorderedMap

variable (m : UnorderedMap K V)

/-- The checksum hashes the sum of the checksums of the keys and the values. -/
def SumsChecksums : Prop :=
  getChecksumMap m = mixValue64 [hash64 (BitVec.ofNat 64 m.entries.length),
    (m.entries.map fun e => intChecksum e.1 + intChecksum e.2).sum]

structure Sums : Prop where
  whole : m.SumsChecksums
  each : ∀ e ∈ m.entries, hashConverted e.1 = intChecksum e.1 ∧ hashConverted e.2 = intChecksum e.2

/-- The number of keys and values whose sign is extended. -/
def signExtended : Nat :=
  (m.entries.map (·.1)).countP (fun k => SignExtended k) +
    (m.entries.map (·.2)).countP (fun v => SignExtended v)

end UnorderedMap

/-- The checksum of a map hashes the sum over its keys and that over its values. -/
theorem getChecksumMap_eq (m : UnorderedMap K V) :
    getChecksumMap m = mixValue64 [hash64 (BitVec.ofNat 64 m.entries.length),
      ((m.entries.map (·.1)).map hashConverted).sum +
        ((m.entries.map (·.2)).map hashConverted).sum] := by
  simp only [getChecksumMap, add_assoc, foldl_add_eq_sum, List.sum_map_add, List.map_map]
  rfl

theorem UnorderedMap.sumsChecksums_iff (m : UnorderedMap K V) :
    m.SumsChecksums ↔
      ((m.entries.map (·.1)).map hashConverted).sum + ((m.entries.map (·.2)).map hashConverted).sum =
        ((m.entries.map (·.1)).map intChecksum).sum + ((m.entries.map (·.2)).map intChecksum).sum := by
  rw [SumsChecksums, getChecksumMap_eq, List.sum_map_add]
  simp only [List.map_map]
  exact (mixValue64_injective_right _).eq_iff

/-- **When unordered containers sum the checksums of their elements**: exactly if no integer in them
has its sign extended.  The sum alone shows it where there is one such integer. -/
theorem unordered_sums_iff {T K V : IntType} (s : UnorderedSet T) (m : UnorderedMap K V) :
    (s.Sums ↔ ∀ i ∈ s.elements, ¬ SignExtended i) ∧
      (s.elements.countP (fun i => SignExtended i) = 1 → ¬ s.SumsChecksums) ∧
      (m.Sums ↔ ∀ e ∈ m.entries, ¬ SignExtended e.1 ∧ ¬ SignExtended e.2) ∧
      (m.signExtended = 1 → ¬ m.SumsChecksums) := by
  refine ⟨⟨?_, ?_⟩, ?_, ⟨?_, ?_⟩, ?_⟩
  · intro sums i member
    exact (hashConverted_eq_iff i).1 (sums.each i member)
  · intro kept
    have each : ∀ i ∈ s.elements, hashConverted i = intChecksum i :=
      fun i member => (hashConverted_eq_iff i).2 (kept i member)
    exact ⟨s.sumsChecksums_iff.2 (by rw [List.map_congr_left each]), each⟩
  · intro one sums
    exact sum_ne_of_one one (s.sumsChecksums_iff.1 sums)
  · intro sums e member
    obtain ⟨key, value⟩ := sums.each e member
    exact ⟨(hashConverted_eq_iff e.1).1 key, (hashConverted_eq_iff e.2).1 value⟩
  · intro kept
    have each : ∀ e ∈ m.entries,
        hashConverted e.1 = intChecksum e.1 ∧ hashConverted e.2 = intChecksum e.2 :=
      fun e member => ⟨(hashConverted_eq_iff e.1).2 (kept e member).1,
        (hashConverted_eq_iff e.2).2 (kept e member).2⟩
    have keys := map_part_eq fun e member => (each e member).1
    have values := map_part_eq fun e member => (each e member).2
    exact ⟨m.sumsChecksums_iff.2 (by rw [keys, values]), each⟩
  · intro one sums
    have balance := m.sumsChecksums_iff.1 sums
    obtain ⟨key, values⟩ | ⟨keys, value⟩ := Nat.add_eq_one_iff.1 one
    · rw [map_hashConverted_eq key] at balance
      exact sum_ne_of_one values (add_left_cancel balance)
    · rw [map_hashConverted_eq value] at balance
      exact sum_ne_of_one keys (add_right_cancel balance)

/-- The set of the signed byte -1. -/
def minusOneByte : IntLike ⟨.one, true⟩ := ⟨-1, by decide, by decide⟩

def minusOneSet : UnorderedSet ⟨.one, true⟩ := ⟨[minusOneByte], by decide⟩

/-- **The checksum of the signed byte -1 is not what it adds to a set.** -/
theorem minusOneSet_not_sums :
    getChecksumSet minusOneSet ≠
      mixValue64 [hash64 1, (minusOneSet.elements.map intChecksum).sum] := by
  decide

/-- The set of the unsigned byte 255 is summed; a map whose one value is -1 is not. -/
theorem unordered_sums_iff_sample :
    (⟨[sampleByte 255], by decide⟩ : UnorderedSet _).Sums ∧
      ¬ (⟨[(sampleByte 1, minusOneByte)], by decide⟩ : UnorderedMap _ _).SumsChecksums := by
  obtain ⟨set, -, -, map⟩ := unordered_sums_iff (⟨[sampleByte 255], by decide⟩ : UnorderedSet _)
    (⟨[(sampleByte 1, minusOneByte)], by decide⟩ : UnorderedMap _ _)
  exact ⟨set.2 (by decide), map (by decide)⟩

/-! ## Exchanged places -/

/-- `MixValue64` adds its arguments, in whatever order. -/
theorem mixValue64_perm {l l' : List (BitVec 64)} (same : l.Perm l') :
    mixValue64 l = mixValue64 l' := by
  rw [mixValue64, mixValue64, same.foldl_eq]

/-- Results in another order are there if they all were, and are then the same ones. -/
theorem mapM_id_perm {α : Type} {l l' : List (Option α)} (same : l.Perm l') {r : List α}
    (all : l.mapM id = some r) : ∃ r', l'.mapM id = some r' ∧ r.Perm r' := by
  induction same generalizing r with
  | nil => exact ⟨r, all, List.Perm.refl r⟩
  | @cons x l l' same ih =>
      rw [List.mapM_cons] at all
      simp only [id, Option.bind_eq_bind, Option.bind_eq_some_iff, Option.pure_def] at all
      obtain ⟨head, rfl, tail, rest, whole⟩ := all
      obtain rfl := Option.some.inj whole
      obtain ⟨tail', rest, perm⟩ := ih rest
      refine ⟨head :: tail', ?_, perm.cons head⟩
      rw [List.mapM_cons, rest]
      rfl
  | swap x y l =>
      rw [List.mapM_cons, List.mapM_cons] at all
      simp only [id, Option.bind_eq_bind, Option.bind_eq_some_iff, Option.pure_def] at all
      obtain ⟨first, rfl, _, ⟨second, rfl, tail, rest, inner⟩, whole⟩ := all
      obtain rfl := Option.some.inj inner
      obtain rfl := Option.some.inj whole
      refine ⟨second :: first :: tail, ?_, List.Perm.swap second first tail⟩
      rw [List.mapM_cons, List.mapM_cons, rest]
      rfl
  | trans first second ihFirst ihSecond =>
      obtain ⟨middle, all, perm⟩ := ihFirst all
      obtain ⟨last, all, perm'⟩ := ihSecond all
      exact ⟨last, all, perm.trans perm'⟩

theorem mix_mapM_perm {l l' : List (Option (BitVec 64))} (same : l.Perm l') :
    (l.mapM id).map mixValue64 = (l'.mapM id).map mixValue64 := by
  cases all : l.mapM id with
  | some r =>
      obtain ⟨r', all', perm⟩ := mapM_id_perm same all
      rw [all', Option.map_some, Option.map_some, mixValue64_perm perm]
  | none =>
      cases all' : l'.mapM id with
      | none => rfl
      | some r' =>
          obtain ⟨r, some_, _⟩ := mapM_id_perm same.symm all'
          rw [all] at some_
          cases some_

/-- What `ConceptChecksumCalculable` asks of a type: a `GetChecksum`, the program's own or its user's. -/
structure Calculable where
  Value : Type
  getChecksum : Value → Option (BitVec 64)

def Calculable.int (T : IntType) : Calculable := ⟨IntLike T, fun i => some (intChecksum i)⟩

/-- A type built from integers by tuples and ranges. -/
def Ty.calculable (B : Build) (t : Ty) : Calculable := ⟨t.Value, Checksum.getChecksum B t⟩

theorem calculable_of_isInt (B : Build) {t : Ty} (isInt : t = .int T) : t.calculable B = .int T := by
  subst isInt
  exact congrArg (Calculable.mk (IntLike T)) (funext (getChecksum_int B))

section Tuples

variable {size : Nat} {components : Fin size → Calculable}

/-- `GetChecksum` of a tuple. -/
def getChecksumTuple (tup : (N : Fin size) → (components N).Value) : Option (BitVec 64) :=
  ((List.ofFn fun N => (components N).getChecksum (tup N)).mapM id).map mixValue64

/-- The integer in a component. -/
def intAt (tup : (N : Fin size) → (components N).Value) {N : Fin size}
    (isInt : components N = .int T) : IntLike T :=
  cast (congrArg Calculable.Value isInt) (tup N)

/-- `tup'` is `tup` with the integers in two components exchanged. -/
structure Exchanged (tup tup' : (N : Fin size) → (components N).Value) {N M : Fin size}
    (isInt : components N = .int T) (isInt' : components M = .int T) : Prop where
  first : intAt tup' isInt = intAt tup isInt'
  second : intAt tup' isInt' = intAt tup isInt
  others : ∀ P, P ≠ N → P ≠ M → tup' P = tup P

theorem getChecksum_of_isInt {t : Calculable} (isInt : t = .int T) (v : t.Value) :
    t.getChecksum v = some (intChecksum (cast (congrArg Calculable.Value isInt) v)) := by
  subst isInt
  rfl

theorem getChecksum_intAt (tup : (N : Fin size) → (components N).Value) {N : Fin size}
    (isInt : components N = .int T) :
    (components N).getChecksum (tup N) = some (intChecksum (intAt tup isInt)) :=
  getChecksum_of_isInt isInt (tup N)

/-- The checksum of a tuple does not see two of its integers exchanged. -/
theorem getChecksumTuple_exchanged {tup tup' : (N : Fin size) → (components N).Value}
    {N M : Fin size} {isInt : components N = .int T} {isInt' : components M = .int T}
    (exchanged : Exchanged tup tup' isInt isInt') :
    getChecksumTuple tup' = getChecksumTuple tup := by
  have swapped : (fun P => (components P).getChecksum (tup' P)) =
      (fun P => (components P).getChecksum (tup P)) ∘ Equiv.swap N M := by
    funext P
    rw [Function.comp_apply]
    by_cases isFirst : P = N
    · rw [isFirst, Equiv.swap_apply_left, getChecksum_intAt tup' isInt, getChecksum_intAt tup isInt',
        exchanged.first]
    · by_cases isSecond : P = M
      · rw [isSecond, Equiv.swap_apply_right, getChecksum_intAt tup' isInt',
          getChecksum_intAt tup isInt, exchanged.second]
      · rw [Equiv.swap_apply_of_ne_of_ne isFirst isSecond, exchanged.others P isFirst isSecond]
  rw [getChecksumTuple, getChecksumTuple, swapped]
  exact mix_mapM_perm (Equiv.Perm.ofFn_comp_perm (Equiv.swap N M) _)

end Tuples

/-- The tuples of `getChecksum` are such tuples. -/
theorem getChecksum_tuple_eq (B : Build) {size : Nat} {components : Fin size → Ty}
    (tup : (Ty.tuple size components).Value) :
    getChecksum B (.tuple size components) tup =
      @getChecksumTuple size (fun N => (components N).calculable B) tup := by
  rw [getChecksum]
  rfl

theorem getChecksum_exchanged (B : Build) {size : Nat} {components : Fin size → Ty}
    {tup tup' : (Ty.tuple size components).Value} {N M : Fin size}
    (isInt : components N = .int T) (isInt' : components M = .int T)
    (exchanged : @Exchanged T size (fun N => (components N).calculable B) tup tup' N M
      (calculable_of_isInt B isInt) (calculable_of_isInt B isInt')) :
    getChecksum B (.tuple size components) tup' = getChecksum B (.tuple size components) tup := by
  rw [getChecksum_tuple_eq, getChecksum_tuple_eq]
  exact getChecksumTuple_exchanged exchanged

/-- `m'` is `m` with the values of the keys `k` and `k'` exchanged, iterated in any order. -/
structure UnorderedMap.ValuesExchanged (m m' : UnorderedMap K V) (k k' : IntLike K)
    (v v' : IntLike V) : Prop where
  first : (k, v) ∈ m.entries
  second : (k', v') ∈ m.entries
  differ : k ≠ k'
  result : ∀ e, e ∈ m'.entries ↔ e = (k, v') ∨ e = (k', v) ∨ e ∈ m.entries ∧ e.1 ≠ k ∧ e.1 ≠ k'

/-- The two maps have the same other entries. -/
theorem UnorderedMap.ValuesExchanged.perm {m m' : UnorderedMap K V} {k k' : IntLike K}
    {v v' : IntLike V} (exchanged : m.ValuesExchanged m' k k' v v') :
    ∃ rest, m.entries.Perm ((k, v) :: (k', v') :: rest) ∧
      m'.entries.Perm ((k, v') :: (k', v) :: rest) := by
  obtain ⟨first, second, differ, result⟩ := exchanged
  let rest := m.entries.filter fun e => e.1 ≠ k ∧ e.1 ≠ k'
  have inRest : ∀ e, e ∈ rest ↔ e ∈ m.entries ∧ e.1 ≠ k ∧ e.1 ≠ k' := by
    intro e
    rw [List.mem_filter, decide_eq_true_iff]
  have nodup : ∀ a b : IntLike V, ((k, a) :: (k', b) :: rest).Nodup := by
    intro a b
    refine List.nodup_cons.2 ⟨?_, List.nodup_cons.2 ⟨?_, m.nodup.of_map.filter _⟩⟩
    · rw [List.mem_cons, inRest]
      rintro (same | ⟨_, other, _⟩)
      · exact differ (Prod.mk.inj same).1
      · exact other rfl
    · rw [inRest]
      exact fun ⟨_, _, other⟩ => other rfl
  refine ⟨rest, (List.perm_ext_iff_of_nodup m.nodup.of_map (nodup v v')).2 ?_,
    (List.perm_ext_iff_of_nodup m'.nodup.of_map (nodup v' v)).2 ?_⟩
  · intro e
    rw [List.mem_cons, List.mem_cons, inRest]
    constructor
    · intro member
      by_cases isFirst : e.1 = k
      · exact .inl (List.inj_on_of_nodup_map m.nodup member first isFirst)
      · by_cases isSecond : e.1 = k'
        · exact .inr (.inl (List.inj_on_of_nodup_map m.nodup member second isSecond))
        · exact .inr (.inr ⟨member, isFirst, isSecond⟩)
    · rintro (rfl | rfl | ⟨member, _⟩)
      · exact first
      · exact second
      · exact member
  · intro e
    rw [result, List.mem_cons, List.mem_cons, inRest]

/-- The checksum of a map does not see the values of two keys exchanged. -/
theorem getChecksumMap_exchanged {m m' : UnorderedMap K V} {k k' : IntLike K} {v v' : IntLike V}
    (exchanged : m.ValuesExchanged m' k k' v v') : getChecksumMap m' = getChecksumMap m := by
  obtain ⟨rest, before, after⟩ := exchanged.perm
  have size : m'.entries.length = m.entries.length := by
    rw [before.length_eq, after.length_eq]
    rfl
  rw [getChecksumMap_eq, getChecksumMap_eq, size, ((before.map _).map _).sum_eq,
    ((after.map _).map _).sum_eq, ((before.map (·.2)).map _).sum_eq,
    ((after.map (·.2)).map _).sum_eq]
  simp only [List.map_cons, List.sum_cons]
  rw [add_left_comm (hashConverted v')]

/-- Nor the key and the value of its only entry. -/
theorem getChecksumMap_flipped {m m' : UnorderedMap T T} {k v : IntLike T}
    (single : m.entries = [(k, v)]) (flipped : m'.entries = [(v, k)]) :
    getChecksumMap m' = getChecksumMap m := by
  rw [getChecksumMap_eq, getChecksumMap_eq, single, flipped]
  simp only [List.map_cons, List.map_nil, List.sum_cons, List.sum_nil, add_zero]
  rw [add_comm (hashConverted v)]
  rfl

/-- **No exchange is seen**: not that of two integers of a tuple, not that of the values of two keys of
a map, not that of the key and the value of a single entry. -/
theorem exchange_unseen {T K V : IntType} {size : Nat} {components : Fin size → Calculable}
    {tup tup' : (N : Fin size) → (components N).Value} {N M : Fin size}
    {isInt : components N = .int T} {isInt' : components M = .int T} {m m' : UnorderedMap K V}
    {k k' : IntLike K} {v v' : IntLike V} {single flipped : UnorderedMap T T} {i j : IntLike T} :
    (Exchanged tup tup' isInt isInt' → getChecksumTuple tup' = getChecksumTuple tup) ∧
      (m.ValuesExchanged m' k k' v v' → getChecksumMap m' = getChecksumMap m) ∧
      (single.entries = [(i, j)] → flipped.entries = [(j, i)] →
        getChecksumMap flipped = getChecksumMap single) :=
  ⟨getChecksumTuple_exchanged, getChecksumMap_exchanged, getChecksumMap_flipped⟩

/-- A pair of bytes. -/
def bytePair (a b : IntLike ⟨.one, false⟩) : Fin 2 → (Calculable.int ⟨.one, false⟩).Value := ![a, b]

/-- The values of two players, each under its key. -/
def players {first second : IntLike ⟨.one, false⟩} (apart : [first, second].Nodup)
    (a b : IntLike ⟨.one, false⟩) : UnorderedMap ⟨.one, false⟩ ⟨.one, false⟩ :=
  ⟨[(first, a), (second, b)], apart⟩

theorem sampleKeys_nodup : [sampleByte 0, sampleByte 1].Nodup := by decide

/-- **Two different bytes exchanged in a pair, or between two players, are not seen.** -/
theorem bytes_exchanged_unseen :
    sampleByte 1 ≠ sampleByte 2 ∧
      @getChecksumTuple 2 (fun _ => .int ⟨.one, false⟩)
          (bytePair (sampleByte 2) (sampleByte 1)) =
        @getChecksumTuple 2 (fun _ => .int ⟨.one, false⟩)
          (bytePair (sampleByte 1) (sampleByte 2)) ∧
      getChecksumMap (players sampleKeys_nodup (sampleByte 2) (sampleByte 1)) =
        getChecksumMap (players sampleKeys_nodup (sampleByte 1) (sampleByte 2)) := by
  decide

theorem exchange_unseen_sample :
    @getChecksumTuple 2 (fun _ => .int ⟨.one, false⟩)
        (bytePair (sampleByte 4) (sampleByte 3)) =
      @getChecksumTuple 2 (fun _ => .int ⟨.one, false⟩)
        (bytePair (sampleByte 3) (sampleByte 4)) ∧
    getChecksumMap (players sampleKeys_nodup (sampleByte 4) (sampleByte 3)) =
      getChecksumMap (players sampleKeys_nodup (sampleByte 3) (sampleByte 4)) ∧
    getChecksumMap ⟨[(sampleByte 4, sampleByte 3)], by decide⟩ =
      getChecksumMap ⟨[(sampleByte 3, sampleByte 4)], by decide⟩ := by
  have pair : @Exchanged _ 2 (fun _ => .int ⟨.one, false⟩) (bytePair (sampleByte 3) (sampleByte 4))
      (bytePair (sampleByte 4) (sampleByte 3)) 0 1 rfl rfl := by
    refine ⟨rfl, rfl, ?_⟩
    intro P notFirst notSecond
    omega
  have values : (players sampleKeys_nodup (sampleByte 3) (sampleByte 4)).ValuesExchanged
      (players sampleKeys_nodup (sampleByte 4) (sampleByte 3)) (sampleByte 0) (sampleByte 1)
      (sampleByte 3) (sampleByte 4) := by
    refine ⟨by decide, by decide, by decide, ?_⟩
    intro e
    simp only [players, List.mem_cons, List.not_mem_nil, or_false]
    constructor
    · rintro (rfl | rfl)
      · exact .inl rfl
      · exact .inr (.inl rfl)
    · rintro (rfl | rfl | ⟨rfl | rfl, other, other'⟩)
      · exact .inl rfl
      · exact .inr rfl
      · exact absurd rfl other
      · exact absurd rfl other'
  obtain ⟨tuple, map, entry⟩ := exchange_unseen
  exact ⟨tuple pair, map values, entry rfl rfl⟩

end Koisyn.Checksum
