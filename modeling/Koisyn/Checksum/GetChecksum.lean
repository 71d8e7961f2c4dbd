/-
# Koisyn.Checksum.GetChecksum — the checksum of a game state, and the single fault

`getChecksum` follows the overloads of `GetChecksum` by the type of the value: an integer is hashed,
the checksums of a tuple's components are added and hashed, a range of integers is hashed eight bytes
at a time, and any other range folds the checksums of its elements.  `Build` and `RangeKind` choose
among the three loops over integers as `HashRange_impl` does.  `getChecksumSet` and `getChecksumMap`
are the overloads for unordered containers, which add up the hashes.

`single_fault_changes`: a value in which one integer is changed has another checksum, and so has a set
with one element replaced, a map with one value replaced, and a range of integers with zeroes appended
inside its last partial word.  Every mixing step is injective in each of its arguments
(`hash64_injective`), so a difference survives all the later ones.
-/
import Koisyn.Checksum.IntRange
import Koisyn.Theory.Mixing
import Mathlib.Algebra.BigOperators.Group.List.Basic

namespace Koisyn.Checksum

open Koisyn.Theory.Mixing

set_option autoImplicit false

/-! ## The overloads -/

/-- What the compiler knows: whether the call is evaluated at compile time, and the machine. -/
structure Build where
  constantEvaluated : Bool
  littleEndian : Bool
  deriving DecidableEq, Repr

/-- `sized_range` and `contiguous_range` of a range type. -/
structure RangeKind where
  sized : Bool
  contiguous : Bool
  deriving DecidableEq, Repr

/-- The types built from integers by tuples and ranges. -/
inductive Ty where
  | int (T : IntType)
  | tuple (size : Nat) (components : Fin size → Ty)
  | range (kind : RangeKind) (element : Ty)

def Ty.Value : Ty → Type
  | .int T => IntLike T
  | .tuple size components => (N : Fin size) → (components N).Value
  | .range _ element => List element.Value

/-- `HashRange_impl` on a range of integers. -/
def hashRangeOfInts {T : IntType} (B : Build) (kind : RangeKind) (rng : List (IntLike T)) :
    Option (BitVec 64) :=
  if kind.sized then
    if B.constantEvaluated then hashIntRange rng
    else hashIntSizedRange (kind.contiguous && B.littleEndian) rng
  else hashIntRange rng

/-- `HashRange_impl` on any other range, from the checksums of its elements. -/
def hashRangeOfChecksums (checksums : List (BitVec 64)) : BitVec 64 :=
  let s := checksums.foldl (fun (s : BitVec 64 × BitVec 64) c => (mixValue64 [s.1, c], s.2 + 1)) (0, 0)
  mixValue64 [s.1, s.2]

/-- `GetChecksum`; `none` when a loop over integers is undefined. -/
def getChecksum (B : Build) : (t : Ty) → t.Value → Option (BitVec 64)
  | .int _, i => some (hash64 (toU64WithoutSignExtension i))
  | .tuple _ components, tup =>
      ((List.ofFn fun N => getChecksum B (components N) (tup N)).mapM id).map mixValue64
  | .range kind (.int _), rng => hashRangeOfInts B kind rng
  | .range _ element, rng =>
      (rng.mapM fun elm => getChecksum B element elm).map hashRangeOfChecksums

/-- `unordered_set<T>` of integers, in the order in which it is iterated. -/
structure UnorderedSet (T : IntType) where
  elements : List (IntLike T)
  nodup : elements.Nodup

/-- `unordered_map<K, V>` of integers, in the order in which it is iterated. -/
structure UnorderedMap (K V : IntType) where
  entries : List (IntLike K × IntLike V)
  nodup : (entries.map (·.1)).Nodup

/-- `Hash64` on an integer, which is converted to `uint64_t` with its sign. -/
def hashConverted {T : IntType} (i : IntLike T) : BitVec 64 := hash64 (BitVec.ofInt 64 i.val)

/-- `GetChecksum` of a const `unordered_set`. -/
def getChecksumSet {T : IntType} (rng : UnorderedSet T) : BitVec 64 :=
  let szhash := hash64 (BitVec.ofNat 64 rng.elements.length)
  let hashSum := rng.elements.foldl (fun hashSum i => hashSum + hashConverted i) 0
  mixValue64 [szhash, hashSum]

/-- `GetChecksum` of a const `unordered_map`. -/
def getChecksumMap {K V : IntType} (rng : UnorderedMap K V) : BitVec 64 :=
  let szhash := hash64 (BitVec.ofNat 64 rng.entries.length)
  let hashSum := rng.entries.foldl
    (fun hashSum e => hashSum + hashConverted e.1 + hashConverted e.2) 0
  mixValue64 [szhash, hashSum]

/-! ## Single faults -/

/-- Every range inside the value has fewer than `2 ^ 32` elements. -/
def Small : (t : Ty) → t.Value → Prop
  | .int _, _ => True
  | .tuple _ components, tup => ∀ N, Small (components N) (tup N)
  | .range _ element, (rng : List element.Value) =>
      rng.length < 2 ^ 32 ∧ ∀ elm ∈ rng, Small element elm

/-- The values differ in exactly one integer. -/
def OneFault : (t : Ty) → t.Value → t.Value → Prop
  | .int _, i, j => i ≠ j
  | .tuple _ components, tup, tup' =>
      ∃ N, OneFault (components N) (tup N) (tup' N) ∧ ∀ M, M ≠ N → tup M = tup' M
  | .range _ element, (rng : List element.Value), (rng' : List element.Value) =>
      ∃ (before after : List element.Value) (elm elm' : element.Value),
        rng = before ++ elm :: after ∧ rng' = before ++ elm' :: after ∧ OneFault element elm elm'

/-- `s'` is `s` with the element `a` replaced by `b`, which is not in `s`. -/
structure UnorderedSet.Replaces {T : IntType} (s s' : UnorderedSet T) (a b : IntLike T) : Prop where
  old : a ∈ s.elements
  new : b ∉ s.elements
  result : ∀ i, i ∈ s'.elements ↔ i = b ∨ i ∈ s.elements ∧ i ≠ a

/-- `m'` is `m` with the value under `k` changed from `v` to `v'`. -/
structure UnorderedMap.Replaces {K V : IntType} (m m' : UnorderedMap K V) (k : IntLike K)
    (v v' : IntLike V) : Prop where
  old : (k, v) ∈ m.entries
  differ : v ≠ v'
  result : ∀ e, e ∈ m'.entries ↔ e = (k, v') ∨ e ∈ m.entries ∧ e.1 ≠ k

/-! ## Injective steps -/

theorem hash64_injective : Function.Injective hash64 := unhash64_hash64.injective

theorem mixValue64_injective_left (c : BitVec 64) : Function.Injective fun h => mixValue64 [h, c] := by
  intro x y same
  exact add_left_cancel (add_right_cancel (hash64_injective same))

theorem mixValue64_injective_right (h : BitVec 64) :
    Function.Injective fun c => mixValue64 [h, c] := by
  intro x y same
  exact add_left_cancel (hash64_injective same)

/-- One changed argument changes the mixed value. -/
theorem mixValue64_ne {before after : List (BitVec 64)} {a b : BitVec 64} (differ : a ≠ b) :
    mixValue64 (before ++ a :: after) ≠ mixValue64 (before ++ b :: after) := by
  have keeps : ∀ c : BitVec 64, Function.Injective fun h => h + c :=
    fun c _ _ same => add_right_cancel same
  have reads : ∀ h : BitVec 64, Function.Injective fun c => h + c :=
    fun h _ _ same => add_left_cancel same
  intro same
  exact foldl_ne_of_one_changed keeps reads differ _ (hash64_injective same)

/-- Integers closer than `2 ^ w` are told apart by their `w` low bits. -/
theorem ofInt_injective_of_close {w : Nat} {x y : Int} (close : |x - y| < 2 ^ w)
    (same : BitVec.ofInt w x = BitVec.ofInt w y) : x = y := by
  have power : (0 : Int) < 2 ^ w := by positivity
  have low := congrArg (fun z : BitVec w => (z.toNat : Int)) same
  simp only [BitVec.toNat_ofInt, Nat.cast_pow, Nat.cast_ofNat, Int.toNat_of_nonneg
    (Int.emod_nonneg _ power.ne')] at low
  have divides : (2 : Int) ^ w ∣ x - y :=
    Int.dvd_of_emod_eq_zero (Int.emod_eq_emod_iff_emod_sub_eq_zero.1 low)
  have := Int.eq_zero_of_abs_lt_dvd divides close
  omega

theorem IntLike.close {T : IntType} (i j : IntLike T) : |i.val - j.val| < 2 ^ T.bits := by
  have span : T.highest - T.lowest < 2 ^ T.bits := by
    obtain ⟨size, signed⟩ := T
    cases size <;> cases signed <;> decide
  have := i.lowest_le
  have := i.le_highest
  have := j.lowest_le
  have := j.le_highest
  rw [abs_lt]
  omega

theorem toU64_injective {T : IntType} :
    Function.Injective (toU64WithoutSignExtension : IntLike T → BitVec 64) := by
  intro i j same
  have unsigned : i.toUnsigned = j.toUnsigned := by
    apply BitVec.eq_of_toNat_eq
    rw [← toU64_toNat, ← toU64_toNat, same]
  have val := ofInt_injective_of_close (i.close j) unsigned
  cases i
  cases j
  cases val
  rfl

theorem hashConverted_injective {T : IntType} :
    Function.Injective (hashConverted : IntLike T → BitVec 64) := by
  intro i j same
  have widths : (2 : Int) ^ T.bits ≤ 2 ^ 64 := by
    unfold IntType.bits IntType.bytes
    cases T.size <;> decide
  have val := ofInt_injective_of_close ((i.close j).trans_le widths) (hash64_injective same)
  cases i
  cases j
  cases val
  rfl

/-! ## Ranges of integers -/

section Ints

variable {T : IntType}

theorem value_ne {before after : List (IntLike T)} {a b : IntLike T} (differ : a ≠ b) :
    value (before ++ a :: after) ≠ value (before ++ b :: after) := by
  intro same
  rw [value_append, value_append, Nat.add_left_cancel_iff] at same
  have digits := Nat.eq_of_mul_eq_mul_left (by positivity) same
  simp only [value, Nat.add_right_cancel_iff] at digits
  exact differ (toU64_injective (BitVec.eq_of_toNat_eq digits))

theorem value_group_lt {group : List (IntLike T)} (short : group.length ≤ 8 / T.bytes) :
    value group < 2 ^ 64 :=
  lt_of_lt_of_le (value_lt group) (Nat.pow_le_pow_right (by decide) (group_fits short))

/-- Groups that denote different numbers leave different hashes. -/
theorem mixGroup_ne {g g' : List (IntLike T)} (short : g.length ≤ 8 / T.bytes)
    (short' : g'.length ≤ 8 / T.bytes) (differ : value g ≠ value g') (h : BitVec 64) :
    mixValue64 [h, BitVec.ofNat 64 (value g)] ≠ mixValue64 [h, BitVec.ofNat 64 (value g')] := by
  intro same
  have words := congrArg BitVec.toNat (mixValue64_injective_right h same)
  rw [BitVec.toNat_ofNat, BitVec.toNat_ofNat, Nat.mod_eq_of_lt (value_group_lt short),
    Nat.mod_eq_of_lt (value_group_lt short')] at words
  exact differ words

theorem hashGroups_injective (groups : List (List (IntLike T))) :
    Function.Injective fun h => hashGroups h groups :=
  foldl_injective (fun _ => mixValue64_injective_left _) groups

/-- **One changed integer changes the hash of the groups.** -/
theorem hashGroups_ne {after : List (IntLike T)} {a b : IntLike T} (differ : a ≠ b)
    (before : List (IntLike T)) (h : BitVec 64) :
    hashGroups h (chunkView (8 / T.bytes) (before ++ a :: after)) ≠
      hashGroups h (chunkView (8 / T.bytes) (before ++ b :: after)) := by
  induction size : before.length using Nat.strong_induction_on generalizing before h with
  | _ size_ ih =>
      subst size
      have pos := groupCount_pos T
      have split : ∀ c, chunkView (8 / T.bytes) (before ++ c :: after) =
          (before ++ c :: after).take (8 / T.bytes) ::
            chunkView (8 / T.bytes) ((before ++ c :: after).drop (8 / T.bytes)) :=
        fun c => chunkView_of_ne_nil pos (by simp)
      rw [split a, split b]
      by_cases later : 8 / T.bytes ≤ before.length
      · rw [List.take_append_of_le_length later, List.take_append_of_le_length later,
          List.drop_append_of_le_length later, List.drop_append_of_le_length later]
        exact ih (before.drop (8 / T.bytes)).length (by rw [List.length_drop]; omega) _ _ rfl
      · -- the change lies in this group, and the groups after it are the same
        obtain ⟨m, room⟩ : ∃ m, 8 / T.bytes = before.length + (m + 1) :=
          ⟨8 / T.bytes - before.length - 1, by omega⟩
        rw [room, List.take_length_add_append, List.take_length_add_append,
          List.drop_length_add_append, List.drop_length_add_append]
        simp only [List.take_succ_cons, List.drop_succ_cons]
        intro same
        refine mixGroup_ne ?_ ?_ (value_ne differ) h (hashGroups_injective _ same) <;>
          simp only [List.length_append, List.length_cons, List.length_take] <;> omega

/-- Zeroes appended to a group leave the number it denotes. -/
theorem value_append_zeroes {zero : IntLike T} (isZero : zero.val = 0) (group : List (IntLike T))
    (k : Nat) : value (group ++ List.replicate k zero) = value group := by
  have digit : (toU64WithoutSignExtension zero).toNat = 0 := by
    rw [toU64_toNat, IntLike.toUnsigned, isZero]
    simp
  have zeroes : value (List.replicate k zero) = 0 := by
    induction k with
    | zero => rfl
    | succ k ih => rw [List.replicate_succ, value, digit, ih]; rfl
  rw [value_append, zeroes, Nat.mul_zero, Nat.add_zero]

/-- Zeroes inside the last partial group leave the hash of the groups. -/
theorem hashGroups_append_zeroes {zero : IntLike T} (isZero : zero.val = 0) {k : Nat}
    (rng : List (IntLike T)) (isPartial : rng.length % (8 / T.bytes) ≠ 0)
    (inside : rng.length % (8 / T.bytes) + k ≤ 8 / T.bytes) (h : BitVec 64) :
    hashGroups h (chunkView (8 / T.bytes) (rng ++ List.replicate k zero)) =
      hashGroups h (chunkView (8 / T.bytes) rng) := by
  induction size : rng.length using Nat.strong_induction_on generalizing rng h with
  | _ size_ ih =>
      subst size
      have pos := groupCount_pos T
      have nonempty : rng ≠ [] := by
        rintro rfl
        exact isPartial (Nat.zero_mod _)
      rw [chunkView_of_ne_nil pos nonempty, chunkView_of_ne_nil pos (by simp [nonempty])]
      by_cases later : 8 / T.bytes ≤ rng.length
      · have rest : (rng.drop (8 / T.bytes)).length % (8 / T.bytes) =
            rng.length % (8 / T.bytes) := by
          rw [List.length_drop, ← Nat.mod_eq_sub_mod later]
        have shorter : (rng.drop (8 / T.bytes)).length < rng.length := by
          have := List.length_pos_iff.2 nonempty
          rw [List.length_drop]
          omega
        rw [List.take_append_of_le_length later, List.drop_append_of_le_length later]
        exact ih _ shorter _ (rest ▸ isPartial) (rest ▸ inside) _ rfl
      · rw [Nat.mod_eq_of_lt (by omega)] at inside
        have whole : (rng ++ List.replicate k zero).length ≤ 8 / T.bytes := by
          rw [List.length_append, List.length_replicate]
          exact inside
        rw [List.take_of_length_le whole, List.drop_eq_nil_of_le whole,
          List.take_of_length_le (by omega), List.drop_eq_nil_of_le (by omega)]
        show hashGroups (mixValue64 [h, _]) _ = hashGroups (mixValue64 [h, _]) _
        rw [value_append_zeroes isZero]

/-- Every loop hashes the groups and then the element count. -/
theorem hashRangeOfInts_eq (B : Build) (kind : RangeKind) {rng : List (IntLike T)}
    (small : rng.length < 2 ^ 32) :
    hashRangeOfInts B kind rng = some (mixValue64 [hashGroups 0 (chunkView (8 / T.bytes) rng),
      BitVec.ofNat 64 rng.length]) := by
  unfold hashRangeOfInts
  split
  · split
    · exact hashIntRange_eq rng
    · exact hashIntSizedRange_eq _ rng small
  · exact hashIntRange_eq rng

theorem hashRangeOfInts_ne (B : Build) (kind : RangeKind) {before after : List (IntLike T)}
    {a b : IntLike T} (differ : a ≠ b) (small : (before ++ a :: after).length < 2 ^ 32) :
    hashRangeOfInts B kind (before ++ a :: after) ≠ hashRangeOfInts B kind (before ++ b :: after) := by
  have length : (before ++ b :: after).length = (before ++ a :: after).length := by simp
  rw [hashRangeOfInts_eq B kind small, hashRangeOfInts_eq B kind (length ▸ small), length]
  intro same
  exact hashGroups_ne differ before 0 (mixValue64_injective_left _ (Option.some.inj same))

/-- Zeroes appended inside the last partial word change the count, and nothing else. -/
theorem hashRangeOfInts_append_zeroes_ne (B : Build) (kind : RangeKind) {zero : IntLike T}
    (isZero : zero.val = 0) {k : Nat} (some_ : 0 < k) (rng : List (IntLike T))
    (isPartial : rng.length % (8 / T.bytes) ≠ 0)
    (inside : rng.length % (8 / T.bytes) + k ≤ 8 / T.bytes) (small : rng.length + k < 2 ^ 32) :
    hashRangeOfInts B kind rng ≠ hashRangeOfInts B kind (rng ++ List.replicate k zero) := by
  have length : (rng ++ List.replicate k zero).length = rng.length + k := by simp
  rw [hashRangeOfInts_eq B kind (by omega), hashRangeOfInts_eq B kind (length ▸ small), length,
    hashGroups_append_zeroes isZero rng isPartial inside]
  intro same
  have counts := congrArg BitVec.toNat (mixValue64_injective_right _ (Option.some.inj same))
  simp only [BitVec.toNat_ofNat] at counts
  omega

end Ints

/-! ## Values -/

theorem hashRangeOfChecksums_eq (checksums : List (BitVec 64)) :
    hashRangeOfChecksums checksums = mixValue64 [checksums.foldl (fun h c => mixValue64 [h, c]) 0,
      BitVec.ofNat 64 checksums.length] := by
  have folded : ∀ (h : BitVec 64) (count : Nat),
      checksums.foldl (fun (s : BitVec 64 × BitVec 64) c => (mixValue64 [s.1, c], s.2 + 1))
          (h, BitVec.ofNat 64 count) =
        (checksums.foldl (fun h c => mixValue64 [h, c]) h,
          BitVec.ofNat 64 (count + checksums.length)) := by
    induction checksums with
    | nil => simp
    | cons c checksums ih =>
        intro h count
        rw [List.foldl_cons, List.foldl_cons, ofNat_succ, ih, List.length_cons]
        congr 2
        omega
  have start := folded 0 0
  rw [Nat.zero_add] at start
  unfold hashRangeOfChecksums
  rw [show ((0 : BitVec 64), (0 : BitVec 64)) = (0, BitVec.ofNat 64 0) from rfl, start]

theorem hashRangeOfChecksums_ne {before after : List (BitVec 64)} {c c' : BitVec 64}
    (differ : c ≠ c') :
    hashRangeOfChecksums (before ++ c :: after) ≠ hashRangeOfChecksums (before ++ c' :: after) := by
  rw [hashRangeOfChecksums_eq, hashRangeOfChecksums_eq]
  simp only [List.length_append, List.length_cons]
  intro same
  exact foldl_ne_of_one_changed (fun _ => mixValue64_injective_left _) mixValue64_injective_right
    differ 0 (mixValue64_injective_left _ same)

theorem mapM_of_some {α β : Type} {f : α → Option β} {g : α → β} {l : List α}
    (some_ : ∀ x ∈ l, f x = some (g x)) : l.mapM f = some (l.map g) := by
  induction l with
  | nil => rfl
  | cons x l ih =>
      rw [List.mapM_cons, some_ x List.mem_cons_self,
        ih fun y member => some_ y (List.mem_cons_of_mem x member)]
      rfl

theorem mapM_ofFn {n : Nat} {β : Type} {f : Fin n → Option β} {g : Fin n → β}
    (some_ : ∀ N, f N = some (g N)) : (List.ofFn f).mapM id = some (List.ofFn g) := by
  obtain rfl : f = fun N => some (g N) := funext some_
  rw [show (List.ofFn fun N => some (g N)) = (List.ofFn g).map some from List.map_ofFn.symm,
    List.mapM_map]
  exact (mapM_of_some fun _ _ => rfl).trans (by rw [List.map_id'])

/-- Families that agree off `i` are lists that agree off one place. -/
theorem ofFn_split {n : Nat} {α : Type} {f g : Fin n → α} {i : Fin n}
    (same : ∀ j, j ≠ i → f j = g j) :
    ∃ before after, List.ofFn f = before ++ f i :: after ∧ List.ofFn g = before ++ g i :: after := by
  induction n with
  | zero => exact i.elim0
  | succ n ih =>
      simp only [List.ofFn_succ]
      cases i using Fin.cases with
      | zero =>
          refine ⟨[], List.ofFn fun j => f j.succ, rfl, ?_⟩
          rw [show (fun j : Fin n => f j.succ) = fun j => g j.succ from
            funext fun j => same _ (Fin.succ_ne_zero j)]
          rfl
      | succ i =>
          obtain ⟨before, after, left, right⟩ := ih (f := fun j => f j.succ)
            (g := fun j => g j.succ) fun j other => same _ ((Fin.succ_injective n).ne other)
          refine ⟨f 0 :: before, after, by rw [left]; rfl, ?_⟩
          rw [right, same 0 (Fin.succ_ne_zero i).symm]
          rfl

section Values

variable (B : Build)

/-- The checksum of a value whose loops are all defined. -/
def checksum (t : Ty) (v : t.Value) : BitVec 64 := (getChecksum B t v).getD 0

variable {B}

theorem getChecksum_tuple {size : Nat} {components : Fin size → Ty}
    (tup : (Ty.tuple size components).Value)
    (defined : ∀ N, getChecksum B (components N) (tup N) = some (checksum B (components N) (tup N))) :
    getChecksum B (.tuple size components) tup =
      some (mixValue64 (List.ofFn fun N => checksum B (components N) (tup N))) := by
  rw [getChecksum, mapM_ofFn defined]
  rfl

theorem getChecksum_range (kind : RangeKind) {element : Ty} (notInt : ∀ T, element ≠ .int T)
    {rng : List element.Value}
    (defined : ∀ elm ∈ rng, getChecksum B element elm = some (checksum B element elm)) :
    getChecksum B (.range kind element) rng =
      some (hashRangeOfChecksums (rng.map (checksum B element))) := by
  have unfolded : getChecksum B (.range kind element) rng =
      (rng.mapM fun elm => getChecksum B element elm).map hashRangeOfChecksums := by
    cases element with
    | int T => exact absurd rfl (notInt T)
    | tuple size components => rfl
    | range kind element => rfl
  rw [unfolded, mapM_of_some defined]
  rfl

/-- The loops over a value of small ranges are all defined. -/
theorem getChecksum_defined (t : Ty) (v : t.Value) (small : Small t v) :
    getChecksum B t v = some (checksum B t v) := by
  induction t with
  | int T => rfl
  | tuple size components ih =>
      have whole := getChecksum_tuple (B := B) v fun N => ih N (v N) (small N)
      rw [checksum, whole, Option.getD_some]
  | range kind element ih =>
      by_cases isInt : ∃ T, element = .int T
      · obtain ⟨T, rfl⟩ := isInt
        have whole : getChecksum B (.range kind (.int T)) v = _ := hashRangeOfInts_eq B kind small.1
        rw [checksum, whole, Option.getD_some]
      · have whole := getChecksum_range (B := B) kind (not_exists.1 isInt)
          fun elm member => ih elm (small.2 elm member)
        rw [checksum, whole, Option.getD_some]

/-- **One changed integer changes the checksum of a value.** -/
theorem getChecksum_ne (t : Ty) (v v' : t.Value) (small : Small t v) (small' : Small t v')
    (fault : OneFault t v v') : getChecksum B t v ≠ getChecksum B t v' := by
  induction t with
  | int T => exact fun same => fault (toU64_injective (hash64_injective (Option.some.inj same)))
  | tuple size components ih =>
      have defined := fun N => getChecksum_defined (B := B) _ _ (small N)
      have defined' := fun N => getChecksum_defined (B := B) _ _ (small' N)
      obtain ⟨N, fault, same⟩ := fault
      have changed : checksum B (components N) (v N) ≠ checksum B (components N) (v' N) := by
        intro equal
        refine ih N (v N) (v' N) (small N) (small' N) fault ?_
        rw [defined, defined', equal]
      obtain ⟨before, after, left, right⟩ := ofFn_split
        (f := fun N => checksum B (components N) (v N))
        (g := fun N => checksum B (components N) (v' N)) (i := N)
        fun M other => by rw [same M other]
      rw [getChecksum_tuple _ defined, getChecksum_tuple _ defined', left, right]
      exact fun equal => mixValue64_ne changed (Option.some.inj equal)
  | range kind element ih =>
      obtain ⟨before, after, elm, elm', rfl, rfl, fault⟩ := fault
      by_cases isInt : ∃ T, element = .int T
      · obtain ⟨T, rfl⟩ := isInt
        exact hashRangeOfInts_ne B kind fault small.1
      · have defined := fun e member => getChecksum_defined (B := B) element e (small.2 e member)
        have defined' := fun e member => getChecksum_defined (B := B) element e (small'.2 e member)
        have changed : checksum B element elm ≠ checksum B element elm' := by
          intro equal
          refine ih elm elm' (small.2 elm (by simp)) (small'.2 elm' (by simp)) fault ?_
          rw [defined elm (by simp), defined' elm' (by simp), equal]
        rw [getChecksum_range kind (not_exists.1 isInt) defined,
          getChecksum_range kind (not_exists.1 isInt) defined']
        simp only [List.map_append, List.map_cons]
        exact fun equal => hashRangeOfChecksums_ne changed (Option.some.inj equal)

end Values

/-! ## Unordered containers -/

theorem foldl_add_eq_sum {α : Type} (f : α → BitVec 64) (l : List α) :
    l.foldl (fun sum x => sum + f x) 0 = (l.map f).sum := by
  rw [List.sum_eq_foldl, List.foldl_map]

/-- The sum over a list with one element replaced, in whatever order, tells the two apart. -/
theorem sum_ne_of_replaced {α : Type} {f : α → BitVec 64} {l l' rest : List α} {a b : α}
    (differ : f a ≠ f b) (before : l.Perm (a :: rest)) (after : l'.Perm (b :: rest)) :
    (l.map f).sum ≠ (l'.map f).sum := by
  rw [(before.map f).sum_eq, (after.map f).sum_eq, List.map_cons, List.map_cons, List.sum_cons,
    List.sum_cons]
  exact fun same => differ (add_right_cancel same)

/-- A replaced element leaves a permutation of the rest. -/
theorem perm_of_replaced {α : Type} [DecidableEq α] {l l' : List α} {a b : α} (nodup : l.Nodup)
    (nodup' : l'.Nodup) (old : a ∈ l) (fresh : b ∉ l)
    (result : ∀ x, x ∈ l' ↔ x = b ∨ x ∈ l ∧ x ≠ a) :
    l.Perm (a :: l.erase a) ∧ l'.Perm (b :: l.erase a) := by
  have remaining : (b :: l.erase a).Nodup :=
    List.nodup_cons.2 ⟨fun member => fresh (List.mem_of_mem_erase member), nodup.erase a⟩
  refine ⟨List.perm_cons_erase old, (List.perm_ext_iff_of_nodup nodup' remaining).2 ?_⟩
  intro x
  rw [result, List.mem_cons, nodup.mem_erase_iff, and_comm]

/-- **A replaced element changes the checksum of a set.** -/
theorem getChecksumSet_ne {T : IntType} {s s' : UnorderedSet T} {a b : IntLike T}
    (replaces : s.Replaces s' a b) : getChecksumSet s ≠ getChecksumSet s' := by
  obtain ⟨before, after⟩ := perm_of_replaced s.nodup s'.nodup replaces.old replaces.new
    replaces.result
  have differ : hashConverted a ≠ hashConverted b := by
    intro same
    exact replaces.new (hashConverted_injective same ▸ replaces.old)
  have size : s'.elements.length = s.elements.length := by
    rw [after.length_eq, before.length_eq, List.length_cons, List.length_cons]
  simp only [getChecksumSet, size, foldl_add_eq_sum]
  exact fun same => sum_ne_of_replaced differ before after (mixValue64_injective_right _ same)

/-- **A replaced value changes the checksum of a map.** -/
theorem getChecksumMap_ne {K V : IntType} {m m' : UnorderedMap K V} {k : IntLike K}
    {v v' : IntLike V} (replaces : m.Replaces m' k v v') : getChecksumMap m ≠ getChecksumMap m' := by
  have onlyOnce : ∀ e ∈ m.entries, e.1 = k → e = (k, v) := by
    intro e member key
    exact List.inj_on_of_nodup_map m.nodup member replaces.old key
  have fresh : (k, v') ∉ m.entries := by
    intro member
    exact replaces.differ (Prod.mk.inj (onlyOnce _ member rfl)).2.symm
  obtain ⟨before, after⟩ := perm_of_replaced m.nodup.of_map m'.nodup.of_map replaces.old fresh (by
    intro e
    rw [replaces.result]
    refine or_congr_right (and_congr_right fun member => not_congr ⟨onlyOnce e member, ?_⟩)
    rintro rfl
    rfl)
  let pair : IntLike K × IntLike V → BitVec 64 := fun e => hashConverted e.1 + hashConverted e.2
  have differ : pair (k, v) ≠ pair (k, v') := by
    intro same
    exact replaces.differ (hashConverted_injective (add_left_cancel same))
  have summed : ∀ m : UnorderedMap K V, getChecksumMap m =
      mixValue64 [hash64 (BitVec.ofNat 64 m.entries.length), (m.entries.map pair).sum] := by
    intro m
    rw [← foldl_add_eq_sum]
    simp only [getChecksumMap, pair, add_assoc]
  have size : m'.entries.length = m.entries.length := by
    rw [after.length_eq, before.length_eq, List.length_cons, List.length_cons]
  rw [summed, summed, size]
  exact fun same => sum_ne_of_replaced differ before after (mixValue64_injective_right _ same)

/-! ## The single fault -/

/-- **A single fault changes the checksum**, on every build: one integer of a value, one element of a
set, one value of a map, or zeroes after the last element of a range. -/
theorem single_fault_changes (B : Build) :
    (∀ (t : Ty) (v v' : t.Value), Small t v → Small t v' → OneFault t v v' →
        ∃ c c', getChecksum B t v = some c ∧ getChecksum B t v' = some c' ∧ c ≠ c') ∧
      (∀ (T : IntType) (s s' : UnorderedSet T) (a b : IntLike T), s.Replaces s' a b →
        getChecksumSet s ≠ getChecksumSet s') ∧
      (∀ (K V : IntType) (m m' : UnorderedMap K V) (k : IntLike K) (v v' : IntLike V),
        m.Replaces m' k v v' → getChecksumMap m ≠ getChecksumMap m') ∧
      ∀ (T : IntType) (kind : RangeKind) (rng : List (IntLike T)) (zero : IntLike T) (k : Nat),
        zero.val = 0 → 0 < k → rng.length % (8 / T.bytes) ≠ 0 →
        rng.length % (8 / T.bytes) + k ≤ 8 / T.bytes → rng.length + k < 2 ^ 32 →
        ∃ c c', getChecksum B (.range kind (.int T)) rng = some c ∧
          getChecksum B (.range kind (.int T)) (rng ++ List.replicate k zero) = some c' ∧ c ≠ c' := by
  refine ⟨?_, fun _ _ _ _ _ => getChecksumSet_ne, fun _ _ _ _ _ _ _ => getChecksumMap_ne, ?_⟩
  · intro t v v' small small' fault
    have changed := getChecksum_ne (B := B) t v v' small small' fault
    rw [getChecksum_defined t v small, getChecksum_defined t v' small'] at changed
    exact ⟨_, _, getChecksum_defined t v small, getChecksum_defined t v' small',
      fun same => changed (congrArg some same)⟩
  · intro T kind rng zero k isZero some_ isPartial inside small
    have changed := hashRangeOfInts_append_zeroes_ne B kind isZero some_ rng isPartial inside small
    rw [hashRangeOfInts_eq B kind (by omega), hashRangeOfInts_eq B kind (by simpa using small)]
      at changed
    exact ⟨_, _, hashRangeOfInts_eq B kind (by omega),
      hashRangeOfInts_eq B kind (by simpa using small), fun same => changed (congrArg some same)⟩

/-- A run-time build for a little-endian machine. -/
def sampleBuild : Build := ⟨false, true⟩

def sampleByte (n : Fin 256) : IntLike ⟨.one, false⟩ where
  val := n
  lowest_le := Int.natCast_nonneg n
  le_highest := by
    show (n : Int) ≤ 2 ^ 8 - 1
    omega

/-- Ranges of bytes, as a value. -/
def sampleState (rng : List (List (IntLike ⟨.one, false⟩))) :
    (Ty.range ⟨false, false⟩ (.range ⟨true, true⟩ (.int ⟨.one, false⟩))).Value := rng

/-- A byte changed inside the second of two ranges, a byte replaced in a set and in a map, and a zero
appended to three bytes. -/
theorem single_fault_changes_sample :
    (∃ c c', getChecksum sampleBuild _ (sampleState [[sampleByte 1], [sampleByte 2, sampleByte 3]]) =
          some c ∧
        getChecksum sampleBuild _ (sampleState [[sampleByte 1], [sampleByte 2, sampleByte 4]]) =
          some c' ∧ c ≠ c') ∧
      getChecksumSet ⟨[sampleByte 1, sampleByte 2], by decide⟩ ≠
        getChecksumSet ⟨[sampleByte 3, sampleByte 1], by decide⟩ ∧
      getChecksumMap ⟨[(sampleByte 1, sampleByte 2)], by decide⟩ ≠
        getChecksumMap ⟨[(sampleByte 1, sampleByte 3)], by decide⟩ ∧
      ∃ c c', getChecksum sampleBuild (.range ⟨true, true⟩ (.int ⟨.one, false⟩))
          [sampleByte 1, sampleByte 2, sampleByte 3] = some c ∧
        getChecksum sampleBuild (.range ⟨true, true⟩ (.int ⟨.one, false⟩))
          ([sampleByte 1, sampleByte 2, sampleByte 3] ++ List.replicate 1 (sampleByte 0)) =
            some c' ∧ c ≠ c' := by
  obtain ⟨values, sets, maps, zeroes⟩ := single_fault_changes sampleBuild
  refine ⟨?_, ?_, ?_, ?_⟩
  · have differ : sampleByte 3 ≠ sampleByte 4 := by decide
    have fault : OneFault _ (sampleState [[sampleByte 1], [sampleByte 2, sampleByte 3]])
        (sampleState [[sampleByte 1], [sampleByte 2, sampleByte 4]]) :=
      ⟨[[sampleByte 1]], [], _, _, rfl, rfl, [sampleByte 2], [], _, _, rfl, rfl, differ⟩
    have small : ∀ a b c : IntLike ⟨.one, false⟩, Small _ (sampleState [[a], [b, c]]) := by
      intro a b c
      refine ⟨(by decide : 2 < 2 ^ 32), fun elm member => ⟨?_, fun _ _ => trivial⟩⟩
      rcases List.mem_pair.1 member with rfl | rfl
      · exact (by decide : 1 < 2 ^ 32)
      · exact (by decide : 2 < 2 ^ 32)
    exact values _ _ _ (small _ _ _) (small _ _ _) fault
  · refine sets _ _ _ (sampleByte 2) (sampleByte 3) ⟨by decide, by decide, ?_⟩
    intro i
    simp only [List.mem_pair]
    constructor
    · rintro (rfl | rfl)
      · exact .inl rfl
      · exact .inr ⟨.inl rfl, by decide⟩
    · rintro (rfl | ⟨rfl | rfl, other⟩)
      · exact .inl rfl
      · exact .inr rfl
      · exact absurd rfl other
  · refine maps _ _ _ _ (sampleByte 1) (sampleByte 2) (sampleByte 3) ⟨by decide, by decide, ?_⟩
    intro e
    simp only [List.mem_singleton]
    constructor
    · exact .inl
    · rintro (rfl | ⟨rfl, other⟩)
      · rfl
      · exact absurd rfl other
  · exact zeroes ⟨.one, false⟩ ⟨true, true⟩ _ (sampleByte 0) 1 rfl (by decide) (by decide) (by decide)
      (by decide)

end Koisyn.Checksum
