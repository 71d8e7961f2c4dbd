/-
# Koisyn.Theory.InetPresentation — the text that `inet_ntop` writes

`inetNtop4` and `inetNtop6` are the conversions of `inet_ntop`: an IPv4 address as four decimal bytes; an
IPv6 address as hexadecimal words without leading zeroes, the first of its longest runs of two or more
zero words as `::`, and the last two words as an IPv4 address behind a run of six, or of five and `ffff`.

`inetPton4_inetNtop4` and `inetPton6_inetNtop6`: reading the text gives the address back, for every
address.  For IPv6 this rests on what is true of any run of zeroes that is left out, wherever it is
(`inetPton6_compressed`); that the loop finds one is `zeroRun_spec`.
-/
import Koisyn.Theory.InetText
import Mathlib.Data.List.TakeDrop

namespace Koisyn.Theory.InetText

set_option autoImplicit false

/-! ## IPv4 -/

/-- `inet_ntop(AF_INET, ...)`. -/
def inetNtop4 (v : Nat) : List Char :=
  dotted (v / 2 ^ 24) (v / 2 ^ 16 % 2 ^ 8) (v / 2 ^ 8 % 2 ^ 8) (v % 2 ^ 8)

theorem inetPton4_inetNtop4 {v : Nat} (isAddress : v < 2 ^ 32) : inetPton4 (inetNtop4 v) = some v := by
  rw [inetNtop4, inetPton4_dotted (by omega) (by omega) (by omega) (by omega)]
  congr 1
  omega

/-! ## Words -/

/-- `%x`. -/
def hexText (w : Nat) : List Char := Nat.toDigits 16 w

theorem foldl_hexText (w : Nat) :
    (∀ c ∈ hexText w, isHexDigit c = true) ∧
      (hexText w).foldl (fun w c => 16 * w + hexValue c) 0 = w := by
  induction w using Nat.strongRecOn with
  | ind w ih =>
      by_cases small : w < 16
      · obtain ⟨hex, value⟩ := hexValue_digitChar w small
        rw [hexText, Nat.toDigits_of_lt_base small]
        refine ⟨?_, ?_⟩
        · intro c inside
          rw [List.mem_singleton.1 inside]
          exact hex
        · simpa using value
      · obtain ⟨hexLast, valueLast⟩ := hexValue_digitChar (w % 16) (by omega)
        obtain ⟨hex, value⟩ := ih (w / 16) (by omega)
        rw [hexText] at hex value ⊢
        rw [Nat.toDigits_of_base_le (by decide) (by omega)]
        refine ⟨?_, ?_⟩
        · intro c inside
          rcases List.mem_append.1 inside with inside | inside
          · exact hex c inside
          · rw [List.mem_singleton.1 inside]
            exact hexLast
        · rw [List.foldl_append, value, List.foldl_cons, List.foldl_nil, valueLast]
          omega

theorem inetWord_hexText {w : Nat} (isWord : w < 2 ^ 16) : inetWord (hexText w) = some w := by
  obtain ⟨hex, value⟩ := foldl_hexText w
  have short : (hexText w).length ≤ 4 :=
    (Nat.length_toDigits_le_iff (by decide) (by decide)).2 (by omega)
  rw [inetWord, if_pos ⟨Nat.toDigits_ne_nil, short, List.all_eq_true.2 hex⟩, value]

/-- A word's text is not empty and has no colon. -/
theorem hexText_field (w : Nat) : hexText w ≠ [] ∧ ':' ∉ hexText w := by
  refine ⟨Nat.toDigits_ne_nil, ?_⟩
  intro inside
  exact absurd ((foldl_hexText w).1 ':' inside) (by decide)

/-- The eight words of an address. -/
def toWords (x : Nat) : List Nat := List.ofFn fun i : Fin 8 => x / 2 ^ (16 * (7 - i.val)) % 2 ^ 16

theorem ofWords_toWords {x : Nat} (isAddress : x < 2 ^ 128) : ofWords (toWords x) = x := by
  simp [toWords, ofWords, List.ofFn_succ]
  omega

/-! ## Fields and colons -/

/-- The fields with colons between them. -/
def joined (fs : List (List Char)) : List Char := [':'].intercalate fs

/-- Not empty, and without a colon. -/
def IsField (f : List Char) : Prop := f ≠ [] ∧ ':' ∉ f

theorem joined_cons_cons (f g : List Char) (fs : List (List Char)) :
    joined (f :: g :: fs) = f ++ ':' :: joined (g :: fs) := by
  simp [joined, List.intercalate, List.intersperse]

theorem joined_ne_nil {f : List Char} {fs : List (List Char)} (isField : IsField f) :
    joined (f :: fs) ≠ [] := by
  cases fs with
  | nil => simpa [joined, List.intercalate] using isField.1
  | cons g fs =>
      rw [joined_cons_cons]
      simp

/-- Fields with colons between them begin with no colon. -/
theorem head_joined {f : List Char} {fs : List (List Char)} (isField : IsField f) (rest : List Char) :
    (joined (f :: fs) ++ rest).head? ≠ some ':' := by
  obtain ⟨c, f, rfl⟩ := List.exists_cons_of_ne_nil isField.1
  have other : c ≠ ':' := by
    rintro rfl
    exact isField.2 List.mem_cons_self
  cases fs with
  | nil => simpa [joined, List.intercalate] using other
  | cons g fs =>
      rw [joined_cons_cons]
      simpa using other

theorem splitOn_joined {fs : List (List Char)} (areFields : ∀ f ∈ fs, IsField f) (some_ : fs ≠ []) :
    (joined fs).splitOn ':' = fs :=
  List.splitOn_intercalate ':' (fun f member => (areFields f member).2) some_

theorem sideFields_joined {fs : List (List Char)} (areFields : ∀ f ∈ fs, IsField f) :
    sideFields (joined fs) = fs := by
  cases fs with
  | nil => rfl
  | cons f fs =>
      rw [sideFields, if_neg (joined_ne_nil (areFields f List.mem_cons_self)),
        splitOn_joined areFields (List.cons_ne_nil f fs)]

theorem atDoubleColon_append {s : List Char} (noColon : ':' ∉ s) (rest : List Char) :
    atDoubleColon (s ++ rest) = (atDoubleColon rest).map fun p => (s ++ p.1, p.2) := by
  induction s with
  | nil => simp
  | cons c s ih =>
      have other : c ≠ ':' := by
        rintro rfl
        exact noColon List.mem_cons_self
      rw [List.cons_append, atDoubleColon, if_neg fun both => other both.1,
        ih fun inside => noColon (List.mem_cons_of_mem c inside), Option.map_map]
      rfl

/-- The first `::` is the one behind the fields. -/
theorem atDoubleColon_joined {fs : List (List Char)} (areFields : ∀ f ∈ fs, IsField f)
    (back : List Char) :
    atDoubleColon (joined fs ++ ':' :: ':' :: back) = some (joined fs, back) := by
  induction fs with
  | nil => rfl
  | cons f fs ih =>
      have isField := areFields f List.mem_cons_self
      cases fs with
      | nil =>
          have one : joined [f] = f := by simp [joined, List.intercalate]
          rw [one, atDoubleColon_append isField.2]
          simp [atDoubleColon]
      | cons g fs =>
          have later := ih fun h member => areFields h (List.mem_cons_of_mem f member)
          have single : (joined (g :: fs) ++ ':' :: ':' :: back).head? ≠ some ':' :=
            head_joined (areFields g (List.mem_cons_of_mem f List.mem_cons_self)) _
          rw [joined_cons_cons, List.append_assoc, List.cons_append, atDoubleColon_append isField.2,
            atDoubleColon, if_neg fun both => single both.2, later]
          rfl

/-- Fields alone have none. -/
theorem atDoubleColon_fields {fs : List (List Char)} (areFields : ∀ f ∈ fs, IsField f) :
    atDoubleColon (joined fs) = none := by
  induction fs with
  | nil => rfl
  | cons f fs ih =>
      have isField := areFields f List.mem_cons_self
      cases fs with
      | nil =>
          have one : joined [f] = f ++ [] := by simp [joined, List.intercalate]
          rw [one, atDoubleColon_append isField.2]
          rfl
      | cons g fs =>
          have later := ih fun h member => areFields h (List.mem_cons_of_mem f member)
          have single : (joined (g :: fs)).head? ≠ some ':' := by
            rw [← List.append_nil (joined (g :: fs))]
            exact head_joined (areFields g (List.mem_cons_of_mem f List.mem_cons_self)) []
          rw [joined_cons_cons, atDoubleColon_append isField.2, atDoubleColon,
            if_neg fun both => single both.2, later]
          rfl

/-! ## Reading the fields -/

theorem isField_hexText {ws : List Nat} : ∀ f ∈ ws.map hexText, IsField f := by
  intro f member
  obtain ⟨w, -, rfl⟩ := List.mem_map.1 member
  exact hexText_field w

theorem mapM_inetWord_hexText {ws : List Nat} (areWords : ∀ w ∈ ws, w < 2 ^ 16) :
    (ws.map hexText).mapM inetWord = some ws := by
  induction ws with
  | nil => rfl
  | cons w ws ih =>
      rw [List.map_cons, List.mapM_cons, inetWord_hexText (areWords w List.mem_cons_self),
        ih fun v member => areWords v (List.mem_cons_of_mem w member)]
      rfl

/-- Words, and what the last fields read as. -/
theorem inetWords_hexText {ws : List Nat} (areWords : ∀ w ∈ ws, w < 2 ^ 16) {fs : List (List Char)}
    {vs : List Nat} (lastFields : inetWords fs = some vs) :
    inetWords (ws.map hexText ++ fs) = some (ws ++ vs) := by
  induction ws with
  | nil => exact lastFields
  | cons w ws ih =>
      have first := inetWord_hexText (areWords w List.mem_cons_self)
      have rest := ih fun v member => areWords v (List.mem_cons_of_mem w member)
      rw [List.map_cons, List.cons_append, List.cons_append]
      cases tail : ws.map hexText ++ fs with
      | nil =>
          rw [tail] at rest
          have nothing : ws ++ vs = [] := (Option.some.inj rest).symm
          rw [inetWords, first, nothing]
      | cons g gs =>
          rw [tail] at rest
          rw [inetWords, first, rest]
          rfl

/-- **The full form.** -/
theorem inetPton6_full {ws : List Nat} (eight : ws.length = 8) (areWords : ∀ w ∈ ws, w < 2 ^ 16) :
    inetPton6 (joined (ws.map hexText)) = some (ofWords ws) := by
  have some_ : ws.map hexText ≠ [] := by
    intro empty
    rw [List.map_eq_nil_iff.1 empty] at eight
    cases eight
  have words : inetWords (ws.map hexText) = some ws := by
    have read := inetWords_hexText areWords (rfl : inetWords [] = some [])
    rwa [List.append_nil, List.append_nil] at read
  rw [inetPton6, atDoubleColon_fields isField_hexText]
  simp only [splitOn_joined isField_hexText some_, words, Option.bind_eq_bind, Option.bind_some,
    if_pos eight]

/-- **The form with a run left out**: some words, `::`, and fields that read as the words after it. -/
theorem inetPton6_compressed {front vs : List Nat} {fs : List (List Char)}
    (areWords : ∀ w ∈ front, w < 2 ^ 16) (areFields : ∀ f ∈ fs, IsField f)
    (read : inetWords fs = some vs) (fits : front.length + vs.length ≤ 7) :
    inetPton6 (joined (front.map hexText) ++ ':' :: ':' :: joined fs) =
      some (ofWords (front ++ List.replicate (8 - (front.length + vs.length)) 0 ++ vs)) := by
  rw [inetPton6, atDoubleColon_joined isField_hexText]
  simp only [sideFields_joined isField_hexText, sideFields_joined areFields,
    mapM_inetWord_hexText areWords, read, Option.bind_eq_bind, Option.bind_some, if_pos fits]

/-! ## The longest run of zeroes -/

/-- A run of zero words: where it begins, and how long it is. -/
structure ZeroRun where
  base : Nat
  len : Nat
  deriving DecidableEq, Repr

/-- The current run replaces the best one if it is longer. -/
def better (best cur : Option ZeroRun) : Option ZeroRun :=
  match best, cur with
  | best, none => best
  | none, some cur => some cur
  | some best, some cur => if best.len < cur.len then some cur else some best

/-- The loop over the words, from the word `i` on. -/
def scanZeros : Nat → Option ZeroRun → Option ZeroRun → List Nat → Option ZeroRun
  | _, best, cur, [] => better best cur
  | i, best, cur, w :: ws =>
      if w = 0 then
        let cur := match cur with
          | none => ⟨i, 1⟩
          | some cur => { cur with len := cur.len + 1 }
        scanZeros (i + 1) best (some cur) ws
      else scanZeros (i + 1) (better best cur) none ws

/-- The run that is left out; a single zero is not. -/
def zeroRun (ws : List Nat) : Option ZeroRun := (scanZeros 0 none none ws).filter (2 ≤ ·.len)

/-- The words of the run are zeroes, and those before it and after it are the others. -/
def ZeroRun.In (run : ZeroRun) (ws : List Nat) : Prop :=
  ws = ws.take run.base ++ List.replicate run.len 0 ++ ws.drop (run.base + run.len) ∧
    run.base + run.len ≤ ws.length

theorem better_cases {best cur found : Option ZeroRun} (same : better best cur = found) :
    found = best ∨ found = cur := by
  unfold better at same
  split at same
  · exact .inl same.symm
  · exact .inr same.symm
  · split at same
    · exact .inr same.symm
    · exact .inl same.symm

/-- A run that ends where the words do. -/
theorem ZeroRun.In.grow {cur : ZeroRun} {seen : List Nat} (inside : cur.In seen)
    (last : cur.base + cur.len = seen.length) :
    ({ cur with len := cur.len + 1 } : ZeroRun).In (seen ++ [0]) := by
  obtain ⟨whole, -⟩ := inside
  rw [List.drop_eq_nil_of_le (by omega), List.append_nil] at whole
  have front : (seen ++ [0]).take cur.base = seen.take cur.base :=
    List.take_append_of_le_length (by omega)
  have back : (seen ++ [0]).drop (cur.base + (cur.len + 1)) = [] :=
    List.drop_eq_nil_of_le (by simp; omega)
  refine ⟨?_, by simp; omega⟩
  show seen ++ [0] = (seen ++ [0]).take cur.base ++ List.replicate (cur.len + 1) 0 ++
    (seen ++ [0]).drop (cur.base + (cur.len + 1))
  rw [front, back, List.append_nil, List.replicate_succ', ← List.append_assoc, ← whole]

theorem ZeroRun.In.later {run : ZeroRun} {seen : List Nat} (inside : run.In seen) (w : Nat) :
    run.In (seen ++ [w]) := by
  obtain ⟨whole, fits⟩ := inside
  refine ⟨?_, by simp; omega⟩
  rw [List.take_append_of_le_length (by omega), List.drop_append_of_le_length fits,
    ← List.append_assoc, ← whole]

theorem better_in {seen : List Nat} {best cur : Option ZeroRun} (bestIn : ∀ run ∈ best, run.In seen)
    (curIn : ∀ run ∈ cur, run.In seen) : ∀ run ∈ better best cur, run.In seen := by
  intro run found
  rcases better_cases found with same | same
  · exact bestIn run same.symm
  · exact curIn run same.symm

theorem ZeroRun.in_one (seen : List Nat) : ({ base := seen.length, len := 1 } : ZeroRun).In (seen ++ [0]) := by
  refine ⟨?_, by simp⟩
  simp

/-- **The loop finds runs of zeroes only**: `cur` ends at the word it has come to, `best` anywhere. -/
theorem scanZeros_spec (ws seen : List Nat) {best cur : Option ZeroRun}
    (bestIn : ∀ run ∈ best, run.In seen)
    (curIn : ∀ run ∈ cur, run.In seen ∧ run.base + run.len = seen.length) :
    ∀ run ∈ scanZeros seen.length best cur ws, run.In (seen ++ ws) := by
  induction ws generalizing seen best cur with
  | nil =>
      rw [List.append_nil]
      exact better_in bestIn fun run member => (curIn run member).1
  | cons w ws ih =>
      have length : (seen ++ [w]).length = seen.length + 1 := by simp
      have whole : seen ++ w :: ws = (seen ++ [w]) ++ ws := by simp
      have bestLater : ∀ run ∈ best, run.In (seen ++ [w]) :=
        fun run member => (bestIn run member).later w
      simp only [scanZeros, whole, ← length]
      split
      · rename_i zero
        subst zero
        refine ih (seen ++ [0]) bestLater ?_
        rintro run ⟨⟩
        cases cur with
        | none => exact ⟨ZeroRun.in_one seen, by simp⟩
        | some cur =>
            obtain ⟨inside, last⟩ := curIn cur rfl
            exact ⟨inside.grow last, by simp; omega⟩
      · refine ih (seen ++ [w]) (better_in bestLater ?_) (by rintro run ⟨⟩)
        exact fun run member => (curIn run member).1.later w

theorem zeroRun_spec {ws : List Nat} {run : ZeroRun} (found : zeroRun ws = some run) :
    run.In ws ∧ 2 ≤ run.len := by
  obtain ⟨scanned, long⟩ := Option.filter_eq_some_iff.1 found
  have inside := scanZeros_spec ws [] (by rintro run ⟨⟩) (by rintro run ⟨⟩) run scanned
  exact ⟨inside, of_decide_eq_true long⟩

/-! ## IPv6 -/

/-- `inet_ntop(AF_INET6, ...)`. -/
def inetNtop6 (x : Nat) : List Char :=
  let ws := toWords x
  match zeroRun ws with
  | none => joined (ws.map hexText)
  | some run =>
      -- the last two words as an IPv4 address
      if run.base = 0 ∧ (run.len = 6 ∨ run.len = 5 ∧ ws[5]? = some 0xffff) then
        ':' :: ':' :: joined (((ws.drop run.len).take (6 - run.len)).map hexText ++
          [inetNtop4 (x % 2 ^ 32)])
      else
        joined ((ws.take run.base).map hexText) ++
          ':' :: ':' :: joined ((ws.drop (run.base + run.len)).map hexText)

theorem toWords_isWord {x : Nat} : ∀ w ∈ toWords x, w < 2 ^ 16 := by
  intro w member
  obtain ⟨i, rfl⟩ := List.mem_ofFn.1 member
  exact Nat.mod_lt _ (by decide)

theorem length_toWords (x : Nat) : (toWords x).length = 8 := List.length_ofFn

/-- The last two words are the last four bytes. -/
theorem drop_toWords (x : Nat) :
    (toWords x).drop 6 = [x % 2 ^ 32 / 2 ^ 16, x % 2 ^ 32 % 2 ^ 16] := by
  simp [toWords, List.ofFn_succ]
  omega

/-- An IPv4 address behind words. -/
theorem inetWords_ipv4 {ws : List Nat} (areWords : ∀ w ∈ ws, w < 2 ^ 16) {v : Nat}
    (isAddress : v < 2 ^ 32) :
    inetWords (ws.map hexText ++ [inetNtop4 v]) = some (ws ++ [v / 2 ^ 16, v % 2 ^ 16]) := by
  apply inetWords_hexText areWords
  have read := inetPton4_inetNtop4 isAddress
  rw [inetWords, not_inetWord read, read]
  rfl

theorem isField_inetNtop4 {v : Nat} (isAddress : v < 2 ^ 32) : IsField (inetNtop4 v) := by
  have read := inetPton4_inetNtop4 isAddress
  refine ⟨?_, colon_not_mem read⟩
  intro empty
  rw [empty] at read
  cases read

/-- The words of an address with a run left out are its words. -/
theorem ofWords_run {x : Nat} (isAddress : x < 2 ^ 128) {run : ZeroRun} (inside : run.In (toWords x))
    {front vs : List Nat} (before : (toWords x).take run.base = front)
    (after : (toWords x).drop (run.base + run.len) = vs) :
    ofWords (front ++ List.replicate (8 - (front.length + vs.length)) 0 ++ vs) = x := by
  obtain ⟨whole, fits⟩ := inside
  have eight := length_toWords x
  have count : 8 - (front.length + vs.length) = run.len := by
    rw [← before, ← after, List.length_take, List.length_drop, eight]
    omega
  rw [count, ← before, ← after, ← whole, ofWords_toWords isAddress]

/-- **Reading gives the address back.** -/
theorem inetPton6_inetNtop6 {x : Nat} (isAddress : x < 2 ^ 128) :
    inetPton6 (inetNtop6 x) = some x := by
  unfold inetNtop6
  dsimp only
  cases found : zeroRun (toWords x) with
  | none =>
      dsimp only
      rw [inetPton6_full (length_toWords x) toWords_isWord, ofWords_toWords isAddress]
  | some run =>
      obtain ⟨inside, long⟩ := zeroRun_spec found
      have eight := length_toWords x
      have fits : run.base + run.len ≤ 8 := eight ▸ inside.2
      have isWord : ∀ n, ∀ w ∈ (toWords x).drop n, w < 2 ^ 16 :=
        fun n w member => toWords_isWord w (List.mem_of_mem_drop member)
      dsimp only
      split
      · rename_i ipv4
        obtain ⟨start, length⟩ := ipv4
        have upTo : run.len ≤ 6 := by
          rcases length with six | ⟨five, -⟩ <;> omega
        have v4 : x % 2 ^ 32 < 2 ^ 32 := Nat.mod_lt _ (by decide)
        have middle : ∀ w ∈ ((toWords x).drop run.len).take (6 - run.len), w < 2 ^ 16 :=
          fun w member => isWord _ w (List.mem_of_mem_take member)
        have areFields : ∀ f ∈ (((toWords x).drop run.len).take (6 - run.len)).map hexText ++
            [inetNtop4 (x % 2 ^ 32)], IsField f := by
          intro f member
          rcases List.mem_append.1 member with member | member
          · exact isField_hexText f member
          · rw [List.mem_singleton.1 member]
            exact isField_inetNtop4 v4
        have after : (toWords x).drop (run.base + run.len) =
            ((toWords x).drop run.len).take (6 - run.len) ++
              [x % 2 ^ 32 / 2 ^ 16, x % 2 ^ 32 % 2 ^ 16] := by
          rw [← drop_toWords, start, Nat.zero_add]
          have rest : (toWords x).drop 6 = ((toWords x).drop run.len).drop (6 - run.len) := by
            rw [List.drop_drop]
            congr 1
            omega
          rw [rest, List.take_append_drop]
        have none_ : (toWords x).take run.base = [] := by rw [start, List.take_zero]
        have noWords : ∀ w ∈ ([] : List Nat), w < 2 ^ 16 := fun w member => absurd member List.not_mem_nil
        have text := inetPton6_compressed noWords areFields (inetWords_ipv4 middle v4) (by simp; omega)
        rw [ofWords_run isAddress inside none_ after] at text
        exact text
      · have read := inetWords_hexText (isWord (run.base + run.len)) (rfl : inetWords [] = some [])
        rw [List.append_nil, List.append_nil] at read
        rw [inetPton6_compressed (fun w member => toWords_isWord w (List.mem_of_mem_take member))
          isField_hexText read (by simp; omega), ofWords_run isAddress inside rfl rfl]

/-- `::` and `::1`, a mapped address, and one with two runs. -/
example : (inetNtop6 0, inetNtop6 1, inetNtop6 0xffff01020304,
    inetNtop6 0x20010db8000000000001000000000001) =
      ("::".toList, "::1".toList, "::ffff:1.2.3.4".toList, "2001:db8::1:0:0:1".toList) := by
  decide +kernel

end Koisyn.Theory.InetText
