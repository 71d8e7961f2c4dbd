/-
# Koisyn.Theory.InetText — the standard text forms of internet addresses

`inetPton4` and `inetPton6` are the conversions of `inet_pton` for its two address families: an IPv4
address is four decimal bytes without leading zeroes, an IPv6 address eight hexadecimal words of which one run of zeroes may be
written `::` and the last two as an IPv4 address.  Addresses are numbers, most significant byte first.

What an accepted text looks like (`inetPton4_text`, `inetPton6_text`): its characters, its length, its
colons.  `inetPton6_mapped`: an IPv4 text after `::FFFF:` is an IPv6 text, and `inetPton6_mapped_port`:
with a colon and anything after it, it is not.  Every address has a text (`inetPton4_dotted`,
`inetPton6_groups`).
-/
import Mathlib.Algebra.BigOperators.Group.List.Basic
import Mathlib.Algebra.GroupWithZero.Nat

namespace Koisyn.Theory.InetText

set_option autoImplicit false

/-! ## A text and its fields -/

section Fields

variable (sep : Char)

theorem splitOn_cons_self (s : List Char) : (sep :: s).splitOn sep = [] :: s.splitOn sep := by
  rw [List.splitOn_cons_eq_if_modifyHead, if_pos (beq_self_eq_true sep)]

theorem splitOn_cons_other {sep c : Char} (other : c ≠ sep) {s f : List Char}
    {fs : List (List Char)} (split : s.splitOn sep = f :: fs) :
    (c :: s).splitOn sep = (c :: f) :: fs := by
  rw [List.splitOn_cons_eq_if_modifyHead, if_neg (by simpa using other), split, List.modifyHead_cons]

theorem length_eq_of_splitOn (s : List Char) :
    s.length + 1 = ((s.splitOn sep).map fun f => f.length + 1).sum := by
  induction s with
  | nil => rfl
  | cons c s ih =>
      by_cases same : c = sep
      · rw [same, splitOn_cons_self, List.map_cons, List.sum_cons, ← ih, List.length_cons]
        exact Nat.add_comm _ _
      · obtain ⟨f, fs, split⟩ := List.exists_cons_of_ne_nil (List.splitOn_ne_nil sep s)
        rw [split, List.map_cons, List.sum_cons] at ih
        rw [splitOn_cons_other same split, List.map_cons, List.sum_cons, List.length_cons,
          List.length_cons]
        omega

theorem count_eq_of_splitOn (s : List Char) : s.count sep + 1 = (s.splitOn sep).length := by
  induction s with
  | nil => rfl
  | cons c s ih =>
      by_cases same : c = sep
      · rw [same, splitOn_cons_self, List.count_cons_self, ih, List.length_cons]
      · obtain ⟨f, fs, split⟩ := List.exists_cons_of_ne_nil (List.splitOn_ne_nil sep s)
        rw [splitOn_cons_other same split, List.count_cons_of_ne (by simpa using same), ih, split,
          List.length_cons, List.length_cons]

/-- Every character is a separator or in a field. -/
theorem mem_splitOn_of_mem {s : List Char} {c : Char} (inside : c ∈ s) :
    c = sep ∨ ∃ f ∈ s.splitOn sep, c ∈ f := by
  induction s with
  | nil => exact absurd inside List.not_mem_nil
  | cons d s ih =>
      by_cases same : d = sep
      · rw [same, splitOn_cons_self]
        rcases List.mem_cons.1 inside with rfl | inside
        · exact .inl same
        · rcases ih inside with isSep | ⟨f, member, inside⟩
          · exact .inl isSep
          · exact .inr ⟨f, List.mem_cons_of_mem _ member, inside⟩
      · obtain ⟨f, fs, split⟩ := List.exists_cons_of_ne_nil (List.splitOn_ne_nil sep s)
        rw [splitOn_cons_other same split]
        rw [split] at ih
        rcases List.mem_cons.1 inside with rfl | inside
        · exact .inr ⟨c :: f, List.mem_cons_self, List.mem_cons_self⟩
        · rcases ih inside with isSep | ⟨g, member, inside⟩
          · exact .inl isSep
          · rcases List.mem_cons.1 member with rfl | member
            · exact .inr ⟨d :: g, List.mem_cons_self, List.mem_cons_of_mem d inside⟩
            · exact .inr ⟨g, List.mem_cons_of_mem _ member, inside⟩

end Fields

/-! ## IPv4 -/

/-- One to three decimal digits, at most 255, of which only a single one may begin with a zero. -/
def inetByte (f : List Char) : Option Nat :=
  if f ≠ [] ∧ f.length ≤ 3 ∧ f.all (·.isDigit) = true ∧ (f.head? = some '0' → f.length = 1) ∧
      Nat.ofDigitChars 10 f 0 ≤ 255 then
    some (Nat.ofDigitChars 10 f 0)
  else none

/-- `inet_pton(AF_INET, ...)`: `ddd.ddd.ddd.ddd`. -/
def inetPton4 (s : List Char) : Option Nat :=
  match s.splitOn '.' with
  | [e, f, g, h] => do
      let a ← inetByte e
      let b ← inetByte f
      let c ← inetByte g
      let d ← inetByte h
      some (((a * 256 + b) * 256 + c) * 256 + d)
  | _ => none

theorem inetByte_eq_some {f : List Char} {a : Nat} (accepted : inetByte f = some a) :
    f.length ≤ 3 ∧ (∀ c ∈ f, c.isDigit = true) ∧ a ≤ 255 := by
  rw [inetByte] at accepted
  split at accepted
  · next shape =>
      obtain rfl := Option.some.inj accepted
      exact ⟨shape.2.1, List.all_eq_true.1 shape.2.2.1, shape.2.2.2.2⟩
  · cases accepted

/-- What an accepted IPv4 text is made of. -/
theorem inetPton4_fields {s : List Char} {v : Nat} (accepted : inetPton4 s = some v) :
    ∃ e f g h a b c d, s.splitOn '.' = [e, f, g, h] ∧ inetByte e = some a ∧ inetByte f = some b ∧
      inetByte g = some c ∧ inetByte h = some d ∧ v = ((a * 256 + b) * 256 + c) * 256 + d := by
  rw [inetPton4] at accepted
  split at accepted
  · next e f g h split =>
      simp only [Option.bind_eq_bind, Option.bind_eq_some_iff] at accepted
      obtain ⟨a, first, b, second, c, third, d, fourth, whole⟩ := accepted
      exact ⟨e, f, g, h, a, b, c, d, split, first, second, third, fourth,
        (Option.some.inj whole).symm⟩
  · cases accepted

/-- **The texts of IPv4 addresses**: at most fifteen digits and dots, with a dot. -/
theorem inetPton4_text {s : List Char} {v : Nat} (accepted : inetPton4 s = some v) :
    s.length ≤ 15 ∧ '.' ∈ s ∧ (∀ c ∈ s, c.isDigit = true ∨ c = '.') ∧ v < 2 ^ 32 := by
  obtain ⟨e, f, g, h, a, b, c, d, split, first, second, third, fourth, rfl⟩ :=
    inetPton4_fields accepted
  obtain ⟨lengthE, digitsE, boundA⟩ := inetByte_eq_some first
  obtain ⟨lengthF, digitsF, boundB⟩ := inetByte_eq_some second
  obtain ⟨lengthG, digitsG, boundC⟩ := inetByte_eq_some third
  obtain ⟨lengthH, digitsH, boundD⟩ := inetByte_eq_some fourth
  have whole := length_eq_of_splitOn '.' s
  have dots := count_eq_of_splitOn '.' s
  rw [split] at whole dots
  simp only [List.map_cons, List.map_nil, List.sum_cons, List.sum_nil] at whole
  refine ⟨by omega, ?_, ?_, by omega⟩
  · apply List.count_pos_iff.1
    simp only [List.length_cons, List.length_nil] at dots
    omega
  · intro c inside
    rcases mem_splitOn_of_mem '.' inside with isDot | ⟨field, member, inside⟩
    · exact .inr isDot
    · rw [split] at member
      simp only [List.mem_cons, List.not_mem_nil, or_false] at member
      rcases member with rfl | rfl | rfl | rfl
      · exact .inl (digitsE c inside)
      · exact .inl (digitsF c inside)
      · exact .inl (digitsG c inside)
      · exact .inl (digitsH c inside)

/-- The decimal text of a number does not begin with a zero, unless it is one. -/
theorem head?_toDigits {a : Nat} (positive : a ≠ 0) : (Nat.toDigits 10 a).head? ≠ some '0' := by
  induction a using Nat.strongRecOn with
  | ind a ih =>
      by_cases small : a < 10
      · rw [Nat.toDigits_of_lt_base small, List.head?_cons]
        have digits : ∀ n < 10, n ≠ 0 → some n.digitChar ≠ some '0' := by decide
        exact digits a small positive
      · rw [Nat.toDigits_of_base_le (by decide) (by omega),
          List.head?_append_of_ne_nil _ Nat.toDigits_ne_nil]
        exact ih (a / 10) (by omega) (by omega)

/-- The decimal text of a byte. -/
theorem inetByte_toDigits {a : Nat} (isByte : a < 256) : inetByte (Nat.toDigits 10 a) = some a := by
  have digits : ∀ c ∈ Nat.toDigits 10 a, c.isDigit = true :=
    fun c inside => Nat.isDigit_of_mem_toDigits (by decide) (by decide) inside
  have short : (Nat.toDigits 10 a).length ≤ 3 :=
    (Nat.length_toDigits_le_iff (by decide) (by decide)).2 (by omega)
  have value : Nat.ofDigitChars 10 (Nat.toDigits 10 a) 0 = a := Nat.ofDigitChars_ten_toDigits
  have noZero : (Nat.toDigits 10 a).head? = some '0' → (Nat.toDigits 10 a).length = 1 := by
    intro begins
    obtain rfl : a = 0 := Decidable.byContradiction fun positive => head?_toDigits positive begins
    rfl
  rw [inetByte, value,
    if_pos ⟨Nat.toDigits_ne_nil, short, List.all_eq_true.2 digits, noZero, by omega⟩]

/-- `a.b.c.d`. -/
def dotted (a b c d : Nat) : List Char :=
  ['.'].intercalate ([a, b, c, d].map (Nat.toDigits 10))

/-- Every IPv4 address has its text. -/
theorem inetPton4_dotted {a b c d : Nat} (first : a < 256) (second : b < 256) (third : c < 256)
    (fourth : d < 256) :
    inetPton4 (dotted a b c d) = some (((a * 256 + b) * 256 + c) * 256 + d) := by
  have noDot : ∀ f ∈ [a, b, c, d].map (Nat.toDigits 10), '.' ∉ f := by
    intro f member
    obtain ⟨n, _, rfl⟩ := List.mem_map.1 member
    intro inside
    exact absurd (Nat.isDigit_of_mem_toDigits (by decide) (by decide) inside) (by decide)
  rw [inetPton4, dotted, List.splitOn_intercalate '.' noDot (by simp)]
  simp only [List.map_cons, List.map_nil, inetByte_toDigits first, inetByte_toDigits second,
    inetByte_toDigits third, inetByte_toDigits fourth, Option.bind_eq_bind, Option.bind_some]

/-- A byte in two digits that begins with a zero is none. -/
example : inetPton4 "192.168.01.1".toList = none := by decide +kernel

/-! ## IPv6 -/

def isHexDigit (c : Char) : Bool :=
  c.isDigit || ('a'.val ≤ c.val && c.val ≤ 'f'.val) || ('A'.val ≤ c.val && c.val ≤ 'F'.val)

def hexValue (c : Char) : Nat :=
  if c.isDigit then c.toNat - 48 else if 'a'.val ≤ c.val then c.toNat - 87 else c.toNat - 55

/-- One to four hexadecimal digits. -/
def inetWord (f : List Char) : Option Nat :=
  if f ≠ [] ∧ f.length ≤ 4 ∧ f.all isHexDigit = true then
    some (f.foldl (fun w c => 16 * w + hexValue c) 0)
  else none

/-- The words of fields, of which the last may be an IPv4 address. -/
def inetWords : List (List Char) → Option (List Nat)
  | [] => some []
  | [f] =>
      match inetWord f with
      | some w => some [w]
      | none => (inetPton4 f).map fun v => [v / 2 ^ 16, v % 2 ^ 16]
  | f :: g :: fs => do
      let w ← inetWord f
      let ws ← inetWords (g :: fs)
      some (w :: ws)

/-- What stands before and after the first `::`. -/
def atDoubleColon : List Char → Option (List Char × List Char)
  | [] => none
  | c :: s =>
      if c = ':' ∧ s.head? = some ':' then some ([], s.tail)
      else (atDoubleColon s).map fun p => (c :: p.1, p.2)

/-- The fields of one side of a `::`, which may have none. -/
def sideFields (s : List Char) : List (List Char) := if s = [] then [] else s.splitOn ':'

def ofWords (words : List Nat) : Nat := words.foldl (fun x w => 2 ^ 16 * x + w) 0

/-- `inet_pton(AF_INET6, ...)`: `x:x:x:x:x:x:x:x`, or shorter with `::`, the last two words also as
`d.d.d.d`. -/
def inetPton6 (s : List Char) : Option Nat :=
  match atDoubleColon s with
  | none => do
      let words ← inetWords (s.splitOn ':')
      if words.length = 8 then some (ofWords words) else none
  | some (front, back) => do
      let before ← (sideFields front).mapM inetWord
      let after ← inetWords (sideFields back)
      if before.length + after.length ≤ 7 then
        some (ofWords (before ++ List.replicate (8 - (before.length + after.length)) 0 ++ after))
      else none

/-- The characters of IPv6 texts. -/
def TextChar (c : Char) : Prop := isHexDigit c = true ∨ c = ':' ∨ c = '.'

theorem inetWord_eq_some {f : List Char} {w : Nat} (accepted : inetWord f = some w) :
    f.length ≤ 4 ∧ ∀ c ∈ f, isHexDigit c = true := by
  rw [inetWord] at accepted
  split at accepted
  · next shape => exact ⟨shape.2.1, List.all_eq_true.1 shape.2.2⟩
  · cases accepted

/-- A field with any other character is not a word. -/
theorem inetWord_eq_none {f : List Char} {c : Char} (inside : c ∈ f) (other : isHexDigit c = false) :
    inetWord f = none := by
  rw [inetWord, if_neg]
  intro shape
  rw [List.all_eq_true.1 shape.2.2 c inside] at other
  cases other

theorem isHexDigit_of_isDigit {c : Char} (digit : c.isDigit = true) : isHexDigit c = true := by
  rw [isHexDigit, digit]
  rfl

/-- A word takes up to five characters of the text, the colon after it counted; an IPv4 address at the
end up to six more than its two words. -/
theorem inetWords_text {fs : List (List Char)} {ws : List Nat} (accepted : inetWords fs = some ws) :
    (fs.map fun f => f.length + 1).sum ≤ 5 * ws.length + 6 ∧ ws.length ≤ fs.length + 1 ∧
      ∀ f ∈ fs, ∀ c ∈ f, TextChar c := by
  induction fs using inetWords.induct generalizing ws with
  | case1 =>
      obtain rfl := Option.some.inj accepted
      simp
  | case2 f w isWord =>
      rw [inetWords, isWord] at accepted
      obtain rfl := Option.some.inj accepted
      obtain ⟨short, hex⟩ := inetWord_eq_some isWord
      refine ⟨by simp; omega, by simp, ?_⟩
      intro g member c inside
      obtain rfl := List.mem_singleton.1 member
      exact .inl (hex c inside)
  | case3 f notWord =>
      rw [inetWords, notWord] at accepted
      obtain ⟨v, isAddress, rfl⟩ := Option.map_eq_some_iff.1 accepted
      obtain ⟨short, _, chars, _⟩ := inetPton4_text isAddress
      refine ⟨by simp; omega, by simp, ?_⟩
      intro g member c inside
      obtain rfl := List.mem_singleton.1 member
      rcases chars c inside with digit | dot
      · exact .inl (isHexDigit_of_isDigit digit)
      · exact .inr (.inr dot)
  | case4 f g fs ih =>
      rw [inetWords] at accepted
      simp only [Option.bind_eq_bind, Option.bind_eq_some_iff] at accepted
      obtain ⟨w, isWord, rest, areWords, whole⟩ := accepted
      obtain rfl := Option.some.inj whole
      obtain ⟨short, hex⟩ := inetWord_eq_some isWord
      obtain ⟨length, number, chars⟩ := ih areWords
      rw [List.map_cons, List.sum_cons]
      simp only [List.length_cons] at number ⊢
      refine ⟨by omega, by omega, ?_⟩
      intro h member c inside
      rcases List.mem_cons.1 member with rfl | member
      · exact .inl (hex c inside)
      · exact chars h member c inside

theorem mapM_inetWord_text {fs : List (List Char)} {ws : List Nat}
    (accepted : fs.mapM inetWord = some ws) :
    (fs.map fun f => f.length + 1).sum ≤ 5 * ws.length ∧ ∀ f ∈ fs, ∀ c ∈ f, TextChar c := by
  induction fs generalizing ws with
  | nil => simp
  | cons f fs ih =>
      rw [List.mapM_cons] at accepted
      simp only [Option.bind_eq_bind, Option.bind_eq_some_iff, Option.pure_def] at accepted
      obtain ⟨w, isWord, rest, areWords, whole⟩ := accepted
      obtain rfl := Option.some.inj whole
      obtain ⟨short, hex⟩ := inetWord_eq_some isWord
      obtain ⟨length, chars⟩ := ih areWords
      rw [List.map_cons, List.sum_cons, List.length_cons]
      refine ⟨by omega, ?_⟩
      intro g member c inside
      rcases List.mem_cons.1 member with rfl | member
      · exact .inl (hex c inside)
      · exact chars g member c inside

/-- One side of a `::`, from its fields. -/
theorem side_text {s : List Char} (chars : ∀ f ∈ sideFields s, ∀ c ∈ f, TextChar c) :
    s.length ≤ ((sideFields s).map fun f => f.length + 1).sum ∧ ∀ c ∈ s, TextChar c := by
  by_cases empty : s = []
  · subst empty
    exact ⟨Nat.zero_le _, fun c inside => absurd inside List.not_mem_nil⟩
  · rw [sideFields, if_neg empty] at chars ⊢
    refine ⟨by have := length_eq_of_splitOn ':' s; omega, ?_⟩
    intro c inside
    rcases mem_splitOn_of_mem ':' inside with isColon | ⟨f, member, inside⟩
    · exact .inr (.inl isColon)
    · exact chars f member c inside

theorem atDoubleColon_eq_some {s front back : List Char}
    (found : atDoubleColon s = some (front, back)) : s = front ++ ':' :: ':' :: back := by
  induction s generalizing front with
  | nil => cases found
  | cons c s ih =>
      rw [atDoubleColon] at found
      split at found
      · next colons =>
          obtain ⟨rfl, rfl⟩ := Prod.mk.inj (Option.some.inj found)
          obtain ⟨rfl, second⟩ := colons
          cases s with
          | nil => cases second
          | cons d s =>
              obtain rfl := Option.some.inj second
              rfl
      · obtain ⟨⟨front', back'⟩, inner, pair⟩ := Option.map_eq_some_iff.1 found
        obtain ⟨rfl, rfl⟩ := Prod.mk.inj pair
        rw [ih inner]
        rfl

/-- **The texts of IPv6 addresses**: at most 45 hexadecimal digits, colons and dots, with two colons. -/
theorem inetPton6_text {s : List Char} {x : Nat} (accepted : inetPton6 s = some x) :
    s.length ≤ 45 ∧ 2 ≤ s.count ':' ∧ ∀ c ∈ s, TextChar c := by
  rw [inetPton6] at accepted
  split at accepted
  · simp only [Option.bind_eq_bind, Option.bind_eq_some_iff] at accepted
    obtain ⟨words, areWords, whole⟩ := accepted
    have eight : words.length = 8 := by
      by_contra other
      rw [if_neg other] at whole
      cases whole
    obtain ⟨length, number, chars⟩ := inetWords_text areWords
    have whole := length_eq_of_splitOn ':' s
    have colons := count_eq_of_splitOn ':' s
    refine ⟨by omega, by omega, ?_⟩
    intro c inside
    rcases mem_splitOn_of_mem ':' inside with isColon | ⟨f, member, inside⟩
    · exact .inr (.inl isColon)
    · exact chars f member c inside
  · next front back found =>
      simp only [Option.bind_eq_bind, Option.bind_eq_some_iff] at accepted
      obtain ⟨before, areBefore, after, areAfter, whole⟩ := accepted
      have atMostSeven : before.length + after.length ≤ 7 := by
        by_contra other
        rw [if_neg other] at whole
        cases whole
      obtain ⟨lengthBefore, charsBefore⟩ := mapM_inetWord_text areBefore
      obtain ⟨lengthAfter, _, charsAfter⟩ := inetWords_text areAfter
      obtain ⟨frontLength, frontChars⟩ := side_text charsBefore
      obtain ⟨backLength, backChars⟩ := side_text charsAfter
      rw [atDoubleColon_eq_some found]
      refine ⟨by simp only [List.length_append, List.length_cons]; omega, ?_, ?_⟩
      · rw [List.count_append, List.count_cons_self, List.count_cons_self]
        omega
      · intro c inside
        rcases List.mem_append.1 inside with inside | inside
        · exact frontChars c inside
        · rcases List.mem_cons.1 inside with rfl | inside
          · exact .inr (.inl rfl)
          · rcases List.mem_cons.1 inside with rfl | inside
            · exact .inr (.inl rfl)
            · exact backChars c inside

/-! ## A text for every address -/

/-- A word in four hexadecimal digits. -/
def wordText (w : Nat) : List Char :=
  [w / 16 ^ 3, w / 16 ^ 2 % 16, w / 16 % 16, w % 16].map Nat.digitChar

theorem hexValue_digitChar :
    ∀ n < 16, isHexDigit n.digitChar = true ∧ hexValue n.digitChar = n := by
  decide

theorem inetWord_wordText {w : Nat} (isWord : w < 2 ^ 16) : inetWord (wordText w) = some w := by
  obtain ⟨hex3, value3⟩ := hexValue_digitChar (w / 16 ^ 3) (by omega)
  obtain ⟨hex2, value2⟩ := hexValue_digitChar (w / 16 ^ 2 % 16) (by omega)
  obtain ⟨hex1, value1⟩ := hexValue_digitChar (w / 16 % 16) (by omega)
  obtain ⟨hex0, value0⟩ := hexValue_digitChar (w % 16) (by omega)
  have shape : ∀ c ∈ wordText w, isHexDigit c = true := by
    simp only [wordText, List.map_cons, List.map_nil, List.forall_mem_cons]
    exact ⟨hex3, hex2, hex1, hex0, fun c inside => absurd inside List.not_mem_nil⟩
  rw [inetWord, if_pos ⟨List.cons_ne_nil _ _, Nat.le_refl 4, List.all_eq_true.2 shape⟩]
  simp only [wordText, List.map_cons, List.map_nil, List.foldl_cons, List.foldl_nil, value3, value2,
    value1, value0]
  congr 1
  omega

theorem inetWords_wordText {ws : List Nat} (areWords : ∀ w ∈ ws, w < 2 ^ 16) :
    inetWords (ws.map wordText) = some ws := by
  induction ws with
  | nil => rfl
  | cons w ws ih =>
      have first := inetWord_wordText (areWords w List.mem_cons_self)
      have rest := ih fun v member => areWords v (List.mem_cons_of_mem w member)
      cases ws with
      | nil => rw [List.map_cons, List.map_nil, inetWords, first]
      | cons v ws =>
          rw [List.map_cons, List.map_cons, inetWords, first]
          rw [List.map_cons] at rest
          rw [rest]
          rfl

/-- `x:x:x:x:x:x:x:x`. -/
def groups (ws : List Nat) : List Char := [':'].intercalate (ws.map wordText)

/-- Every IPv6 address has its text. -/
theorem inetPton6_groups {ws : List Nat} (eight : ws.length = 8) (areWords : ∀ w ∈ ws, w < 2 ^ 16) :
    inetPton6 (groups ws) = some (ofWords ws) := by
  have noColon : ∀ f ∈ ws.map wordText, ':' ∉ f := by
    intro f member inside
    obtain ⟨w, isWord, rfl⟩ := List.mem_map.1 member
    have accepted := inetWord_wordText (areWords w isWord)
    rw [inetWord_eq_none inside (by decide)] at accepted
    cases accepted
  have split : (groups ws).splitOn ':' = ws.map wordText :=
    List.splitOn_intercalate ':' noColon fun empty => by
      rw [List.map_eq_nil_iff] at empty
      rw [empty] at eight
      cases eight
  have noDouble : atDoubleColon (groups ws) = none := by
    rw [Option.eq_none_iff_forall_not_mem]
    rintro ⟨front, back⟩ found
    rw [atDoubleColon_eq_some found, List.splitOn_append_cons_self, splitOn_cons_self] at split
    have empty : [] ∈ ws.map wordText := by
      rw [← split]
      exact List.mem_append_right _ List.mem_cons_self
    obtain ⟨w, _, same⟩ := List.mem_map.1 empty
    cases same
  rw [inetPton6, noDouble]
  simp only [split, inetWords_wordText areWords, Option.bind_eq_bind, Option.bind_some, if_pos eight]

/-! ## Mapped addresses -/

/-- `::FFFF:`, before the text of an IPv4 address. -/
def mappedPrefix : List Char := [':', ':', 'F', 'F', 'F', 'F', ':']

/-- The number of `::ffff:a.b.c.d`. -/
def mapped (v : Nat) : Nat := 0xffff * 2 ^ 32 + v

theorem colon_not_mem {s : List Char} {v : Nat} (accepted : inetPton4 s = some v) : ':' ∉ s := by
  intro inside
  rcases (inetPton4_text accepted).2.2.1 ':' inside with digit | dot
  · exact absurd digit (by decide)
  · exact absurd dot (by decide)

theorem not_inetWord {s : List Char} {v : Nat} (accepted : inetPton4 s = some v) :
    inetWord s = none :=
  inetWord_eq_none (inetPton4_text accepted).2.1 (by decide)

/-- The fields after the prefix's `::`. -/
theorem sideFields_ffff (s : List Char) :
    sideFields ('F' :: 'F' :: 'F' :: 'F' :: ':' :: s) = ['F', 'F', 'F', 'F'] :: s.splitOn ':' := by
  rw [sideFields, if_neg (List.cons_ne_nil _ _)]
  have none : ':' ∉ ['F', 'F', 'F', 'F'] := by decide
  exact List.splitOn_append_cons_self_of_not_mem none s

theorem inetPton6_mappedPrefix (s : List Char) :
    inetPton6 (mappedPrefix ++ s) =
      (inetWords (['F', 'F', 'F', 'F'] :: s.splitOn ':')).bind fun after =>
        if after.length ≤ 7 then some (ofWords (List.replicate (8 - after.length) 0 ++ after))
        else none := by
  have found : atDoubleColon (mappedPrefix ++ s) =
      some ([], 'F' :: 'F' :: 'F' :: 'F' :: ':' :: s) := rfl
  have nothing : (sideFields []).mapM inetWord = some [] := rfl
  rw [inetPton6, found]
  simp only [nothing, sideFields_ffff, Option.bind_eq_bind, Option.bind_some, List.length_nil,
    Nat.zero_add, List.nil_append]

theorem inetWord_ffff : inetWord ['F', 'F', 'F', 'F'] = some 0xffff := rfl

/-- **An IPv4 text after `::FFFF:` is the IPv6 text of the mapped address.** -/
theorem inetPton6_mapped {s : List Char} {v : Nat} (accepted : inetPton4 s = some v) :
    inetPton6 (mappedPrefix ++ s) = some (mapped v) := by
  have words : inetWords [['F', 'F', 'F', 'F'], s] = some [0xffff, v / 2 ^ 16, v % 2 ^ 16] := by
    rw [inetWords, inetWord_ffff, inetWords, not_inetWord accepted, accepted]
    rfl
  have number : ofWords [0, 0, 0, 0, 0, 0xffff, v / 2 ^ 16, v % 2 ^ 16] = mapped v := by
    simp only [ofWords, mapped, List.foldl_cons, List.foldl_nil]
    omega
  rw [inetPton6_mappedPrefix, List.splitOn_eq_singleton (colon_not_mem accepted), words, ← number]
  rfl

/-- **With a colon and anything after it, it is not an IPv6 text**: an IPv4 address is read at the end
only. -/
theorem inetPton6_mapped_port {s : List Char} {v : Nat} (accepted : inetPton4 s = some v)
    (port : List Char) : inetPton6 (mappedPrefix ++ (s ++ ':' :: port)) = none := by
  obtain ⟨f, fs, split⟩ := List.exists_cons_of_ne_nil (List.splitOn_ne_nil ':' port)
  have words : inetWords (['F', 'F', 'F', 'F'] :: s :: f :: fs) = none := by
    rw [inetWords, inetWord_ffff, inetWords, not_inetWord accepted]
    rfl
  rw [inetPton6_mappedPrefix, List.splitOn_append_cons_self_of_not_mem (colon_not_mem accepted),
    split, words]
  rfl

end Koisyn.Theory.InetText
