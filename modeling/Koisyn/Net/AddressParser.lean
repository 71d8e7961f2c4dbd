/-
# Koisyn.Net.AddressParser — the addresses that `TryParseMap6` reads

`TryParse` hands a text, copied when it is not terminated, to `QuicAddrFromString`, which reads an IPv4
address, or an IPv6 address, and a port after it; an IPv6 address with a port stands in brackets.
`TryParseMap6` maps an IPv4 address by reading its text again behind `::FFFF:`.

With a port that text is an IPv6 address and a port without brackets, which nothing reads.
`tryParseMap6_iff`: of the four forms, `TryParseMap6` reads all but the IPv4 address with a port.
-/
import Koisyn.Channel.Context
import Koisyn.Theory.InetText
import Mathlib.Data.List.TakeWhile

namespace Koisyn.Net

open Koisyn.Channel Koisyn.Theory.InetText

set_option autoImplicit false

/-! ## The functions -/

/-- `strchr`: the text from the first `c` on. -/
def strchr (s : List Char) (c : Char) : Option (List Char) :=
  if c ∈ s then some (s.dropWhile (· ≠ c)) else none

/-- `isspace`. -/
def isSpace (c : Char) : Bool := c = ' ' || (9 ≤ c.toNat && c.toNat ≤ 13)

/-- The number that the digits at the beginning are. -/
def leadingNumber (s : List Char) : Nat := Nat.ofDigitChars 10 (s.takeWhile (·.isDigit)) 0

/-- `atoi`, where the number is an `int`. -/
def atoi (s : List Char) : Int :=
  match s.dropWhile isSpace with
  | '-' :: s => -leadingNumber s
  | '+' :: s => leadingNumber s
  | s => leadingNumber s

/-- `htons(atoi(...))`, as a port in host order. -/
def portOf (s : List Char) : UInt16 := UInt16.ofInt (atoi s)

/-- `QuicAddr4FromString`; `none` is `FALSE`, with nothing written. -/
def quicAddr4FromString (addrStr : List Char) (addr : QuicAddr) : Option QuicAddr :=
  if addrStr.head? = some '[' then none
  else
    match strchr addrStr ':' with
    | some portStart =>
        if (strchr portStart.tail ':').isSome then none
        else
          let addrLength := addrStr.length - portStart.length
          if 16 ≤ addrLength then none
          else
            (inetPton4 (addrStr.take addrLength)).map fun v =>
              { addr with
                ipv4 := UInt32.ofNat v, port := portOf portStart.tail, family := .inet }
    | none =>
        (inetPton4 addrStr).map fun v => { addr with ipv4 := UInt32.ofNat v, family := .inet }

/-- `QuicAddr6FromString`. -/
def quicAddr6FromString (addrStr : List Char) (addr : QuicAddr) : Option QuicAddr :=
  if addrStr.head? = some '[' then
    match strchr addrStr ']' with
    | some bracketEnd =>
        if bracketEnd.tail.head? ≠ some ':' then none
        else
          let addrLength := addrStr.length - bracketEnd.length - 1
          if 64 ≤ addrLength then none
          else
            (inetPton6 (addrStr.tail.take addrLength)).map fun x =>
              { addr with
                ipv6 := BitVec.ofNat 128 x, port := portOf (bracketEnd.drop 2), family := .inet6 }
    | none => none
  else
    (inetPton6 addrStr).map fun x => { addr with ipv6 := BitVec.ofNat 128 x, family := .inet6 }

/-- `QuicAddrFromString`: whether it is one, and what is written. -/
def quicAddrFromString (addrStr : List Char) (port : UInt16) (addr : QuicAddr) : Bool × QuicAddr :=
  let addr := { addr with port := port }
  match quicAddr4FromString addrStr addr with
  | some addr => (true, addr)
  | none =>
      match quicAddr6FromString addrStr addr with
      | some addr => (true, addr)
      | none => (false, addr)

/-- A text up to its terminator. -/
def zstr (s : List Char) : List Char := s.takeWhile (· ≠ '\x00')

/-- `AddressParser::TryParse` of a view, which another character follows. -/
def tryParse (addrAndPort : List Char) (next : Char) (port : UInt16) (out : QuicAddr) :
    Bool × QuicAddr :=
  if next ≠ '\x00' then quicAddrFromString (zstr (addrAndPort.take 63)) port out
  else quicAddrFromString (zstr addrAndPort) port out

/-- `AddressParser::TryParseMap6`. -/
def tryParseMap6 (addrAndPort : List Char) (next : Char) (port : UInt16) (out : QuicAddr) :
    Bool × QuicAddr :=
  match tryParse addrAndPort next port out with
  | (false, out) => (false, out)
  | (true, out) =>
      if out.family = .inet then tryParse (mappedPrefix ++ addrAndPort.take 56) '\x00' port out
      else (true, out)

/-! ## The characters of a text -/

theorem strchr_append {s : List Char} {c : Char} (first : c ∉ s) (rest : List Char) :
    strchr (s ++ c :: rest) c = some (c :: rest) := by
  have others : ∀ d ∈ s, decide (d ≠ c) = true := by
    intro d inside
    exact decide_eq_true fun same => first (same ▸ inside)
  rw [strchr, if_pos (List.mem_append_right s List.mem_cons_self), List.dropWhile_append_of_pos others,
    List.dropWhile_cons_of_neg (by simp)]

theorem strchr_eq_none {s : List Char} {c : Char} (absent : c ∉ s) : strchr s c = none :=
  if_neg absent

theorem zstr_eq_self {s : List Char} (whole : '\x00' ∉ s) : zstr s = s := by
  apply List.takeWhile_eq_self_iff.2
  intro c inside
  exact decide_eq_true fun isEnd => whole (isEnd ▸ inside)

/-- A text of at most 63 characters is not cut. -/
theorem tryParse_eq {s : List Char} (short : s.length ≤ 63) (whole : '\x00' ∉ s) (next : Char)
    (port : UInt16) (out : QuicAddr) :
    tryParse s next port out = quicAddrFromString s port out := by
  rw [tryParse, List.take_of_length_le short, zstr_eq_self whole, ite_self]

theorem isSpace_of_isDigit {c : Char} (digit : c.isDigit = true) : isSpace c = false := by
  have range := Char.isDigit_iff_toNat.1 digit
  have large : ¬ c.toNat ≤ 32 := fun small => absurd (Nat.le_trans range.1 small) (by decide)
  have notBlank : c ≠ ' ' := by
    rintro rfl
    exact large (by decide)
  simp only [isSpace, notBlank, decide_false, Bool.false_or, Bool.and_eq_false_iff,
    decide_eq_false_iff_not]
  omega

/-- `atoi` of digits alone. -/
theorem atoi_digits {s : List Char} (digits : ∀ c ∈ s, c.isDigit = true) :
    atoi s = Nat.ofDigitChars 10 s 0 := by
  have whole : s.takeWhile (·.isDigit) = s := List.takeWhile_eq_self_iff.2 digits
  have noSpace : s.dropWhile isSpace = s := by
    cases s with
    | nil => rfl
    | cons c s =>
        apply List.dropWhile_cons_of_neg
        rw [isSpace_of_isDigit (digits c List.mem_cons_self)]
        exact Bool.false_ne_true
  rw [atoi, noSpace]
  split
  · next rest => exact absurd (digits '-' List.mem_cons_self) (by decide)
  · next rest => exact absurd (digits '+' List.mem_cons_self) (by decide)
  · rw [leadingNumber, whole]

/-- The decimal text of a port. -/
def portText (p : UInt16) : List Char := Nat.toDigits 10 p.toNat

theorem isDigit_of_mem_portText {p : UInt16} {c : Char} (inside : c ∈ portText p) :
    c.isDigit = true :=
  Nat.isDigit_of_mem_toDigits (by decide) (by decide) inside

theorem not_mem_portText (p : UInt16) {c : Char} (other : c.isDigit = false) : c ∉ portText p := by
  intro inside
  rw [isDigit_of_mem_portText inside] at other
  cases other

theorem portText_length (p : UInt16) : (portText p).length ≤ 5 :=
  (Nat.length_toDigits_le_iff (by decide) (by decide)).2 (by have := p.toNat_lt; omega)

theorem portOf_portText (p : UInt16) : portOf (portText p) = p := by
  rw [portOf, atoi_digits fun c inside => isDigit_of_mem_portText inside, portText,
    Nat.ofDigitChars_ten_toDigits, UInt16.ofInt]
  have inRange : ((p.toNat : Int) % 2 ^ 16).toNat = p.toNat := by
    have := p.toNat_lt
    omega
  rw [inRange]
  exact UInt16.ofNat_toNat

theorem not_mem_text4 {s : List Char} {v : Nat} (accepted : inetPton4 s = some v) {c : Char}
    (other : c.isDigit = false) (notDot : c ≠ '.') : c ∉ s := by
  intro inside
  rcases (inetPton4_text accepted).2.2.1 c inside with digit | dot
  · rw [other] at digit
    cases digit
  · exact notDot dot

theorem not_mem_text6 {s : List Char} {x : Nat} (accepted : inetPton6 s = some x) {c : Char}
    (other : ¬ TextChar c) : c ∉ s :=
  fun inside => other ((inetPton6_text accepted).2.2 c inside)

theorem bracket_not_textChar : ¬ TextChar '[' ∧ ¬ TextChar ']' ∧ ¬ TextChar '\x00' := by
  refine ⟨?_, ?_, ?_⟩ <;> (rintro (hex | colon | dot) <;> revert ‹_› <;> decide)

theorem head_ne_of_not_mem {s : List Char} {c : Char} (absent : c ∉ s) : s.head? ≠ some c :=
  fun first => absent (List.mem_of_head? first)

/-! ## The four forms, one by one -/

theorem quicAddr4FromString_text {s : List Char} {v : Nat} (accepted : inetPton4 s = some v)
    (addr : QuicAddr) :
    quicAddr4FromString s addr = some { addr with ipv4 := UInt32.ofNat v, family := .inet } := by
  have noBracket := head_ne_of_not_mem (not_mem_text4 accepted (c := '[') (by decide) (by decide))
  rw [quicAddr4FromString, if_neg noBracket, strchr_eq_none (colon_not_mem accepted), accepted]
  rfl

theorem quicAddr4FromString_port {s : List Char} {v : Nat} (accepted : inetPton4 s = some v)
    (p : UInt16) (addr : QuicAddr) :
    quicAddr4FromString (s ++ ':' :: portText p) addr =
      some { addr with ipv4 := UInt32.ofNat v, port := p, family := .inet } := by
  have noBracket : (s ++ ':' :: portText p).head? ≠ some '[' := by
    apply head_ne_of_not_mem
    rw [List.mem_append, List.mem_cons]
    rintro (inside | same | inside)
    · exact not_mem_text4 accepted (by decide) (by decide) inside
    · cases same
    · exact not_mem_portText p (by decide) inside
  have once : strchr (portText p) ':' = none := strchr_eq_none (not_mem_portText p (by decide))
  have length : (s ++ ':' :: portText p).length - (':' :: portText p).length = s.length := by
    rw [List.length_append, Nat.add_sub_cancel]
  have short : ¬ 16 ≤ s.length := by
    have := (inetPton4_text accepted).1
    omega
  rw [quicAddr4FromString, if_neg noBracket, strchr_append (colon_not_mem accepted)]
  simp only [List.tail_cons, once, length, List.take_left, if_neg short, accepted, Option.isSome_none,
    Bool.false_eq_true, if_false, Option.map_some, portOf_portText]

/-- Two colons are no IPv4 address. -/
theorem quicAddr4FromString_colons {s : List Char} (colons : 2 ≤ s.count ':') (addr : QuicAddr) :
    quicAddr4FromString s addr = none := by
  obtain ⟨before, after, rfl, first⟩ :=
    List.eq_append_cons_of_mem (List.count_pos_iff.1 (Nat.lt_of_lt_of_le Nat.two_pos colons))
  rw [List.count_append, List.count_eq_zero_of_not_mem first, List.count_cons_self] at colons
  have again : (strchr after ':').isSome = true := by
    rw [strchr, if_pos (List.count_pos_iff.1 (by omega))]
    rfl
  rw [quicAddr4FromString, strchr_append first]
  simp only [List.tail_cons, again, if_true, ite_self]

theorem quicAddr4FromString_bracket {s : List Char} (addr : QuicAddr) :
    quicAddr4FromString ('[' :: s) addr = none := if_pos rfl

theorem quicAddr6FromString_text {s : List Char} {x : Nat} (accepted : inetPton6 s = some x)
    (addr : QuicAddr) :
    quicAddr6FromString s addr =
      some { addr with ipv6 := BitVec.ofNat 128 x, family := .inet6 } := by
  have noBracket := head_ne_of_not_mem (not_mem_text6 accepted bracket_not_textChar.1)
  rw [quicAddr6FromString, if_neg noBracket, accepted]
  rfl

theorem quicAddr6FromString_port {s : List Char} {x : Nat} (accepted : inetPton6 s = some x)
    (p : UInt16) (addr : QuicAddr) :
    quicAddr6FromString ('[' :: (s ++ ']' :: ':' :: portText p)) addr =
      some { addr with ipv6 := BitVec.ofNat 128 x, port := p, family := .inet6 } := by
  have noClose : ']' ∉ '[' :: s := by
    rw [List.mem_cons]
    rintro (same | inside)
    · cases same
    · exact not_mem_text6 accepted bracket_not_textChar.2.1 inside
  have length : ('[' :: (s ++ ']' :: ':' :: portText p)).length -
      (']' :: ':' :: portText p).length - 1 = s.length := by
    simp only [List.length_cons, List.length_append]
    omega
  have short : ¬ 64 ≤ s.length := by
    have := (inetPton6_text accepted).1
    omega
  have found : strchr ('[' :: (s ++ ']' :: ':' :: portText p)) ']' =
      some (']' :: ':' :: portText p) := strchr_append noClose _
  have opens : ('[' :: (s ++ ']' :: ':' :: portText p)).head? = some '[' := rfl
  rw [quicAddr6FromString, if_pos opens, found]
  simp only [List.tail_cons, List.head?_cons, ne_eq, not_true_eq_false, if_false, length,
    if_neg short, List.take_left, accepted, Option.map_some, List.drop_succ_cons, List.drop_zero,
    portOf_portText]

/-! ## The forms together -/

/-- The forms of an address in a text, `inet_pton` having the last word on addresses. -/
inductive Form where
  | ipv4 (text : List Char) (v : Nat) (accepted : inetPton4 text = some v)
  | ipv4Port (text : List Char) (v : Nat) (accepted : inetPton4 text = some v) (p : UInt16)
  | ipv6 (text : List Char) (x : Nat) (accepted : inetPton6 text = some x)
  | ipv6Port (text : List Char) (x : Nat) (accepted : inetPton6 text = some x) (p : UInt16)

namespace Form

def text : Form → List Char
  | .ipv4 text _ _ => text
  | .ipv4Port text _ _ p => text ++ ':' :: portText p
  | .ipv6 text _ _ => text
  | .ipv6Port text _ _ p => '[' :: (text ++ ']' :: ':' :: portText p)

/-- The IPv6 address that the text stands for. -/
def address : Form → BitVec 128
  | .ipv4 _ v _ | .ipv4Port _ v _ _ => BitVec.ofNat 128 (mapped v)
  | .ipv6 _ x _ | .ipv6Port _ x _ _ => BitVec.ofNat 128 x

/-- The port that it stands for, from the default port. -/
def port (q : UInt16) : Form → UInt16
  | .ipv4 _ _ _ | .ipv6 _ _ _ => q
  | .ipv4Port _ _ _ p | .ipv6Port _ _ _ p => p

def isIpv4Port : Form → Bool
  | .ipv4Port _ _ _ _ => true
  | _ => false

/-- A text with an IPv4 address is short enough to be mapped, and none is cut or ends early. -/
theorem text_fits (form : Form) :
    form.text.length ≤ 53 ∧ '\x00' ∉ form.text := by
  cases form with
  | ipv4 text v accepted =>
      have := (inetPton4_text accepted).1
      exact ⟨by show text.length ≤ 53; omega, not_mem_text4 accepted (by decide) (by decide)⟩
  | ipv4Port text v accepted p =>
      have := (inetPton4_text accepted).1
      have := portText_length p
      refine ⟨by simp only [Form.text, List.length_append, List.length_cons]; omega, ?_⟩
      simp only [Form.text, List.mem_append, List.mem_cons, not_or]
      exact ⟨not_mem_text4 accepted (by decide) (by decide), by decide,
        not_mem_portText p (by decide)⟩
  | ipv6 text x accepted =>
      have := (inetPton6_text accepted).1
      exact ⟨by show text.length ≤ 53; omega, not_mem_text6 accepted bracket_not_textChar.2.2⟩
  | ipv6Port text x accepted p =>
      have := (inetPton6_text accepted).1
      have := portText_length p
      refine ⟨by simp only [Form.text, List.length_append, List.length_cons]; omega, ?_⟩
      simp only [Form.text, List.mem_append, List.mem_cons, not_or]
      exact ⟨by decide, not_mem_text6 accepted bracket_not_textChar.2.2, by decide, by decide,
        not_mem_portText p (by decide)⟩

end Form

/-- The address is read: an IPv6 address and a port. -/
structure Reads (result : Bool × QuicAddr) (ip : BitVec 128) (port : UInt16) : Prop where
  succeeds : result.1 = true
  family : result.2.family = .inet6
  ip : result.2.ipv6 = ip
  port : result.2.port = port

theorem quicAddrFromString_of_4 {s : List Char} {port : UInt16} {addr read : QuicAddr}
    (first : quicAddr4FromString s { addr with port := port } = some read) :
    quicAddrFromString s port addr = (true, read) := by
  rw [quicAddrFromString, first]

theorem quicAddrFromString_of_6 {s : List Char} {port : UInt16} {addr read : QuicAddr}
    (notFirst : quicAddr4FromString s { addr with port := port } = none)
    (second : quicAddr6FromString s { addr with port := port } = some read) :
    quicAddrFromString s port addr = (true, read) := by
  rw [quicAddrFromString, notFirst, second]

/-- The text of an IPv4 address is read again behind the prefix. -/
theorem tryParseMap6_of_inet {s : List Char} (next : Char) {q : UInt16} {out read : QuicAddr}
    (short : s.length ≤ 56) (whole : '\x00' ∉ s)
    (first : quicAddr4FromString s { out with port := q } = some read)
    (isInet : read.family = .inet) :
    tryParseMap6 s next q out = quicAddrFromString (mappedPrefix ++ s) q read := by
  have parsed : tryParse s next q out = (true, read) := by
    rw [tryParse_eq (by omega) whole, quicAddrFromString_of_4 first]
  have length : (mappedPrefix ++ s).length ≤ 63 := by
    rw [List.length_append]
    show 7 + s.length ≤ 63
    omega
  have wholeMapped : '\x00' ∉ mappedPrefix ++ s := by
    rw [List.mem_append, not_or]
    exact ⟨by decide, whole⟩
  rw [tryParseMap6, parsed]
  simp only [if_pos isInet, List.take_of_length_le short]
  exact tryParse_eq length wholeMapped _ _ _

/-- The text of an IPv6 address is read once. -/
theorem tryParseMap6_of_inet6 {s : List Char} (next : Char) {q : UInt16} {out read : QuicAddr}
    (short : s.length ≤ 63) (whole : '\x00' ∉ s)
    (notFirst : quicAddr4FromString s { out with port := q } = none)
    (second : quicAddr6FromString s { out with port := q } = some read)
    (isInet6 : read.family = .inet6) : tryParseMap6 s next q out = (true, read) := by
  have parsed : tryParse s next q out = (true, read) := by
    rw [tryParse_eq short whole, quicAddrFromString_of_6 notFirst second]
  have notInet : read.family ≠ .inet := by
    rw [isInet6]
    decide
  rw [tryParseMap6, parsed]
  exact if_neg notInet

theorem two_le_count_mappedPrefix (s : List Char) : 2 ≤ (mappedPrefix ++ s).count ':' := by
  rw [List.count_append]
  exact Nat.le_add_right_of_le (by decide)

/-- Behind the prefix, an IPv4 address alone is an IPv6 address. -/
theorem quicAddrFromString_mapped {s : List Char} {v : Nat} (accepted : inetPton4 s = some v)
    (port : UInt16) (addr : QuicAddr) :
    quicAddrFromString (mappedPrefix ++ s) port addr =
      (true, { addr with
        port := port, ipv6 := BitVec.ofNat 128 (mapped v), family := .inet6 }) :=
  quicAddrFromString_of_6 (quicAddr4FromString_colons (two_le_count_mappedPrefix s) _)
    (quicAddr6FromString_text (inetPton6_mapped accepted) _)

/-- An IPv4 address with a port is not read. -/
theorem tryParseMap6_ipv4Port {s : List Char} {v : Nat} (accepted : inetPton4 s = some v)
    (p : UInt16) (next : Char) (q : UInt16) (out : QuicAddr) :
    (tryParseMap6 (s ++ ':' :: portText p) next q out).1 = false := by
  obtain ⟨short, whole⟩ : (s ++ ':' :: portText p).length ≤ 53 ∧ '\x00' ∉ s ++ ':' :: portText p :=
    (Form.ipv4Port s v accepted p).text_fits
  have noBracket : (mappedPrefix ++ (s ++ ':' :: portText p)).head? ≠ some '[' := by
    show some ':' ≠ some '['
    decide
  rw [tryParseMap6_of_inet next (Nat.le_trans short (by decide)) whole
      (quicAddr4FromString_port accepted p _) rfl,
    quicAddrFromString, quicAddr4FromString_colons (two_le_count_mappedPrefix _),
    quicAddr6FromString, if_neg noBracket, inetPton6_mapped_port accepted]
  rfl

/-- Every IPv4 and every IPv6 address has a text, so that it has its forms. -/
theorem texts_of_addresses (a b c d : UInt8) (x : Fin 8 → UInt16) :
    inetPton4 (dotted a.toNat b.toNat c.toNat d.toNat) =
        some (((a.toNat * 256 + b.toNat) * 256 + c.toNat) * 256 + d.toNat) ∧
      inetPton6 (groups (List.ofFn fun i => (x i).toNat)) =
        some (ofWords (List.ofFn fun i => (x i).toNat)) := by
  refine ⟨inetPton4_dotted a.toNat_lt b.toNat_lt c.toNat_lt d.toNat_lt, ?_⟩
  apply inetPton6_groups List.length_ofFn
  intro w member
  obtain ⟨i, rfl⟩ := List.mem_ofFn.1 member
  exact (x i).toNat_lt

/-- **What `TryParseMap6` reads**: every form but the IPv4 address with a port, whatever follows the
text, the default port and what was in `out`. -/
theorem tryParseMap6_iff (form : Form) (next : Char) (q : UInt16) (out : QuicAddr) :
    Reads (tryParseMap6 form.text next q out) form.address (form.port q) ↔
      form.isIpv4Port = false := by
  obtain ⟨short, whole⟩ := form.text_fits
  cases form with
  | ipv4 s v accepted =>
      refine iff_of_true ?_ rfl
      have again := tryParseMap6_of_inet next (Nat.le_trans short (by decide)) whole
        (quicAddr4FromString_text accepted { out with port := q }) rfl
      rw [again.trans (quicAddrFromString_mapped accepted _ _)]
      exact ⟨rfl, rfl, rfl, rfl⟩
  | ipv4Port s v accepted p =>
      refine iff_of_false ?_ Bool.true_eq_false.mp
      intro reads
      have succeeds : (tryParseMap6 (s ++ ':' :: portText p) next q out).1 = true := reads.succeeds
      rw [tryParseMap6_ipv4Port accepted] at succeeds
      cases succeeds
  | ipv6 s x accepted =>
      refine iff_of_true ?_ rfl
      have read := tryParseMap6_of_inet6 next (Nat.le_trans short (by decide)) whole
        (quicAddr4FromString_colons (inetPton6_text accepted).2.1 { out with port := q })
        (quicAddr6FromString_text accepted _) rfl
      rw [read]
      exact ⟨rfl, rfl, rfl, rfl⟩
  | ipv6Port s x accepted p =>
      refine iff_of_true ?_ rfl
      have read := tryParseMap6_of_inet6 next (Nat.le_trans short (by decide)) whole
        (quicAddr4FromString_bracket { out with port := q })
        (quicAddr6FromString_port accepted p _) rfl
      rw [read]
      exact ⟨rfl, rfl, rfl, rfl⟩

/-- **`192.168.1.1:54545` is not read.** -/
theorem tryParseMap6_ipv4Port_fails :
    inetPton4 (dotted 192 168 1 1) = some 0xc0a80101 ∧
      (tryParseMap6 (dotted 192 168 1 1 ++ ':' :: portText 54545) '\x00' 0 {}).1 = false := by
  decide +kernel

end Koisyn.Net
