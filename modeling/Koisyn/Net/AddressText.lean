/-
# Koisyn.Net.AddressText — an address as text, and back

`quicAddrToString` is `QuicAddrToString`: what `inet_ntop` writes, and the port behind it unless it is
zero, with brackets around an IPv6 address that has one.  `StartClient` hands this text of the peer's
listener to `ConnectionStart` as the server's name.

`quicAddrFromString_toString`: the text fits the buffer, and `QuicAddrFromString` reads the address back
from it, with the default port where there is none.
-/
import Koisyn.Net.AddressParser
import Koisyn.Theory.InetPresentation

namespace Koisyn.Net

open Koisyn.Channel Koisyn.Theory.InetText

set_option autoImplicit false

/-! ## The text of an address -/

/-- What `inet_ntop` writes for the family; any other than IPv4 counts as IPv6. -/
def inetNtop (addr : QuicAddr) : List Char :=
  if addr.family = .inet then inetNtop4 addr.ipv4.toNat else inetNtop6 addr.ipv6.toNat

/-- `QuicAddrToString`; `none` is `FALSE`, when the text and its terminator do not fit. -/
def quicAddrToString (addr : QuicAddr) : Option (List Char) :=
  let address := if addr.family = .inet6 ∧ addr.port ≠ 0 then ['['] else []
  let text := inetNtop addr
  if 64 < text.length + 1 then none
  else if addr.port ≠ 0 then
    let close := if addr.family = .inet6 then [']'] else []
    some (address ++ text ++ close ++ ((':' :: portText addr.port).take 63))
  else some (address ++ text)

/-! ## Reading it back -/

/-- Both say the address: what is read, and where it is read from, with a default port. -/
structure SaysAddress (s : List Char) (addr : QuicAddr) : Prop where
  fits : s.length < 64
  parsed : ∀ (q : UInt16) (out : QuicAddr), (quicAddrFromString s q out).1 = true ∧
    quicAddrCompare (quicAddrFromString s q out).2
      { addr with port := if addr.port = 0 then q else addr.port } = true

theorem says_ipv4 {addr : QuicAddr} (inet : addr.family = .inet) :
    ∃ s, quicAddrToString addr = some s ∧ SaysAddress s addr := by
  have read : inetPton4 (inetNtop addr) = some addr.ipv4.toNat := by
    rw [inetNtop, if_pos inet]
    exact inetPton4_inetNtop4 addr.ipv4.toNat_lt
  have short := (inetPton4_text read).1
  have notLong : ¬ 64 < (inetNtop addr).length + 1 := by omega
  have isInet : addr.family ≠ .inet6 := by
    rw [inet]
    decide
  by_cases zero : addr.port = 0
  · refine ⟨inetNtop addr, by simp [quicAddrToString, notLong, zero], ⟨by omega, fun q out => ?_⟩⟩
    rw [quicAddrFromString_of_4 (quicAddr4FromString_text read _)]
    exact ⟨rfl, by simp [quicAddrCompare, quicAddrCompareIp, inet, zero]⟩
  · have length := portText_length addr.port
    have whole : (':' :: portText addr.port).take 63 = ':' :: portText addr.port :=
      List.take_of_length_le (by simp; omega)
    refine ⟨inetNtop addr ++ ':' :: portText addr.port,
      by simp only [quicAddrToString, whole]; simp [notLong, zero, isInet],
      ⟨by simp; omega, fun q out => ?_⟩⟩
    rw [quicAddrFromString_of_4 (quicAddr4FromString_port read addr.port _)]
    exact ⟨rfl, by simp [quicAddrCompare, quicAddrCompareIp, inet, zero]⟩

theorem says_ipv6 {addr : QuicAddr} (inet6 : addr.family = .inet6) :
    ∃ s, quicAddrToString addr = some s ∧ SaysAddress s addr := by
  have notInet : addr.family ≠ .inet := by
    rw [inet6]
    decide
  have read : inetPton6 (inetNtop addr) = some addr.ipv6.toNat := by
    rw [inetNtop, if_neg notInet]
    exact inetPton6_inetNtop6 addr.ipv6.isLt
  obtain ⟨short, colons, -⟩ := inetPton6_text read
  have notLong : ¬ 64 < (inetNtop addr).length + 1 := by omega
  by_cases zero : addr.port = 0
  · refine ⟨inetNtop addr, by simp [quicAddrToString, notLong, zero], ⟨by omega, fun q out => ?_⟩⟩
    rw [quicAddrFromString_of_6 (quicAddr4FromString_colons colons _)
      (quicAddr6FromString_text read _)]
    exact ⟨rfl, by simp [quicAddrCompare, quicAddrCompareIp, inet6, zero]⟩
  · have length := portText_length addr.port
    have whole : (':' :: portText addr.port).take 63 = ':' :: portText addr.port :=
      List.take_of_length_le (by simp; omega)
    refine ⟨'[' :: (inetNtop addr ++ ']' :: ':' :: portText addr.port),
      by simp only [quicAddrToString, whole]; simp [notLong, zero, inet6],
      ⟨by simp; omega, fun q out => ?_⟩⟩
    rw [quicAddrFromString_of_6 (quicAddr4FromString_bracket _)
      (quicAddr6FromString_port read addr.port _)]
    exact ⟨rfl, by simp [quicAddrCompare, quicAddrCompareIp, inet6, zero]⟩

/-- **An address is read back from its text**, whatever its address and its port. -/
theorem quicAddrFromString_toString {addr : QuicAddr} (known : addr.family ≠ .unspec) :
    ∃ s, quicAddrToString addr = some s ∧ SaysAddress s addr := by
  cases family : addr.family with
  | unspec => exact absurd family known
  | inet => exact says_ipv4 family
  | inet6 => exact says_ipv6 family

/-- The address and the port of a peer's listener. -/
theorem quicAddrFromString_toString_listener :
    ∃ s, quicAddrToString { family := .inet6, port := 4433, ipv6 := 0xfe800000000000000000000000000001 } =
        some s ∧
      SaysAddress s { family := .inet6, port := 4433, ipv6 := 0xfe800000000000000000000000000001 } :=
  quicAddrFromString_toString (by decide)

end Koisyn.Net
