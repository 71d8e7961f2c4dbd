/-
# Koisyn.Channel.Send — `KoiChan`'s sends

`makeBuffer` copies the data behind four bytes that the caller fills in: the data's length on a
reliable channel, the packet number on the unreliable one, both in network order.  Each send hands
the same buffer to the connection or stream the peer opened and to the one we opened, as far as they
exist, and reports success when either accepted it.

`reliablePacketSend_streamSend` says what a reliable send puts on a stream: the frame of its data
(`frame`).  `framing` is that frame as a `Theory.Framing`: below `2 ^ 32` bytes the length prefix
tells every payload from what follows.
-/
import Koisyn.Channel.Context
import Koisyn.Theory.Bytes
import Koisyn.Theory.Framing

namespace Koisyn.Channel

open Koisyn.Theory
open Koisyn.Theory.Bytes

set_option autoImplicit false

/-- What the environment decides in one send: whether the allocation succeeds and whether MsQuic
accepts the buffer on the peer's and on our own handle. -/
structure SendEnv where
  allocated : Bool
  peerSucceeded : Bool
  selfSucceeded : Bool
  deriving DecidableEq, Repr

/-- `KoiChan::MakeBuffer`; the caller writes `packetLengthOrNumber` before anyone reads it. -/
def makeBuffer (data : List UInt8) (allocated : Bool) : Option RawBuffer :=
  let datasize := data.length % 2 ^ 16
  if allocated then
    some { length := 4 + datasize, refCount := 0, packetLengthOrNumber := List.replicate 4 0
           data := data.take datasize }
  else none

/-- The handles a send goes to, with the outcome on each: the peer's first, absent ones skipped. -/
def targets (peer self : Option Hquic) (env : SendEnv) : List (Hquic × Bool) :=
  (peer.toList.map fun h => (h, env.peerSucceeded)) ++
    self.toList.map fun h => (h, env.selfSucceeded)

/-- It goes to the handles that are there. -/
theorem mem_targets {peer self : Option Hquic} {env : SendEnv} {handle : Hquic} :
    (∃ succeeded, (handle, succeeded) ∈ targets peer self env) ↔
      peer = some handle ∨ self = some handle := by
  simp only [targets, List.mem_append, List.mem_map, Option.mem_toList]
  constructor
  · rintro ⟨succeeded, ⟨h, present, same⟩ | ⟨h, present, same⟩⟩ <;> cases same
    · exact .inl present
    · exact .inr present
  · rintro (present | present)
    · exact ⟨_, .inl ⟨handle, present, rfl⟩⟩
    · exact ⟨_, .inr ⟨handle, present, rfl⟩⟩

/-- `KoiChan::ReliablePacketSend` on the context its handle points at. -/
def reliablePacketSend (pctx : Option ConnectionContext) (channel : Nat) (data : List UInt8)
    (env : SendEnv) : Bool × List Call :=
  match pctx with
  | none => (false, [])
  | some ctx =>
      if data.length > 65512 then (false, [])
      else if inRange : channel < 4 then
        let chn := ctx.reliable ⟨channel, inRange⟩
        match makeBuffer data env.allocated with
        | none => (false, [])
        | some buf =>
            let strms := targets chn.peer chn.self env
            let rawBuffer := { buf with
              packetLengthOrNumber := bigEndian 4 data.length
              refCount := strms.length }
            let sent := strms.any (·.2)
            (sent, (strms.map fun t => .streamSend t.1 rawBuffer t.2) ++
              if sent then [] else [.deleteBuffer])
      else (false, [])

/-- `KoiChan::UnreliablePacketSend`; it takes its packet number before the buffer is allocated. -/
def unreliablePacketSend (ctx : ConnectionContext) (data : List UInt8) (env : SendEnv) :
    Bool × ConnectionContext × List Call :=
  let chn := ctx.unreliable
  if data.length > chn.maxSendLength.toNat then (false, ctx, [])
  else
    let number := chn.nextSendPacket
    let ctx := { ctx with unreliable := { chn with nextSendPacket := number + 1 } }
    match makeBuffer data env.allocated with
    | none => (false, ctx, [])
    | some buf =>
        let conns := targets chn.peer chn.self env
        let rawBuffer := { buf with
          packetLengthOrNumber := bigEndian 4 number.toNat
          refCount := conns.length }
        let sent := conns.any (·.2)
        (sent, ctx, (conns.map fun t => .datagramSend t.1 rawBuffer t.2) ++
          if sent then [] else [.deleteBuffer])

/-! ## The frame of a reliable payload -/

/-- The length in network order, then the payload. -/
def frame (payload : List UInt8) : List UInt8 := bigEndian 4 payload.length ++ payload

@[simp] theorem length_frame (payload : List UInt8) : (frame payload).length = 4 + payload.length := by
  simp [frame]

theorem frame_unique {a b r s : List UInt8} (fitsA : a.length < 2 ^ 32) (fitsB : b.length < 2 ^ 32)
    (same : frame a ++ r = frame b ++ s) : a = b := by
  simp only [frame, List.append_assoc] at same
  obtain ⟨header, rest⟩ := List.append_inj same (by simp)
  have length : a.length = b.length := by
    have read := congrArg ofBigEndian header
    rwa [ofBigEndian_bigEndian (by simpa using fitsA), ofBigEndian_bigEndian (by simpa using fitsB)]
      at read
  exact (List.append_inj rest length).1

/-- Payloads shorter than `2 ^ 32` bytes behind their length. -/
def framing : Framing (List UInt8) UInt8 where
  frame := frame
  Valid payload := payload.length < 2 ^ 32
  frame_ne_nil payload := by
    intro empty
    have := congrArg List.length empty
    simp at this
  unique := frame_unique

/-- The buffer of an accepted reliable send. -/
def reliableBuffer (data : List UInt8) (refCount : Nat) : RawBuffer where
  length := 4 + data.length % 2 ^ 16
  refCount := refCount
  packetLengthOrNumber := bigEndian 4 data.length
  data := data.take (data.length % 2 ^ 16)

/-- What `MakeBuffer` and `ReliablePacketSend` lay out in memory is the frame. -/
theorem reliableBuffer_bytes {data : List UInt8} (fits : data.length ≤ 65512) (refCount : Nat) :
    (reliableBuffer data refCount).bytes = frame data := by
  have whole : data.length % 2 ^ 16 = data.length := Nat.mod_eq_of_lt (by omega)
  rw [RawBuffer.bytes, reliableBuffer, whole, List.take_length]
  exact List.take_of_length_le (by simp)

/-- The bytes a list of calls puts on a stream: those of the buffers accepted there, in order. -/
def acceptedOn (strm : Hquic) (calls : List Call) : List UInt8 :=
  calls.flatMap fun
    | .streamSend h buf true => if h = strm then buf.bytes else []
    | _ => []

theorem reliablePacketSend_of_guards (ctx : ConnectionContext) (channel : Fin 4)
    {data : List UInt8} {env : SendEnv} (fits : data.length ≤ 65512)
    (allocated : env.allocated = true) :
    let strms := targets (ctx.reliable channel).peer (ctx.reliable channel).self env
    reliablePacketSend (some ctx) channel data env =
      (strms.any (·.2), (strms.map fun t => .streamSend t.1 (reliableBuffer data strms.length) t.2) ++
        if strms.any (·.2) then [] else [.deleteBuffer]) := by
  have notOver : ¬ data.length > 65512 := by omega
  simp only [reliablePacketSend, notOver, if_false, channel.isLt, dite_true, makeBuffer, allocated,
    if_true, Fin.eta, reliableBuffer]

theorem acceptedOn_sends (strm : Hquic) (strms : List (Hquic × Bool)) (buf : RawBuffer) :
    acceptedOn strm (strms.map fun t => .streamSend t.1 buf t.2) =
      strms.flatMap fun t => if t.1 = strm ∧ t.2 = true then buf.bytes else [] := by
  rw [acceptedOn, List.flatMap_map]
  congr 1
  funext t
  obtain ⟨h, accepted⟩ := t
  cases accepted <;> simp

/-- **What a reliable send does.**  It succeeds exactly when the guards pass, the allocation
succeeds and one of the streams present accepts; then each stream that accepted has got the frame of
the data, and otherwise no stream has got anything. -/
theorem reliablePacketSend_streamSend (ctx : ConnectionContext) (channel : Fin 4)
    (data : List UInt8) (env : SendEnv) (strm : Hquic) :
    let strms := targets (ctx.reliable channel).peer (ctx.reliable channel).self env
    let result := reliablePacketSend (some ctx) channel data env
    (result.1 = true ↔ data.length ≤ 65512 ∧ env.allocated = true ∧ ∃ t ∈ strms, t.2 = true) ∧
      acceptedOn strm result.2 =
        if data.length ≤ 65512 ∧ env.allocated = true then
          strms.flatMap fun t => if t.1 = strm ∧ t.2 = true then frame data else []
        else [] := by
  intro strms result
  by_cases guards : data.length ≤ 65512 ∧ env.allocated = true
  · have equal : result = _ := reliablePacketSend_of_guards ctx channel guards.1 guards.2
    have tail : ∀ sent : Bool, acceptedOn strm (if sent then [] else [Call.deleteBuffer]) = [] := by
      intro sent
      cases sent <;> rfl
    rw [equal, if_pos guards]
    constructor
    · simp [guards, strms]
    · simp only [acceptedOn, List.flatMap_append] at tail ⊢
      rw [tail, List.append_nil]
      exact (acceptedOn_sends strm strms _).trans (by rw [reliableBuffer_bytes guards.1])
  · have refused : result.1 = false ∧ result.2 = [] := by
      simp only [result, reliablePacketSend, channel.isLt, dite_true, makeBuffer]
      by_cases fits : data.length ≤ 65512
      · have failed : env.allocated = false := by simpa [fits] using guards
        simp [Nat.not_lt.2 fits, failed]
      · simp [Nat.lt_of_not_le fits]
    rw [if_neg guards, refused.1, refused.2]
    exact ⟨⟨fun sent => absurd sent (by decide), fun accepted => absurd ⟨accepted.1, accepted.2.1⟩ guards⟩,
      rfl⟩

/-- On different handles, one handle gets the bytes once or not at all. -/
theorem flatMap_accepted {strms : List (Hquic × Bool)} (distinct : (strms.map (·.1)).Nodup)
    (strm : Hquic) (bytes : List UInt8) :
    (strms.flatMap fun t => if t.1 = strm ∧ t.2 = true then bytes else []) =
      if (strm, true) ∈ strms then bytes else [] := by
  induction strms with
  | nil => simp
  | cons t strms ih =>
      obtain ⟨h, accepted⟩ := t
      rw [List.map_cons, List.nodup_cons] at distinct
      rw [List.flatMap_cons, ih distinct.2]
      by_cases here : h = strm ∧ accepted = true
      · obtain ⟨rfl, rfl⟩ := here
        have once : (h, true) ∉ strms := fun member => distinct.1 (List.mem_map_of_mem member)
        simp [once]
      · have elsewhere : (strm, true) ≠ (h, accepted) := by
          rintro same
          exact here ⟨(congrArg Prod.fst same).symm, (congrArg Prod.snd same).symm⟩
        simp [here, elsewhere]

theorem nodup_targets {peer self : Option Hquic} (distinct : ∀ p ∈ peer, ∀ q ∈ self, p ≠ q)
    (env : SendEnv) : ((targets peer self env).map (·.1)).Nodup := by
  cases peer with
  | none => cases self <;> simp [targets]
  | some p =>
      cases self with
      | none => simp [targets]
      | some q => simpa [targets] using distinct p rfl q rfl

/-- A send on two different streams appends its frame to those that accept it, and then succeeds;
it appends nothing elsewhere. -/
theorem reliablePacketSend_accepts (ctx : ConnectionContext) (channel : Fin 4) (data : List UInt8)
    (env : SendEnv)
    (distinct : ∀ p ∈ (ctx.reliable channel).peer, ∀ q ∈ (ctx.reliable channel).self, p ≠ q)
    (strm : Hquic) :
    let result := reliablePacketSend (some ctx) channel data env
    acceptedOn strm result.2 = [] ∨
      acceptedOn strm result.2 = frame data ∧ result.1 = true ∧
        (data.length ≤ 65512 ∧ env.allocated = true) ∧
        (strm, true) ∈ targets (ctx.reliable channel).peer (ctx.reliable channel).self env := by
  intro result
  obtain ⟨succeeds, appended⟩ := reliablePacketSend_streamSend ctx channel data env strm
  rw [flatMap_accepted (nodup_targets distinct env)] at appended
  by_cases guards : data.length ≤ 65512 ∧ env.allocated = true
  · rw [if_pos guards] at appended
    by_cases accepts :
        (strm, true) ∈ targets (ctx.reliable channel).peer (ctx.reliable channel).self env
    · rw [if_pos accepts] at appended
      exact .inr ⟨appended, succeeds.2 ⟨guards.1, guards.2, _, accepts, rfl⟩, guards, accepts⟩
    · rw [if_neg accepts] at appended
      exact .inl appended
  · rw [if_neg guards] at appended
    exact .inl appended

end Koisyn.Channel
