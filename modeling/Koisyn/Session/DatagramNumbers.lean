/-
# Koisyn.Session.DatagramNumbers — when the packet numbers on the wire have no gap

`UnreliablePacketSend` takes its number before it allocates the buffer and before it tries the
connections, so a send that fails there has used a number up.  `unreliablePacketSend_keeps_iff` is
exact for one call: a send that returns false leaves `NextSendPacket` alone exactly when its own
guard refused it.

`gapless_iff` is about runs of both ends: the numbers put on the wire are consecutive, and the
number the receiver waits for is one that was sent or the next to be sent, in every state, if and
only if no send fails past its guard.
-/
import Koisyn.Session.Datagram

namespace Koisyn.Session

open Koisyn.Channel
open Koisyn.Theory.Bytes
open Koisyn.Theory.Run

set_option autoImplicit false

/-! ## One send -/

/-- `data.size() > chn.MaxSendLength`. -/
def TooLong (ctx : ConnectionContext) (data : List UInt8) : Prop :=
  ctx.unreliable.maxSendLength.toNat < data.length

/-- The buffer is allocated, and a connection that is there accepts it. -/
def Accepted (ctx : ConnectionContext) (env : SendEnv) : Prop :=
  env.allocated = true ∧
    (ctx.unreliable.peer.isSome = true ∧ env.peerSucceeded = true ∨
      ctx.unreliable.self.isSome = true ∧ env.selfSucceeded = true)

theorem any_targets {peer self : Option Hquic} {env : SendEnv} :
    (targets peer self env).any (·.2) = true ↔
      peer.isSome = true ∧ env.peerSucceeded = true ∨
        self.isSome = true ∧ env.selfSucceeded = true := by
  cases peer <;> cases self <;> simp [targets]

/-- **What a send returns and what becomes of its number.** -/
theorem unreliablePacketSend_number (ctx : ConnectionContext) (data : List UInt8) (env : SendEnv) :
    let r := unreliablePacketSend ctx data env
    TooLong ctx data ∧ r.1 = false ∧ r.2.1 = ctx ∨
      ¬ TooLong ctx data ∧ (r.1 = true ↔ Accepted ctx env) ∧
        r.2.1 = { ctx with unreliable :=
          { ctx.unreliable with nextSendPacket := ctx.unreliable.nextSendPacket + 1 } } := by
  unfold unreliablePacketSend TooLong Accepted
  dsimp only
  split
  · rename_i long
    exact .inl ⟨long, rfl, rfl⟩
  · rename_i fits
    refine .inr ⟨fits, ?_⟩
    cases allocated : env.allocated with
    | false => simp [makeBuffer]
    | true =>
        refine ⟨?_, rfl⟩
        show (targets ctx.unreliable.peer ctx.unreliable.self env).any (·.2) = true ↔ _
        rw [any_targets]
        simp

/-- **A refused send leaves its number exactly when the guard refused it.** -/
theorem unreliablePacketSend_keeps_iff (ctx : ConnectionContext) (data : List UInt8) (env : SendEnv) :
    ((unreliablePacketSend ctx data env).1 = false →
        (unreliablePacketSend ctx data env).2.1.unreliable.nextSendPacket =
          ctx.unreliable.nextSendPacket) ↔
      TooLong ctx data ∨ Accepted ctx env := by
  rcases unreliablePacketSend_number ctx data env with ⟨long, -, same⟩ | ⟨fits, accepts, advanced⟩
  · rw [same]
    exact ⟨fun _ => .inl long, fun _ _ => rfl⟩
  · rw [advanced]
    have differ : ctx.unreliable.nextSendPacket + 1 ≠ ctx.unreliable.nextSendPacket := by
      intro same
      have := congrArg UInt32.toBitVec same
      simp at this
    constructor
    · intro keeps
      by_contra neither
      apply differ
      apply keeps
      rw [← Bool.not_eq_true, accepts]
      exact fun accepted => neither (.inr accepted)
    · rintro (long | accepted) refused
      · exact absurd long fits
      · rw [accepts.2 accepted] at refused
        cases refused

/-! ## Every run -/

/-- The numbers on the wire are consecutive from zero, the next number follows them, and the receiver
waits for the next number or for one that was sent. -/
structure Gapless (s : DatagramState) : Prop where
  wire : s.sent.map (·.1) = (List.range s.sent.length).map UInt32.ofNat
  next : s.sender.unreliable.nextSendPacket = UInt32.ofNat s.sent.length
  waits : s.receiver.unreliable.nextRecvPacket = s.sender.unreliable.nextSendPacket ∨
    s.receiver.unreliable.nextRecvPacket ∈ s.sent.map (·.1)

/-- A send is refused by its guard or accepted by a connection. -/
def NumberKept (s : DatagramState) : DatagramLabel → Prop
  | .send data env => TooLong s.sender data ∨ Accepted s.sender env
  | _ => True

section Runs

variable {slot : Slot} {s t : DatagramState}

/-- The number the receiver waits for, as a position among those sent. -/
theorem Gapless.waits_iff (wire : s.sent.map (·.1) = (List.range s.sent.length).map UInt32.ofNat)
    (next : s.sender.unreliable.nextSendPacket = UInt32.ofNat s.sent.length) {number : UInt32} :
    (number = s.sender.unreliable.nextSendPacket ∨ number ∈ s.sent.map (·.1)) ↔
      ∃ i ≤ s.sent.length, number = UInt32.ofNat i := by
  rw [wire, next, List.mem_map]
  constructor
  · rintro (rfl | ⟨i, inside, rfl⟩)
    · exact ⟨_, le_rfl, rfl⟩
    · exact ⟨i, (List.mem_range.1 inside).le, rfl⟩
  · rintro ⟨i, le, rfl⟩
    rcases le.eq_or_lt with rfl | less
    · exact .inl rfl
    · exact .inr ⟨i, List.mem_range.2 less, rfl⟩

theorem gapless_send_iff (gapless : Gapless s) {data : List UInt8} {env : SendEnv}
    (taken : datagramStep slot s (.send data env) = some t) :
    NumberKept s (.send data env) ↔ Gapless t := by
  obtain rfl := Option.some.inj taken
  obtain ⟨wire, next, waits⟩ := gapless
  rcases unreliablePacketSend_number s.sender data env with
    ⟨long, refused, same⟩ | ⟨fits, accepts, advanced⟩
  · refine ⟨fun _ => ⟨?_, ?_, ?_⟩, fun _ => .inl long⟩ <;>
      simp only [refused, Bool.false_eq_true, if_false, same]
    exacts [wire, next, waits]
  · have added : s.sender.unreliable.nextSendPacket + 1 = UInt32.ofNat (s.sent.length + 1) := by
      rw [next]
      exact (UInt32.ofNat_add _ 1).symm
    by_cases accepted : Accepted s.sender env
    · refine ⟨fun _ => ⟨?_, ?_, ?_⟩, fun _ => .inr accepted⟩ <;>
        simp only [accepts.2 accepted, if_true, advanced]
      · rw [List.map_append, List.length_append, List.length_singleton, List.range_succ,
          List.map_append, wire, List.map_singleton, List.map_singleton, next]
      · rw [added, List.length_append, List.length_singleton]
      · right
        rw [List.map_append, List.mem_append, List.map_singleton, List.mem_singleton]
        exact waits.symm
    · -- the number is used up and nothing has been sent under it
      have refused : (unreliablePacketSend s.sender data env).1 = false := by
        rw [← Bool.not_eq_true, accepts]
        exact accepted
      refine ⟨fun kept => (kept.elim fits accepted).elim, fun after => ?_⟩
      have skipped := after.next
      simp only [refused, Bool.false_eq_true, if_false, advanced, next] at skipped
      have := congrArg UInt32.toBitVec skipped
      simp at this

theorem gapless_arrive (gapless : Gapless s) (carried : Carried s) {conn : Hquic} {buf : List UInt8}
    (taken : datagramStep slot s (.arrive conn buf) = some t) : Gapless t := by
  simp only [datagramStep, Option.ite_none_right_eq_some, Option.some.injEq] at taken
  obtain ⟨member, rfl⟩ := taken
  obtain ⟨header, isSent⟩ := carried.read member
  obtain ⟨wire, next, waits⟩ := gapless
  refine ⟨wire, next, ?_⟩
  by_cases isOpen : s.Open
  · obtain ⟨-, ⟨isNext, advanced, -⟩ | ⟨-, same, -⟩⟩ := datagramReceived_open slot isOpen header
    · dsimp only
      rw [advanced, isNext, Gapless.waits_iff wire next]
      have number : packetNumber buf ∈ s.sent.map (·.1) := List.mem_map.2 ⟨_, isSent, rfl⟩
      rw [wire] at number
      obtain ⟨i, inside, same⟩ := List.mem_map.1 number
      rw [← same]
      exact ⟨i + 1, List.mem_range.1 inside, (UInt32.ofNat_add i 1).symm⟩
    · dsimp only
      rw [same]
      exact waits
  · -- the context is reset, and waits for the first number again
    have expired : lockChannelContext s.alive s.receiver.channelContext = none := by
      simpa [DatagramState.Open] using isOpen
    dsimp only
    rw [Gapless.waits_iff wire next]
    refine ⟨0, Nat.zero_le _, ?_⟩
    simp only [datagramReceived, expired]
    rfl

/-- **Exactly when the numbers on the wire have no gap.**  A send that returns false leaves
`NextSendPacket` unchanged if and only if the guard refused it; and in a run the numbers on the wire
are consecutive and the receiver waits for no number that was never sent, in every state, if and only
if every send was refused by its guard or accepted. -/
theorem gapless_iff (slot : Slot) (sender receiver : ConnectionContext) (alive : ObjectId → Bool)
    (labels : List DatagramLabel) :
    (∀ (ctx : ConnectionContext) (data : List UInt8) (env : SendEnv),
        let r := unreliablePacketSend ctx data env
        (r.1 = false → r.2.1.unreliable.nextSendPacket = ctx.unreliable.nextSendPacket) ↔
          TooLong ctx data ∨ Accepted ctx env) ∧
      (Always (datagramStep slot) Gapless (datagramStart sender receiver alive) labels ↔
        EveryStep (datagramStep slot) NumberKept (datagramStart sender receiver alive) labels) := by
  refine ⟨unreliablePacketSend_keeps_iff, ?_⟩
  have carried := (contiguous_run slot sender receiver alive labels).mono fun _ c => c.carried
  have start : Gapless (datagramStart sender receiver alive) := ⟨rfl, rfl, .inl rfl⟩
  have rule : Always (datagramStep slot) (fun s => Gapless s ∧ Carried s)
        (datagramStart sender receiver alive) labels ↔
      EveryStep (datagramStep slot) NumberKept (datagramStart sender receiver alive) labels := by
    refine always_iff_everyStep ?_ labels ⟨start, carried.head⟩
    rintro s label ⟨gapless, carried⟩
    cases label with
    | send data env =>
        constructor
        · intro numberKept t taken
          exact ⟨(gapless_send_iff gapless taken).1 numberKept, carried_send carried taken⟩
        · intro all
          have taken : datagramStep slot s (.send data env) = some _ := rfl
          exact (gapless_send_iff gapless taken).2 (all _ taken).1
    | arrive conn buf =>
        refine ⟨fun _ t taken => ⟨gapless_arrive gapless carried taken, ?_⟩, fun _ => trivial⟩
        simp only [datagramStep, Option.ite_none_right_eq_some, Option.some.injEq] at taken
        obtain ⟨-, rfl⟩ := taken
        exact carried
    | _ =>
        refine ⟨fun _ t taken => ?_, fun _ => trivial⟩
        obtain rfl := Option.some.inj taken
        exact ⟨⟨gapless.wire, gapless.next, gapless.waits⟩, carried⟩
  rw [← rule]
  exact ⟨fun always => always.and carried, fun always => always.mono fun _ both => both.1⟩

end Runs

/-- The allocation fails, and number zero is gone. -/
theorem refusedSend_takes_number :
    ¬ ∀ (ctx : ConnectionContext) (data : List UInt8) (env : SendEnv),
      (unreliablePacketSend ctx data env).1 = false →
        (unreliablePacketSend ctx data env).2.1.unreliable.nextSendPacket =
          ctx.unreliable.nextSendPacket := by
  intro always
  have kept := always { unreliable := { self := some 1, maxSendLength := 100 } } [1]
    ⟨false, true, true⟩ rfl
  exact absurd kept (by decide)

end Koisyn.Session
