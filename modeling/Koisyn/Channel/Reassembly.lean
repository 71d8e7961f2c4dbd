/-
# Koisyn.Channel.Reassembly — one sequence of frames over the two streams of a channel

Both streams of a channel carry the same sequence: the frames of a list of messages.  The machine
here is the receiving end.  A label is a stream and the `RECEIVE` event that MsQuic raises for it
next; it can happen when the event carries the stream's next bytes (`Indicates`), however they are
cut into events and buffers, and when no earlier activation still holds the channel's `RecvMutex`.

`Reassembling` is the invariant of every run: the channel accounts for a prefix of the sequence that
reaches at least as far as either stream.  `receive_reassembles` reads it off after each activation
that returns: the position, the deliveries and the buffer are those of the longer stream.
-/
import Koisyn.Channel.Receive
import Koisyn.Theory.Run

namespace Koisyn.Channel

open Koisyn.Theory
open Koisyn.Theory.Run

set_option autoImplicit false

/-- A channel of a context and the two streams that bring its bytes. -/
structure ReceivingEnd where
  slot : Slot
  index : Fin 4
  alive : ObjectId → Bool
  streamId : Fin 2 → Nat
  named : ∀ strm, (streamId strm >>> 2) % 2 ^ 32 = index

structure ReassemblyState where
  ctx : ConnectionContext
  received : Fin 2 → Nat
  calls : List Call
  exit : Exit

namespace ReceivingEnd

variable (R : ReceivingEnd) (S : List UInt8)

/-- The event carries the next bytes of a stream that carries `S`. -/
def Indicates (s : ReassemblyState) (strm : Fin 2) (ev : ReceiveEvent) : Prop :=
  ev.absoluteOffset = s.received strm ∧ ev.buffers.flatten <+: S.drop (s.received strm)

instance (s : ReassemblyState) (strm : Fin 2) (ev : ReceiveEvent) :
    Decidable (Indicates S s strm ev) :=
  inferInstanceAs (Decidable (_ ∧ _))

/-- One activation.  After one that does not return the channel's `RecvMutex` stays held. -/
def receive (s : ReassemblyState) (label : Fin 2 × ReceiveEvent) : Option ReassemblyState :=
  match s.exit with
  | .returned _ =>
      if Indicates S s label.1 label.2 then
        let r := handleReceive R.slot R.alive (R.streamId label.1) label.2 s.ctx
        some {
          ctx := r.ctx
          received := Function.update s.received label.1
            (label.2.absoluteOffset + label.2.totalBufferLength)
          calls := s.calls ++ r.calls
          exit := r.exit }
      else none
  | _ => none

/-- Before the first event. -/
def before (ctx : ConnectionContext) : ReassemblyState where
  ctx := ctx
  received := fun _ => 0
  calls := []
  exit := .returned .continue_

def channel (s : ReassemblyState) : StreamChannel := s.ctx.reliable R.index

/-- The payloads handed to the application so far. -/
def delivered (s : ReassemblyState) : List (List UInt8) := deliveredTo R.slot R.index s.calls

/-- The invariant of a run from a channel with the application's context `channelCtx`. -/
structure Reassembling (channelCtx : ObjectId) (s : ReassemblyState) : Prop where
  locked : lockChannelContext R.alive s.ctx.channelContext = some channelCtx
  accounts : Accounts S (R.channel s) (R.delivered s)
  noCorrupt : s.exit ≠ .corrupt
  noOverrun : s.exit ≠ .overruns
  settled : ∀ status, s.exit = .returned status →
    (R.channel s).nextRecvByte = max (s.received 0) (s.received 1) ∧ (R.channel s).buffer.length < 4

variable {R S}

theorem le_max_of_fin_two (f : Fin 2 → Nat) : ∀ i, f i ≤ max (f 0) (f 1)
  | 0 => Nat.le_max_left _ _
  | 1 => Nat.le_max_right _ _

/-- Raising one of two positions. -/
theorem max_update_fin_two (f : Fin 2 → Nat) : ∀ (i : Fin 2) (n : Nat), f i ≤ n →
    max (max (f 0) (f 1)) n = max (Function.update f i n 0) (Function.update f i n 1)
  | 0, n, raised => by
      rw [Function.update_self, Function.update_of_ne (by decide)]
      omega
  | 1, n, raised => by
      rw [Function.update_self, Function.update_of_ne (by decide)]
      omega

theorem reassembling_before {ctx : ConnectionContext} {channelCtx : ObjectId}
    (locked : lockChannelContext R.alive ctx.channelContext = some channelCtx)
    (fresh : (ctx.reliable R.index).buffer = [] ∧ (ctx.reliable R.index).nextRecvByte = 0) :
    R.Reassembling S channelCtx (before ctx) where
  locked := locked
  accounts := ⟨fun _ member => by simp [delivered, before, deliveredTo] at member,
    by simp [delivered, before, deliveredTo, channel, fresh], by simp [channel, before, fresh]⟩
  noCorrupt := by simp [before]
  noOverrun := by simp [before]
  settled _ _ := by simp [channel, before, fresh]

/-- **One activation keeps the invariant**, on framed messages. -/
theorem receive_reassembling {messages : List (List UInt8)} {channelCtx : ObjectId}
    (fits : ∀ message ∈ messages, message.length ≤ 65512) {s t : ReassemblyState}
    {label : Fin 2 × ReceiveEvent} (inv : R.Reassembling (framing.frames messages) channelCtx s)
    (taken : R.receive (framing.frames messages) s label = some t) :
    R.Reassembling (framing.frames messages) channelCtx t := by
  obtain ⟨strm, ev⟩ := label
  unfold receive at taken
  split at taken
  case h_2 => cases taken
  case h_1 status returned =>
    split at taken
    case isFalse => cases taken
    case isTrue indicates =>
      obtain ⟨position, isPiece⟩ := indicates
      dsimp only at position isPiece taken
      obtain ⟨reached, short⟩ := inv.settled status returned
      have starts : ev.absoluteOffset ≤ (R.channel s).nextRecvByte := by
        rw [position, reached]
        exact le_max_of_fin_two s.received strm
      rw [← position] at isPiece
      obtain ⟨noCorrupt, accounts, -, sameContext, returns, noOverrun⟩ :=
        handleReceive_spec R.slot inv.locked (R.named strm) inv.accounts starts isPiece
      have small : ∀ message ∈ messages, message.length + 4 < 2 ^ 32 := by
        intro message member
        have := fits message member
        omega
      cases taken
      refine ⟨by rw [sameContext]; exact inv.locked, ?_, noCorrupt,
        noOverrun messages small rfl, ?_⟩
      · simpa [delivered, deliveredTo, channel] using accounts
      · intro status returned
        obtain ⟨-, furthest, stillShort⟩ := returns status returned
        refine ⟨furthest.trans ?_, stillShort short⟩
        rw [show (s.ctx.reliable R.index).nextRecvByte = _ from reached, ev.total]
        exact max_update_fin_two s.received strm _ (by rw [position]; omega)

/-! ## What a run has delivered -/

/-- What the source promises after an activation that returns: the position is the furthest of the
two streams', each message whose frame lies inside the bytes up to there has been handed to the
application once and in order, and the buffer is the rest of those bytes. -/
structure Reassembled (R : ReceivingEnd) (messages : List (List UInt8)) (s : ReassemblyState) :
    Prop where
  position : (R.channel s).nextRecvByte = max (s.received 0) (s.received 1)
  inOrder : R.delivered s <+: messages
  whole : ∀ i, i ≤ messages.length → (i ≤ (R.delivered s).length ↔
    (framing.frames (messages.take i)).length ≤ (R.channel s).nextRecvByte)
  remaining : (R.channel s).buffer =
    ((framing.frames messages).take (R.channel s).nextRecvByte).drop
      (framing.frames (R.delivered s)).length

theorem incomplete_of_short {rest : List UInt8} (short : rest.length < 4) :
    framing.Incomplete rest := by
  intro payload _ whole
  have := whole.length_le
  have : (framing.frame payload).length = 4 + payload.length := length_frame payload
  omega

theorem Reassembling.reassembled {messages : List (List UInt8)} {channelCtx : ObjectId}
    (fits : ∀ message ∈ messages, message.length ≤ 65512) {s : ReassemblyState}
    (inv : R.Reassembling (framing.frames messages) channelCtx s) {status : QuicStatus}
    (returned : s.exit = .returned status) : Reassembled R messages s := by
  obtain ⟨position, short⟩ := inv.settled status returned
  have valid : ∀ message ∈ messages, framing.Valid message := by
    intro message member
    have := fits message member
    show message.length < 2 ^ 32
    omega
  obtain ⟨inOrder, whole⟩ :=
    framing.delivered_iff valid inv.accounts.valid inv.accounts.seen (incomplete_of_short short)
  refine ⟨position, inOrder, whole, ?_⟩
  rw [← inv.accounts.seen, List.drop_left]

/-- **The receiver reassembles and deframes.**  However the two streams' bytes are cut and
interleaved, no activation finds a gap or leaves the vector, and after each one that returns the
channel has delivered and buffered what the longer stream has brought. -/
theorem receive_reassembles (R : ReceivingEnd) {messages : List (List UInt8)}
    (fits : ∀ message ∈ messages, message.length ≤ 65512) {ctx : ConnectionContext}
    {channelCtx : ObjectId}
    (locked : lockChannelContext R.alive ctx.channelContext = some channelCtx)
    (fresh : (ctx.reliable R.index).buffer = [] ∧ (ctx.reliable R.index).nextRecvByte = 0)
    (events : List (Fin 2 × ReceiveEvent)) :
    Always (R.receive (framing.frames messages))
      (fun s => s.exit ≠ .corrupt ∧ s.exit ≠ .overruns ∧
        ∀ status, s.exit = .returned status → Reassembled R messages s)
      (before ctx) events := by
  have kept : Always (R.receive (framing.frames messages))
      (R.Reassembling (framing.frames messages) channelCtx) (before ctx) events :=
    always_of_keeps (fun _ _ _ inv taken => receive_reassembling fits inv taken) events
      (reassembling_before locked fresh)
  exact kept.mono fun s inv =>
    ⟨inv.noCorrupt, inv.noOverrun, fun _ returned => inv.reassembled fits returned⟩

/-- Channel 0 of the context in slot 0, whose application object 1 is alive. -/
def sampleEnd : ReceivingEnd where
  slot := 0
  index := 0
  alive := (· = 1)
  streamId strm := strm
  named := by decide

/-- The first stream brings half a header, the second the whole frame, then the first more of the
header. -/
def sampleEvents : List (Fin 2 × ReceiveEvent) :=
  [(0, ⟨0, 2, [[0], [], [0]], rfl⟩), (1, ⟨0, 6, [[0, 0, 0, 2, 7, 8]], rfl⟩), (0, ⟨2, 1, [[0]], rfl⟩)]

theorem receive_reassembles_sample :
    (exec (sampleEnd.receive (framing.frames [[7, 8]])) (before { channelContext := some 1 })
      sampleEvents).map (fun s => (s.exit, sampleEnd.delivered s)) =
        some (.returned .continue_, [[7, 8]]) ∧
    Always (sampleEnd.receive (framing.frames [[7, 8]]))
      (fun s => s.exit ≠ .corrupt ∧ s.exit ≠ .overruns ∧
        ∀ status, s.exit = .returned status → Reassembled sampleEnd [[7, 8]] s)
      (before { channelContext := some 1 }) sampleEvents :=
  ⟨by decide, receive_reassembles sampleEnd (by decide) rfl ⟨rfl, rfl⟩ sampleEvents⟩

end ReceivingEnd

end Koisyn.Channel
