/-
# Koisyn.Channel.Delivery — a reliable channel from end to end over its two streams

The machine here has both ends.  The sending side calls `reliablePacketSend` while its stream
handles are set and cleared; each stream keeps the bytes that `StreamSend` accepted on it, and MsQuic
raises `RECEIVE` events with exactly those bytes, in order, on the other side, where
`handleReceive` runs.

A payload goes to the streams that exist and accept at its call, and the receiver takes the offsets
of both streams for offsets in one sequence.  So a stream that was set late, was cleared for a while
or refused a frame no longer carries that sequence, and `lateStream_skips` is a run in which its
first frame is taken for the channel's first message.

`Carries` is the condition under which this cannot happen, on the sends alone: with the frame it
accepts, a stream has accepted a prefix of the frames of the calls that returned true.
`reliable_delivery` is the channel's contract in every run whose sends meet it, whatever the
handles, the failures, the segmentation and the interleaving.
-/
import Koisyn.Channel.Reassembly

namespace Koisyn.Channel

open Koisyn.Theory
open Koisyn.Theory.Run

set_option autoImplicit false

/-- What MsQuic fixes of each stream: its id, and whether the sending side opened it. -/
structure Streams where
  id : Hquic → Nat
  isSelf : Hquic → Bool

structure DeliveryState where
  sender : ConnectionContext
  receiver : ConnectionContext
  /-- The bytes that `StreamSend` accepted on each stream. -/
  accepted : Hquic → List UInt8
  received : Hquic → Nat
  /-- The payloads of the calls that returned true on each channel. -/
  sent : Fin 4 → List (List UInt8)
  calls : List Call
  /-- The channels whose `RecvMutex` is held by an activation that does not return. -/
  held : Fin 4 → Bool
  alive : ObjectId → Bool

inductive DeliveryLabel where
  | setSelf (channel : Fin 4) (strm : Option Hquic)
  | setPeer (channel : Fin 4) (strm : Option Hquic)
  | send (channel : Fin 4) (data : List UInt8) (env : SendEnv)
  | receive (strm : Hquic) (ev : ReceiveEvent)
  | release (object : ObjectId)

namespace ConnectionContext

def setSelf (ctx : ConnectionContext) (channel : Fin 4) (strm : Option Hquic) : ConnectionContext :=
  { ctx with reliable :=
      Function.update ctx.reliable channel { ctx.reliable channel with self := strm } }

def setPeer (ctx : ConnectionContext) (channel : Fin 4) (strm : Option Hquic) : ConnectionContext :=
  { ctx with reliable :=
      Function.update ctx.reliable channel { ctx.reliable channel with peer := strm } }

end ConnectionContext

section Machine

variable (M : Streams) (slot : Slot)

/-- Whether an activation for the stream would wait for a `RecvMutex` that is never released: its
channel's, or any when it has to reset the context. -/
def DeliveryState.Blocked (s : DeliveryState) (strm : Hquic) : Prop :=
  match lockChannelContext s.alive s.receiver.channelContext with
  | none => ∃ i, s.held i = true
  | some _ => ∃ i : Fin 4, (M.id strm >>> 2) % 2 ^ 32 = i ∧ s.held i = true

instance (s : DeliveryState) (strm : Hquic) : Decidable (s.Blocked M strm) := by
  unfold DeliveryState.Blocked
  split <;> infer_instance

/-- One step.  After an activation that leaves its memory nothing is known, and the run ends. -/
def deliveryStep (s : DeliveryState) : DeliveryLabel → Option DeliveryState
  | .setSelf channel strm =>
      if ∀ h ∈ strm, M.isSelf h = true then
        some { s with sender := s.sender.setSelf channel strm }
      else none
  | .setPeer channel strm =>
      if ∀ h ∈ strm, M.isSelf h = false then
        some { s with sender := s.sender.setPeer channel strm }
      else none
  | .send channel data env =>
      let r := reliablePacketSend (some s.sender) channel data env
      some { s with
        accepted := fun strm => s.accepted strm ++ acceptedOn strm r.2
        sent := if r.1 then Function.update s.sent channel (s.sent channel ++ [data]) else s.sent }
  | .receive strm ev =>
      if ev.absoluteOffset = s.received strm ∧
          ev.buffers.flatten <+: (s.accepted strm).drop (s.received strm) ∧ ¬ s.Blocked M strm then
        let r := handleReceive slot s.alive (M.id strm) ev s.receiver
        let s' := { s with
          receiver := r.ctx
          received := Function.update s.received strm (ev.absoluteOffset + ev.totalBufferLength)
          calls := s.calls ++ r.calls }
        match r.exit with
        | .returned _ => some s'
        | .overruns => none
        | _ => some { s' with
            held := fun i => s.held i || decide ((M.id strm >>> 2) % 2 ^ 32 = i.val) }
      else none
  | .release object => some { s with alive := Function.update s.alive object false }

/-- Two ends that have sent and received nothing. -/
def deliveryStart (sender : ConnectionContext) (object : ObjectId) : DeliveryState where
  sender := sender
  receiver := { channelContext := some object }
  accepted := fun _ => []
  received := fun _ => 0
  sent := fun _ => []
  calls := []
  held := fun _ => false
  alive := fun _ => true

/-- The contract: on each channel the payloads handed to the application are the first ones of the
calls that returned true. -/
def Delivers (s : DeliveryState) : Prop := ∀ k, deliveredTo slot k s.calls <+: s.sent k

/-- A stream that accepts the frame of a send has then accepted a prefix of the frames of the calls
that returned true, on the channel that the stream's id names. -/
def Carries (s : DeliveryState) : DeliveryLabel → Prop
  | .send channel data env =>
      data.length ≤ 65512 ∧ env.allocated = true →
        ∀ t ∈ targets (s.sender.reliable channel).peer (s.sender.reliable channel).self env,
          t.2 = true → ∃ k : Fin 4, (M.id t.1 >>> 2) % 2 ^ 32 = k ∧
            s.accepted t.1 ++ frame data <+:
              framing.frames (Function.update s.sent channel (s.sent channel ++ [data]) k)
  | _ => True

instance (s : DeliveryState) (label : DeliveryLabel) : Decidable (Carries M s label) := by
  cases label <;> unfold Carries <;> infer_instance

/-! ## The invariant -/

/-- What an alive receiver keeps: every channel accounts for a prefix of the frames sent on it, as
far as any of its streams has been received. -/
structure Following (s : DeliveryState) : Prop where
  accounts : ∀ k, Accounts (framing.frames (s.sent k)) (s.receiver.reliable k)
    (deliveredTo slot k s.calls)
  reaches : ∀ strm, ∀ k : Fin 4, (M.id strm >>> 2) % 2 ^ 32 = k → s.held k = false →
    s.received strm ≤ (s.receiver.reliable k).nextRecvByte

structure Delivering (s : DeliveryState) : Prop where
  small : ∀ k, ∀ payload ∈ s.sent k, payload.length ≤ 65512
  handles : ∀ k, (∀ h ∈ (s.sender.reliable k).self, M.isSelf h = true) ∧
    ∀ h ∈ (s.sender.reliable k).peer, M.isSelf h = false
  carried : ∀ strm, s.accepted strm = [] ∨ ∃ k : Fin 4, (M.id strm >>> 2) % 2 ^ 32 = k ∧
    s.accepted strm <+: framing.frames (s.sent k)
  delivers : Delivers slot s
  following : (lockChannelContext s.alive s.receiver.channelContext).isSome → Following M slot s

variable {M slot}

theorem delivering_start (sender : ConnectionContext) (object : ObjectId)
    (handles : ∀ k, (∀ h ∈ (sender.reliable k).self, M.isSelf h = true) ∧
      ∀ h ∈ (sender.reliable k).peer, M.isSelf h = false) :
    Delivering M slot (deliveryStart sender object) where
  small _ _ member := by cases member
  handles := handles
  carried _ := .inl rfl
  delivers _ := List.prefix_rfl
  following _ :=
    { accounts := fun _ => ⟨fun _ member => absurd member List.not_mem_nil, rfl, Nat.le_refl _⟩
      reaches := fun _ _ _ _ => Nat.le_refl _ }

/-- Sending more keeps what the receiver follows. -/
theorem Following.extend {s t : DeliveryState} (follows : Following M slot s)
    (longer : ∀ k, s.sent k <+: t.sent k) (receiver : t.receiver = s.receiver)
    (received : t.received = s.received) (calls : t.calls = s.calls) (held : t.held = s.held) :
    Following M slot t where
  accounts k := by
    rw [receiver, calls]
    obtain ⟨more, sent⟩ := longer k
    rw [← sent, framing.frames_append]
    exact (follows.accounts k).extend (List.prefix_append _ _)
  reaches := by
    rw [receiver, received, held]
    exact follows.reaches

theorem delivering_setStream {s : DeliveryState} (inv : Delivering M slot s)
    {sender : ConnectionContext}
    (handles : ∀ k, (∀ h ∈ (sender.reliable k).self, M.isSelf h = true) ∧
      ∀ h ∈ (sender.reliable k).peer, M.isSelf h = false) :
    Delivering M slot { s with sender } where
  small := inv.small
  handles := handles
  carried := inv.carried
  delivers := inv.delivers
  following alive := (inv.following alive).extend (fun _ => List.prefix_rfl) rfl rfl rfl rfl

theorem delivering_send {s : DeliveryState} (inv : Delivering M slot s) {channel : Fin 4}
    {data : List UInt8} {env : SendEnv} (carries : Carries M s (.send channel data env))
    {t : DeliveryState} (taken : deliveryStep M slot s (.send channel data env) = some t) :
    Delivering M slot t := by
  have distinct : ∀ p ∈ (s.sender.reliable channel).peer, ∀ q ∈ (s.sender.reliable channel).self,
      p ≠ q := by
    rintro p isPeer q isSelf rfl
    have ours := (inv.handles channel).1 p isSelf
    rw [(inv.handles channel).2 p isPeer] at ours
    cases ours
  have accepts := reliablePacketSend_accepts s.sender channel data env distinct
  have succeeds := (reliablePacketSend_streamSend s.sender channel data env 0).1
  simp only [deliveryStep, Option.some.injEq] at taken
  generalize reliablePacketSend (some s.sender) channel data env = r at taken accepts succeeds
  have longer : ∀ k, s.sent k <+: t.sent k := by
    intro k
    rw [← taken]
    show _ <+: (if r.1 = true then _ else s.sent) k
    split
    · by_cases same : k = channel
      · rw [same, Function.update_self]
        exact List.prefix_append _ _
      · rw [Function.update_of_ne same]
    · exact List.prefix_rfl
  have longerFrames : ∀ k, framing.frames (s.sent k) <+: framing.frames (t.sent k) := by
    intro k
    obtain ⟨more, sent⟩ := longer k
    rw [← sent, framing.frames_append]
    exact List.prefix_append _ _
  refine ⟨?_, ?_, ?_, ?_, ?_⟩
  · intro k payload member
    rw [← taken] at member
    change payload ∈ (if r.1 = true then _ else s.sent) k at member
    split at member
    · rename_i sent
      by_cases same : k = channel
      · rw [same, Function.update_self] at member
        rcases List.mem_append.1 member with old | new
        · exact inv.small channel payload old
        · rw [List.mem_singleton.1 new]
          exact (succeeds.1 sent).1
      · rw [Function.update_of_ne same] at member
        exact inv.small k payload member
    · exact inv.small k payload member
  · rw [← taken]
    exact inv.handles
  · intro strm
    have appended : t.accepted strm = s.accepted strm ++ acceptedOn strm r.2 := by rw [← taken]
    rcases accepts strm with nothing | ⟨isFrame, sent, guards, target⟩
    · rw [appended, nothing, List.append_nil]
      rcases inv.carried strm with empty | ⟨k, named, carried⟩
      · exact .inl empty
      · exact .inr ⟨k, named, carried.trans (longerFrames k)⟩
    · obtain ⟨k, named, carried⟩ := carries guards (strm, true) target rfl
      refine .inr ⟨k, named, ?_⟩
      have updated : t.sent = Function.update s.sent channel (s.sent channel ++ [data]) := by
        rw [← taken]
        exact if_pos sent
      rw [appended, isFrame, updated]
      exact carried
  · intro k
    have calls : t.calls = s.calls := by rw [← taken]
    rw [calls]
    exact (inv.delivers k).trans (longer k)
  · intro alive
    rw [← taken] at alive
    refine (inv.following alive).extend longer ?_ ?_ ?_ ?_ <;> rw [← taken]

theorem delivering_release {s : DeliveryState} (inv : Delivering M slot s) (object : ObjectId) :
    Delivering M slot { s with alive := Function.update s.alive object false } where
  small := inv.small
  handles := inv.handles
  carried := inv.carried
  delivers := inv.delivers
  following alive := by
    refine (inv.following ?_).extend (fun _ => List.prefix_rfl) rfl rfl rfl rfl
    cases context : s.receiver.channelContext with
    | none => simp [lockChannelContext, context] at alive
    | some held =>
        by_cases same : held = object
        · simp [lockChannelContext, context, same] at alive
        · simpa [lockChannelContext, context, same] using alive

/-- What an activation can do to the machine. -/
theorem deliveryStep_receive {s t : DeliveryState} {strm : Hquic} {ev : ReceiveEvent}
    (taken : deliveryStep M slot s (.receive strm ev) = some t) :
    let r := handleReceive slot s.alive (M.id strm) ev s.receiver
    (ev.absoluteOffset = s.received strm ∧
      ev.buffers.flatten <+: (s.accepted strm).drop (s.received strm) ∧ ¬ s.Blocked M strm) ∧
    r.exit ≠ .overruns ∧ t.sender = s.sender ∧ t.accepted = s.accepted ∧ t.sent = s.sent ∧
    t.alive = s.alive ∧ t.receiver = r.ctx ∧ t.calls = s.calls ++ r.calls ∧
    t.received = Function.update s.received strm (ev.absoluteOffset + ev.buffers.flatten.length) ∧
    (∀ i, t.held i = false → s.held i = false ∧
      ((M.id strm >>> 2) % 2 ^ 32 = i.val → ∃ status, r.exit = .returned status)) := by
  intro r
  simp only [deliveryStep] at taken
  rw [← ev.total]
  split at taken
  case isFalse => cases taken
  case isTrue indicates =>
    refine ⟨indicates, ?_⟩
    change (match r.exit with | .returned _ => _ | .overruns => _ | _ => _) = some t at taken
    split at taken
    case h_1 status returned =>
      cases taken
      refine ⟨by simp [returned], rfl, rfl, rfl, rfl, rfl, rfl, rfl, ?_⟩
      intro i open_
      exact ⟨open_, fun _ => ⟨status, returned⟩⟩
    case h_2 => cases taken
    case h_3 inside =>
      cases taken
      refine ⟨inside, rfl, rfl, rfl, rfl, rfl, rfl, rfl, ?_⟩
      intro i open_
      simp only [Bool.or_eq_false_iff, decide_eq_false_iff_not] at open_
      exact ⟨open_.1, fun named => absurd named open_.2⟩

/-- An activation that drops the connection delivers nothing, and nothing is delivered after it. -/
theorem delivering_expired {s : DeliveryState} (inv : Delivering M slot s)
    (expired : lockChannelContext s.alive s.receiver.channelContext = none) {strm : Hquic}
    {ev : ReceiveEvent} {t : DeliveryState}
    (taken : deliveryStep M slot s (.receive strm ev) = some t) : Delivering M slot t := by
  obtain ⟨-, -, sender, accepted, sent, -, receiver, calls, -, -⟩ := deliveryStep_receive taken
  rw [handleReceive_expired expired] at receiver calls
  refine ⟨by rw [sent]; exact inv.small, by rw [sender]; exact inv.handles,
    by rw [accepted, sent]; exact inv.carried, ?_, ?_⟩
  · intro k
    rw [calls, sent, deliveredTo_append, deliveredTo_resetCalls, List.append_nil]
    exact inv.delivers k
  · intro alive
    rw [receiver] at alive
    simp [ConnectionContext.reset, lockChannelContext] at alive

/-- **One activation keeps the contract**: what the stream brings is part of the sequence that its
channel follows. -/
theorem delivering_receive {s : DeliveryState} (inv : Delivering M slot s) {channelCtx : ObjectId}
    (locked : lockChannelContext s.alive s.receiver.channelContext = some channelCtx) {strm : Hquic}
    {ev : ReceiveEvent} {t : DeliveryState}
    (taken : deliveryStep M slot s (.receive strm ev) = some t) : Delivering M slot t := by
  have follows := inv.following (by rw [locked]; rfl)
  obtain ⟨⟨position, isPiece, free⟩, inside, sender, accepted, sent, -, receiver, calls, received,
    held⟩ := deliveryStep_receive taken
  have inRange : (M.id strm >>> 2) % 2 ^ 32 < 4 := by
    by_contra outside
    rw [handleReceive_outside locked outside] at inside
    exact inside rfl
  obtain ⟨index, named⟩ : ∃ index : Fin 4, (M.id strm >>> 2) % 2 ^ 32 = index :=
    ⟨⟨_, inRange⟩, rfl⟩
  have open_ : s.held index = false := by
    refine Bool.eq_false_of_not_eq_true fun isHeld => free ?_
    unfold DeliveryState.Blocked
    rw [locked]
    exact ⟨index, named, isHeld⟩
  have starts := position ▸ follows.reaches strm index named open_
  have piece : ev.buffers.flatten <+: (framing.frames (s.sent index)).drop ev.absoluteOffset := by
    rw [position]
    rcases inv.carried strm with empty | ⟨k, namedK, carried⟩
    · rw [empty, List.drop_nil, List.prefix_nil] at isPiece
      rw [isPiece]
      exact List.nil_prefix
    · obtain rfl : k = index := Fin.ext (namedK.symm.trans named)
      exact isPiece.trans (carried.drop _)
  obtain ⟨-, accounts, others, -, returns, -⟩ :=
    handleReceive_spec slot locked named (follows.accounts index) starts piece
  rw [← receiver] at accounts others returns
  have follow : Following M slot t := by
    refine ⟨?_, ?_⟩
    · intro k
      rw [sent, calls, deliveredTo_append]
      by_cases same : k = index
      · rw [same]
        exact accounts
      · rw [(others k same).1, (others k same).2, List.append_nil]
        exact follows.accounts k
    · intro h k namedH openK
      obtain ⟨wasOpen, returned⟩ := held k openK
      by_cases same : k = index
      · subst same
        obtain ⟨status, exit⟩ := returned named
        rw [(returns status exit).2.1, received]
        have before := follows.reaches h k namedH wasOpen
        by_cases isStrm : h = strm
        · rw [isStrm, Function.update_self]
          exact Nat.le_max_right _ _
        · rw [Function.update_of_ne isStrm]
          exact before.trans (Nat.le_max_left _ _)
      · have notStrm : h ≠ strm := by
          rintro rfl
          exact same (Fin.ext (namedH.symm.trans named))
        rw [(others k same).1, received, Function.update_of_ne notStrm]
        exact follows.reaches h k namedH wasOpen
  refine ⟨by rw [sent]; exact inv.small, by rw [sender]; exact inv.handles,
    by rw [accepted, sent]; exact inv.carried, ?_, fun _ => follow⟩
  intro k
  have valid : ∀ payload ∈ t.sent k, framing.Valid payload := by
    intro payload member
    rw [sent] at member
    have := inv.small k payload member
    show payload.length < 2 ^ 32
    omega
  exact framing.prefix_of_frames (follow.accounts k).valid valid (follow.accounts k).front

theorem delivering_step {s t : DeliveryState} {label : DeliveryLabel} (inv : Delivering M slot s)
    (carries : Carries M s label) (taken : deliveryStep M slot s label = some t) :
    Delivering M slot t := by
  cases label with
  | setSelf channel strm =>
      simp only [deliveryStep, Option.ite_none_right_eq_some, Option.some.injEq] at taken
      obtain ⟨ours, rfl⟩ := taken
      refine delivering_setStream inv ?_
      intro k
      by_cases same : k = channel
      · subst same
        simpa [ConnectionContext.setSelf] using ⟨ours, (inv.handles k).2⟩
      · simpa [ConnectionContext.setSelf, same] using inv.handles k
  | setPeer channel strm =>
      simp only [deliveryStep, Option.ite_none_right_eq_some, Option.some.injEq] at taken
      obtain ⟨theirs, rfl⟩ := taken
      refine delivering_setStream inv ?_
      intro k
      by_cases same : k = channel
      · subst same
        simpa [ConnectionContext.setPeer] using ⟨(inv.handles k).1, theirs⟩
      · simpa [ConnectionContext.setPeer, same] using inv.handles k
  | send channel data env => exact delivering_send inv carries taken
  | receive strm ev =>
      cases locked : lockChannelContext s.alive s.receiver.channelContext with
      | none => exact delivering_expired inv locked taken
      | some channelCtx => exact delivering_receive inv locked taken
  | release object =>
      simp only [deliveryStep, Option.some.injEq] at taken
      exact taken ▸ delivering_release inv object

/-- **End to end.**  In every run whose sends meet `Carries`, the payloads handed to the application
are at every moment the first ones of the calls that returned true, in order. -/
theorem reliable_delivery (M : Streams) (slot : Slot) (object : ObjectId)
    (labels : List DeliveryLabel)
    (every : EveryStep (deliveryStep M slot) (Carries M) (deliveryStart {} object) labels) :
    Always (deliveryStep M slot) (Delivers slot) (deliveryStart {} object) labels := by
  have start : Delivering M slot (deliveryStart {} object) :=
    delivering_start {} object fun _ => ⟨by simp, by simp⟩
  exact (always_of_everyStep (fun _ _ _ inv carries taken => delivering_step inv carries taken)
    start every).mono fun _ inv => inv.delivers

/-! ## A stream that is set late -/

/-- Stream 1 is ours, stream 2 the peer's, and both are channel 0's. -/
def sampleStreams : Streams where
  id _ := 0
  isSelf strm := strm = 1

/-- Our stream alone takes the first message.  Then both take the second, and the receiver hears of
the peer's stream first. -/
def lateStream : List DeliveryLabel :=
  [.setSelf 0 (some 1), .send 0 [1] ⟨true, true, true⟩, .setPeer 0 (some 2),
    .send 0 [2] ⟨true, true, true⟩, .receive 2 ⟨0, 5, [[0, 0, 0, 1, 2]], rfl⟩]

theorem lateStream_skips :
    (exec (deliveryStep sampleStreams 0) (deliveryStart {} 1) lateStream).map
        (fun s => (s.sent 0, deliveredTo 0 0 s.calls)) = some ([[1], [2]], [[2]]) ∧
      ¬ Always (deliveryStep sampleStreams 0) (Delivers 0) (deliveryStart {} 1) lateStream := by
  have ended : (exec (deliveryStep sampleStreams 0) (deliveryStart {} 1) lateStream).map
      (fun s => (s.sent 0, deliveredTo 0 0 s.calls)) = some ([[1], [2]], [[2]]) := by decide
  refine ⟨ended, ?_⟩
  intro always
  obtain ⟨s, run, state⟩ := Option.map_eq_some_iff.1 ended
  have delivers : deliveredTo 0 0 s.calls <+: s.sent 0 := always.last run 0
  rw [(Prod.mk.inj state).1, (Prod.mk.inj state).2] at delivers
  revert delivers
  decide

/-- Both streams from the start: each accepts both messages, and the second one brings the first
message again before the second. -/
def bothStreams : List DeliveryLabel :=
  [.setSelf 0 (some 1), .setPeer 0 (some 2), .send 0 [1] ⟨true, true, true⟩,
    .send 0 [2] ⟨true, true, true⟩, .receive 2 ⟨0, 5, [[0, 0, 0, 1, 1]], rfl⟩,
    .receive 1 ⟨0, 10, [[0, 0, 0, 1, 1], [0, 0, 0, 1, 2]], rfl⟩]

theorem reliable_delivery_bothStreams :
    (exec (deliveryStep sampleStreams 0) (deliveryStart {} 1) bothStreams).map
        (fun s => (s.sent 0, deliveredTo 0 0 s.calls)) = some ([[1], [2]], [[1], [2]]) ∧
      Always (deliveryStep sampleStreams 0) (Delivers 0) (deliveryStart {} 1) bothStreams :=
  ⟨by decide, reliable_delivery sampleStreams 0 1 bothStreams (by decide)⟩

end Machine

end Koisyn.Channel
