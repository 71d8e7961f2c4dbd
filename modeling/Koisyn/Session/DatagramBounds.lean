/-
# Koisyn.Session.DatagramBounds — four header bytes, read and sent

Every datagram has four bytes of packet number before its data.

* `shortDatagram_iff`: the `DATAGRAM_RECEIVED` handler stays inside the bytes it was given, hands over
  all but the header and ignores what is too short, exactly when the datagram has a header, or the
  channel context is expired and nothing has been received on it.
* `datagram_fits_iff`: the guard of `UnreliablePacketSend` leaves no room for the header, and compares
  with the limit that either connection reported last (`Reported`).  What passes it fits each
  connection's own limit exactly when `MaxSendLength` is at least four below the limits of the
  connections present.
-/
import Koisyn.Session.History
import Koisyn.Session.DatagramNumbers

namespace Koisyn.Session

open Koisyn.Channel
open Koisyn.Theory.Bytes
open Koisyn.Theory.Run

set_option autoImplicit false

/-! ## A datagram received -/

/-- What a context keeps of what has arrived: the number waited for, and each stream's bytes. -/
def receiveState (ctx : ConnectionContext) : UInt32 × (Fin 4 → List UInt8 × Nat) :=
  (ctx.unreliable.nextRecvPacket, fun i => ((ctx.reliable i).buffer, (ctx.reliable i).nextRecvByte))

/-- `span{buf->Buffer + 4, buf->Length - 4}` ends here, the difference at 32 bits. -/
def spanEnd (buf : List UInt8) : Nat := 4 + (UInt32.ofNat buf.length - 4).toNat

/-- The handler reads and hands over bytes of the datagram only, all but the four of the header, and
a datagram without a header changes nothing that was received. -/
structure InsideDatagram (slot : Slot) (ctx : ConnectionContext) (buf : List UInt8)
    (alive : ObjectId → Bool) : Prop where
  header : (lockChannelContext alive ctx.channelContext).isSome → 4 ≤ buf.length
  span : (lockChannelContext alive ctx.channelContext).isSome → spanEnd buf ≤ buf.length
  returns : (datagramReceived slot ctx buf alive).exit ≠ .overruns
  delivers : ∀ data channelCtx,
    .onUnreliableReceive slot data channelCtx ∈ (datagramReceived slot ctx buf alive).calls →
      buf = buf.take 4 ++ data ∧ data.length = buf.length - 4
  tooShort : buf.length < 4 → receiveState (datagramReceived slot ctx buf alive).ctx = receiveState ctx

theorem mem_deliveredUnreliably {slot : Slot} {calls : List Call} {data : List UInt8}
    {channelCtx : ObjectId} (member : .onUnreliableReceive slot data channelCtx ∈ calls) :
    data ∈ deliveredUnreliably slot calls :=
  List.mem_filterMap.2 ⟨_, member, by simp⟩

/-- **The handler stays inside a datagram exactly when it has a header**, or is dropped on a context
that has nothing to lose. -/
theorem shortDatagram_iff (slot : Slot) (ctx : ConnectionContext) (buf : List UInt8)
    (alive : ObjectId → Bool) :
    InsideDatagram slot ctx buf alive ↔
      4 ≤ buf.length ∨
        lockChannelContext alive ctx.channelContext = none ∧ receiveState ctx = receiveState {} := by
  cases locked : lockChannelContext alive ctx.channelContext with
  | none =>
      have reset : (datagramReceived slot ctx buf alive).ctx = ctx.reset := by
        simp only [datagramReceived, locked]
      constructor
      · intro inside
        by_cases header : 4 ≤ buf.length
        · exact .inl header
        · refine .inr ⟨rfl, ?_⟩
          have same := inside.tooShort (by omega)
          rw [reset] at same
          exact same.symm
      · intro condition
        refine ⟨?_, ?_, ?_, ?_, ?_⟩
        · simp [locked]
        · simp [locked]
        · simp [datagramReceived, locked]
        · intro data channelCtx member
          have delivered := mem_deliveredUnreliably member
          rw [(datagramReceived_expired slot buf locked).2] at delivered
          exact absurd delivered List.not_mem_nil
        · intro short
          obtain ⟨-, blank⟩ := condition.resolve_left (by omega)
          rw [reset]
          exact blank.symm
  | some channelCtx =>
      have isOpen : (lockChannelContext alive ctx.channelContext).isSome := by
        rw [locked]
        rfl
      constructor
      · exact fun inside => .inl (inside.header isOpen)
      · rintro (header | ⟨expired, -⟩)
        · refine ⟨fun _ => header, fun _ => ?_, ?_, ?_, fun short => absurd header (by omega)⟩
          · have four : (UInt32.ofNat buf.length - 4).toNat ≤ buf.length - 4 := by
              have total := Nat.mod_le buf.length (2 ^ 32)
              simp only [UInt32.toNat_sub, UInt32.toNat_ofNat']
              have : (4 : UInt32).toNat = 4 := rfl
              omega
            unfold spanEnd
            omega
          · simp only [datagramReceived, locked, Nat.not_lt.2 header, if_false]
            split <;> simp
          · intro data channelCtx member
            have delivered := mem_deliveredUnreliably member
            obtain ⟨-, ⟨-, -, one⟩ | ⟨-, -, nothing⟩⟩ := datagramReceived_open slot isOpen header
            · rw [one, List.mem_singleton] at delivered
              subst delivered
              exact ⟨(List.take_append_drop 4 buf).symm, List.length_drop⟩
            · rw [nothing] at delivered
              exact absurd delivered List.not_mem_nil
        · cases expired

/-- A datagram of three bytes in an open session. -/
theorem shortDatagram_overruns :
    ¬ InsideDatagram 0 { channelContext := some 7 } [0, 0, 0] (fun _ => true) := by
  intro inside
  exact absurd (inside.header rfl) (by decide)

/-! ## A datagram sent -/

/-- The `MaxSendLength` that each connection reported last. -/
abbrev Reports := Hquic → Option UInt16

def noteReport (_ : World) (l : Label) (reports : Reports) : Reports :=
  match l with
  | .datagramStateChanged conn maxSendLength => Function.update reports conn (some maxSendLength)
  | _ => reports

/-- A session with the reports of its connections. -/
def reportStep (L : Listener) : World × Reports → Label → Option (World × Reports) :=
  recording (World.step L) noteReport

/-- Every buffer handed to `DatagramSend` is no longer than its connection reported last. -/
def Fits (ctx : ConnectionContext) (reports : Reports) (data : List UInt8) (env : SendEnv) : Prop :=
  ∀ conn buf succeeded, .datagramSend conn buf succeeded ∈ (unreliablePacketSend ctx data env).2.2 →
    ∀ limit ∈ reports conn, buf.length ≤ limit.toNat

/-- A connection that the context holds. -/
def Present (ctx : ConnectionContext) (conn : Hquic) : Prop :=
  ctx.unreliable.peer = some conn ∨ ctx.unreliable.self = some conn

/-- The limits of the connections present leave room for the data and a header. -/
def Room (ctx : ConnectionContext) (reports : Reports) (length : Nat) : Prop :=
  ∀ conn, Present ctx conn → ∀ limit ∈ reports conn, length + 4 ≤ limit.toNat

/-- The send stops before it gets to a connection. -/
def Stopped (ctx : ConnectionContext) (data : List UInt8) (env : SendEnv) : Prop :=
  TooLong ctx data ∨ env.allocated = false

section Sends

variable {ctx : ConnectionContext} {data : List UInt8} {env : SendEnv}

/-- **What a send hands over**: one buffer of four bytes more than the data, to each connection
present. -/
theorem mem_unreliablePacketSend {conn : Hquic} {length : Nat} :
    (∃ buf succeeded, buf.length = length ∧
        .datagramSend conn buf succeeded ∈ (unreliablePacketSend ctx data env).2.2) ↔
      ¬ Stopped ctx data env ∧ Present ctx conn ∧ length = data.length + 4 := by
  unfold unreliablePacketSend Stopped TooLong
  dsimp only
  by_cases long : ctx.unreliable.maxSendLength.toNat < data.length
  · rw [if_pos long]
    constructor
    · rintro ⟨buf, succeeded, -, member⟩
      exact absurd member List.not_mem_nil
    · rintro ⟨goes, -⟩
      exact absurd (.inl long) goes
  · rw [if_neg long]
    have whole : data.length % 2 ^ 16 = data.length := by
      have := ctx.unreliable.maxSendLength.toNat_lt
      exact Nat.mod_eq_of_lt (by omega)
    cases allocated : env.allocated with
    | false =>
        constructor
        · rintro ⟨buf, succeeded, -, member⟩
          exact absurd member List.not_mem_nil
        · rintro ⟨goes, -⟩
          exact absurd (.inr rfl) goes
    | true =>
        have tail : ∀ (sent : Bool) (call : Call), call ∈ (if sent then [] else [Call.deleteBuffer]) →
            call = .deleteBuffer := by
          intro sent call member
          cases sent with
          | true => exact absurd member List.not_mem_nil
          | false => exact List.mem_singleton.1 member
        simp only [makeBuffer, if_true, whole]
        constructor
        · rintro ⟨buf, succeeded, length, member⟩
          rcases List.mem_append.1 member with sends | deletes
          · obtain ⟨t, isTarget, same⟩ := List.mem_map.1 sends
            cases same
            refine ⟨by simp [long], mem_targets.1 ⟨t.2, isTarget⟩, ?_⟩
            rw [← length]
            exact Nat.add_comm 4 _
          · exact absurd (tail _ _ deletes) (by simp)
        · rintro ⟨-, present, rfl⟩
          obtain ⟨succeeded, isTarget⟩ := mem_targets.2 present
          exact ⟨_, succeeded, Nat.add_comm 4 _,
            List.mem_append_left _ (List.mem_map.2 ⟨_, isTarget, rfl⟩)⟩

/-- **One send fits exactly when it stops early or the limits leave room.** -/
theorem fits_iff (reports : Reports) :
    Fits ctx reports data env ↔ Stopped ctx data env ∨ Room ctx reports data.length := by
  constructor
  · intro fits
    rw [or_iff_not_imp_left]
    intro goes conn present limit reported
    obtain ⟨buf, succeeded, length, member⟩ :=
      mem_unreliablePacketSend.2 ⟨goes, present, rfl⟩
    rw [← length]
    exact fits conn buf succeeded member limit reported
  · intro condition conn buf succeeded member limit reported
    obtain ⟨goes, present, length⟩ := mem_unreliablePacketSend.1 ⟨buf, succeeded, rfl, member⟩
    rw [length]
    exact condition.resolve_left goes conn present limit reported

/-- **Everything that passes the guard fits exactly when the stored limit leaves room.** -/
theorem everyData_fits_iff (ctx : ConnectionContext) (reports : Reports) :
    (∀ data env, Fits ctx reports data env) ↔
      Room ctx reports ctx.unreliable.maxSendLength.toNat := by
  constructor
  · intro fits
    have longest := (fits_iff reports).1
      (fits (List.replicate ctx.unreliable.maxSendLength.toNat 0) ⟨true, true, true⟩)
    rw [List.length_replicate] at longest
    apply longest.resolve_left
    rintro (long | failed)
    · rw [TooLong, List.length_replicate] at long
      exact Nat.lt_irrefl _ long
    · cases failed
  · intro room data env
    apply (fits_iff reports).2
    by_cases long : TooLong ctx data
    · exact .inl (.inl long)
    · refine .inr fun conn present limit reported => ?_
      have := room conn present limit reported
      unfold TooLong at long
      omega

end Sends

/-! ## Whose limit the guard compares with -/

theorem startClient_maxSendLength (slot : Slot) (ctx : ConnectionContext) (remote : Endpoint)
    (env : StartEnv) :
    (startClient slot ctx remote env).1.unreliable.maxSendLength = ctx.unreliable.maxSendLength ∨
      (startClient slot ctx remote env).1.unreliable.maxSendLength = 0 := by
  have started := startClient_started slot ctx remote env
  generalize startClient slot ctx remote env = r at started ⊢
  cases started with
  | unopened | granted => exact .inl rfl
  | refused => exact .inr rfl

/-- **What an activation does to the limit**: it keeps it, clears it, or stores a report. -/
theorem run_maxSendLength (slot : Slot) (ctx : ConnectionContext) (act : Activation) :
    (act.run slot ctx).ctx.unreliable.maxSendLength = ctx.unreliable.maxSendLength ∨
      (act.run slot ctx).ctx.unreliable.maxSendLength = 0 ∨
      act = .datagramStateChanged (act.run slot ctx).ctx.unreliable.maxSendLength := by
  cases act with
  | receive1st remoteServer remoteClient remote localServer sock now =>
      left
      simp only [Activation.run, returning, receive1st]
      split
      · split <;> rfl
      · rfl
  | receive2nd remoteServer remoteClient remote env =>
      exact (startClient_maxSendLength slot _ remote env).imp id .inl
  | receive3rd remote env => exact (startClient_maxSendLength slot ctx remote env).imp id .inl
  | doCheck now =>
      simp only [Activation.run, returning]
      have checked := doCheck_checked slot ctx now
      generalize doCheck slot ctx now = r at checked ⊢
      cases checked with
      | idle | retry => exact .inl rfl
      | longStop | shortStop => exact .inr (.inl rfl)
  | shutdownComplete conn isClient alive =>
      have kept : (clearSide ctx isClient).unreliable.maxSendLength =
          ctx.unreliable.maxSendLength := by
        cases isClient <;> rfl
      simp only [Activation.run, returning, shutdownComplete]
      split
      · exact .inr (.inl rfl)
      · exact .inl kept
  | peerStreamStarted conn strm id =>
      left
      simp only [Activation.run, peerStreamStarted]
      split <;> rfl
  | datagramStateChanged maxSendLength => exact .inr (.inr rfl)
  | datagramReceived buf alive =>
      simp only [Activation.run]
      have took := datagramReceived_took slot ctx buf alive
      generalize (datagramReceived slot ctx buf alive).ctx = after,
        (datagramReceived slot ctx buf alive).calls = calls at took ⊢
      cases took with
      | dropped => exact .inr (.inl rfl)
      | left | taken => exact .inl rfl
  | receive id ev alive =>
      simp only [Activation.run]
      have received := handleReceive_received slot alive id ev ctx
      generalize (handleReceive slot alive id ev ctx).ctx = after,
        (handleReceive slot alive id ev ctx).calls = calls at received ⊢
      cases received with
      | dropped => exact .inr (.inl rfl)
      | _ => exact .inl rfl
  | disconnect => exact .inr (.inl rfl)
  | unreliablePacketSend data env =>
      left
      simp only [Activation.run, returning]
      rcases unreliablePacketSend_number ctx data env with ⟨-, -, same⟩ | ⟨-, -, advanced⟩
      · rw [same]
      · rw [advanced]
  | _ => exact .inl rfl

/-- The limit stored in a context is zero, or what one of the slot's connections reported last. -/
def Reported (s : World × Reports) : Prop :=
  ∀ slot, (s.1.contexts slot).unreliable.maxSendLength = 0 ∨
    ∃ conn c, s.1.conns[conn]? = some c ∧ c.slot = slot ∧
      s.2 conn = some (s.1.contexts slot).unreliable.maxSendLength

theorem reported_step {L : Listener} {w t : World} {reports : Reports} {l : Label}
    (reported : Reported (w, reports)) (taken : w.step L l = some t) :
    Reported (t, noteReport w l reports) := by
  rcases World.step_cases taken with ⟨route, rfl⟩ | ⟨slot, act, route, -, rfl⟩
  · -- a report always finds a handler
    have noReport : noteReport t l reports = reports := by
      cases l with
      | datagramStateChanged conn maxSendLength => simp [World.route] at route
      | _ => rfl
    rw [noReport]
    exact reported
  · by_cases isReport : ∃ maxSendLength, act = .datagramStateChanged maxSendLength
    · obtain ⟨maxSendLength, rfl⟩ := isReport
      cases World.routed_of_route route with
      | @datagramStateChanged conn _ c started =>
          have present := (World.startedConn_some.1 started).1
          intro i
          by_cases here : i = c.slot
          · subst here
            obtain ⟨c', kept, -, sameSlot, -⟩ :=
              World.connsAfter_of_present c.slot (.datagramStateChanged maxSendLength) present
            refine .inr ⟨conn, c', kept, sameSlot, ?_⟩
            rw [World.after_contexts_self]
            exact Function.update_self _ _ _
          · rw [World.after_contexts_ne _ here]
            refine (reported i).imp_right ?_
            rintro ⟨other, d, old, rfl, last⟩
            obtain ⟨d', kept, -, sameSlot, -⟩ :=
              World.connsAfter_of_present c.slot (.datagramStateChanged maxSendLength) old
            refine ⟨other, d', kept, sameSlot, ?_⟩
            have differ : other ≠ conn := by
              rintro rfl
              rw [present] at old
              cases old
              exact here rfl
            exact (Function.update_of_ne differ _ _).trans last
    · have noReport : noteReport w l reports = reports := by
        cases World.routed_of_route route with
        | datagramStateChanged => exact absurd ⟨_, rfl⟩ isReport
        | _ => rfl
      rw [noReport]
      intro i
      have kept : ∀ limit, (∃ conn c, w.conns[conn]? = some c ∧ c.slot = i ∧
            reports conn = some limit) →
          ∃ conn c, (w.after slot act).conns[conn]? = some c ∧ c.slot = i ∧
            reports conn = some limit := by
        rintro limit ⟨conn, c, present, rfl, last⟩
        obtain ⟨c', kept, -, sameSlot, -⟩ := World.connsAfter_of_present slot act present
        exact ⟨conn, c', kept, sameSlot, last⟩
      by_cases here : i = slot
      · subst here
        rw [World.after_contexts_self]
        rcases run_maxSendLength i (w.contexts i) act with same | zero | stored
        · rw [same]
          exact (reported i).imp_right (kept _)
        · exact .inl zero
        · exact absurd ⟨_, stored⟩ isReport
      · rw [World.after_contexts_ne _ here]
        exact (reported i).imp_right (kept _)

/-- **Exactly when what passes the guard fits.**  One send fits if and only if it stops early or the
limits last reported by the connections present leave room for its data and a header; in a run every
data that passes the guard fits in every state if and only if `MaxSendLength` itself leaves room there;
and `MaxSendLength` is zero or the last report of any connection of the slot. -/
theorem datagram_fits_iff (L : Listener) (labels : List Label) :
    (∀ (ctx : ConnectionContext) (reports : Reports) (data : List UInt8) (env : SendEnv),
        Fits ctx reports data env ↔ Stopped ctx data env ∨ Room ctx reports data.length) ∧
      (Always (reportStep L) (fun s => ∀ slot data env, Fits (s.1.contexts slot) s.2 data env)
          ({}, fun _ => none) labels ↔
        Always (reportStep L) (fun s => ∀ slot, Room (s.1.contexts slot) s.2
          (s.1.contexts slot).unreliable.maxSendLength.toNat) ({}, fun _ => none) labels) ∧
      Always (reportStep L) Reported ({}, fun _ => none) labels := by
  refine ⟨fun _ reports _ _ => fits_iff reports, ⟨?_, ?_⟩, ?_⟩
  · exact fun always => always.mono fun s fits slot => (everyData_fits_iff _ _).1 (fits slot)
  · exact fun always => always.mono fun s room slot => (everyData_fits_iff _ _).2 (room slot)
  · refine always_of_keeps ?_ labels fun _ => .inl rfl
    rintro s l ⟨t, reports⟩ reported taken
    obtain ⟨taken, rfl⟩ := recording_some.1 taken
    exact reported_step reported taken

/-- Our client's connection reports a limit of 100, and a hundred bytes make a datagram of 104. -/
theorem reportedLimit_overrun :
    ¬ Always (reportStep World.sampleListener)
      (fun s => ∀ slot data env, Fits (s.1.contexts slot) s.2 data env) ({}, fun _ => none)
      [.connectTo (some World.samplePeer) (fun _ => false) (some 2) 0,
        .packet (portBytes 3 4 1 2) World.samplePeer (fun _ => false) none 0 World.sampleStart,
        .datagramStateChanged 0 100] := by
  intro always
  have reached : (exec (reportStep World.sampleListener) ({}, fun _ => none)
      [.connectTo (some World.samplePeer) (fun _ => false) (some 2) 0,
        .packet (portBytes 3 4 1 2) World.samplePeer (fun _ => false) none 0 World.sampleStart,
        .datagramStateChanged 0 100]).map (fun s =>
          ((s.1.contexts 0).unreliable.self, (s.1.contexts 0).unreliable.maxSendLength, s.2 0)) =
      some (some 0, 100, some 100) := by decide +kernel
  obtain ⟨s, run, state⟩ := Option.map_eq_some_iff.1 reached
  obtain ⟨self, rest⟩ := Prod.mk.inj state
  obtain ⟨stored, reported⟩ := Prod.mk.inj rest
  have room := (everyData_fits_iff _ _).1 (always.last run 0) 0 (.inr self) 100 reported
  rw [stored] at room
  exact absurd room (by decide)

end Koisyn.Session
