/-
# Koisyn.Session.OldSession — events of an earlier session's connections

MsQuic hands a handler the slot of its connection and nothing else, so an event of a connection from
an earlier use of the slot, or of one that another connection has replaced, works on the session that
occupies the slot now.  The handlers look at the side of the connection only.

`old_events_spare` is exact: in a run no such event touches the session in its slot (`Spares`) if and
only if each of them finds nothing to do there (`Harmless`).  `lateShutdown_clears` is a run in which
an old client connection ends and takes the new one's handles with it.
-/
import Koisyn.Session.RefCount

namespace Koisyn.Session

open Koisyn.Channel
open Koisyn.Theory.Run

set_option autoImplicit false

namespace World

variable {L : Listener} {w t : World} {slot : Slot} {act : Activation} {l : Label}

/-- The connection that an event is of, or whose stream it is of. -/
def eventConn (w : World) : Label → Option Hquic
  | .connected conn | .shutdownComplete conn _ | .peerStreamStarted conn _
  | .datagramStateChanged conn _ => some conn
  | .receive strm _ _ => w.strms[strm]?.map (·.conn)
  | _ => none

/-- The connection is of an earlier use of its slot, or another has replaced it there. -/
def IsOld (w : World) (c : Conn) : Prop := c.use ≠ w.use c.slot ∨ c.replaced = true

/-- A session occupies the slot. -/
def Occupied (w : World) (slot : Slot) : Prop := (w.contexts slot).ports ≠ {}

/-- An event of an old connection, in a slot that a session occupies. -/
structure OldEvent (w : World) (l : Label) (conn : Hquic) (c : Conn) : Prop where
  event : w.eventConn l = some conn
  present : w.conns[conn]? = some c
  old : w.IsOld c
  occupied : w.Occupied c.slot

/-- What a connection contributes to the reference count of its slot. -/
def share (w : World) (conn : Hquic) : UInt32 :=
  match w.conns[conn]? with
  | some c => if c.connected && !c.closed then 1 else 0
  | none => 0

/-- Two contexts hold the same session: its handles, its handshake time, its ports and its receive
positions. -/
structure SameSession (ctx ctx' : ConnectionContext) : Prop where
  reliable : ctx'.reliable = ctx.reliable
  self : ctx'.unreliable.self = ctx.unreliable.self
  peer : ctx'.unreliable.peer = ctx.unreliable.peer
  nextRecvPacket : ctx'.unreliable.nextRecvPacket = ctx.unreliable.nextRecvPacket
  handshakeBegin : ctx'.handshakeBegin = ctx.handshakeBegin
  ports : ctx'.ports = ctx.ports

/-- A step leaves the session in `slot` alone, and the reference count but for what the event's own
connection contributes. -/
structure Spares (w t : World) (slot : Slot) (conn : Hquic) : Prop where
  session : SameSession (w.contexts slot) (t.contexts slot)
  refCount : (t.contexts slot).refCount - t.share conn = (w.contexts slot).refCount - w.share conn

/-- Events of old connections spare the session that occupies the slot. -/
def SparesSessions (L : Listener) (w : World) (l : Label) : Prop :=
  ∀ conn c, w.OldEvent l conn c → ∀ t, w.step L l = some t → w.Spares t c.slot conn

/-- Neither the streams nor the connection of a side have a handle. -/
def NoHandles (ctx : ConnectionContext) (isClient : Bool) : Prop :=
  if isClient then (∀ i, (ctx.reliable i).self = none) ∧ ctx.unreliable.self = none
  else (∀ i, (ctx.reliable i).peer = none) ∧ ctx.unreliable.peer = none

/-- The handler finds nothing to do to the session in `slot`. -/
def Harmless (w : World) (slot : Slot) : Activation → Prop
  | .connected _ => (w.contexts slot).handshakeBegin = none
  | .shutdownComplete conn isClient _ =>
      (∀ c ∈ w.openConn conn, c.connected = true) ∧ NoHandles (w.contexts slot) isClient ∧
        (w.contexts slot).refCount ≠ 1
  | .peerStreamStarted _ strm id =>
      ∀ index : Fin 4, id >>> 2 = index → ((w.contexts slot).reliable index).peer = some strm
  | .receive id ev alive =>
      (lockChannelContext alive (w.contexts slot).channelContext).isSome ∧
        ∀ index : Fin 4, (id >>> 2) % 2 ^ 32 = index →
          let chn := (w.contexts slot).reliable index
          ev.absoluteOffset + ev.totalBufferLength ≤ chn.nextRecvByte ∨ ev.buffers = [] ∨
            chn.nextRecvByte < ev.absoluteOffset ∧ chn.self = none ∧ chn.peer = none ∧
              ∀ i < index, (w.contexts slot).reliable i = {}
  | _ => True

/-- Every event of an old connection is harmless. -/
def OldHarmless (L : Listener) (w : World) (l : Label) : Prop :=
  ∀ conn c, w.OldEvent l conn c → OnActivation L Harmless w l

/-! ## What each handler leaves of a session -/

theorem SameSession.refl (ctx : ConnectionContext) : SameSession ctx ctx := ⟨rfl, rfl, rfl, rfl, rfl, rfl⟩

/-- A reset never leaves an occupying session alone. -/
theorem not_sameSession_reset {ctx : ConnectionContext} (occupied : ctx.ports ≠ {})
    {ctx' : ConnectionContext} (blank : ctx'.ports = {}) : ¬ SameSession ctx ctx' :=
  fun same => occupied (same.ports.symm.trans blank)

/-- A channel put back in its place changes the channels exactly if it differs. -/
theorem update_reliable_iff {ctx : ConnectionContext} {index : Fin 4} {chn : StreamChannel} :
    SameSession ctx { ctx with reliable := Function.update ctx.reliable index chn } ↔
      chn = ctx.reliable index := by
  constructor
  · intro same
    have here := congrFun same.reliable index
    simpa using here
  · rintro rfl
    exact ⟨Function.update_eq_self _ _, rfl, rfl, rfl, rfl, rfl⟩

theorem connected_spares (slot : Slot) {ctx : ConnectionContext} :
    SameSession ctx (connected slot ctx).1 ↔ ctx.handshakeBegin = none :=
  ⟨fun same => same.handshakeBegin.symm, fun idle => ⟨rfl, rfl, rfl, rfl, idle.symm, rfl⟩⟩

theorem clearSide_spares {ctx : ConnectionContext} {isClient : Bool} :
    SameSession ctx (clearSide ctx isClient) ↔ NoHandles ctx isClient := by
  cases isClient with
  | true =>
      constructor
      · intro same
        exact ⟨fun i => (congrArg StreamChannel.self (congrFun same.reliable i)).symm, same.self.symm⟩
      · rintro ⟨streams, self⟩
        refine ⟨funext ?_, self.symm, rfl, rfl, rfl, rfl⟩
        intro i
        show { ctx.reliable i with self := none } = ctx.reliable i
        rw [← streams i]
  | false =>
      constructor
      · intro same
        exact ⟨fun i => (congrArg StreamChannel.peer (congrFun same.reliable i)).symm, same.peer.symm⟩
      · rintro ⟨streams, peer⟩
        refine ⟨funext ?_, rfl, peer.symm, rfl, rfl, rfl⟩
        intro i
        show { ctx.reliable i with peer := none } = ctx.reliable i
        rw [← streams i]

theorem shutdownComplete_spares {ctx : ConnectionContext} (occupied : ctx.ports ≠ {}) {conn : Hquic}
    {isClient : Bool} {alive : ObjectId → Bool} :
    SameSession ctx (shutdownComplete slot ctx conn isClient alive).1 ↔
      NoHandles ctx isClient ∧ ctx.refCount ≠ 1 := by
  have last : (clearSide ctx isClient).refCount - 1 = 0 ↔ ctx.refCount = 1 := by
    have same : (clearSide ctx isClient).refCount = ctx.refCount := by cases isClient <;> rfl
    rw [same, UInt32.sub_eq_iff_eq_add]
    simp
  unfold shutdownComplete
  dsimp only
  split
  · rename_i zero
    exact ⟨fun same => absurd same (not_sameSession_reset occupied rfl),
      fun both => absurd (last.1 zero) both.2⟩
  · rename_i more
    rw [← clearSide_spares]
    exact ⟨fun same => ⟨⟨same.reliable, same.self, same.peer, same.nextRecvPacket,
        same.handshakeBegin, same.ports⟩, fun one => more (last.2 one)⟩,
      fun both => ⟨both.1.reliable, both.1.self, both.1.peer, both.1.nextRecvPacket,
        both.1.handshakeBegin, both.1.ports⟩⟩

theorem peerStreamStarted_spares {ctx : ConnectionContext} {strm : Hquic} {id : Nat}
    (returns : (peerStreamStarted slot ctx strm id).exit ≠ .overruns) :
    SameSession ctx (peerStreamStarted slot ctx strm id).ctx ↔
      ∀ index : Fin 4, id >>> 2 = index → (ctx.reliable index).peer = some strm := by
  unfold peerStreamStarted at returns ⊢
  split at returns
  · rename_i inRange
    rw [dif_pos inRange, update_reliable_iff]
    constructor
    · intro same index named
      obtain rfl : (⟨id >>> 2, inRange⟩ : Fin 4) = index := Fin.ext named
      exact (congrArg StreamChannel.peer same).symm
    · intro stored
      have peer := stored ⟨id >>> 2, inRange⟩ rfl
      rw [← peer]
  · exact absurd rfl returns

theorem without_handles {chn : StreamChannel} (self : chn.self = none) (peer : chn.peer = none) :
    { chn with self := none, peer := none } = chn := by
  cases chn
  cases self
  cases peer
  rfl

/-- A `Reset` that is blocked at a channel has cleared what comes before it. -/
theorem resetBlockedAt_spares {ctx : ConnectionContext} {index : Fin 4} :
    SameSession ctx (ctx.resetBlockedAt index) ↔ (ctx.reliable index).self = none ∧
      (ctx.reliable index).peer = none ∧ ∀ i < index, ctx.reliable i = {} := by
  constructor
  · intro same
    have channel := fun i => (congrFun same.reliable i).symm
    have here := channel index
    simp only [ConnectionContext.resetBlockedAt, if_true] at here
    rw [if_neg (Fin.lt_irrefl index)] at here
    refine ⟨congrArg StreamChannel.self here, congrArg StreamChannel.peer here, ?_⟩
    intro i below
    have before := channel i
    simpa only [ConnectionContext.resetBlockedAt, below, if_true] using before
  · rintro ⟨self, peer, below⟩
    refine ⟨funext ?_, rfl, rfl, rfl, rfl, rfl⟩
    intro i
    show (if i < index then {} else if i = index then _ else _) = ctx.reliable i
    split
    · rename_i before
      exact (below i before).symm
    · split
      · rename_i here
        exact here ▸ without_handles self peer
      · rfl

theorem handleReceive_spares {ctx : ConnectionContext} (occupied : ctx.ports ≠ {})
    {alive : ObjectId → Bool} {id : Nat} {ev : ReceiveEvent}
    (returns : (handleReceive slot alive id ev ctx).exit ≠ .overruns) :
    SameSession ctx (handleReceive slot alive id ev ctx).ctx ↔
      (lockChannelContext alive ctx.channelContext).isSome ∧
        ∀ index : Fin 4, (id >>> 2) % 2 ^ 32 = index →
          let chn := ctx.reliable index
          ev.absoluteOffset + ev.totalBufferLength ≤ chn.nextRecvByte ∨ ev.buffers = [] ∨
            chn.nextRecvByte < ev.absoluteOffset ∧ chn.self = none ∧ chn.peer = none ∧
              ∀ i < index, ctx.reliable i = {} := by
  cases locked : lockChannelContext alive ctx.channelContext with
  | none =>
      rw [handleReceive_expired locked]
      exact ⟨fun same => absurd same (not_sameSession_reset occupied rfl),
        fun both => absurd both.1 Bool.false_ne_true⟩
  | some channelCtx =>
      by_cases inRange : (id >>> 2) % 2 ^ 32 < 4
      swap
      · rw [handleReceive_outside locked inRange] at returns
        exact absurd rfl returns
      obtain ⟨index, named⟩ : ∃ index : Fin 4, (id >>> 2) % 2 ^ 32 = index := ⟨⟨_, inRange⟩, rfl⟩
      have isIndex : (⟨(id >>> 2) % 2 ^ 32, inRange⟩ : Fin 4) = index := Fin.ext named
      have only : ∀ P : Fin 4 → Prop,
          (∀ i : Fin 4, (id >>> 2) % 2 ^ 32 = i → P i) ↔ P index := fun P =>
        ⟨fun all => all index named, fun here i same => (Fin.ext (named.symm.trans same)) ▸ here⟩
      simp only [only, Option.isSome_some, true_and, handleReceive, locked, inRange, dite_true,
        isIndex]
      have total := ev.total
      by_cases stale :
          ev.absoluteOffset + ev.totalBufferLength ≤ (ctx.reliable index).nextRecvByte
      · rw [if_pos stale]
        exact iff_of_true (.refl ctx) (.inl stale)
      rw [if_neg stale]
      by_cases starts : ev.absoluteOffset ≤ (ctx.reliable index).nextRecvByte
      · -- the buffers begin in the part already seen, and end after it
        obtain ⟨noCorrupt, -, further⟩ := readBuffers_advances ev.buffers starts
        rw [if_neg noCorrupt, update_reliable_iff]
        refine iff_of_false ?_ ?_
        · intro same
          have advanced := further (by omega)
          rw [same] at advanced
          exact Nat.lt_irrefl _ advanced
        · rintro (old | nothing | ⟨gap, -⟩)
          · exact stale old
          · rw [nothing] at total
            simp at total
            omega
          · omega
      · by_cases nothing : ev.buffers = []
        · rw [nothing, if_neg (by simp [readBuffers]), update_reliable_iff]
          exact iff_of_true rfl (.inr (.inl rfl))
        · have gap := Nat.lt_of_not_le starts
          rw [readBuffers_gap gap nothing]
          simp only [if_true, Function.update_eq_self, stale, nothing, gap, false_or, true_and]
          exact resetBlockedAt_spares

/-! ## The step rule -/

theorem share_of_present {conn : Hquic} {c : Conn} (present : w.conns[conn]? = some c) :
    w.share conn = if c.connected && !c.closed then 1 else 0 := by
  rw [share, present]

/-- A step that leaves the connections alone leaves their share of the count. -/
theorem spares_iff_session {conn : Hquic} (conns : w.connsAfter slot act = w.conns)
    (count : countAfter (w.contexts slot).refCount act = (w.contexts slot).refCount) :
    w.Spares (w.after slot act) slot conn ↔
      SameSession (w.contexts slot) (act.run slot (w.contexts slot)).ctx := by
  have share : (w.after slot act).share conn = w.share conn := by
    show (match (w.connsAfter slot act)[conn]? with | some c => _ | none => _) = _
    rw [conns]
    rfl
  constructor
  · intro spares
    rw [← after_contexts_self]
    exact spares.session
  · intro same
    refine ⟨by rw [after_contexts_self]; exact same, ?_⟩
    rw [refCount_after, count, share]

/-- The event's own connection counts for nothing before its `CONNECTED`, and for one after it. -/
theorem spares_connected {conn : Hquic} {c : Conn} (started : w.startedConn conn = some c)
    (first : c.connected = false) :
    w.Spares (w.after slot (.connected conn)) slot conn ↔ w.Harmless slot (.connected conn) := by
  obtain ⟨present, isOpen, -⟩ := startedConn_some.1 started
  have after : (w.after slot (.connected conn)).conns[conn]? = some { c with connected := true } := by
    show (w.conns.modify conn _)[conn]? = _
    simp [present]
  have count : ((w.after slot (.connected conn)).contexts slot).refCount -
      (w.after slot (.connected conn)).share conn =
        (w.contexts slot).refCount - w.share conn := by
    rw [refCount_after, share_of_present after, share_of_present present]
    simp [countAfter, first, isOpen]
  constructor
  · intro spares
    have same := spares.session
    rw [after_contexts_self] at same
    exact (connected_spares slot).1 same
  · intro harmless
    refine ⟨?_, count⟩
    rw [after_contexts_self]
    exact (connected_spares slot).2 harmless

/-- A connection that was connected counts for one before its end, any other for nothing. -/
theorem spares_shutdownComplete {conn : Hquic} {c : Conn} (isOpen : w.openConn conn = some c)
    (occupied : w.Occupied slot) {isClient : Bool} {alive : ObjectId → Bool} :
    w.Spares (w.after slot (.shutdownComplete conn isClient alive)) slot conn ↔
      w.Harmless slot (.shutdownComplete conn isClient alive) := by
  obtain ⟨present, raises⟩ := openConn_some.1 isOpen
  have notClosed := (Conn.isOpen_iff.1 raises).1
  have after : (w.after slot (.shutdownComplete conn isClient alive)).conns[conn]? =
      some { c with closed := true } := by
    show (w.conns.modify conn _)[conn]? = _
    simp [present]
  have count : ((w.after slot (.shutdownComplete conn isClient alive)).contexts slot).refCount -
      (w.after slot (.shutdownComplete conn isClient alive)).share conn =
        (w.contexts slot).refCount - w.share conn ↔ c.connected = true := by
    rw [refCount_after, share_of_present after, share_of_present present]
    have shrinks : (w.contexts slot).refCount - 1 ≠ (w.contexts slot).refCount := by
      intro same
      rw [UInt32.sub_eq_iff_eq_add, ← UInt32.toNat_inj, UInt32.toNat_add] at same
      have small := (w.contexts slot).refCount.toNat_lt
      simp only [UInt32.reduceToNat] at same
      omega
    cases c.connected with
    | true => simp [countAfter, notClosed]
    | false =>
        simp only [countAfter, Bool.not_true, Bool.and_false, Bool.false_and, Bool.false_eq_true,
          if_false, UInt32.sub_zero, iff_false]
        exact shrinks
  have was : (∀ d ∈ w.openConn conn, d.connected = true) ↔ c.connected = true := by
    simp only [isOpen, Option.mem_some_iff, forall_eq']
  have session : SameSession (w.contexts slot)
      ((w.after slot (.shutdownComplete conn isClient alive)).contexts slot) ↔
        NoHandles (w.contexts slot) isClient ∧ (w.contexts slot).refCount ≠ 1 := by
    rw [after_contexts_self]
    exact shutdownComplete_spares occupied
  rw [Harmless, was, ← count, ← session]
  exact ⟨fun spares => ⟨spares.refCount, spares.session⟩, fun both => ⟨both.2, both.1⟩⟩

/-- **The step rule.**  An event of an old connection spares the session exactly if it is harmless. -/
theorem spares_after {conn : Hquic} {c : Conn} (event : w.OldEvent l conn c)
    (route : w.route L l = some (some (slot, act))) (works : ¬ w.Fails slot act) :
    slot = c.slot ∧ (w.Spares (w.after slot act) slot conn ↔ w.Harmless slot act) := by
  obtain ⟨isEvent, present, -, occupied⟩ := event
  have returns : (act.run slot (w.contexts slot)).exit ≠ .overruns := fun overruns =>
    works (.inl overruns)
  have isC : ∀ {d}, w.startedConn conn = some d → d = c := fun started =>
    Option.some.inj ((startedConn_some.1 started).1.symm.trans present)
  cases routed_of_route route with
  | connected started first =>
      obtain rfl := Option.some.inj isEvent
      obtain rfl := isC started
      exact ⟨rfl, spares_connected started first⟩
  | shutdownComplete isOpen =>
      obtain rfl := Option.some.inj isEvent
      obtain rfl := Option.some.inj ((openConn_some.1 isOpen).1.symm.trans present)
      exact ⟨rfl, spares_shutdownComplete isOpen occupied⟩
  | peerStreamStarted started =>
      obtain rfl := Option.some.inj isEvent
      obtain rfl := isC started
      exact ⟨rfl, (spares_iff_session rfl rfl).trans (peerStreamStarted_spares returns)⟩
  | datagramStateChanged started =>
      obtain rfl := Option.some.inj isEvent
      obtain rfl := isC started
      exact ⟨rfl, (spares_iff_session rfl rfl).trans
        (iff_of_true ⟨rfl, rfl, rfl, rfl, rfl, rfl⟩ trivial)⟩
  | receive found started =>
      obtain ⟨s, found', rfl⟩ := Option.map_eq_some_iff.1 isEvent
      obtain rfl := Option.some.inj (found'.symm.trans found)
      obtain rfl := isC started
      exact ⟨rfl, (spares_iff_session rfl rfl).trans (handleReceive_spares occupied returns)⟩
  | _ => cases isEvent

/-- Events of connections are handled, or cannot happen. -/
theorem route_ne_of_event {conn : Hquic} (isEvent : w.eventConn l = some conn) :
    w.route L l ≠ some none := by
  intro route
  cases l with
  | connected conn' =>
      simp only [World.route, Option.bind_eq_some_iff] at route
      obtain ⟨c, -, chosen⟩ := route
      split at chosen <;> cases chosen
  | shutdownComplete conn' alive => simp [World.route] at route
  | peerStreamStarted conn' id => simp [World.route] at route
  | datagramStateChanged conn' maxSendLength => simp [World.route] at route
  | receive strm ev alive => simp [World.route, Option.bind_eq_some_iff] at route
  | _ => cases isEvent

theorem sparesSessions_iff (L : Listener) (w : World) (l : Label) :
    SparesSessions L w l ↔ OldHarmless L w l := by
  refine forall₃_congr fun conn c event => ⟨?_, ?_⟩
  · intro spares slot act route works
    obtain ⟨rfl, spares_iff⟩ := spares_after event route works
    refine spares_iff.1 (spares _ ?_)
    simp only [step, route, Option.bind_some, works, if_false]
  · intro harmless t taken
    rcases step_cases taken with ⟨none_, -⟩ | ⟨slot, act, route, works, rfl⟩
    · exact absurd none_ (route_ne_of_event event.event)
    · obtain ⟨rfl, spares_iff⟩ := spares_after event route works
      exact spares_iff.2 (harmless _ act route works)

/-- **Old events and new sessions, exactly.**  In a run no event of an old connection touches the
session that occupies its slot if and only if every one of them is harmless. -/
theorem old_events_spare (L : Listener) (labels : List Label) :
    EveryStep (step L) (SparesSessions L) {} labels ↔
      EveryStep (step L) (OldHarmless L) {} labels :=
  ⟨fun every => every.mono fun w l => (sparesSessions_iff L w l).1,
    fun every => every.mono fun w l => (sparesSessions_iff L w l).2⟩

/-! ## An old connection ends late -/

/-- The end of the first connection made. -/
def lateShutdown : Label := .shutdownComplete 0 fun _ => true

/-- We connect, our client starts, the application disconnects; we connect again and the new client
starts. -/
def secondSession : List Label :=
  [.connectTo (some samplePeer) (fun _ => false) (some 2) 0,
    .packet (portBytes 3 4 1 2) samplePeer (fun _ => false) none 0 sampleStart,
    .disconnect 0,
    .connectTo (some samplePeer) (fun _ => false) (some 5) 1,
    .packet (portBytes 3 6 1 5) samplePeer (fun _ => false) none 1 sampleStart]

theorem lateShutdown_clears :
    (exec (step sampleListener) {} (secondSession ++ [lateShutdown])).map
        (fun w => ((w.contexts 0).unreliable.self, (w.contexts 0).ports, (w.contexts 0).refCount)) =
      some (none, ⟨3, 6, 1, 5⟩, 4294967295) ∧
    ¬ EveryStep (step sampleListener) (SparesSessions sampleListener) {}
      (secondSession ++ [lateShutdown]) := by
  have ended : (exec (step sampleListener) {} secondSession).bind (fun w =>
      (w.step sampleListener lateShutdown).map fun t =>
        ((w.conns[0]?, w.use 0, (w.contexts 0).ports, (w.contexts 0).unreliable.self),
          (t.contexts 0).unreliable.self)) =
      some ((some { isClient := true, slot := 0, use := 0, started := true }, 1, ⟨3, 6, 1, 5⟩,
        some 1), none) := by decide +kernel
  refine ⟨by decide +kernel, ?_⟩
  intro every
  obtain ⟨w, run, next⟩ := Option.bind_eq_some_iff.1 ended
  obtain ⟨t, taken, state⟩ := Option.map_eq_some_iff.1 next
  obtain ⟨before, after⟩ := Prod.mk.inj state
  obtain ⟨present, rest⟩ := Prod.mk.inj before
  obtain ⟨use, rest⟩ := Prod.mk.inj rest
  obtain ⟨ports, self⟩ := Prod.mk.inj rest
  have event : w.OldEvent lateShutdown 0 { isClient := true, slot := 0, use := 0, started := true } := by
    refine ⟨rfl, present, .inl ?_, ?_⟩
    · rw [use]
      decide
    · rw [Occupied, ports]
      decide
  have spares := EveryStep.visit secondSession [] every run _ _ event t taken
  have kept := spares.session.self
  rw [after, self] at kept
  cases kept

end World

end Koisyn.Session
