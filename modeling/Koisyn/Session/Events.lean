/-
# Koisyn.Session.Events — MsQuic's events, and one activation on one context

The handlers of the connection events, `newConnection` for the context it chooses and `Disconnect`.
Each works on the context in one slot: MsQuic hands a handler nothing but the address of the slot,
so that is all it knows of the session the event belongs to.

`Activation` is one handler with the data it is called with, from the handshake or from here, and
`Activation.run` what it does to the context.

The properties of a context's history are about five kinds of calls, its `Mark`s.  `Effect` lists
what an activation can do to the fields and to the history that the invariants of a session are
about, and `run_effect` proves the list complete: an invariant is a case analysis of it, and unfolds
no handler.
-/
import Koisyn.Session.Handshake

namespace Koisyn.Session

open Koisyn.Channel
open Koisyn.Theory.Bytes

set_option autoImplicit false

/-! ## Handlers -/

/-- `Handle_QUIC_LISTENER_EVENT_NEW_CONNECTION` on the context it has found. -/
def newConnection (slot : Slot) (ctx : ConnectionContext) (conn : Hquic) :
    ConnectionContext × List Call :=
  ({ ctx with unreliable := { ctx.unreliable with peer := some conn } },
    releaseConnection ctx.unreliable.peer ++
      [.connectionSetCallbackHandler conn slot, .connectionSetConfiguration conn])

/-- `Handle_QUIC_CONNECTION_EVENT_CONNECTED`; the mark tells whether there was a handshake time to
clear. -/
def connected (slot : Slot) (ctx : ConnectionContext) : ConnectionContext × List Call :=
  ({ ctx with handshakeBegin := none, refCount := ctx.refCount + 1 },
    if ctx.handshakeBegin.isSome then [.handshakeCleared slot] else [])

/-- The handles of the side a connection represents, cleared. -/
def clearSide (ctx : ConnectionContext) (isClient : Bool) : ConnectionContext :=
  if isClient then
    { ctx with
      reliable := fun i => { ctx.reliable i with self := none }
      unreliable := { ctx.unreliable with self := none } }
  else
    { ctx with
      reliable := fun i => { ctx.reliable i with peer := none }
      unreliable := { ctx.unreliable with peer := none } }

def clearSideCalls (ctx : ConnectionContext) (isClient : Bool) : List Call :=
  if isClient then
    ((List.finRange 4).flatMap fun i => releaseStream (ctx.reliable i).self) ++
      releaseConnection ctx.unreliable.self
  else
    ((List.finRange 4).flatMap fun i => releaseStream (ctx.reliable i).peer) ++
      releaseConnection ctx.unreliable.peer

/-- `Handle_QUIC_CONNECTION_EVENT_SHUTDOWN_COMPLETE` for a connection of the given type. -/
def shutdownComplete (slot : Slot) (ctx : ConnectionContext) (conn : Hquic) (isClient : Bool)
    (alive : ObjectId → Bool) : ConnectionContext × List Call :=
  let cleared := clearSide ctx isClient
  let cleared := { cleared with refCount := cleared.refCount - 1 }
  let calls := clearSideCalls ctx isClient
  -- if both sides are closed, we clean the context
  if cleared.refCount = 0 then
    (cleared.reset, calls ++
      .onDisconnect slot (lockChannelContext alive cleared.channelContext) ::
        cleared.resetCalls slot ++ [.connectionClose conn])
  else (cleared, calls ++ [.connectionClose conn])

/-- `Handle_QUIC_CONNECTION_EVENT_PEER_STREAM_STARTED`; a stream id from 16 on indexes past the
array. -/
def peerStreamStarted (slot : Slot) (ctx : ConnectionContext) (strm : Hquic) (id : Nat) : Handled :=
  if inRange : id >>> 2 < 4 then
    let index : Fin 4 := ⟨id >>> 2, inRange⟩
    ⟨.returned .success,
      { ctx with reliable :=
          Function.update ctx.reliable index { ctx.reliable index with peer := some strm } },
      releaseStream (ctx.reliable index).peer ++ [.streamSetCallbackHandler strm slot]⟩
  else ⟨.overruns, ctx, []⟩

/-- `Handle_QUIC_CONNECTION_EVENT_DATAGRAM_STATE_CHANGED`. -/
def datagramStateChanged (ctx : ConnectionContext) (maxSendLength : UInt16) : ConnectionContext :=
  { ctx with unreliable := { ctx.unreliable with maxSendLength } }

/-- `Handle_QUIC_CONNECTION_EVENT_DATAGRAM_RECEIVED`; it reads four bytes whatever the length. -/
def datagramReceived (slot : Slot) (ctx : ConnectionContext) (buf : List UInt8)
    (alive : ObjectId → Bool) : Handled :=
  match lockChannelContext alive ctx.channelContext with
  | none => ⟨.returned .aborted, ctx.reset, ctx.resetCalls slot⟩
  | some channelCtx =>
      if buf.length < 4 then ⟨.overruns, ctx, []⟩
      else
        let packetNumber := UInt32.ofNat (ofBigEndian (buf.take 4))
        if ctx.unreliable.nextRecvPacket = packetNumber then
          ⟨.returned .success,
            { ctx with unreliable :=
                { ctx.unreliable with nextRecvPacket := ctx.unreliable.nextRecvPacket + 1 } },
            [.onUnreliableReceive slot (buf.drop 4) channelCtx]⟩
        else ⟨.returned .success, ctx, []⟩

/-- **What `DATAGRAM_RECEIVED` can do** to the context: drop it, leave it, or take the datagram it
waits for. -/
inductive TookDatagram (slot : Slot) (alive : ObjectId → Bool) (ctx : ConnectionContext) :
    ConnectionContext → List Call → Prop
  | dropped (expired : lockChannelContext alive ctx.channelContext = none) :
      TookDatagram slot alive ctx ctx.reset (ctx.resetCalls slot)
  | left : TookDatagram slot alive ctx ctx []
  | taken (payload : List UInt8) (channelCtx : ObjectId) :
      TookDatagram slot alive ctx
        { ctx with unreliable :=
            { ctx.unreliable with nextRecvPacket := ctx.unreliable.nextRecvPacket + 1 } }
        [.onUnreliableReceive slot payload channelCtx]

theorem datagramReceived_took (slot : Slot) (ctx : ConnectionContext) (buf : List UInt8)
    (alive : ObjectId → Bool) :
    TookDatagram slot alive ctx (datagramReceived slot ctx buf alive).ctx
      (datagramReceived slot ctx buf alive).calls := by
  unfold datagramReceived
  split
  · rename_i expired
    exact .dropped expired
  · split
    · exact .left
    · dsimp only
      split
      · exact .taken _ _
      · exact .left

/-- `KoiChan::Disconnect`. -/
def disconnect (slot : Slot) (ctx : ConnectionContext) : ConnectionContext × List Call :=
  (ctx.reset, ctx.resetCalls slot)

/-! ## Activations -/

/-- A handler and the data it is called with. -/
inductive Activation where
  | connectTo (remote : Endpoint) (localServer localClient : UInt16) (now : Nat)
  | receive1st (remoteServer remoteClient : UInt16) (remote : Endpoint) (localServer : UInt16)
      (sock : Option UInt16) (now : Nat)
  | receive2nd (remoteServer remoteClient : UInt16) (remote : Endpoint) (env : StartEnv)
  | receive3rd (remote : Endpoint) (env : StartEnv)
  | doCheck (now : Nat)
  | newConnection (conn : Hquic) (configured : Bool)
  | connected (conn : Hquic)
  | shutdownComplete (conn : Hquic) (isClient : Bool) (alive : ObjectId → Bool)
  | peerStreamStarted (conn strm : Hquic) (id : Nat)
  | datagramStateChanged (maxSendLength : UInt16)
  | datagramReceived (buf : List UInt8) (alive : ObjectId → Bool)
  | receive (id : Nat) (ev : ReceiveEvent) (alive : ObjectId → Bool)
  | disconnect
  | unreliablePacketSend (data : List UInt8) (env : SendEnv)

/-- A handler that always returns. -/
def returning (r : ConnectionContext × List Call) : Handled := ⟨.returned .success, r.1, r.2⟩

/-- What the handler does to the context in `slot`. -/
def Activation.run (slot : Slot) (ctx : ConnectionContext) : Activation → Handled
  | .connectTo remote localServer localClient now =>
      returning (Session.connectTo ctx remote localServer localClient now)
  | .receive1st remoteServer remoteClient remote localServer sock now =>
      returning (Session.receive1st ctx remoteServer remoteClient remote localServer sock now)
  | .receive2nd remoteServer remoteClient remote env =>
      returning (Session.receive2nd slot ctx remoteServer remoteClient remote env)
  | .receive3rd remote env => returning (Session.receive3rd slot ctx remote env)
  | .doCheck now => returning (Session.doCheck slot ctx now)
  | .newConnection conn _ => returning (Session.newConnection slot ctx conn)
  | .connected _ => returning (Session.connected slot ctx)
  | .shutdownComplete conn isClient alive =>
      returning (Session.shutdownComplete slot ctx conn isClient alive)
  | .peerStreamStarted _ strm id => Session.peerStreamStarted slot ctx strm id
  | .datagramStateChanged maxSendLength =>
      returning (Session.datagramStateChanged ctx maxSendLength, [])
  | .datagramReceived buf alive => Session.datagramReceived slot ctx buf alive
  | .receive id ev alive => handleReceive slot alive id ev ctx
  | .disconnect => returning (Session.disconnect slot ctx)
  | .unreliablePacketSend data env => returning (Channel.unreliablePacketSend ctx data env).2

/-! ## Marks -/

/-- What the history of a context records. -/
inductive Mark where
  | started (ports : Ports)
  | accepted
  | disconnected
  | reset
  | cleared
  deriving DecidableEq, Repr

/-- The mark a call leaves in the history of `slot`; an `OnAccept` counts when it is granted. -/
def markOf (slot : Slot) : Call → Option Mark
  | .startClient s ports => if s = slot then some (.started ports) else none
  | .onAccept s granted => if s = slot ∧ granted = true then some .accepted else none
  | .onDisconnect s _ => if s = slot then some .disconnected else none
  | .reset s => if s = slot then some .reset else none
  | .handshakeCleared s => if s = slot then some .cleared else none
  | _ => none

def marks (slot : Slot) (calls : List Call) : List Mark := calls.filterMap (markOf slot)

@[simp] theorem marks_nil (slot : Slot) : marks slot [] = [] := rfl

theorem mem_marks {slot : Slot} {calls : List Call} {call : Call} {mark : Mark}
    (member : call ∈ calls) (noted : markOf slot call = some mark) : mark ∈ marks slot calls :=
  List.mem_filterMap.2 ⟨call, member, noted⟩

@[simp] theorem marks_cons (slot : Slot) (call : Call) (calls : List Call) :
    marks slot (call :: calls) = (markOf slot call).toList ++ marks slot calls := by
  cases noted : markOf slot call <;> simp [marks, noted]

@[simp] theorem marks_append (slot : Slot) (calls more : List Call) :
    marks slot (calls ++ more) = marks slot calls ++ marks slot more :=
  List.filterMap_append

theorem marks_flatMap_nil {ι : Type} (slot : Slot) (xs : List ι) (f : ι → List Call)
    (silent : ∀ x, marks slot (f x) = []) : marks slot (xs.flatMap f) = [] := by
  rw [marks, List.filterMap_flatMap]
  exact List.flatMap_eq_nil_iff.2 fun x _ => silent x

@[simp] theorem marks_map_streamStart (slot : Slot) {ι : Type} (xs : List ι) (f : ι → Option Hquic) :
    marks slot (xs.map fun x => .streamStart (f x)) = [] := by
  induction xs with
  | nil => rfl
  | cons x xs ih => rw [List.map_cons, marks_cons, ih]; rfl

@[simp] theorem marks_releaseStream (slot : Slot) (strm : Option Hquic) :
    marks slot (releaseStream strm) = [] := by
  cases strm <;> rfl

@[simp] theorem marks_releaseConnection (slot : Slot) (conn : Option Hquic) :
    marks slot (releaseConnection conn) = [] := by
  cases conn <;> rfl

@[simp] theorem marks_resetCalls (s slot : Slot) (ctx : ConnectionContext) :
    marks s (ctx.resetCalls slot) = if slot = s then [.reset] else [] := by
  rw [ConnectionContext.resetCalls, marks_append, marks_append, marks_cons,
    marks_flatMap_nil _ _ _ (by simp)]
  by_cases same : slot = s <;> simp [markOf, same]

@[simp] theorem marks_clearSideCalls (slot : Slot) (ctx : ConnectionContext) (isClient : Bool) :
    marks slot (clearSideCalls ctx isClient) = [] := by
  unfold clearSideCalls
  split <;> rw [marks_append, marks_flatMap_nil _ _ _ (by simp)] <;> simp

@[simp] theorem marks_replacedCalls (s : Slot) (ctx : ConnectionContext) (env : StartEnv) :
    marks s (replacedCalls ctx env) = [] := by
  apply marks_flatMap_nil
  intro i
  split <;> simp

@[simp] theorem marks_challenge (slot : Slot) (remote : Endpoint) (port : UInt16) :
    marks slot (challenge remote port) = [] := by
  unfold challenge
  split <;> rfl

/-- A reset in the history is one that has been made. -/
theorem reset_of_marks {slot : Slot} {calls : List Call} (noted : .reset ∈ marks slot calls) :
    .reset slot ∈ calls := by
  obtain ⟨call, member, isReset⟩ := List.mem_filterMap.1 noted
  cases call with
  | reset s =>
      obtain ⟨same, -⟩ : s = slot ∧ True := by simpa [markOf] using isReset
      exact same ▸ member
  | _ => simp [markOf] at isReset

/-! ## What an activation can do -/

/-- The fields of a context that the invariants of a session are about. -/
structure Core where
  channelContext : Option ObjectId
  refCount : UInt32
  handshakeBegin : Option Nat
  ports : Ports
  remoteSentinel : QuicAddr
  self : Option Hquic

def core (ctx : ConnectionContext) : Core where
  channelContext := ctx.channelContext
  refCount := ctx.refCount
  handshakeBegin := ctx.handshakeBegin
  ports := ctx.ports
  remoteSentinel := ctx.remoteSentinel
  self := ctx.unreliable.self

/-- What `Reset` leaves. -/
def Core.blank (refCount : UInt32) : Core where
  channelContext := none
  refCount := refCount
  handshakeBegin := none
  ports := {}
  remoteSentinel := {}
  self := none

namespace Activation

/-- The activations that may leave every core field alone. -/
def IsBystander : Activation → Prop
  | .doCheck _ | .newConnection _ _ | .peerStreamStarted _ _ _ | .datagramStateChanged _
  | .datagramReceived _ _ | .receive _ _ _ | .unreliablePacketSend _ _ => True
  | _ => False

/-- The activations that drop the connection: the application has let its object go, or says so. -/
def Drops (channelContext : Option ObjectId) : Activation → Prop
  | .datagramReceived _ alive | .receive _ _ alive =>
      lockChannelContext alive channelContext = none
  | .disconnect => True
  | _ => False

/-- The ports and the environment with which `StartClient` runs. -/
def starts (ports : Ports) : Activation → Option (Ports × StartEnv)
  | .receive2nd remoteServer remoteClient _ env =>
      some ({ ports with remoteServer, remoteClient }, env)
  | .receive3rd _ env => some (ports, env)
  | _ => none

/-- `StartClient` runs after a second or a third packet only, and on the context's local ports. -/
theorem of_starts {ports ports' : Ports} {env : StartEnv} {act : Activation}
    (starts : act.starts ports = some (ports', env)) :
    (¬ act.IsBystander ∧ ∀ channelContext, ¬ act.Drops channelContext) ∧
      ports'.localServer = ports.localServer ∧ ports'.localClient = ports.localClient := by
  cases act with
  | receive2nd remoteServer remoteClient remote env' =>
      obtain ⟨rfl, -⟩ := Prod.mk.inj (Option.some.inj starts)
      exact ⟨⟨id, fun _ => id⟩, rfl, rfl⟩
  | receive3rd remote env' =>
      obtain ⟨rfl, -⟩ := Prod.mk.inj (Option.some.inj starts)
      exact ⟨⟨id, fun _ => id⟩, rfl, rfl⟩
  | _ => cases starts

end Activation

/-- **What an activation can do** to the core fields, and the marks it leaves. -/
inductive Effect (ctx : Core) : Activation → Core → List Mark → Prop
  | quiet {act : Activation} (bystander : act.IsBystander) : Effect ctx act ctx []
  | connectTo (remote : Endpoint) (localServer localClient : UInt16) (now : Nat) :
      Effect ctx (.connectTo remote localServer localClient now)
        { ctx with ports := { ctx.ports with localServer, localClient }
                   handshakeBegin := some now, remoteSentinel := remote.addr } []
  | saved {remoteServer remoteClient : UInt16} {remote : Endpoint} {localServer : UInt16}
      {sock : Option UInt16} {now : Nat} (known : ctx.handshakeBegin.isSome ∨ sock = none) :
      Effect ctx (.receive1st remoteServer remoteClient remote localServer sock now)
        { ctx with ports := { ctx.ports with remoteServer, remoteClient } } []
  | answered {remoteServer remoteClient : UInt16} {remote : Endpoint}
      {localServer localClient : UInt16} {now : Nat} (idle : ctx.handshakeBegin = none) :
      Effect ctx (.receive1st remoteServer remoteClient remote localServer (some localClient) now)
        { ctx with ports := ⟨remoteServer, remoteClient, localServer, localClient⟩
                   handshakeBegin := some now, remoteSentinel := remote.addr } []
  | unopened {act : Activation} {ports : Ports} {env : StartEnv}
      (starts : act.starts ctx.ports = some (ports, env))
      (unopened : ctx.self.isSome ∨ env.connection = none) :
      Effect ctx act { ctx with ports } [.started ports]
  | granted {act : Activation} {ports : Ports} {env : StartEnv} {conn : Hquic}
      (starts : act.starts ctx.ports = some (ports, env)) (free : ctx.self = none)
      (opened : env.connection = some conn) (granted : env.granted = true) :
      Effect ctx act
        { ctx with ports, self := some conn, channelContext := env.channelContext }
        [.started ports, .accepted]
  | refused {act : Activation} {ports : Ports} {env : StartEnv} {conn : Hquic}
      (starts : act.starts ctx.ports = some (ports, env)) (free : ctx.self = none)
      (opened : env.connection = some conn) (refused : env.granted = false) :
      Effect ctx act (.blank ctx.refCount) [.started ports, .reset]
  | connected (conn : Hquic) :
      Effect ctx (.connected conn) { ctx with handshakeBegin := none, refCount := ctx.refCount + 1 }
        (if ctx.handshakeBegin.isSome then [.cleared] else [])
  | closedLast {conn : Hquic} {isClient : Bool} {alive : ObjectId → Bool}
      (last : ctx.refCount - 1 = 0) :
      Effect ctx (.shutdownComplete conn isClient alive) (.blank (ctx.refCount - 1))
        [.disconnected, .reset]
  | closed {conn : Hquic} {isClient : Bool} {alive : ObjectId → Bool} (more : ctx.refCount - 1 ≠ 0) :
      Effect ctx (.shutdownComplete conn isClient alive)
        { ctx with refCount := ctx.refCount - 1, self := if isClient then none else ctx.self } []
  | longStop {now handshakeBegin : Nat} (begun : ctx.handshakeBegin = some handshakeBegin)
      (stops : longStops (now - handshakeBegin)) :
      Effect ctx (.doCheck now) (.blank ctx.refCount) [.reset]
  | shortStop {now handshakeBegin : Nat} (begun : ctx.handshakeBegin = some handshakeBegin)
      (stops : shortStops ctx.ports (now - handshakeBegin)) :
      Effect ctx (.doCheck now) (.blank ctx.refCount) [.reset, .disconnected]
  | dropped {act : Activation} (drops : act.Drops ctx.channelContext) :
      Effect ctx act (.blank ctx.refCount) [.reset]

theorem Effect.congr {before after after' : Core} {act : Activation} {noted noted' : List Mark}
    (effect : Effect before act after noted) (fields : after' = after) (same : noted' = noted) :
    Effect before act after' noted' := by
  rw [fields, same]
  exact effect

theorem startClient_effect (slot : Slot) (ctx : ConnectionContext) (remote : Endpoint)
    (env : StartEnv) {act : Activation} {ports : Ports}
    (starts : act.starts ports = some (ctx.ports, env)) :
    Effect { core ctx with ports } act (core (startClient slot ctx remote env).1)
      (marks slot (startClient slot ctx remote env).2) := by
  have started := startClient_started slot ctx remote env
  generalize startClient slot ctx remote env = r at started ⊢
  cases started with
  | unopened skips => exact (Effect.unopened starts skips).congr rfl (by simp [markOf])
  | granted conn free opens granted =>
      refine (Effect.granted starts free opens granted).congr rfl ?_
      simp only [marks_append, marks_cons, marks_nil, marks_replacedCalls, marks_map_streamStart]
      simp [markOf, askedFor, opened]
  | refused conn free opens refused =>
      exact (Effect.refused starts free opens refused).congr rfl (by simp [markOf])

theorem receive1st_effect (slot : Slot) (ctx : ConnectionContext)
    (remoteServer remoteClient : UInt16) (remote : Endpoint) (localServer : UInt16)
    (sock : Option UInt16) (now : Nat) :
    Effect (core ctx) (.receive1st remoteServer remoteClient remote localServer sock now)
      (core (receive1st ctx remoteServer remoteClient remote localServer sock now).1)
      (marks slot (receive1st ctx remoteServer remoteClient remote localServer sock now).2) := by
  unfold receive1st
  dsimp only
  split
  · rename_i idle
    cases sock with
    | none => exact (Effect.saved (.inr rfl)).congr rfl (by simp)
    | some localClient => exact (Effect.answered idle).congr rfl (by simp [sendPorts, markOf])
  · rename_i handshakeBegin begun
    have isSome : (core ctx).handshakeBegin.isSome = true := by rw [core, begun]; rfl
    exact (Effect.saved (.inl isSome)).congr rfl (by simp [sendPorts, markOf])

theorem doCheck_effect (slot : Slot) (ctx : ConnectionContext) (now : Nat) :
    Effect (core ctx) (.doCheck now) (core (doCheck slot ctx now).1)
      (marks slot (doCheck slot ctx now).2) := by
  have checked := doCheck_checked slot ctx now
  generalize doCheck slot ctx now = r at checked ⊢
  cases checked with
  | idle => exact .quiet trivial
  | longStop begun stops => exact (Effect.longStop begun stops).congr rfl (by simp)
  | shortStop begun stops => exact (Effect.shortStop begun stops).congr rfl (by simp [markOf])
  | retry => exact .quiet trivial

theorem shutdownComplete_effect (slot : Slot) (ctx : ConnectionContext) (conn : Hquic)
    (isClient : Bool) (alive : ObjectId → Bool) :
    Effect (core ctx) (.shutdownComplete conn isClient alive)
      (core (shutdownComplete slot ctx conn isClient alive).1)
      (marks slot (shutdownComplete slot ctx conn isClient alive).2) := by
  have refCount : (clearSide ctx isClient).refCount = ctx.refCount := by
    cases isClient <;> rfl
  unfold shutdownComplete
  dsimp only
  rw [refCount]
  split
  · rename_i last
    exact (Effect.closedLast last).congr rfl (by simp [markOf])
  · rename_i more
    exact (Effect.closed more).congr (by cases isClient <;> rfl) (by simp [markOf])

theorem datagramReceived_effect (slot : Slot) (ctx : ConnectionContext) (buf : List UInt8)
    (alive : ObjectId → Bool) :
    Effect (core ctx) (.datagramReceived buf alive) (core (datagramReceived slot ctx buf alive).ctx)
      (marks slot (datagramReceived slot ctx buf alive).calls) := by
  have quiet : Effect (core ctx) (.datagramReceived buf alive) (core ctx) [] := .quiet trivial
  have took := datagramReceived_took slot ctx buf alive
  generalize (datagramReceived slot ctx buf alive).ctx = after,
    (datagramReceived slot ctx buf alive).calls = calls at took ⊢
  cases took with
  | dropped expired =>
      have dropped : Effect (core ctx) (.datagramReceived buf alive) (.blank (core ctx).refCount)
        [.reset] := .dropped expired
      exact dropped.congr rfl (by simp)
  | left => exact quiet
  | taken => exact quiet.congr rfl (by simp [markOf])

theorem receive_effect (slot : Slot) (ctx : ConnectionContext) (id : Nat) (ev : ReceiveEvent)
    (alive : ObjectId → Bool) :
    Effect (core ctx) (.receive id ev alive) (core (handleReceive slot alive id ev ctx).ctx)
      (marks slot (handleReceive slot alive id ev ctx).calls) := by
  have quiet : Effect (core ctx) (.receive id ev alive) (core ctx) [] := .quiet trivial
  have receives : ∀ (index : Fin 4) (payloads : List (List UInt8)) (channelCtx : ObjectId),
      marks slot (payloads.map fun data => .onReliableReceive slot index data channelCtx) = [] := by
    intro index payloads channelCtx
    induction payloads with
    | nil => rfl
    | cons data payloads ih => rw [List.map_cons, marks_cons, ih]; rfl
  have blocked : ∀ (ctx : ConnectionContext) (index : Fin 4),
      marks slot (ctx.resetBlockedCalls index) = [] := by
    intro ctx index
    exact marks_flatMap_nil _ _ _ (by simp)
  have received := handleReceive_received slot alive id ev ctx
  generalize (handleReceive slot alive id ev ctx).ctx = after,
    (handleReceive slot alive id ev ctx).calls = calls at received ⊢
  cases received with
  | dropped expired =>
      have dropped : Effect (core ctx) (.receive id ev alive) (.blank (core ctx).refCount) [.reset] :=
        .dropped expired
      exact dropped.congr rfl (by simp)
  | left => exact quiet
  | read index chn payloads channelCtx => exact quiet.congr rfl (receives _ _ _)
  | blocked index chn payloads channelCtx =>
      exact quiet.congr rfl (by rw [marks_append, receives, blocked]; rfl)

theorem unreliablePacketSend_effect (slot : Slot) (ctx : ConnectionContext) (data : List UInt8)
    (env : SendEnv) :
    Effect (core ctx) (.unreliablePacketSend data env)
      (core (unreliablePacketSend ctx data env).2.1)
      (marks slot (unreliablePacketSend ctx data env).2.2) := by
  have quiet : Effect (core ctx) (.unreliablePacketSend data env) (core ctx) [] := .quiet trivial
  have sends : ∀ (conns : List (Hquic × Bool)) (buf : RawBuffer),
      marks slot (conns.map fun t => .datagramSend t.1 buf t.2) = [] := by
    intro conns buf
    induction conns with
    | nil => rfl
    | cons t conns ih => rw [List.map_cons, marks_cons, ih]; rfl
  unfold unreliablePacketSend
  dsimp only
  split
  · exact quiet
  · split
    · exact quiet
    · refine quiet.congr rfl ?_
      dsimp only
      rw [marks_append, sends]
      split <;> rfl

/-- **Every activation has an effect of the list.** -/
theorem run_effect (slot : Slot) (ctx : ConnectionContext) (act : Activation) :
    Effect (core ctx) act (core (act.run slot ctx).ctx) (marks slot (act.run slot ctx).calls) := by
  cases act with
  | connectTo remote localServer localClient now =>
      exact .connectTo remote localServer localClient now
  | receive1st remoteServer remoteClient remote localServer sock now =>
      exact receive1st_effect slot ctx remoteServer remoteClient remote localServer sock now
  | receive2nd remoteServer remoteClient remote env =>
      let saved := { ctx with ports := { ctx.ports with remoteServer, remoteClient } }
      have starts : (Activation.receive2nd remoteServer remoteClient remote env).starts ctx.ports =
          some (saved.ports, env) := rfl
      exact (startClient_effect slot saved remote env starts).congr rfl
        (by simp [Activation.run, returning, receive2nd, sendPorts, markOf, saved])
  | receive3rd remote env => exact startClient_effect slot ctx remote env rfl
  | doCheck now => exact doCheck_effect slot ctx now
  | newConnection conn configured =>
      have quiet : Effect (core ctx) (.newConnection conn configured) (core ctx) [] := .quiet trivial
      exact quiet.congr rfl (by simp [Activation.run, returning, newConnection, markOf])
  | connected conn =>
      refine (Effect.connected conn).congr rfl ?_
      show marks slot (if _ then _ else _) = if _ then _ else _
      split <;> simp_all [markOf, core]
  | shutdownComplete conn isClient alive =>
      exact shutdownComplete_effect slot ctx conn isClient alive
  | peerStreamStarted conn strm id =>
      show Effect _ _ (core (peerStreamStarted slot ctx strm id).ctx)
        (marks slot (peerStreamStarted slot ctx strm id).calls)
      have quiet : Effect (core ctx) (.peerStreamStarted conn strm id) (core ctx) [] :=
        .quiet trivial
      unfold peerStreamStarted
      split
      · exact quiet.congr rfl (by simp [markOf])
      · exact quiet
  | datagramStateChanged maxSendLength => exact .quiet trivial
  | datagramReceived buf alive => exact datagramReceived_effect slot ctx buf alive
  | receive id ev alive => exact receive_effect slot ctx id ev alive
  | disconnect =>
      have dropped : Effect (core ctx) .disconnect (.blank ctx.refCount) [.reset] :=
        .dropped trivial
      exact dropped.congr rfl (by simp [Activation.run, returning, disconnect])
  | unreliablePacketSend data env => exact unreliablePacketSend_effect slot ctx data env

end Koisyn.Session
