/-
# Koisyn.Session.RefusedConnection — an incoming connection that is refused

`handleNewConnection` is the whole `NEW_CONNECTION` handler: the search of the table, `newConnection`
on the context found, and the status that MsQuic gets.  When that is a failure MsQuic closes the
connection itself, so nothing of ours may keep or use its handle.

The handle is stored before `ConnectionSetConfiguration`, the one step that can fail.
`refused_leaves_no_trace_iff` is exact: a refused connection leaves no trace if and only if the
configuration succeeds or no context matches.  The part about later operations rests on a frame
lemma: an activation makes calls on connections that its context holds or that it brings along, and
on no others (`run_silent`, `runs_silent`).
-/
import Koisyn.Session.World

namespace Koisyn.Session

open Koisyn.Channel

set_option autoImplicit false

/-! ## The handler -/

/-- The loop of the handler: the first context whose peer calls from there. -/
def findListening (contexts : Slot → ConnectionContext) (remote : QuicAddr) : Option Slot :=
  (List.finRange maxConnections).find? fun i =>
    remote.port == (contexts i).ports.remoteClient &&
      quicAddrCompareIp (contexts i).remoteSentinel remote

/-- `Handle_QUIC_LISTENER_EVENT_NEW_CONNECTION`; `configured` is whether `ConnectionSetConfiguration`
succeeds. -/
def handleNewConnection (contexts : Slot → ConnectionContext) (remote : QuicAddr) (conn : Hquic)
    (configured : Bool) : QuicStatus × (Slot → ConnectionContext) × List Call :=
  match findListening contexts remote with
  | none => (.connectionRefused, contexts, [])
  | some slot =>
      let r := newConnection slot (contexts slot) conn
      (if configured then .success else .failed, Function.update contexts slot r.1, r.2)

/-- The session's step is this handler, with MsQuic's next handle. -/
theorem step_newConnection {L : Listener} {w t : World} {remote : QuicAddr} {configured : Bool}
    (taken : w.step L (.newConnection remote configured) = some t) :
    t.contexts = (handleNewConnection w.contexts remote w.conns.length configured).2.1 := by
  have search : findListening w.contexts remote = w.listening remote := rfl
  rcases World.step_cases taken with ⟨route, rfl⟩ | ⟨slot, act, route, -, rfl⟩
  · have unmatched : t.listening remote = none := by simpa [World.route] using route
    simp only [handleNewConnection, search, unmatched]
  · cases World.routed_of_route route with
    | newConnection found =>
        simp only [handleNewConnection, search, found]
        rfl

/-! ## Calls on a connection -/

/-- The connection that a call of MsQuic's interface is made on. -/
def connectionOf : Call → Option Hquic
  | .setLocalAddress conn _ | .connectionStart conn _ _ | .connectionShutdown conn
  | .connectionClose conn | .connectionSetCallbackHandler conn _
  | .connectionSetConfiguration conn | .datagramSend conn _ _ => some conn
  | _ => none

def connections (calls : List Call) : List Hquic := calls.filterMap connectionOf

@[simp] theorem connections_nil : connections [] = [] := rfl

@[simp] theorem connections_cons (call : Call) (calls : List Call) :
    connections (call :: calls) = (connectionOf call).toList ++ connections calls := by
  cases named : connectionOf call <;> simp [connections, named]

@[simp] theorem connections_append (calls more : List Call) :
    connections (calls ++ more) = connections calls ++ connections more :=
  List.filterMap_append

@[simp] theorem connections_releaseStream (strm : Option Hquic) :
    connections (releaseStream strm) = [] := by
  cases strm <;> rfl

@[simp] theorem connections_releaseConnection (conn : Option Hquic) :
    connections (releaseConnection conn) = conn.toList := by
  cases conn <;> rfl

@[simp] theorem connections_challenge (remote : Endpoint) (port : UInt16) :
    connections (challenge remote port) = [] := by
  unfold challenge
  split <;> rfl

theorem connections_flatMap_nil {ι : Type} (xs : List ι) (f : ι → List Call)
    (silent : ∀ x, connections (f x) = []) : connections (xs.flatMap f) = [] := by
  rw [connections, List.filterMap_flatMap]
  exact List.flatMap_eq_nil_iff.2 fun x _ => silent x

theorem connections_map_nil {ι : Type} (xs : List ι) (f : ι → Call)
    (silent : ∀ x, connectionOf (f x) = none) : connections (xs.map f) = [] := by
  rw [connections, List.filterMap_map]
  exact List.filterMap_eq_nil_iff.2 fun x _ => silent x

/-- Neither side of the context's datagram channel is this connection. -/
structure Unheld (ctx : ConnectionContext) (conn : Hquic) : Prop where
  self : ctx.unreliable.self ≠ some conn
  peer : ctx.unreliable.peer ≠ some conn

theorem unheld_reset (ctx : ConnectionContext) (conn : Hquic) : Unheld ctx.reset conn :=
  ⟨by simp [ConnectionContext.reset], by simp [ConnectionContext.reset]⟩

theorem silent_resetCalls {ctx : ConnectionContext} {conn : Hquic} (unheld : Unheld ctx conn)
    (slot : Slot) : conn ∉ connections (ctx.resetCalls slot) := by
  have streams : connections ((List.finRange 4).flatMap fun i =>
      releaseStream (ctx.reliable i).self ++ releaseStream (ctx.reliable i).peer) = [] :=
    connections_flatMap_nil _ _ (by simp)
  simp [ConnectionContext.resetCalls, streams, connectionOf, unheld.self, unheld.peer]

/-- The activation comes with this connection: MsQuic opens it, or raises the event on it. -/
def Activation.Brings (conn : Hquic) : Activation → Prop
  | .receive2nd _ _ _ env | .receive3rd _ env => env.connection = some conn
  | .newConnection h _ => h = conn
  | .shutdownComplete h _ _ => h = conn
  | _ => False

/-- The handler leaves a connection that the context did not hold: it does not take it up and makes no
call on it. -/
structure Silent (conn : Hquic) (r : ConnectionContext × List Call) : Prop where
  unheld : Unheld r.1 conn
  silent : conn ∉ connections r.2

section Frame

variable {ctx : ConnectionContext} {conn : Hquic}

theorem silent_startClient (unheld : Unheld ctx conn) (slot : Slot) (remote : Endpoint)
    {env : StartEnv} (others : env.connection ≠ some conn) :
    Silent conn (startClient slot ctx remote env) := by
  have replaced : connections (replacedCalls ctx env) = [] :=
    connections_flatMap_nil _ _ fun i => by split <;> simp
  have asked : ∀ {mine : Hquic}, env.connection = some mine → Unheld (askedFor ctx mine env) conn := by
    intro mine opens
    refine ⟨?_, unheld.peer⟩
    rintro ⟨rfl⟩
    exact others opens
  have started := startClient_started slot ctx remote env
  generalize startClient slot ctx remote env = r at started ⊢
  cases started with
  | unopened skips => exact ⟨unheld, by simp [connectionOf]⟩
  | granted mine free opens granted =>
      have starts : connections ((List.finRange 4).map fun i =>
          .streamStart ((askedFor ctx mine env).reliable i).self) = [] :=
        connections_map_nil _ _ fun _ => rfl
      have differ : conn ≠ mine := by
        rintro rfl
        exact others opens
      refine ⟨⟨(asked opens).self, unheld.peer⟩, ?_⟩
      simp [replaced, connectionOf, differ, starts]
  | refused mine free opens refused =>
      refine ⟨unheld_reset _ conn, ?_⟩
      rw [connections_append, List.mem_append, not_or]
      exact ⟨by simp [replaced, connectionOf], silent_resetCalls (asked opens) slot⟩

theorem silent_doCheck (unheld : Unheld ctx conn) (slot : Slot) (now : Nat) :
    Silent conn (doCheck slot ctx now) := by
  have checked := doCheck_checked slot ctx now
  generalize doCheck slot ctx now = r at checked ⊢
  cases checked with
  | idle => exact ⟨unheld, List.not_mem_nil⟩
  | longStop => exact ⟨unheld_reset ctx conn, silent_resetCalls unheld slot⟩
  | shortStop =>
      refine ⟨unheld_reset ctx conn, ?_⟩
      rw [connections_append, List.mem_append, not_or]
      exact ⟨silent_resetCalls unheld slot, by simp [connectionOf]⟩
  | retry => exact ⟨unheld, by simp [sendPorts, connectionOf]⟩

theorem silent_shutdownComplete (unheld : Unheld ctx conn) (slot : Slot) {closed : Hquic}
    (other : closed ≠ conn) (isClient : Bool) (alive : ObjectId → Bool) :
    Silent conn (shutdownComplete slot ctx closed isClient alive) := by
  have cleared : Unheld { clearSide ctx isClient with refCount := (clearSide ctx isClient).refCount - 1 }
      conn := by
    cases isClient with
    | true => exact ⟨by simp [clearSide], unheld.peer⟩
    | false => exact ⟨unheld.self, by simp [clearSide]⟩
  have calls : conn ∉ connections (clearSideCalls ctx isClient) := by
    cases isClient <;>
      simp [clearSideCalls, connections_flatMap_nil, unheld.self, unheld.peer]
  unfold shutdownComplete
  dsimp only
  split
  · refine ⟨unheld_reset _ conn, ?_⟩
    have resets := silent_resetCalls cleared slot
    simp only [connections_append, connections_cons, connections_nil, connectionOf, List.mem_append,
      Option.toList_none, List.nil_append, Option.toList_some, List.mem_singleton, List.append_nil]
    rintro ((side | reset) | same)
    · exact calls side
    · exact resets reset
    · exact other same.symm
  · refine ⟨cleared, ?_⟩
    rw [connections_append, List.mem_append, not_or]
    exact ⟨calls, by simp [connectionOf, Ne.symm other]⟩

theorem silent_unreliablePacketSend (unheld : Unheld ctx conn) (data : List UInt8) (env : SendEnv) :
    Silent conn (unreliablePacketSend ctx data env).2 := by
  have sends : ∀ buf, conn ∉ connections ((targets ctx.unreliable.peer ctx.unreliable.self env).map
      fun t => .datagramSend t.1 buf t.2) := by
    intro buf member
    obtain ⟨call, isCall, named⟩ := List.mem_filterMap.1 member
    obtain ⟨⟨h, succeeded⟩, isTarget, rfl⟩ := List.mem_map.1 isCall
    obtain rfl : h = conn := by simpa [connectionOf] using named
    simp only [targets, List.mem_append, List.mem_map, Option.mem_toList, Prod.mk.injEq] at isTarget
    rcases isTarget with ⟨h', held, rfl, -⟩ | ⟨h', held, rfl, -⟩
    · exact unheld.peer held
    · exact unheld.self held
  unfold unreliablePacketSend
  dsimp only
  split
  · exact ⟨unheld, List.not_mem_nil⟩
  · split
    · exact ⟨⟨unheld.self, unheld.peer⟩, List.not_mem_nil⟩
    · refine ⟨⟨unheld.self, unheld.peer⟩, ?_⟩
      dsimp only
      rw [connections_append, List.mem_append, not_or]
      refine ⟨sends _, ?_⟩
      split <;> simp [connectionOf]

theorem silent_datagramReceived (unheld : Unheld ctx conn) (slot : Slot) (buf : List UInt8)
    (alive : ObjectId → Bool) :
    Silent conn ((datagramReceived slot ctx buf alive).ctx,
      (datagramReceived slot ctx buf alive).calls) := by
  have took := datagramReceived_took slot ctx buf alive
  generalize (datagramReceived slot ctx buf alive).ctx = after,
    (datagramReceived slot ctx buf alive).calls = calls at took ⊢
  cases took with
  | dropped => exact ⟨unheld_reset ctx conn, silent_resetCalls unheld slot⟩
  | left => exact ⟨unheld, List.not_mem_nil⟩
  | taken => exact ⟨⟨unheld.self, unheld.peer⟩, by simp [connectionOf]⟩

theorem silent_handleReceive (unheld : Unheld ctx conn) (slot : Slot) (alive : ObjectId → Bool)
    (id : Nat) (ev : ReceiveEvent) :
    Silent conn ((handleReceive slot alive id ev ctx).ctx,
      (handleReceive slot alive id ev ctx).calls) := by
  have receives : ∀ (index : Fin 4) (payloads : List (List UInt8)) (channelCtx : ObjectId),
      connections (payloads.map fun data => .onReliableReceive slot index data channelCtx) = [] :=
    fun _ payloads _ => connections_map_nil payloads _ fun _ => rfl
  have blocked : ∀ (ctx : ConnectionContext) (index : Fin 4),
      connections (ctx.resetBlockedCalls index) = [] :=
    fun ctx index => connections_flatMap_nil _ _ (by simp)
  have received := handleReceive_received slot alive id ev ctx
  generalize (handleReceive slot alive id ev ctx).ctx = after,
    (handleReceive slot alive id ev ctx).calls = calls at received ⊢
  cases received with
  | dropped => exact ⟨unheld_reset ctx conn, silent_resetCalls unheld slot⟩
  | left => exact ⟨unheld, List.not_mem_nil⟩
  | read => exact ⟨⟨unheld.self, unheld.peer⟩, by simp [receives]⟩
  | blocked => exact ⟨⟨unheld.self, unheld.peer⟩, by simp [receives, blocked]⟩

/-- **The frame rule.**  An activation makes no call on a connection that its context does not hold
and that it does not bring, and leaves it unheld. -/
theorem run_silent (unheld : Unheld ctx conn) (slot : Slot) {act : Activation}
    (others : ¬ act.Brings conn) :
    Silent conn ((act.run slot ctx).ctx, (act.run slot ctx).calls) := by
  cases act with
  | connectTo remote localServer localClient now =>
      refine ⟨⟨unheld.self, unheld.peer⟩, ?_⟩
      simp [Activation.run, returning, connectTo, sendPorts, connectionOf]
  | receive1st remoteServer remoteClient remote localServer sock now =>
      simp only [Activation.run, returning, receive1st]
      split
      · split
        · exact ⟨⟨unheld.self, unheld.peer⟩, by simp⟩
        · exact ⟨⟨unheld.self, unheld.peer⟩, by simp [sendPorts, connectionOf]⟩
      · exact ⟨⟨unheld.self, unheld.peer⟩, by simp [sendPorts, connectionOf]⟩
  | receive2nd remoteServer remoteClient remote env =>
      have saved : Unheld { ctx with ports := { ctx.ports with remoteServer, remoteClient } } conn :=
        ⟨unheld.self, unheld.peer⟩
      have started := silent_startClient saved slot remote others
      refine ⟨started.unheld, ?_⟩
      simp only [Activation.run, returning, receive2nd, connections_append, connections_cons,
        connections_challenge, sendPorts, connectionOf, Option.toList_none, List.nil_append]
      exact started.silent
  | receive3rd remote env => exact silent_startClient unheld slot remote others
  | doCheck now => exact silent_doCheck unheld slot now
  | newConnection h configured =>
      have differ : conn ≠ h := fun same => others same.symm
      refine ⟨⟨unheld.self, by simpa [Activation.run, returning, newConnection] using Ne.symm differ⟩, ?_⟩
      simp [Activation.run, returning, newConnection, connectionOf, unheld.peer, differ]
  | connected h =>
      refine ⟨⟨unheld.self, unheld.peer⟩, ?_⟩
      simp only [Activation.run, returning, connected]
      split <;> simp [connectionOf]
  | shutdownComplete h isClient alive => exact silent_shutdownComplete unheld slot others isClient alive
  | peerStreamStarted h strm id =>
      simp only [Activation.run, peerStreamStarted]
      split
      · exact ⟨⟨unheld.self, unheld.peer⟩, by simp [connectionOf]⟩
      · exact ⟨unheld, List.not_mem_nil⟩
  | datagramStateChanged maxSendLength => exact ⟨⟨unheld.self, unheld.peer⟩, List.not_mem_nil⟩
  | datagramReceived buf alive => exact silent_datagramReceived unheld slot buf alive
  | receive id ev alive => exact silent_handleReceive unheld slot alive id ev
  | disconnect => exact ⟨unheld_reset ctx conn, silent_resetCalls unheld slot⟩
  | unreliablePacketSend data env => exact silent_unreliablePacketSend unheld data env

end Frame

/-! ## What may come later -/

/-- An operation on a context: an activation, or a send on a reliable channel. -/
inductive ContextOp where
  | activation (act : Activation)
  | reliablePacketSend (channel : Nat) (data : List UInt8) (env : SendEnv)

def ContextOp.Brings (conn : Hquic) : ContextOp → Prop
  | .activation act => act.Brings conn
  | .reliablePacketSend _ _ _ => False

def ContextOp.run (slot : Slot) (ctx : ConnectionContext) : ContextOp → ConnectionContext × List Call
  | .activation act => ((act.run slot ctx).ctx, (act.run slot ctx).calls)
  | .reliablePacketSend channel data env =>
      (ctx, (Channel.reliablePacketSend (some ctx) channel data env).2)

/-- The calls of operations one after the other. -/
def laterCalls (slot : Slot) : ConnectionContext → List ContextOp → List Call
  | _, [] => []
  | ctx, op :: ops => (op.run slot ctx).2 ++ laterCalls slot (op.run slot ctx).1 ops

theorem reliablePacketSend_silent (ctx : ConnectionContext) (channel : Nat) (data : List UInt8)
    (env : SendEnv) :
    connections (Channel.reliablePacketSend (some ctx) channel data env).2 = [] := by
  unfold Channel.reliablePacketSend
  dsimp only
  split
  · rfl
  · split
    · split
      · rfl
      · dsimp only
        rw [connections_append, connections_map_nil _ _ fun _ => rfl, List.nil_append]
        split <;> rfl
    · rfl

theorem op_silent {ctx : ConnectionContext} {conn : Hquic} (unheld : Unheld ctx conn) (slot : Slot)
    {op : ContextOp} (others : ¬ op.Brings conn) : Silent conn (op.run slot ctx) := by
  cases op with
  | activation act => exact run_silent unheld slot others
  | reliablePacketSend channel data env =>
      refine ⟨unheld, ?_⟩
      rw [ContextOp.run, reliablePacketSend_silent]
      exact List.not_mem_nil

/-- **The run rule.**  No sequence of operations on other connections makes a call on this one. -/
theorem runs_silent {conn : Hquic} (slot : Slot) (ops : List ContextOp) {ctx : ConnectionContext}
    (unheld : Unheld ctx conn) (others : ∀ op ∈ ops, ¬ op.Brings conn) :
    conn ∉ connections (laterCalls slot ctx ops) := by
  induction ops generalizing ctx with
  | nil => exact List.not_mem_nil
  | cons op ops ih =>
      have first := op_silent unheld slot (others op List.mem_cons_self)
      rw [laterCalls, connections_append, List.mem_append, not_or]
      exact ⟨first.silent, ih first.unheld fun o member => others o (List.mem_cons_of_mem _ member)⟩

/-! ## The refusal -/

/-- What must hold when the handler refuses: no context holds the handle, those held before are
kept, and no later operation makes a call on the refused connection. -/
structure NoTrace (contexts after : Slot → ConnectionContext) (conn : Hquic) : Prop where
  unheld : ∀ slot, (after slot).unreliable.peer ≠ some conn
  kept : ∀ slot old, (contexts slot).unreliable.peer = some old →
    (after slot).unreliable.peer = some old
  silent : ∀ slot ops, (∀ op ∈ ops, ¬ ContextOp.Brings conn op) →
    conn ∉ connections (laterCalls slot (after slot) ops)

/-- **Exactly when a refused connection leaves no trace**: the configuration succeeds, or no context
matches.  MsQuic's new handle is none of those in the table. -/
theorem refused_leaves_no_trace_iff {contexts : Slot → ConnectionContext} {conn : Hquic}
    (fresh : ∀ slot, Unheld (contexts slot) conn) (remote : QuicAddr) (configured : Bool) :
    ((handleNewConnection contexts remote conn configured).1 ≠ .success →
        NoTrace contexts (handleNewConnection contexts remote conn configured).2.1 conn) ↔
      configured = true ∨ findListening contexts remote = none := by
  unfold handleNewConnection
  cases found : findListening contexts remote with
  | none =>
      refine ⟨fun _ => .inr rfl, fun _ _ => ?_⟩
      exact ⟨fun slot => (fresh slot).peer, fun _ _ held => held,
        fun slot ops others => runs_silent slot ops (fresh slot) others⟩
  | some slot =>
      cases configured with
      | true => exact ⟨fun _ => .inl rfl, fun _ failed => absurd rfl failed⟩
      | false =>
          refine ⟨fun noTrace => ?_, by simp⟩
          -- the handle of the refused connection stands in the context found
          have stored := (noTrace (by simp)).unheld slot
          simp [newConnection] at stored

/-- What the refusal leaves where it does leave a trace: the handle that was there is shut down, and
the next `Reset` shuts down the refused one, which MsQuic has closed. -/
theorem refused_handle_stays {contexts : Slot → ConnectionContext} {remote : QuicAddr} {slot : Slot}
    (found : findListening contexts remote = some slot) (conn : Hquic) :
    let r := handleNewConnection contexts remote conn false
    r.1 = .failed ∧ (r.2.1 slot).unreliable.peer = some conn ∧
      (∀ old ∈ (contexts slot).unreliable.peer, .connectionShutdown old ∈ r.2.2) ∧
      .connectionShutdown conn ∈ laterCalls slot (r.2.1 slot) [.activation .disconnect] := by
  simp only [handleNewConnection, found]
  refine ⟨rfl, by simp [newConnection], ?_, ?_⟩
  · intro old held
    simp only [Option.mem_def] at held
    simp [newConnection, releaseConnection, held]
  · simp [laterCalls, ContextOp.run, Activation.run, returning, disconnect,
      ConnectionContext.resetCalls, releaseConnection, newConnection]

/-- A table whose first context waits for the peer's client and has its connection 5 already. -/
def refusingTable : Slot → ConnectionContext := fun slot =>
  if slot = 0 then
    { ports := { remoteServer := 3, remoteClient := 4, localServer := 1, localClient := 2 }
      remoteSentinel := World.samplePeer.addr
      unreliable := { peer := some 5 } }
  else {}

theorem refused_leaves_no_trace_stranger :
    (∀ slot, Unheld (refusingTable slot) 9) ∧
      ((handleNewConnection refusingTable { World.samplePeer.addr with port := 6 } 9 false).1 ≠
          .success →
        NoTrace refusingTable
          (handleNewConnection refusingTable { World.samplePeer.addr with port := 6 } 9 false).2.1
          9) := by
  have fresh : ∀ slot, Unheld (refusingTable slot) 9 :=
    fun slot => ⟨by revert slot; decide, by revert slot; decide⟩
  exact ⟨fresh, (refused_leaves_no_trace_iff fresh _ _).2 (.inr (by decide))⟩

/-- The configuration of the peer's own second connection fails. -/
theorem refused_leaves_trace :
    (∀ slot, Unheld (refusingTable slot) 9) ∧
      ¬ ((handleNewConnection refusingTable { World.samplePeer.addr with port := 4 } 9 false).1 ≠
          .success →
        NoTrace refusingTable
          (handleNewConnection refusingTable { World.samplePeer.addr with port := 4 } 9 false).2.1
          9) := by
  refine ⟨fun slot => ⟨by revert slot; decide, by revert slot; decide⟩, ?_⟩
  intro noTrace
  exact absurd ((noTrace (by decide)).unheld 0) (by decide)

end Koisyn.Session
