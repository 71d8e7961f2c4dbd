/-
# Koisyn.Session.World — one session as a machine

The sixteen contexts of a session, what MsQuic knows of the connections and streams that were made
for them, and the calls that the handlers have made on each.  A label is a call of the application
(`connectTo`, `disconnect`, a send), a packet on the sentinel's socket, a pass of the daemon over
one context, or an event of MsQuic, with everything the environment decides in it.

Handlers are atomic: no other handler runs between two statements of one, on another thread or out of a
callback of the application, which calls nothing back.  `FirstPacket` and `Consent` take a first packet
and `StartClient` apart.  A label is routed to the activation it causes (`route`), if any, which runs on
one slot (`after`); `Routed` says for every kind of activation what was found on the way to it.

An event that MsQuic does not raise cannot happen: each connection gets `CONNECTED` at most once and only
when it was started, and nothing after its `SHUTDOWN_COMPLETE`, which may come without `CONNECTED`.  One
of the peer's that could not be configured was refused, and raises none (`Conn.isOpen`).  A `RECEIVE`
activation that spins or blocks is a step that leaves its channel's `RecvMutex` held.  An activation that
would wait for a held mutex never returns and is not a step, nor is what the code has written, and the
handles it has let go, before it waits.

The connection and stream records keep what the properties ask about an old connection: the `use` of
the slot it was made in (the number of resets before), and whether its handle was replaced.
-/
import Koisyn.Session.Events
import Koisyn.Theory.Run

namespace Koisyn.Session

open Koisyn.Channel
open Koisyn.Theory.Run

set_option autoImplicit false

/-- The port of the started listener. -/
structure Listener where
  port : UInt16
  bound : port ≠ 0

/-- A connection of MsQuic whose callback context is a slot. -/
structure Conn where
  isClient : Bool
  slot : Slot
  use : Nat
  started : Bool
  connected : Bool := false
  closed : Bool := false
  replaced : Bool := false
  deriving DecidableEq, Repr

/-- MsQuic raises events for the connection: it is not closed, and not one of the peer's whose handler
has returned a failure. -/
def Conn.isOpen (c : Conn) : Bool := !c.closed && (c.isClient || c.started)

theorem Conn.isOpen_iff {c : Conn} :
    c.isOpen = true ↔ c.closed = false ∧ (c.isClient = true ∨ c.started = true) := by
  simp [Conn.isOpen]

@[simp] theorem Conn.isOpen_closed (isClient : Bool) (slot : Slot) (use : Nat)
    (started connected replaced : Bool) :
    ({ isClient, slot, use, started, connected, closed := true, replaced } : Conn).isOpen = false :=
  rfl

structure Strm where
  conn : Hquic
  id : Nat
  deriving DecidableEq, Repr

/-- Handles are positions in `conns` and `strms`. -/
structure World where
  contexts : Slot → ConnectionContext := fun _ => {}
  conns : List Conn := []
  strms : List Strm := []
  held : Slot → Fin 4 → Bool := fun _ _ => false
  calls : Slot → List Call := fun _ => []

/-- What the system and the application answer in `StartClient`. -/
structure StartOutcome where
  connection : Bool
  streams : Fin 4 → Bool
  shouldCreate : Bool
  channelContext : Option ObjectId
  alive : ObjectId → Bool

inductive Label where
  | connectTo (parsed : Option Endpoint) (busy : Slot → Bool) (sock : Option UInt16) (now : Nat)
  | packet (data : List UInt8) (remote : Endpoint) (busy : Slot → Bool) (sock : Option UInt16)
      (now : Nat) (start : StartOutcome)
  | doCheck (slot : Slot) (now : Nat)
  | newConnection (remote : QuicAddr) (configured : Bool)
  | connected (conn : Hquic)
  | shutdownComplete (conn : Hquic) (alive : ObjectId → Bool)
  | peerStreamStarted (conn : Hquic) (id : Nat)
  | datagramStateChanged (conn : Hquic) (maxSendLength : UInt16)
  | datagramReceived (conn : Hquic) (buf : List UInt8) (alive : ObjectId → Bool)
  | receive (strm : Hquic) (ev : ReceiveEvent) (alive : ObjectId → Bool)
  | disconnect (slot : Slot)
  | unreliablePacketSend (slot : Slot) (data : List UInt8) (env : SendEnv)

/-- The activations of the handshake. -/
def Activation.IsHandshake : Activation → Prop
  | .connectTo _ _ _ _ | .receive1st _ _ _ _ _ _ | .receive2nd _ _ _ _ | .receive3rd _ _ => True
  | _ => False

/-- The labels that scan the contexts. -/
def Label.Scans : Label → Prop
  | .connectTo _ _ _ _ | .packet _ _ _ _ _ _ => True
  | _ => False

instance decidableScans : ∀ l : Label, Decidable l.Scans
  | .connectTo _ _ _ _ | .packet _ _ _ _ _ _ => isTrue trivial
  | .doCheck _ _ | .newConnection _ _ | .connected _ | .shutdownComplete _ _
  | .peerStreamStarted _ _ | .datagramStateChanged _ _ | .datagramReceived _ _ _
  | .receive _ _ _ | .disconnect _ | .unreliablePacketSend _ _ _ => isFalse id

/-! ## Which activation a label causes -/

/-- `ConsumeRawUdpData`: the context and the handler it goes on to, if any. -/
def consumeRawUdpData (L : Listener) (contexts : Slot → ConnectionContext) (busy : Slot → Bool)
    (data : List UInt8) (remote : Endpoint) (sock : Option UInt16) (now : Nat) (env : StartEnv) :
    Option (Slot × Activation) :=
  if data.length ≠ 8 then none
  else
    match convertBufferToPorts data, findMatchingEntry contexts busy remote.addr with
    | some ports, (isMatching, some found) =>
        let isConnected := (contexts found).handshakeBegin.isNone
        let remoteKnown := knownPeerPorts ports
        let localKnown := knownLocalPorts ports
        if remoteKnown && !localKnown then
          if isMatching && isConnected then none
          else some (found,
            .receive1st ports.remoteServer ports.remoteClient remote L.port sock now)
        else if remoteKnown && localKnown then
          if !isMatching then none
          else if isConnected then none
          else some (found, .receive2nd ports.remoteServer ports.remoteClient remote env)
        else if !remoteKnown && localKnown then
          if !isMatching then none
          else if isConnected then none
          else some (found, .receive3rd remote env)
        else none
    | _, _ => none

/-- What is known of a handshake activation when it runs, of its context's core. -/
def LegalOn (L : Listener) (ctx : Core) : Activation → Prop
  | .connectTo _ localServer _ _ =>
      localServer = L.port ∧ ctx.refCount = 0 ∧ ctx.ports = {}
  | .receive1st _ _ _ localServer _ _ => localServer = L.port ∧
      (ctx.handshakeBegin = none → ctx.refCount = 0 ∧ ctx.ports = {})
  | .receive2nd _ _ _ _ | .receive3rd _ _ => ctx.handshakeBegin.isSome
  | _ => True

/-- `StartClient` runs in a context that is handshaking. -/
theorem begun_of_starts {L : Listener} {ctx : Core} {act : Activation} {ports ports' : Ports}
    {env : StartEnv} (legal : LegalOn L ctx act) (starts : act.starts ports = some (ports', env)) :
    ctx.handshakeBegin.isSome = true := by
  cases act with
  | receive2nd => exact legal
  | receive3rd => exact legal
  | _ => cases starts

namespace World

variable (w : World)

/-- The marks that the handlers have left on a context. -/
def history (slot : Slot) : List Mark := marks slot (w.calls slot)

/-- The number of times a context has been reset. -/
def use (slot : Slot) : Nat := (w.history slot).count .reset

/-- A connection that MsQuic still raises events for. -/
def openConn (conn : Hquic) : Option Conn := w.conns[conn]?.filter Conn.isOpen

/-- A connection that has been started as well. -/
def startedConn (conn : Hquic) : Option Conn := (w.openConn conn).filter (·.started)

/-- The environment of a `StartClient` that runs now, with the next handles. -/
def startEnv (start : StartOutcome) : StartEnv where
  connection := if start.connection then some w.conns.length else none
  streams i := if start.streams i then
      some (w.strms.length + ((List.finRange 4).filter fun j => j < i && start.streams j).length)
    else none
  shouldCreate := start.shouldCreate
  channelContext := start.channelContext
  alive := start.alive

/-- The loop of the `NEW_CONNECTION` handler: the first context whose peer calls from there. -/
def listening (remote : QuicAddr) : Option Slot :=
  (List.finRange maxConnections).find? fun i =>
    remote.port == (w.contexts i).ports.remoteClient &&
      quicAddrCompareIp (w.contexts i).remoteSentinel remote

/-- The activation a label causes, with its slot: `none` when the label cannot happen, `some none`
when it causes none. -/
def route (L : Listener) : Label → Option (Option (Slot × Activation))
  | .connectTo parsed busy sock now =>
      some (parsed.bind fun remote =>
        match findMatchingEntry w.contexts busy remote.addr with
        | (false, some found) =>
            sock.map fun localClient => (found, .connectTo remote L.port localClient now)
        | _ => none)
  | .packet data remote busy sock now start =>
      some (consumeRawUdpData L w.contexts busy data remote sock now (w.startEnv start))
  | .doCheck slot now => some (some (slot, .doCheck now))
  | .newConnection remote configured =>
      some ((w.listening remote).map fun slot => (slot, .newConnection w.conns.length configured))
  | .connected conn =>
      (w.startedConn conn).bind fun c =>
        if !c.connected then some (some (c.slot, .connected conn)) else none
  | .shutdownComplete conn alive =>
      (w.openConn conn).map fun c => some (c.slot, .shutdownComplete conn c.isClient alive)
  | .peerStreamStarted conn id =>
      (w.startedConn conn).map fun c => some (c.slot, .peerStreamStarted conn w.strms.length id)
  | .datagramStateChanged conn maxSendLength =>
      (w.startedConn conn).map fun c => some (c.slot, .datagramStateChanged maxSendLength)
  | .datagramReceived conn buf alive =>
      (w.startedConn conn).map fun c => some (c.slot, .datagramReceived buf alive)
  | .receive strm ev alive =>
      w.strms[strm]?.bind fun s =>
        (w.startedConn s.conn).map fun c => some (c.slot, .receive s.id ev alive)
  | .disconnect slot => some (some (slot, .disconnect))
  | .unreliablePacketSend slot data env => some (some (slot, .unreliablePacketSend data env))

/-! ## What the activation leaves -/

/-- The connection that `StartClient` opens in an activation on this context, and its streams. -/
def opens (slot : Slot) (act : Activation) : Option StartEnv :=
  (act.starts (w.contexts slot).ports).bind fun (_, env) =>
    if (w.contexts slot).unreliable.self.isNone && env.connection.isSome then some env else none

/-- MsQuic's connections after an activation. -/
def connsAfter (slot : Slot) (act : Activation) : List Conn :=
  match w.opens slot act, act with
  | some env, _ =>
      w.conns ++ [{ isClient := true, slot, use := w.use slot, started := env.granted }]
  | none, .newConnection _ configured =>
      let kept := match (w.contexts slot).unreliable.peer with
        | none => w.conns
        | some old => w.conns.modify old fun c => { c with replaced := true }
      kept ++ [{ isClient := false, slot, use := w.use slot, started := configured }]
  | none, .connected conn => w.conns.modify conn fun c => { c with connected := true }
  | none, .shutdownComplete conn _ _ => w.conns.modify conn fun c => { c with closed := true }
  | none, _ => w.conns

/-- MsQuic's streams after an activation.  Ids are given in the order the streams are started, so a
stream that failed to open shifts the later ones. -/
def strmsAfter (slot : Slot) (act : Activation) : List Strm :=
  match w.opens slot act, act with
  | some env, _ =>
      let count := ((List.finRange 4).filter fun i => (env.streams i).isSome).length
      w.strms ++ (List.range count).map fun rank => { conn := w.conns.length, id := 4 * rank }
  | none, .peerStreamStarted conn _ id => w.strms ++ [{ conn, id }]
  | none, _ => w.strms

/-- The channel whose `RecvMutex` an activation takes. -/
def channelOf : Activation → Option (Fin 4)
  | .receive id _ _ =>
      if inRange : (id >>> 2) % 2 ^ 32 < 4 then some ⟨(id >>> 2) % 2 ^ 32, inRange⟩ else none
  | _ => none

/-- The activation resets its context, or gets as far as it can. -/
def Resets (slot : Slot) (act : Activation) : Prop :=
  .reset slot ∈ (act.run slot (w.contexts slot)).calls ∨
    (act.run slot (w.contexts slot)).exit = .corrupt

/-- The activation leaves its memory, or would wait for a `RecvMutex` that is never released. -/
def Fails (slot : Slot) (act : Activation) : Prop :=
  (act.run slot (w.contexts slot)).exit = .overruns ∨
    (w.Resets slot act ∧ ∃ i, w.held slot i = true) ∨
    ∃ i ∈ channelOf act, w.held slot i = true

instance (slot : Slot) (act : Activation) : Decidable (w.Resets slot act) :=
  inferInstanceAs (Decidable (_ ∨ _))

instance (slot : Slot) (act : Activation) : Decidable (w.Fails slot act) :=
  inferInstanceAs (Decidable (_ ∨ _ ∨ _))

def after (slot : Slot) (act : Activation) : World where
  contexts := Function.update w.contexts slot (act.run slot (w.contexts slot)).ctx
  conns := w.connsAfter slot act
  strms := w.strmsAfter slot act
  held := Function.update w.held slot fun i =>
    w.held slot i || (decide (channelOf act = some i) &&
      decide ((act.run slot (w.contexts slot)).exit ∈ [Exit.spins, Exit.corrupt]))
  calls := Function.update w.calls slot (w.calls slot ++ (act.run slot (w.contexts slot)).calls)

/-- One step. -/
def step (L : Listener) (w : World) (l : Label) : Option World :=
  (w.route L l).bind fun
    | none => some w
    | some (slot, act) => if w.Fails slot act then none else some (w.after slot act)

/-! ## Inversion -/

/-- What is known of an activation when it runs. -/
def Legal (L : Listener) (slot : Slot) : Activation → Prop
  | .connectTo _ localServer _ _ => localServer = L.port ∧ isEmpty (w.contexts slot) = true
  | .receive1st _ _ _ localServer _ _ => localServer = L.port ∧
      ((w.contexts slot).handshakeBegin = none → isEmpty (w.contexts slot) = true)
  | .receive2nd _ _ _ _ | .receive3rd _ _ => (w.contexts slot).handshakeBegin.isSome
  | .newConnection conn _ => conn = w.conns.length
  | .connected conn =>
      ∃ c, w.startedConn conn = some c ∧ c.slot = slot ∧ c.connected = false
  | .shutdownComplete conn isClient _ =>
      ∃ c, w.openConn conn = some c ∧ c.slot = slot ∧ c.isClient = isClient
  | _ => True

variable {w} {L : Listener}

/-- A handler that returns, resets nothing and takes no `RecvMutex` is a step. -/
theorem not_fails {slot : Slot} {act : Activation}
    (returns : (act.run slot (w.contexts slot)).exit = .returned .success)
    (noReset : .reset ∉ marks slot (act.run slot (w.contexts slot)).calls)
    (noChannel : channelOf act = none) : ¬ w.Fails slot act := by
  rintro (overruns | ⟨resets | corrupt, -⟩ | ⟨i, taken, -⟩)
  · rw [returns] at overruns
    cases overruns
  · exact noReset (mem_marks resets (by simp [markOf]))
  · rw [returns] at corrupt
    cases corrupt
  · rw [noChannel] at taken
    cases taken

theorem step_cases {l : Label} {t : World} (taken : w.step L l = some t) :
    (w.route L l = some none ∧ t = w) ∨
      ∃ slot act, w.route L l = some (some (slot, act)) ∧ ¬ w.Fails slot act ∧
        t = w.after slot act := by
  unfold step at taken
  obtain ⟨routed, route, taken⟩ := Option.bind_eq_some_iff.1 taken
  cases routed with
  | none => exact .inl ⟨route, (Option.some.inj taken).symm⟩
  | some target =>
      obtain ⟨slot, act⟩ := target
      dsimp only at taken
      split at taken
      · cases taken
      · rename_i works
        exact .inr ⟨slot, act, route, works, (Option.some.inj taken).symm⟩

/-- A step with an activation leaves what that leaves. -/
theorem after_of_route {l : Label} {t : World} {slot : Slot} {act : Activation}
    (route : w.route L l = some (some (slot, act))) (taken : w.step L l = some t) :
    t = w.after slot act := by
  simp only [step, route, Option.bind_some] at taken
  split at taken
  · cases taken
  · exact (Option.some.inj taken).symm

/-- A label causes one activation. -/
theorem forall_route_iff {l : Label} {slot : Slot} {act : Activation}
    (route : w.route L l = some (some (slot, act))) {P : Slot → Activation → Prop} :
    (∀ i other, w.route L l = some (some (i, other)) → P i other) ↔ P slot act := by
  constructor
  · exact fun all => all slot act route
  · intro holds i other route'
    obtain ⟨rfl, rfl⟩ := Prod.mk.inj (Option.some.inj (Option.some.inj (route.symm.trans route')))
    exact holds

/-- **Which packet does what.**  The kind of a packet is told by which of its two pairs of ports is
zero. -/
theorem consumeRawUdpData_cases {contexts : Slot → ConnectionContext} {busy : Slot → Bool}
    {data : List UInt8} {remote : Endpoint} {sock : Option UInt16} {now : Nat} {env : StartEnv}
    {slot : Slot} {act : Activation}
    (consumed : consumeRawUdpData L contexts busy data remote sock now env = some (slot, act)) :
    ∃ ports isMatching, data.length = 8 ∧ convertBufferToPorts data = some ports ∧
      findMatchingEntry contexts busy remote.addr = (isMatching, some slot) ∧
      (knownPeerPorts ports = true ∧ knownLocalPorts ports = false ∧
          (isMatching = true → (contexts slot).handshakeBegin.isSome) ∧
          act = .receive1st ports.remoteServer ports.remoteClient remote L.port sock now ∨
        knownPeerPorts ports = true ∧ knownLocalPorts ports = true ∧ isMatching = true ∧
          (contexts slot).handshakeBegin.isSome ∧
          act = .receive2nd ports.remoteServer ports.remoteClient remote env ∨
        knownPeerPorts ports = false ∧ knownLocalPorts ports = true ∧ isMatching = true ∧
          (contexts slot).handshakeBegin.isSome ∧ act = .receive3rd remote env) := by
  unfold consumeRawUdpData at consumed
  split at consumed
  · cases consumed
  · rename_i eight
    split at consumed
    · rename_i ports isMatching found read entry
      refine ⟨ports, isMatching, by simpa using eight, read, ?_⟩
      dsimp only at consumed
      cases isConnected : (contexts found).handshakeBegin <;> cases isMatching <;>
        cases remoteKnown : knownPeerPorts ports <;> cases localKnown : knownLocalPorts ports <;>
        simp [isConnected, remoteKnown, localKnown] at consumed <;>
        obtain ⟨rfl, rfl⟩ := consumed <;> simp [entry, isConnected]
    · cases consumed

/-- What `route` can choose, with what the search, the listener or MsQuic has found for it. -/
inductive Routed (L : Listener) (w : World) : Label → Slot → Activation → Prop where
  | connectTo {remote busy localClient now slot}
      (entry : findMatchingEntry w.contexts busy remote.addr = (false, some slot)) :
      Routed L w (.connectTo (some remote) busy (some localClient) now) slot
        (.connectTo remote L.port localClient now)
  | receive1st {data remote busy sock now start slot ports isMatching}
      (eight : data.length = 8) (read : convertBufferToPorts data = some ports)
      (entry : findMatchingEntry w.contexts busy remote.addr = (isMatching, some slot))
      (peerKnown : knownPeerPorts ports = true) (noLocal : knownLocalPorts ports = false)
      (matched : isMatching = true → (w.contexts slot).handshakeBegin.isSome) :
      Routed L w (.packet data remote busy sock now start) slot
        (.receive1st ports.remoteServer ports.remoteClient remote L.port sock now)
  | receive2nd {data remote busy sock now start slot ports}
      (eight : data.length = 8) (read : convertBufferToPorts data = some ports)
      (entry : findMatchingEntry w.contexts busy remote.addr = (true, some slot))
      (peerKnown : knownPeerPorts ports = true) (localKnown : knownLocalPorts ports = true)
      (begun : (w.contexts slot).handshakeBegin.isSome) :
      Routed L w (.packet data remote busy sock now start) slot
        (.receive2nd ports.remoteServer ports.remoteClient remote (w.startEnv start))
  | receive3rd {data remote busy sock now start slot ports}
      (eight : data.length = 8) (read : convertBufferToPorts data = some ports)
      (entry : findMatchingEntry w.contexts busy remote.addr = (true, some slot))
      (noPeer : knownPeerPorts ports = false) (localKnown : knownLocalPorts ports = true)
      (begun : (w.contexts slot).handshakeBegin.isSome) :
      Routed L w (.packet data remote busy sock now start) slot
        (.receive3rd remote (w.startEnv start))
  | doCheck {slot now} : Routed L w (.doCheck slot now) slot (.doCheck now)
  | newConnection {remote configured slot} (found : w.listening remote = some slot) :
      Routed L w (.newConnection remote configured) slot
        (.newConnection w.conns.length configured)
  | connected {conn c} (started : w.startedConn conn = some c) (first : c.connected = false) :
      Routed L w (.connected conn) c.slot (.connected conn)
  | shutdownComplete {conn alive c} (isOpen : w.openConn conn = some c) :
      Routed L w (.shutdownComplete conn alive) c.slot (.shutdownComplete conn c.isClient alive)
  | peerStreamStarted {conn id c} (started : w.startedConn conn = some c) :
      Routed L w (.peerStreamStarted conn id) c.slot
        (.peerStreamStarted conn w.strms.length id)
  | datagramStateChanged {conn maxSendLength c} (started : w.startedConn conn = some c) :
      Routed L w (.datagramStateChanged conn maxSendLength) c.slot
        (.datagramStateChanged maxSendLength)
  | datagramReceived {conn buf alive c} (started : w.startedConn conn = some c) :
      Routed L w (.datagramReceived conn buf alive) c.slot (.datagramReceived buf alive)
  | receive {strm ev alive s c} (found : w.strms[strm]? = some s)
      (started : w.startedConn s.conn = some c) :
      Routed L w (.receive strm ev alive) c.slot (.receive s.id ev alive)
  | disconnect {slot} : Routed L w (.disconnect slot) slot .disconnect
  | unreliablePacketSend {slot data env} :
      Routed L w (.unreliablePacketSend slot data env) slot (.unreliablePacketSend data env)

theorem routed_of_route {l : Label} {slot : Slot} {act : Activation}
    (route : w.route L l = some (some (slot, act))) : Routed L w l slot act := by
  cases l with
  | connectTo parsed busy sock now =>
      simp only [World.route, Option.some.injEq, Option.bind_eq_some_iff] at route
      obtain ⟨remote, rfl, chosen⟩ := route
      split at chosen
      · rename_i found entry
        obtain ⟨localClient, rfl, same⟩ := Option.map_eq_some_iff.1 chosen
        cases same
        exact .connectTo entry
      · cases chosen
  | packet data remote busy sock now start =>
      simp only [World.route, Option.some.injEq] at route
      obtain ⟨ports, isMatching, eight, read, entry, first | second | third⟩ :=
        consumeRawUdpData_cases route
      · obtain ⟨peerKnown, noLocal, matched, rfl⟩ := first
        exact .receive1st eight read entry peerKnown noLocal matched
      · obtain ⟨peerKnown, localKnown, rfl, begun, rfl⟩ := second
        exact .receive2nd eight read entry peerKnown localKnown begun
      · obtain ⟨noPeer, localKnown, rfl, begun, rfl⟩ := third
        exact .receive3rd eight read entry noPeer localKnown begun
  | doCheck slot now =>
      cases route
      exact .doCheck
  | newConnection remote configured =>
      simp only [World.route, Option.some.injEq, Option.map_eq_some_iff] at route
      obtain ⟨slot, found, same⟩ := route
      cases same
      exact .newConnection found
  | connected conn =>
      simp only [World.route, Option.bind_eq_some_iff] at route
      obtain ⟨c, started, chosen⟩ := route
      split at chosen
      · rename_i first
        cases chosen
        exact .connected started (by simpa using first)
      · cases chosen
  | shutdownComplete conn alive =>
      simp only [World.route, Option.map_eq_some_iff] at route
      obtain ⟨c, isOpen, chosen⟩ := route
      cases chosen
      exact .shutdownComplete isOpen
  | peerStreamStarted conn id =>
      simp only [World.route, Option.map_eq_some_iff] at route
      obtain ⟨c, started, chosen⟩ := route
      cases chosen
      exact .peerStreamStarted started
  | datagramStateChanged conn maxSendLength =>
      simp only [World.route, Option.map_eq_some_iff] at route
      obtain ⟨c, started, chosen⟩ := route
      cases chosen
      exact .datagramStateChanged started
  | datagramReceived conn buf alive =>
      simp only [World.route, Option.map_eq_some_iff] at route
      obtain ⟨c, started, chosen⟩ := route
      cases chosen
      exact .datagramReceived started
  | receive strm ev alive =>
      simp only [World.route, Option.bind_eq_some_iff, Option.map_eq_some_iff] at route
      obtain ⟨s, found, c, started, chosen⟩ := route
      cases chosen
      exact .receive found started
  | disconnect slot =>
      cases route
      exact .disconnect
  | unreliablePacketSend slot data env =>
      cases route
      exact .unreliablePacketSend

theorem route_legal {l : Label} {slot : Slot} {act : Activation}
    (route : w.route L l = some (some (slot, act))) : w.Legal L slot act := by
  cases routed_of_route route with
  | connectTo entry => exact ⟨rfl, (findMatchingEntry_empty entry).2.1⟩
  | @receive1st _ _ _ _ _ _ _ _ isMatching _ _ entry _ _ matched =>
      refine ⟨rfl, ?_⟩
      intro idle
      cases isMatching with
      | true =>
          have begun := matched rfl
          rw [idle] at begun
          cases begun
      | false => exact (findMatchingEntry_empty entry).2.1
  | receive2nd _ _ _ _ _ begun => exact begun
  | receive3rd _ _ _ _ _ begun => exact begun
  | newConnection => rfl
  | connected started first => exact ⟨_, started, rfl, first⟩
  | shutdownComplete isOpen => exact ⟨_, isOpen, rfl, rfl⟩
  | _ => trivial

theorem legalOn_of_legal {slot : Slot} {act : Activation} (legal : w.Legal L slot act) :
    LegalOn L (core (w.contexts slot)) act := by
  cases act with
  | connectTo => exact legal.imp_right isEmpty_iff.1
  | receive1st => exact legal.imp_right fun idle begun => isEmpty_iff.1 (idle begun)
  | receive2nd => exact legal
  | receive3rd => exact legal
  | _ => trivial

/-- A handshake activation is caused by a label that scans, and by no other. -/
theorem scans_iff_of_route {l : Label} {slot : Slot} {act : Activation}
    (route : w.route L l = some (some (slot, act))) : l.Scans ↔ act.IsHandshake := by
  cases routed_of_route route <;> exact Iff.rfl

/-- `P` holds of the activation that the label causes, if it causes one that finishes or spins. -/
def OnActivation (L : Listener) (P : World → Slot → Activation → Prop) (w : World) (l : Label) :
    Prop :=
  ∀ slot act, w.route L l = some (some (slot, act)) → ¬ w.Fails slot act → P w slot act

instance (L : Listener) (P : World → Slot → Activation → Prop)
    [∀ w slot act, Decidable (P w slot act)] (w : World) (l : Label) :
    Decidable (OnActivation L P w l) :=
  match route : w.route L l with
  | some (some (slot, act)) =>
      decidable_of_iff (¬ w.Fails slot act → P w slot act) (by simp [OnActivation, route])
  | some none => isTrue (by simp [OnActivation, route])
  | none => isTrue (by simp [OnActivation, route])

/-- A property of every next state is one of what activations leave. -/
theorem forall_step_iff {I : World → Prop} {l : Label} (holds : I w) :
    (∀ t, w.step L l = some t → I t) ↔
      OnActivation L (fun w slot act => I (w.after slot act)) w l := by
  constructor
  · intro next slot act route works
    refine next _ ?_
    simp only [step, route, Option.bind_some, works, if_false]
  · intro next t taken
    rcases step_cases taken with ⟨-, rfl⟩ | ⟨slot, act, route, works, rfl⟩
    · exact holds
    · exact next slot act route works

/-! ## The state after an activation -/

section After

variable (w)

@[simp] theorem after_contexts_self (slot : Slot) (act : Activation) :
    (w.after slot act).contexts slot = (act.run slot (w.contexts slot)).ctx :=
  Function.update_self _ _ _

@[simp] theorem after_contexts_ne {slot i : Slot} (other : i ≠ slot) (act : Activation) :
    (w.after slot act).contexts i = w.contexts i :=
  Function.update_of_ne other _ _

theorem after_history_self (slot : Slot) (act : Activation) :
    (w.after slot act).history slot =
      w.history slot ++ marks slot (act.run slot (w.contexts slot)).calls := by
  show marks slot (Function.update w.calls slot _ slot) = _
  rw [Function.update_self, marks_append, history]

@[simp] theorem after_history_ne {slot i : Slot} (other : i ≠ slot) (act : Activation) :
    (w.after slot act).history i = w.history i := by
  show marks i (Function.update w.calls slot _ i) = _
  rw [Function.update_of_ne other, history]

/-- **What a step does to the slot it works on.** -/
theorem after_effect (slot : Slot) (act : Activation) :
    ∃ noted, Effect (core (w.contexts slot)) act (core ((w.after slot act).contexts slot)) noted ∧
      (w.after slot act).history slot = w.history slot ++ noted := by
  refine ⟨_, ?_, w.after_history_self slot act⟩
  rw [after_contexts_self]
  exact run_effect slot (w.contexts slot) act

end After

/-! ## Counting connections -/

theorem countP_modify {α : Type} (p : α → Bool) (f : α → α) {l : List α} {i : Nat} {a : α}
    (present : l[i]? = some a) :
    (l.modify i f).countP p + (if p a then 1 else 0) = l.countP p + if p (f a) then 1 else 0 := by
  induction l generalizing i with
  | nil => simp at present
  | cons x l ih =>
      cases i with
      | zero =>
          obtain rfl : x = a := by simpa using present
          simp only [List.modify_zero_cons, List.countP_cons]
          omega
      | succ i =>
          have rest := ih (by simpa using present)
          simp only [List.modify_succ_cons, List.countP_cons]
          omega

theorem countP_modify_same {α : Type} {p : α → Bool} {f : α → α} (same : ∀ a, p (f a) = p a)
    (l : List α) (i : Nat) : (l.modify i f).countP p = l.countP p := by
  cases present : l[i]? with
  | none => rw [List.modify_eq_self (List.getElem?_eq_none_iff.1 present)]
  | some a =>
      have counted := countP_modify p f present
      rw [same] at counted
      omega

/-- Opening connections does not change a count of those that have had an event. -/
theorem countP_connsAfter {p : Conn → Bool} (ignores : ∀ c, p { c with replaced := true } = p c)
    (eventful : ∀ c, c.connected = false → c.closed = false → p c = false) {slot : Slot}
    {act : Activation} (notConnected : ∀ conn, act ≠ .connected conn)
    (notShutdown : ∀ conn isClient alive, act ≠ .shutdownComplete conn isClient alive) :
    (w.connsAfter slot act).countP p = w.conns.countP p := by
  unfold connsAfter
  split
  · simp [eventful]
  · rw [List.countP_append]
    split
    · simp [eventful]
    · simp [eventful, countP_modify_same ignores]
  · exact absurd rfl (notConnected _)
  · exact absurd rfl (notShutdown _ _ _)
  · rfl

theorem openConn_some {conn : Hquic} {c : Conn} :
    w.openConn conn = some c ↔ w.conns[conn]? = some c ∧ c.isOpen = true :=
  Option.filter_eq_some_iff

theorem startedConn_some {conn : Hquic} {c : Conn} :
    w.startedConn conn = some c ↔
      w.conns[conn]? = some c ∧ c.closed = false ∧ c.started = true := by
  rw [startedConn, Option.filter_eq_some_iff, openConn_some, Conn.isOpen_iff]
  exact ⟨fun ⟨⟨present, unclosed, _⟩, started⟩ => ⟨present, unclosed, started⟩,
    fun ⟨present, unclosed, started⟩ => ⟨⟨present, unclosed, .inr started⟩, started⟩⟩

/-! ## Runs -/

/-- An invariant that activations keep holds in every state of every run. -/
theorem always_of_after {I : World → Prop}
    (keeps : ∀ w slot act, I w → w.Legal L slot act → I (w.after slot act)) (labels : List Label)
    (start : I {}) : Always (step L) I {} labels := by
  refine always_of_keeps ?_ labels start
  intro w l t holds taken
  rcases step_cases taken with ⟨-, rfl⟩ | ⟨slot, act, route, -, rfl⟩
  · exact holds
  · exact keeps w slot act holds (route_legal route)

/-- An invariant that activations keep where they meet `C` holds in every state of a run whose
activations all meet `C`. -/
theorem always_of_everyActivation {I : World → Prop} {C : World → Slot → Activation → Prop}
    (keeps : ∀ w slot act, I w → w.Legal L slot act → C w slot act → I (w.after slot act))
    {labels : List Label} (start : I {})
    (every : EveryStep (step L) (OnActivation L C) {} labels) : Always (step L) I {} labels := by
  refine always_of_everyStep ?_ start every
  intro w l t holds meets taken
  rcases step_cases taken with ⟨-, rfl⟩ | ⟨slot, act, route, works, rfl⟩
  · exact holds
  · exact keeps w slot act holds (route_legal route) (meets slot act route works)

/-- The exact form: activations keep the invariant exactly where they meet `C`. -/
theorem always_iff_everyActivation {I : World → Prop} {C : World → Slot → Activation → Prop}
    (exact_ : ∀ w slot act, I w → w.Legal L slot act → (C w slot act ↔ I (w.after slot act)))
    (labels : List Label) (start : I {}) :
    Always (step L) I {} labels ↔ EveryStep (step L) (OnActivation L C) {} labels := by
  refine always_iff_everyStep ?_ labels start
  intro w l holds
  rw [forall_step_iff holds]
  exact forall₄_congr fun slot act route _ => exact_ w slot act holds (route_legal route)

/-! ## A sample peer -/

def sampleListener : Listener := ⟨1, by decide⟩

def samplePeer : Endpoint := ⟨9, 1⟩

/-- Everything opens, and the application accepts with object 7. -/
def sampleStart : StartOutcome where
  connection := true
  streams _ := true
  shouldCreate := true
  channelContext := some 7
  alive _ := true

end World

end Koisyn.Session
