/-
# Koisyn.Session.Party — a world's dealings with one peer, as a party of the exchange

`Theory.Exchange` speaks of parties that make an offer and learn another.  Here the offer is the pair
of local ports.  `Stands` ties a world's context for a peer, and the packets sent to that peer, to a
party; `stands_after` shows that every activation is a step of that party until the context is reset,
whatever else the world does.  The kind of a packet is not tagged: it is told by its zero ports, which
is right because offers have none (`PortPair`, `read_encode`).

The scans must miss no context and every bind must give a port (`Label.Undisturbed`); packets from
other addresses, connections to other peers and the events of MsQuic are not restricted.
-/
import Koisyn.Session.OnePerRemote
import Koisyn.Theory.Exchange

namespace Koisyn.Session

open Koisyn.Channel
open Koisyn.Theory.Exchange

set_option autoImplicit false

/-! ## What is sent on the sentinel's socket -/

/-- The packets of an activation on the sentinel's socket. -/
inductive Sends (ctx : Core) : Activation → QuicAddr → List UInt8 → Prop
  | connectTo {remote : Endpoint} {localServer localClient : UInt16} {now : Nat} :
      Sends ctx (.connectTo remote localServer localClient now) remote.addr
        (portBytes localServer localClient 0 0)
  | answer {remoteServer remoteClient : UInt16} {remote : Endpoint}
      {localServer localClient : UInt16} {now : Nat} (idle : ctx.handshakeBegin = none) :
      Sends ctx (.receive1st remoteServer remoteClient remote localServer (some localClient) now)
        remote.addr (portBytes localServer localClient remoteServer remoteClient)
  | reply {remoteServer remoteClient : UInt16} {remote : Endpoint} {localServer : UInt16}
      {sock : Option UInt16} {now : Nat} (begun : ctx.handshakeBegin.isSome) :
      Sends ctx (.receive1st remoteServer remoteClient remote localServer sock now) remote.addr
        (portBytes ctx.ports.localServer ctx.ports.localClient remoteServer remoteClient)
  | confirm {remoteServer remoteClient : UInt16} {remote : Endpoint} {env : StartEnv} :
      Sends ctx (.receive2nd remoteServer remoteClient remote env) remote.addr
        (portBytes 0 0 remoteServer remoteClient)
  | retry {now : Nat} :
      Sends ctx (.doCheck now) ctx.remoteSentinel
        (portBytes ctx.ports.localServer ctx.ports.localClient ctx.ports.remoteServer
          ctx.ports.remoteClient)

section Sends

variable {dest : QuicAddr} {data : List UInt8}

@[simp] theorem sends_releaseStream (strm : Option Hquic) :
    .sentinelSendTo dest data ∉ releaseStream strm := by
  simp [releaseStream]

@[simp] theorem sends_releaseConnection (conn : Option Hquic) :
    .sentinelSendTo dest data ∉ releaseConnection conn := by
  simp [releaseConnection]

@[simp] theorem sends_resetCalls (ctx : ConnectionContext) (slot : Slot) :
    .sentinelSendTo dest data ∉ ctx.resetCalls slot := by
  simp [ConnectionContext.resetCalls]

@[simp] theorem sends_challenge (remote : Endpoint) (port : UInt16) :
    .sentinelSendTo dest data ∉ challenge remote port := by
  unfold challenge
  split <;> simp

theorem sends_startClient (slot : Slot) (ctx : ConnectionContext) (remote : Endpoint)
    (env : StartEnv) : .sentinelSendTo dest data ∉ (startClient slot ctx remote env).2 := by
  have replaced : .sentinelSendTo dest data ∉ replacedCalls ctx env := by
    intro member
    obtain ⟨i, -, released⟩ := List.mem_flatMap.1 member
    split at released <;> simp at released
  have started := startClient_started slot ctx remote env
  generalize startClient slot ctx remote env = r at started ⊢
  cases started with
  | unopened => simp
  | granted | refused => simp [replaced]

theorem sends_handleReceive (slot : Slot) (alive : ObjectId → Bool) (id : Nat) (ev : ReceiveEvent)
    (ctx : ConnectionContext) :
    .sentinelSendTo dest data ∉ (handleReceive slot alive id ev ctx).calls := by
  have received := handleReceive_received slot alive id ev ctx
  generalize (handleReceive slot alive id ev ctx).ctx = after,
    (handleReceive slot alive id ev ctx).calls = calls at received ⊢
  cases received with
  | blocked => simp [ConnectionContext.resetBlockedCalls]
  | _ => simp

/-- **Every packet that an activation sends is in the list.** -/
theorem run_sends {slot : Slot} {ctx : ConnectionContext} {act : Activation}
    (sent : .sentinelSendTo dest data ∈ (act.run slot ctx).calls) :
    Sends (core ctx) act dest data := by
  cases act with
  | connectTo remote localServer localClient now =>
      simp only [Activation.run, returning, connectTo, sendPorts, List.mem_singleton,
        Call.sentinelSendTo.injEq] at sent
      obtain ⟨rfl, rfl⟩ := sent
      exact .connectTo
  | receive1st remoteServer remoteClient remote localServer sock now =>
      simp only [Activation.run, returning, receive1st] at sent
      split at sent
      · rename_i idle
        split at sent
        · exact absurd sent (sends_challenge _ _)
        · simp only [sendPorts, List.mem_append, sends_challenge, List.mem_singleton, false_or,
            Call.sentinelSendTo.injEq] at sent
          obtain ⟨rfl, rfl⟩ := sent
          exact .answer idle
      · rename_i begun
        simp only [sendPorts, List.mem_append, sends_challenge, List.mem_singleton, false_or,
          Call.sentinelSendTo.injEq] at sent
        obtain ⟨rfl, rfl⟩ := sent
        exact .reply (Option.isSome_iff_exists.2 ⟨_, begun⟩)
  | receive2nd remoteServer remoteClient remote env =>
      simp only [Activation.run, returning, receive2nd, sendPorts, List.mem_append, sends_challenge,
        List.mem_cons, sends_startClient, or_false, false_or, Call.sentinelSendTo.injEq] at sent
      obtain ⟨rfl, rfl⟩ := sent
      exact .confirm
  | receive3rd remote env => exact absurd sent (sends_startClient slot ctx remote env)
  | doCheck now =>
      simp only [Activation.run, returning] at sent
      have checked := doCheck_checked slot ctx now
      generalize doCheck slot ctx now = r at checked sent
      cases checked with
      | idle => exact absurd sent List.not_mem_nil
      | longStop => exact absurd sent (sends_resetCalls _ _)
      | shortStop => simp at sent
      | retry =>
          simp only [sendPorts, List.mem_singleton, Call.sentinelSendTo.injEq] at sent
          obtain ⟨rfl, rfl⟩ := sent
          exact .retry
  | newConnection conn configured =>
      simp [Activation.run, returning, newConnection] at sent
  | connected conn =>
      simp only [Activation.run, returning, connected] at sent
      split at sent <;> simp at sent
  | shutdownComplete conn isClient alive =>
      simp only [Activation.run, returning, shutdownComplete] at sent
      split at sent <;> cases isClient <;> simp [clearSideCalls] at sent
  | peerStreamStarted conn strm id =>
      simp only [Activation.run, peerStreamStarted] at sent
      split at sent <;> simp at sent
  | datagramStateChanged maxSendLength => exact absurd sent List.not_mem_nil
  | datagramReceived buf alive =>
      simp only [Activation.run] at sent
      have took := datagramReceived_took slot ctx buf alive
      generalize (datagramReceived slot ctx buf alive).ctx = after,
        (datagramReceived slot ctx buf alive).calls = calls at took sent
      cases took <;> simp at sent
  | receive id ev alive => exact absurd sent (sends_handleReceive slot alive id ev ctx)
  | disconnect => simp [Activation.run, returning, disconnect] at sent
  | unreliablePacketSend data env =>
      simp only [Activation.run, returning, unreliablePacketSend] at sent
      split at sent
      · simp at sent
      · split at sent
        · simp at sent
        · split at sent <;> simp at sent

end Sends

/-! ## One context as a party -/

/-- The local ports that one node reserves for the other. -/
structure PortPair where
  server : UInt16
  client : UInt16
  serves : server ≠ 0
  binds : client ≠ 0

/-- The ports of a context that has offered and learned these. -/
def portsOf (mine : PortPair) (theirs : Option PortPair) : Ports where
  remoteServer := theirs.elim 0 (·.server)
  remoteClient := theirs.elim 0 (·.client)
  localServer := mine.server
  localClient := mine.client

/-- The bytes of a packet. -/
def encode : Packet PortPair → List UInt8
  | .first mine => portBytes mine.server mine.client 0 0
  | .second mine yours => portBytes mine.server mine.client yours.server yours.client
  | .third yours => portBytes 0 0 yours.server yours.client

/-- The remote whose packet an activation handles. -/
def Activation.sender : Activation → Option Endpoint
  | .receive1st _ _ remote _ _ _ | .receive2nd _ _ remote _ | .receive3rd remote _ => some remote
  | _ => none

/-- The client port that an activation reserves is a port. -/
def Activation.Binds : Activation → Prop
  | .connectTo _ _ localClient _ => localClient ≠ 0
  | .receive1st _ _ _ _ sock _ => ∃ localClient, sock = some localClient ∧ localClient ≠ 0
  | _ => True

/-- A packet of the peer's that an activation handles is one of these. -/
def Delivered (arrives : List (Packet PortPair)) (peer : Endpoint) : Activation → Prop
  | .receive1st remoteServer remoteClient remote _ _ _ => remote = peer →
      ∃ theirs : PortPair, .first theirs ∈ arrives ∧
        remoteServer = theirs.server ∧ remoteClient = theirs.client
  | .receive2nd remoteServer remoteClient remote _ => remote = peer →
      ∃ theirs yours : PortPair, .second theirs yours ∈ arrives ∧
        remoteServer = theirs.server ∧ remoteClient = theirs.client
  | .receive3rd remote _ => remote = peer → ∃ yours, .third yours ∈ arrives
  | _ => True

theorem addr_injective : Function.Injective Endpoint.addr := by
  intro a b same
  rw [← quicAddrCompare_addr, same, quicAddrCompare_self]

/-- What is known of an activation on a context when the scans miss none. -/
structure Aimed (L : Listener) (ctx : Core) (act : Activation) : Prop where
  legal : LegalOn L ctx act
  binds : act.Binds
  sender : ∀ remote, act.sender = some remote → ctx.handshakeBegin.isSome →
    ctx.remoteSentinel = remote.addr

/-- The context is a party's, after its packets have been added to those sent before. -/
structure Embodies (ctx ctx' : Core) (act : Activation) (peer : Endpoint) (p t : Party PortPair) :
    Prop where
  isFor : ctx'.remoteSentinel = peer.addr
  ports : ∃ mine, t.offer = some mine ∧ ctx'.ports = portsOf mine t.learned
  older : p.sent ⊆ t.sent
  sends : ∀ data, Sends ctx act peer.addr data → ∃ packet ∈ t.sent, data = encode packet

section Step

variable {L : Listener} {ctx ctx' : Core} {act : Activation} {noted : List Mark}
variable {peer : Endpoint} {p : Party PortPair} {arrives : List (Packet PortPair)}

theorem of_announces {handshakeBegin : Option Nat} {remote : Endpoint}
    (announces : act.announces handshakeBegin = some remote) :
    ¬ act.IsBystander ∧ (∀ channelContext, ¬ act.Drops channelContext) ∧
      ∀ ports r, act.starts ports ≠ some r := by
  cases act with
  | connectTo => exact ⟨id, fun _ => id, fun _ _ starts => by cases starts⟩
  | receive1st => exact ⟨id, fun _ => id, fun _ _ starts => by cases starts⟩
  | _ => cases announces

/-- Where an activation sends its packets. -/
theorem Sends.dest {dest : QuicAddr} {data : List UInt8} (sends : Sends ctx act dest data)
    (aimed : Aimed L ctx act) :
    (∃ remote, act.announces ctx.handshakeBegin = some remote ∧ dest = remote.addr) ∨
      dest = ctx.remoteSentinel := by
  cases sends with
  | connectTo => exact .inl ⟨_, rfl, rfl⟩
  | answer idle => exact .inl ⟨_, by simp [Activation.announces, idle], rfl⟩
  | reply begun => exact .inr (aimed.sender _ rfl begun).symm
  | confirm => exact .inr (aimed.sender _ rfl aimed.legal).symm
  | retry => exact .inr rfl

/-- Before `StartClient` runs, its context is that of a party that starts. -/
theorem party_starts {mine : PortPair} {ports : Ports} {env : StartEnv}
    (starts : act.starts ctx.ports = some (ports, env)) (aimed : Aimed L ctx act)
    (delivered : Delivered arrives peer act) (isFor : ctx.remoteSentinel = peer.addr)
    (offered : p.offer = some mine) (isPorts : ctx.ports = portsOf mine p.learned) :
    ∃ t, p.Step arrives true t ∧ Embodies ctx { ctx with ports } act peer p t := by
  cases act with
  | receive2nd remoteServer remoteClient remote env' =>
      obtain ⟨rfl, -⟩ := Prod.mk.inj (Option.some.inj starts)
      have same : remote = peer :=
        addr_injective ((aimed.sender remote rfl aimed.legal).symm.trans isFor)
      obtain ⟨theirs, yours, arrived, rfl, rfl⟩ := delivered same
      refine ⟨_, .confirm mine theirs yours offered arrived, isFor, ⟨mine, rfl, ?_⟩,
        List.subset_cons_self _ _, ?_⟩
      · rw [isPorts]
        rfl
      · intro data sends
        generalize peer.addr = dest at sends
        cases sends
        exact ⟨_, List.mem_cons_self, rfl⟩
  | receive3rd remote env' =>
      obtain ⟨rfl, -⟩ := Prod.mk.inj (Option.some.inj starts)
      have same : remote = peer :=
        addr_injective ((aimed.sender remote rfl aimed.legal).symm.trans isFor)
      obtain ⟨yours, arrived⟩ := delivered same
      refine ⟨p, .confirmed yours (by rw [offered]; rfl) arrived, isFor, ⟨mine, offered, isPorts⟩,
        List.Subset.refl _, ?_⟩
      intro data sends
      cases sends
  | _ => cases starts

/-- **An activation on the peer's context** that does not reset it is a step of the party. -/
theorem party_step {mine : PortPair} (effect : Effect ctx act ctx' noted) (aimed : Aimed L ctx act)
    (delivered : Delivered arrives peer act) (isFor : ctx.remoteSentinel = peer.addr)
    (offered : p.offer = some mine) (isPorts : ctx.ports = portsOf mine p.learned)
    (kept : .reset ∉ noted) :
    ∃ starts t, p.Step arrives starts t ∧ Embodies ctx ctx' act peer p t := by
  have bound : ctx.ports ≠ {} := by
    rw [isPorts]
    exact fun blank => mine.serves (congrArg Ports.localServer blank)
  have idle : ctx'.ports = ctx.ports → ctx'.remoteSentinel = ctx.remoteSentinel →
      (∀ dest data, ¬ Sends ctx act dest data) →
      ∃ starts t, p.Step arrives starts t ∧ Embodies ctx ctx' act peer p t :=
    fun samePorts sameRemote silent => ⟨_, p, .idle, sameRemote.trans isFor,
      ⟨mine, offered, samePorts.trans isPorts⟩, List.Subset.refl _,
      fun data sends => absurd sends (silent _ data)⟩
  cases effect with
  | quiet bystander =>
      cases act with
      | doCheck now =>
          refine ⟨_, _, .again mine offered, isFor, ⟨mine, offered, isPorts⟩,
            List.subset_cons_self _ _, fun data sends => ⟨_, List.mem_cons_self, ?_⟩⟩
          generalize peer.addr = dest at sends
          cases sends
          rw [isPorts, Party.repeated]
          cases p.learned <;> rfl
      | connectTo => cases bystander
      | receive1st => cases bystander
      | receive2nd => cases bystander
      | receive3rd => cases bystander
      | _ => exact idle rfl rfl fun dest data sends => by cases sends
  | connectTo => exact absurd aimed.legal.2.2 bound
  | saved known =>
      rename_i remoteServer remoteClient remote localServer sock now
      obtain ⟨localClient, isBound, -⟩ := aimed.binds
      have begun : ctx.handshakeBegin.isSome := known.resolve_right (by rw [isBound]; simp)
      have same : remote = peer := addr_injective ((aimed.sender remote rfl begun).symm.trans isFor)
      obtain ⟨theirs, arrived, rfl, rfl⟩ := delivered same
      refine ⟨_, _, .reply mine theirs offered arrived, isFor, ⟨mine, rfl, ?_⟩,
        List.subset_cons_self _ _, fun data sends => ⟨_, List.mem_cons_self, ?_⟩⟩
      · rw [isPorts]
        rfl
      · generalize peer.addr = dest at sends
        cases sends with
        | answer unbegun =>
            rw [unbegun] at begun
            cases begun
        | reply =>
            rw [isPorts]
            rfl
  | answered unbegun => exact absurd (aimed.legal.2 unbegun).2 bound
  | unopened starts =>
      obtain ⟨t, step, embodies⟩ := party_starts starts aimed delivered isFor offered isPorts
      exact ⟨true, t, step, embodies⟩
  | granted starts =>
      obtain ⟨t, step, embodies⟩ := party_starts starts aimed delivered isFor offered isPorts
      exact ⟨true, t, step, embodies.isFor, embodies.ports, embodies.older, embodies.sends⟩
  | connected conn => exact idle rfl rfl fun dest data sends => by cases sends
  | closed more => exact idle rfl rfl fun dest data sends => by cases sends
  | _ => exact absurd (by simp) kept

/-- **An activation that makes a context for the peer** is the first step of the party. -/
theorem party_begins (effect : Effect ctx act ctx' noted) (aimed : Aimed L ctx act)
    (delivered : Delivered arrives peer act)
    (announces : act.announces ctx.handshakeBegin = some peer) (fresh : p.offer = none)
    (unmet : p.learned = none) :
    ∃ starts t, p.Step arrives starts t ∧ Embodies ctx ctx' act peer p t := by
  have serves : ∀ {localServer}, localServer = L.port → localServer ≠ 0 :=
    fun same => same ▸ L.bound
  cases effect with
  | connectTo remote localServer localClient now =>
      obtain rfl : remote = peer := Option.some.inj announces
      obtain ⟨rfl, -, unbound⟩ := aimed.legal
      refine ⟨_, _, .connect ⟨L.port, localClient, L.bound, aimed.binds⟩ fresh, rfl, ⟨_, rfl, ?_⟩,
        List.subset_cons_self _ _, fun data sends => ⟨_, List.mem_cons_self, ?_⟩⟩
      · rw [unbound, unmet]
        rfl
      · generalize remote.addr = dest at sends
        cases sends
        rfl
  | answered unbegun =>
      rename_i remoteServer remoteClient remote localServer localClient now
      obtain rfl : remote = peer := by simpa [Activation.announces, unbegun] using announces
      obtain ⟨theirs, arrived, rfl, rfl⟩ := delivered rfl
      obtain ⟨port, same, isBound⟩ := aimed.binds
      obtain rfl := Option.some.inj same
      refine ⟨_, _, .answer ⟨localServer, localClient, serves aimed.legal.1, isBound⟩ theirs fresh
          arrived, rfl, ⟨_, rfl, rfl⟩, List.subset_cons_self _ _,
        fun data sends => ⟨_, List.mem_cons_self, ?_⟩⟩
      generalize remote.addr = dest at sends
      cases sends with
      | answer => rfl
      | reply begun =>
          rw [unbegun] at begun
          cases begun
  | saved known =>
      obtain ⟨localClient, isBound, -⟩ := aimed.binds
      have begun : ctx.handshakeBegin.isSome := known.resolve_right (by rw [isBound]; simp)
      simp [Activation.announces, Option.isSome_iff_ne_none.1 begun] at announces
  | quiet bystander => exact absurd bystander (of_announces announces).1
  | unopened starts => exact absurd starts ((of_announces announces).2.2 _ _)
  | granted starts => exact absurd starts ((of_announces announces).2.2 _ _)
  | refused starts => exact absurd starts ((of_announces announces).2.2 _ _)
  | dropped drops => exact absurd drops ((of_announces announces).2.1 _)
  | _ => cases announces

end Step

/-! ## One world as a party -/

/-- Scans that miss no context, and sockets that bind. -/
def Label.Undisturbed : Label → Prop
  | .connectTo _ busy sock _ | .packet _ _ busy sock _ _ =>
      (∀ i, busy i = false) ∧ sock.any (· != 0) = true
  | _ => True

/-- A packet from `peer` satisfies `P`. -/
def Label.Carries (peer : Endpoint) (P : List UInt8 → Prop) : Label → Prop
  | .packet data remote _ _ _ _ => remote = peer → P data
  | _ => True

/-- What the zero ports of a packet tell of its kind. -/
theorem read_encode {packet : Packet PortPair} {ports : Ports}
    (read : convertBufferToPorts (encode packet) = some ports) :
    (knownLocalPorts ports = false → ∃ mine, packet = .first mine ∧
        ports.remoteServer = mine.server ∧ ports.remoteClient = mine.client) ∧
      (knownPeerPorts ports = true → knownLocalPorts ports = true →
        ∃ mine yours, packet = .second mine yours ∧
          ports.remoteServer = mine.server ∧ ports.remoteClient = mine.client) ∧
      (knownPeerPorts ports = false → ∃ yours, packet = .third yours) := by
  cases packet with
  | first mine =>
      rw [encode, convertBufferToPorts_portBytes, Option.some.injEq] at read
      subst read
      simp [knownLocalPorts, knownPeerPorts, mine.serves]
  | second mine yours =>
      rw [encode, convertBufferToPorts_portBytes, Option.some.injEq] at read
      subst read
      simp [knownLocalPorts, knownPeerPorts, mine.serves, yours.serves]
  | third yours =>
      rw [encode, convertBufferToPorts_portBytes, Option.some.injEq] at read
      subst read
      simp [knownLocalPorts, knownPeerPorts, yours.serves]

namespace World

variable {L : Listener} {w : World} {peer : Endpoint} {p : Party PortPair}
variable {arrives : List (Packet PortPair)} {slot : Slot} {act : Activation} {l : Label}

/-- A packet is taken for what it is. -/
theorem delivered_of_route
    (carries : l.Carries peer fun data => ∃ packet ∈ arrives, data = encode packet)
    (route : w.route L l = some (some (slot, act))) : Delivered arrives peer act := by
  cases routed_of_route route with
  | receive1st _ read _ _ noLocal =>
      intro same
      obtain ⟨packet, arrived, rfl⟩ := carries same
      obtain ⟨mine, rfl, isServer, isClient⟩ := (read_encode read).1 noLocal
      exact ⟨mine, arrived, isServer, isClient⟩
  | receive2nd _ read _ peerKnown localKnown =>
      intro same
      obtain ⟨packet, arrived, rfl⟩ := carries same
      obtain ⟨mine, yours, rfl, isServer, isClient⟩ :=
        (read_encode read).2.1 peerKnown localKnown
      exact ⟨mine, yours, arrived, isServer, isClient⟩
  | receive3rd _ read _ noPeer =>
      intro same
      obtain ⟨packet, arrived, rfl⟩ := carries same
      obtain ⟨yours, rfl⟩ := (read_encode read).2.2 noPeer
      exact ⟨yours, arrived⟩
  | _ => trivial

/-- The context in `slot` is for this peer. -/
def IsFor (w : World) (peer : Endpoint) (slot : Slot) : Prop :=
  (w.contexts slot).remoteSentinel = peer.addr

instance (w : World) (peer : Endpoint) (slot : Slot) : Decidable (w.IsFor peer slot) :=
  inferInstanceAs (Decidable (_ = _))

theorem isFor_iff (addressed : w.Addressed) :
    w.IsFor peer slot ↔ quicAddrCompare (w.contexts slot).remoteSentinel peer.addr = true := by
  constructor
  · intro isFor
    rw [isFor, quicAddrCompare_self]
  · intro same
    rcases addressed slot with blank | ⟨e, isE⟩
    · rw [blank, quicAddrCompare_blank] at same
      cases same
    · rw [isE, quicAddrCompare_addr] at same
      rw [IsFor, isE, same]

theorem sees_of_undisturbed (undisturbed : l.Undisturbed) : w.Sees l := by
  cases l with
  | connectTo parsed busy sock now =>
      intro remote _ _ _ i skipped
      rw [undisturbed.1 i] at skipped
      cases skipped
  | packet data remote busy sock now start =>
      intro _ _ _ i skipped
      rw [undisturbed.1 i] at skipped
      cases skipped
  | _ => trivial

/-- The scan found the slot of an activation with a sender for that sender. -/
theorem entry_of_sender (route : w.route L l = some (some (slot, act))) {remote : Endpoint}
    (sender : act.sender = some remote) : ∃ busy isMatching,
      findMatchingEntry w.contexts busy remote.addr = (isMatching, some slot) := by
  cases routed_of_route route with
  | receive1st _ _ entry =>
      obtain rfl := Option.some.inj sender
      exact ⟨_, _, entry⟩
  | receive2nd _ _ entry =>
      obtain rfl := Option.some.inj sender
      exact ⟨_, _, entry⟩
  | receive3rd _ _ entry =>
      obtain rfl := Option.some.inj sender
      exact ⟨_, _, entry⟩
  | _ => cases sender

theorem binds_of_route (undisturbed : l.Undisturbed)
    (route : w.route L l = some (some (slot, act))) : act.Binds := by
  cases routed_of_route route with
  | @receive1st _ _ _ sock =>
      have isBound : sock.any (· != 0) = true := undisturbed.2
      obtain ⟨localClient, reserved, nonzero⟩ := (Option.any_eq_true _ _).1 isBound
      exact ⟨localClient, reserved, by simpa using nonzero⟩
  | @connectTo _ _ localClient =>
      have nonzero : (localClient != 0) = true := undisturbed.2
      exact bne_iff_ne.1 nonzero
  | _ => trivial

theorem aimed_of_route (single : w.Single) (undisturbed : l.Undisturbed)
    (route : w.route L l = some (some (slot, act))) :
    Aimed L (core (w.contexts slot)) act where
  legal := legalOn_of_legal (route_legal route)
  binds := binds_of_route undisturbed route
  sender := by
    intro remote sender begun
    obtain ⟨busy, isMatching, entry⟩ := entry_of_sender route sender
    cases isMatching with
    | true => exact (isFor_iff single.addressed).2 (findMatchingEntry_matching entry).2
    | false =>
        have idle := single.grounded.idle_of_empty (findMatchingEntry_empty entry).2.1
        rw [core, idle] at begun
        cases begun

/-- What a world keeps of its dealings with a peer is what a party knows and has sent. -/
structure Stands (w : World) (peer : Endpoint) (p : Party PortPair) : Prop where
  known : ∀ i, w.IsFor peer i →
    ∃ mine, p.offer = some mine ∧ (w.contexts i).ports = portsOf mine p.learned
  present : p.offer.isSome → ∃ i, w.IsFor peer i
  sends : ∀ i data, .sentinelSendTo peer.addr data ∈ w.calls i →
    ∃ packet ∈ p.sent, data = encode packet

theorem stands_start (peer : Endpoint) : Stands {} peer {} where
  known i isFor := by cases isFor
  present offered := by cases offered
  sends _ _ sent := absurd sent List.not_mem_nil

/-- A packet sent so far is an old one or one that the activation sends. -/
theorem sent_after {i : Slot} {dest : QuicAddr} {data : List UInt8}
    (sent : .sentinelSendTo dest data ∈ (w.after slot act).calls i) :
    .sentinelSendTo dest data ∈ w.calls i ∨ Sends (core (w.contexts slot)) act dest data := by
  change _ ∈ Function.update w.calls slot _ i at sent
  by_cases target : i = slot
  · rw [target, Function.update_self] at sent
    rcases List.mem_append.1 sent with old | new
    · exact .inl (target ▸ old)
    · exact .inr (run_sends new)
  · rw [Function.update_of_ne target] at sent
    exact .inl sent

/-- The context that embodies the party is the only one for the peer. -/
theorem stands_of_embodies {t : Party PortPair} (stands : w.Stands peer p)
    (others : ∀ i, i ≠ slot → ¬ w.IsFor peer i)
    (embodies : Embodies (core (w.contexts slot)) (core ((w.after slot act).contexts slot)) act peer
      p t) : (w.after slot act).Stands peer t where
  known i isFor := by
    by_cases target : i = slot
    · rw [target]
      exact embodies.ports
    · rw [IsFor, after_contexts_ne _ target] at isFor
      exact absurd isFor (others i target)
  present _ := ⟨slot, embodies.isFor⟩
  sends i data sent := by
    rcases sent_after sent with old | new
    · obtain ⟨packet, member, same⟩ := stands.sends i data old
      exact ⟨packet, embodies.older member, same⟩
    · exact embodies.sends data new

/-- An activation on a context that is not for the peer, and does not get to be, is none of the party's
business. -/
theorem stands_elsewhere {noted : List Mark} (stands : w.Stands peer p)
    (effect : Effect (core (w.contexts slot)) act (core ((w.after slot act).contexts slot)) noted)
    (aimed : Aimed L (core (w.contexts slot)) act) (isFor : ¬ w.IsFor peer slot)
    (announces : act.announces (w.contexts slot).handshakeBegin ≠ some peer) :
    (w.after slot act).Stands peer p := by
  have elsewhere : ∀ remote, act.announces (w.contexts slot).handshakeBegin = some remote →
      remote.addr ≠ peer.addr := by
    rintro remote isRemote same
    rw [addr_injective same] at isRemote
    exact announces isRemote
  have after : ¬ (w.after slot act).IsFor peer slot := by
    intro isFor'
    rcases effect.remoteSentinel with ⟨remote, isRemote, announced⟩ | ⟨-, same | blank⟩
    · exact elsewhere remote isRemote (announced.symm.trans isFor')
    · exact isFor (Eq.trans same.symm isFor')
    · cases blank.symm.trans isFor'
  have silent : ∀ data, ¬ Sends (core (w.contexts slot)) act peer.addr data := by
    intro data sends
    rcases sends.dest aimed with ⟨remote, isRemote, same⟩ | same
    · exact elsewhere remote isRemote same.symm
    · exact isFor same.symm
  have isFor_after : ∀ i, (w.after slot act).IsFor peer i → i ≠ slot ∧ w.IsFor peer i := by
    intro i isOther
    by_cases target : i = slot
    · exact absurd (target ▸ isOther) after
    · rw [IsFor, after_contexts_ne _ target] at isOther
      exact ⟨target, isOther⟩
  refine ⟨?_, ?_, ?_⟩
  · intro i isOther
    obtain ⟨other, before⟩ := isFor_after i isOther
    rw [after_contexts_ne _ other]
    exact stands.known i before
  · intro offered
    obtain ⟨i, before⟩ := stands.present offered
    have other : i ≠ slot := fun same => isFor (same ▸ before)
    exact ⟨i, by rw [IsFor, after_contexts_ne _ other]; exact before⟩
  · intro i data sent
    exact stands.sends i data ((sent_after sent).resolve_right (silent data))

/-- **Every activation is a step of the party**, unless it resets the peer's context. -/
theorem stands_after (single : w.Single) (stands : w.Stands peer p)
    (unmet : p.offer = none → p.learned = none) (undisturbed : l.Undisturbed)
    (delivered : Delivered arrives peer act) (route : w.route L l = some (some (slot, act)))
    (kept : w.IsFor peer slot → (w.after slot act).use slot = w.use slot) :
    ∃ starts t, p.Step arrives starts t ∧ (w.after slot act).Stands peer t := by
  obtain ⟨noted, effect, history⟩ := w.after_effect slot act
  have aimed := aimed_of_route single undisturbed route
  by_cases isFor : w.IsFor peer slot
  · have unreset : .reset ∉ noted := by
      have same := kept isFor
      rw [use_after_self history] at same
      exact List.count_eq_zero.1 (by omega)
    obtain ⟨mine, offered, ports⟩ := stands.known slot isFor
    obtain ⟨starts, t, step, embodies⟩ :=
      party_step effect aimed delivered isFor offered ports unreset
    refine ⟨starts, t, step, stands_of_embodies stands (fun i other isOther => other ?_) embodies⟩
    exact single.one.unique single.addressed ((isFor_iff single.addressed).1 isOther)
      ((isFor_iff single.addressed).1 isFor)
  · by_cases announces : act.announces (w.contexts slot).handshakeBegin = some peer
    · have none_ : ∀ i, ¬ w.IsFor peer i := by
        intro i isOther
        rw [isFor_iff single.addressed,
          sees_of_route (sees_of_undisturbed undisturbed) route announces i] at isOther
        cases isOther
      have fresh : p.offer = none := by
        by_contra offered
        obtain ⟨i, isOther⟩ := stands.present (Option.isSome_iff_ne_none.2 offered)
        exact none_ i isOther
      obtain ⟨starts, t, step, embodies⟩ :=
        party_begins effect aimed delivered announces fresh (unmet fresh)
      exact ⟨starts, t, step, stands_of_embodies stands (fun i _ => none_ i) embodies⟩
    · exact ⟨false, p, .idle, stands_elsewhere stands effect aimed isFor announces⟩

/-- Where `StartClient` runs for the peer, the party starts. -/
theorem starts_of_stands (single : w.Single) (stands : w.Stands peer p)
    (undisturbed : l.Undisturbed) (delivered : Delivered arrives peer act)
    (route : w.route L l = some (some (slot, act))) (isFor : w.IsFor peer slot) {ports : Ports}
    (ran : .startClient slot ports ∈ (act.run slot (w.contexts slot)).calls) :
    ∃ t mine, p.Step arrives true t ∧ t.offer = some mine ∧ ports = portsOf mine t.learned := by
  obtain ⟨mine, offered, isPorts⟩ := stands.known slot isFor
  have noted : .started ports ∈ marks slot (act.run slot (w.contexts slot)).calls :=
    mem_marks ran (by simp [markOf])
  obtain ⟨env, starts⟩ := (run_effect slot (w.contexts slot) act).starts_of_started noted
  obtain ⟨t, step, embodies⟩ := party_starts starts (aimed_of_route single undisturbed route)
    delivered isFor offered isPorts
  obtain ⟨mine, isOffer, same⟩ := embodies.ports
  exact ⟨t, mine, step, isOffer, same⟩

end World

end Koisyn.Session
