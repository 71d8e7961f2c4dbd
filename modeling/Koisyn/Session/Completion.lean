/-
# Koisyn.Session.Completion — a handshake can always be completed

The network may have lost any of the packets of two nodes, and either may be at any point of the
exchange.  `handshake_completes`: as long as a node is handshaking with the other, and the other is too or
has a free context, one retry and at most three deliveries bring both to `StartClient`, with each other's
ports, whatever happened before.  A retry sends the first packet while nothing has been heard of the peer
and the second afterwards, so it always carries on from where the exchange stands.

Once both have let go of each other, one of them has to connect again: `nodes_connect`.
-/
import Koisyn.Session.PortAgreement

namespace Koisyn.Session

open Koisyn.Channel
open Koisyn.Theory.Run
open Koisyn.Theory.Exchange

set_option autoImplicit false

/-- The application accepts a connection that is opened. -/
structure StartOutcome.Accepts (start : StartOutcome) : Prop where
  shouldCreate : start.shouldCreate = true
  alive : (lockChannelContext start.alive start.channelContext).isSome = true

/-- A check at this time sends the packet of the handshake again. -/
def Resends (ctx : ConnectionContext) (now : Nat) : Prop :=
  ∃ since, ctx.handshakeBegin = some since ∧ retryTimeout - milliseconds 2 ≤ now - since ∧
    ¬ longStops (now - since) ∧ ¬ shortStops ctx.ports (now - since)

/-- A packet is delivered while no context is locked, and a bind gives the port. -/
def deliver (remote : Endpoint) (packet : Packet PortPair) (port : UInt16) (now : Nat)
    (start : StartOutcome) : Label :=
  .packet (encode packet) remote (fun _ => false) (some port) now start

namespace World

variable {w : World} {L : Listener} {peer : Endpoint} {slot : Slot} {packet : Packet PortPair}
variable {port : UInt16} {now : Nat} {start : StartOutcome}

/-! ## The scan -/

theorem entry_of_isFor (single : w.Single) (isFor : w.IsFor peer slot) :
    findMatchingEntry w.contexts (fun _ => false) peer.addr = (true, some slot) := by
  have matches_ := (isFor_iff single.addressed).1 isFor
  rw [findMatchingEntry_eq]
  split
  · rename_i i first
    have same := List.find?_some first
    simp only [Bool.not_false, Bool.true_and] at same
    rw [single.one.unique single.addressed same matches_]
  · rename_i unmatched
    have differ := List.find?_eq_none.1 unmatched slot (List.mem_finRange slot)
    simp [matches_] at differ

theorem entry_of_stranger (single : w.Single) (stranger : ∀ i, ¬ w.IsFor peer i)
    (room : ∃ i, isEmpty (w.contexts i) = true) :
    ∃ i, findMatchingEntry w.contexts (fun _ => false) peer.addr = (false, some i) ∧
      isEmpty (w.contexts i) = true := by
  obtain ⟨i, empty⟩ := room
  have unmatched : (List.finRange maxConnections).find? (fun i => !false &&
      quicAddrCompare (w.contexts i).remoteSentinel peer.addr) = none := by
    refine List.find?_eq_none.2 fun j _ same => stranger j ?_
    exact (isFor_iff single.addressed).2 (by simpa using same)
  have found : ((List.finRange maxConnections).find? fun i => !false && isEmpty (w.contexts i)).isSome :=
    List.find?_isSome.2 ⟨i, List.mem_finRange i, by simp [empty]⟩
  obtain ⟨j, first⟩ := Option.isSome_iff_exists.1 found
  refine ⟨j, ?_, by simpa using List.find?_some first⟩
  rw [findMatchingEntry_eq, unmatched, first]

/-! ## The packets -/

/-- The activation that a packet causes. -/
def handling (w : World) (L : Listener) (remote : Endpoint) (port : UInt16) (now : Nat)
    (start : StartOutcome) : Packet PortPair → Activation
  | .first theirs => .receive1st theirs.server theirs.client remote L.port (some port) now
  | .second theirs _ => .receive2nd theirs.server theirs.client remote (w.startEnv start)
  | .third _ => .receive3rd remote (w.startEnv start)

/-- A packet is handled by the peer's context while that is handshaking. -/
theorem route_deliver (entry : findMatchingEntry w.contexts (fun _ => false) peer.addr = (true, some slot))
    (begun : (w.contexts slot).handshakeBegin.isSome = true) :
    w.route L (deliver peer packet port now start) =
      some (some (slot, w.handling L peer port now start packet)) := by
  have handshaking : (w.contexts slot).handshakeBegin.isNone = false := by
    simpa using begun
  cases packet with
  | first mine =>
      have known : knownPeerPorts ⟨mine.server, mine.client, 0, 0⟩ = true := by
        simp [knownPeerPorts, mine.serves]
      have unknown : knownLocalPorts ⟨mine.server, mine.client, 0, 0⟩ = false := by
        simp [knownLocalPorts]
      simp [deliver, World.route, consumeRawUdpData, encode, convertBufferToPorts_portBytes, entry,
        known, unknown, handshaking, handling]
  | second mine yours =>
      have known : knownPeerPorts ⟨mine.server, mine.client, yours.server, yours.client⟩ = true := by
        simp [knownPeerPorts, mine.serves]
      have echoed : knownLocalPorts ⟨mine.server, mine.client, yours.server, yours.client⟩ = true := by
        simp [knownLocalPorts, yours.serves]
      simp [deliver, World.route, consumeRawUdpData, encode, convertBufferToPorts_portBytes, entry,
        known, echoed, handshaking, handling]
  | third yours =>
      have unknown : knownPeerPorts ⟨0, 0, yours.server, yours.client⟩ = false := by
        simp [knownPeerPorts]
      have echoed : knownLocalPorts ⟨0, 0, yours.server, yours.client⟩ = true := by
        simp [knownLocalPorts, yours.serves]
      simp [deliver, World.route, consumeRawUdpData, encode, convertBufferToPorts_portBytes, entry,
        unknown, echoed, handshaking, handling]

/-- A first packet of a stranger is handled by a free context. -/
theorem route_stranger {theirs : PortPair}
    (entry : findMatchingEntry w.contexts (fun _ => false) peer.addr = (false, some slot)) :
    w.route L (deliver peer (.first theirs) port now start) =
      some (some (slot, w.handling L peer port now start (.first theirs))) := by
  have known : knownPeerPorts ⟨theirs.server, theirs.client, 0, 0⟩ = true := by
    simp [knownPeerPorts, theirs.serves]
  have unknown : knownLocalPorts ⟨theirs.server, theirs.client, 0, 0⟩ = false := by
    simp [knownLocalPorts]
  simp [deliver, World.route, consumeRawUdpData, encode, convertBufferToPorts_portBytes, entry,
    known, unknown, handling]

/-! ## What the packets do -/

/-- The context for the peer is still handshaking, with these ports, and nothing has been reset. -/
structure GoesOn (w t : World) (peer : Endpoint) (slot : Slot) (ports : Ports) : Prop where
  isFor : t.IsFor peer slot
  begun : (t.contexts slot).handshakeBegin.isSome = true
  ports : (t.contexts slot).ports = ports
  uses : ∀ i, t.use i = w.use i

/-- An activation of the handshake that returns and resets nothing leaves the handshake going. -/
theorem goesOn_after {act : Activation} {ports : Ports} (handshake : act.IsHandshake ∨ ∃ now, act = .doCheck now)
    (unreset : .reset ∉ marks slot (act.run slot (w.contexts slot)).calls)
    (isFor : (act.run slot (w.contexts slot)).ctx.remoteSentinel = peer.addr)
    (begun : (act.run slot (w.contexts slot)).ctx.handshakeBegin.isSome = true)
    (isPorts : (act.run slot (w.contexts slot)).ctx.ports = ports) :
    ¬ w.Fails slot act ∧ w.GoesOn (w.after slot act) peer slot ports := by
  have returns : (act.run slot (w.contexts slot)).exit = .returned .success ∧ channelOf act = none := by
    cases act with
    | connectTo => exact ⟨rfl, rfl⟩
    | receive1st => exact ⟨rfl, rfl⟩
    | receive2nd => exact ⟨rfl, rfl⟩
    | receive3rd => exact ⟨rfl, rfl⟩
    | doCheck => exact ⟨rfl, rfl⟩
    | _ =>
        rcases handshake with handshake | same
        · cases handshake
        · obtain ⟨_, same⟩ := same
          cases same
  refine ⟨not_fails returns.1 unreset returns.2, ?_, ?_, ?_, ?_⟩
  · rw [IsFor, after_contexts_self]
    exact isFor
  · rw [after_contexts_self]
    exact begun
  · rw [after_contexts_self]
    exact isPorts
  · intro i
    by_cases here : i = slot
    · subst here
      rw [use_after_self (w.after_history_self i act), List.count_eq_zero.2 unreset, Nat.add_zero]
    · exact use_after_ne here act

/-- A call of an activation is on record. -/
theorem called_after {act : Activation} {call : Call}
    (member : call ∈ (act.run slot (w.contexts slot)).calls) : call ∈ (w.after slot act).calls slot := by
  show call ∈ Function.update w.calls slot _ slot
  rw [Function.update_self]
  exact List.mem_append_right _ member

/-- The step runs `StartClient` on these ports, with what it is answered now. -/
def Starts (w t : World) (slot : Slot) (ports : Ports) (start : StartOutcome) : Prop :=
  ∃ act, t = w.after slot act ∧ act.starts (w.contexts slot).ports = some (ports, w.startEnv start)

theorem Starts.on_record {t : World} {ports : Ports} (starts : w.Starts t slot ports start) :
    .started ports ∈ t.history slot := by
  obtain ⟨act, rfl, starts⟩ := starts
  obtain ⟨noted, effect, history⟩ := w.after_effect slot act
  rw [history]
  exact List.mem_append_right _ (effect.started_of_starts starts)

/-- The step gives a free context to a peer, opens nothing in it and leaves the others alone. -/
structure Allots (w t : World) (slot : Slot) : Prop where
  empty : isEmpty (w.contexts slot) = true
  others : ∀ i, i ≠ slot → t.contexts i = w.contexts i
  refCount : (t.contexts slot).refCount = (w.contexts slot).refCount
  self : (t.contexts slot).unreliable.self = (w.contexts slot).unreliable.self

theorem allots_after {act : Activation} (empty : isEmpty (w.contexts slot) = true)
    (refCount : (act.run slot (w.contexts slot)).ctx.refCount = (w.contexts slot).refCount)
    (self : (act.run slot (w.contexts slot)).ctx.unreliable.self = (w.contexts slot).unreliable.self) :
    w.Allots (w.after slot act) slot := by
  refine ⟨empty, fun i other => w.after_contexts_ne other act, ?_, ?_⟩
  · rw [after_contexts_self]
    exact refCount
  · rw [after_contexts_self]
    exact self

section Reactions

variable (L) (port) (now) (start) (theirs yours : PortPair)
variable {mine : PortPair} {learned : Option PortPair}

/-- A first packet of the peer's is answered. -/
theorem first_answered (isFor : w.IsFor peer slot)
    (begun : (w.contexts slot).handshakeBegin.isSome = true)
    (ports : (w.contexts slot).ports = portsOf mine learned) :
    let act := w.handling L peer port now start (.first theirs)
    (¬ w.Fails slot act ∧ w.GoesOn (w.after slot act) peer slot (portsOf mine (some theirs))) ∧
      .sentinelSendTo peer.addr (encode (.second mine theirs)) ∈ (w.after slot act).calls slot := by
  intro act
  obtain ⟨since, isBegun⟩ := Option.isSome_iff_exists.1 begun
  have run : (act.run slot (w.contexts slot)).ctx.remoteSentinel = (w.contexts slot).remoteSentinel ∧
      (act.run slot (w.contexts slot)).ctx.handshakeBegin = some since ∧
      (act.run slot (w.contexts slot)).ctx.ports = portsOf mine (some theirs) ∧
      (act.run slot (w.contexts slot)).calls = challenge peer theirs.client ++
        [sendPorts peer.addr mine.server mine.client theirs.server theirs.client] := by
    simp [act, handling, Activation.run, returning, receive1st, isBegun, ports, portsOf]
  obtain ⟨same, still, learns, calls⟩ := run
  refine ⟨goesOn_after (.inl trivial) ?_ (same.trans isFor) (by rw [still]; rfl) learns,
    called_after ?_⟩
  · rw [calls]
    simp [sendPorts, markOf]
  · rw [calls]
    exact List.mem_append_right _ List.mem_cons_self

variable (peer) in
/-- A first packet of a stranger's gets a context, and is answered with its ports. -/
theorem stranger_answered (empty : isEmpty (w.contexts slot) = true)
    (idle : (w.contexts slot).handshakeBegin = none) (bound : port ≠ 0) :
    let act := w.handling L peer port now start (.first theirs)
    let mine : PortPair := ⟨L.port, port, L.bound, bound⟩
    (¬ w.Fails slot act ∧ w.GoesOn (w.after slot act) peer slot (portsOf mine (some theirs))) ∧
      .sentinelSendTo peer.addr (encode (.second mine theirs)) ∈ (w.after slot act).calls slot ∧
      w.Allots (w.after slot act) slot := by
  intro act mine
  have run : act.run slot (w.contexts slot) =
      returning ({ w.contexts slot with
          ports := portsOf mine (some theirs), handshakeBegin := some now, transient := some port
          remoteSentinel := peer.addr },
        challenge peer theirs.client ++
          [sendPorts peer.addr mine.server mine.client theirs.server theirs.client]) := by
    simp [act, mine, handling, Activation.run, receive1st, idle, portsOf]
  refine ⟨goesOn_after (.inl trivial) ?_ ?_ ?_ ?_, called_after ?_, allots_after empty ?_ ?_⟩ <;>
    rw [run]
  · simp [returning, sendPorts, markOf]
  · rfl
  · rfl
  · rfl
  · exact List.mem_append_right _ List.mem_cons_self
  · rfl
  · rfl

variable (peer) in
/-- A connection to a stranger begins a handshake, with a first packet. -/
theorem connect_begun (empty : isEmpty (w.contexts slot) = true) (bound : port ≠ 0) :
    let act := Activation.connectTo peer L.port port now
    let mine : PortPair := ⟨L.port, port, L.bound, bound⟩
    (¬ w.Fails slot act ∧ w.GoesOn (w.after slot act) peer slot (portsOf mine none)) ∧
      .sentinelSendTo peer.addr (encode (.first mine)) ∈ (w.after slot act).calls slot ∧
      w.Allots (w.after slot act) slot := by
  intro act mine
  have calls : (act.run slot (w.contexts slot)).calls =
      [sendPorts peer.addr mine.server mine.client 0 0] := rfl
  have unbound : (w.contexts slot).ports = {} := (isEmpty_iff.1 empty).2
  refine ⟨goesOn_after (.inl trivial) ?_ rfl rfl ?_, called_after ?_, allots_after empty rfl rfl⟩
  · rw [calls]
    simp [sendPorts, markOf]
  · show ({ (w.contexts slot).ports with localServer := L.port, localClient := port } : Ports) = _
    rw [unbound]
    rfl
  · rw [calls]
    exact List.mem_cons_self

variable {start} in
/-- A `StartClient` that the application accepts keeps the context handshaking. -/
theorem startClient_keeps (accepts : start.Accepts) (w : World) (slot : Slot)
    (ctx : ConnectionContext) (remote : Endpoint) :
    let r := startClient slot ctx remote (w.startEnv start)
    (r.1.remoteSentinel = ctx.remoteSentinel ∧ r.1.handshakeBegin = ctx.handshakeBegin ∧
      r.1.ports = ctx.ports) ∧ .reset ∉ marks slot r.2 := by
  have granted : (w.startEnv start).granted = true := by
    simp [StartEnv.granted, startEnv, accepts.shouldCreate, accepts.alive]
  have started := startClient_started slot ctx remote (w.startEnv start)
  generalize startClient slot ctx remote (w.startEnv start) = r at started ⊢
  cases started with
  | unopened => exact ⟨⟨rfl, rfl, rfl⟩, by simp [markOf]⟩
  | granted =>
      refine ⟨⟨rfl, rfl, rfl⟩, ?_⟩
      simp [markOf]
  | refused _ _ _ refused =>
      rw [granted] at refused
      cases refused

variable {start} in
/-- A second packet of the peer's starts our client, and is confirmed. -/
theorem second_confirmed (accepts : start.Accepts) (isFor : w.IsFor peer slot)
    (begun : (w.contexts slot).handshakeBegin.isSome = true)
    (ports : (w.contexts slot).ports = portsOf mine learned) :
    let act := w.handling L peer port now start (.second theirs yours)
    (¬ w.Fails slot act ∧ w.GoesOn (w.after slot act) peer slot (portsOf mine (some theirs))) ∧
      .sentinelSendTo peer.addr (encode (.third theirs)) ∈ (w.after slot act).calls slot ∧
      w.Starts (w.after slot act) slot (portsOf mine (some theirs)) start := by
  intro act
  let saved : ConnectionContext := { w.contexts slot with
    ports := { (w.contexts slot).ports with
      remoteServer := theirs.server, remoteClient := theirs.client } }
  have isSaved : saved.ports = portsOf mine (some theirs) := by
    simp [saved, ports, portsOf]
  obtain ⟨⟨same, still, learns⟩, unreset⟩ := startClient_keeps accepts w slot saved peer
  have starts : act.starts (w.contexts slot).ports = some (saved.ports, w.startEnv start) := rfl
  have calls : (act.run slot (w.contexts slot)).calls = challenge peer theirs.client ++
      sendPorts peer.addr 0 0 theirs.server theirs.client ::
        (startClient slot saved peer (w.startEnv start)).2 := rfl
  have ctx : (act.run slot (w.contexts slot)).ctx =
      (startClient slot saved peer (w.startEnv start)).1 := rfl
  refine ⟨goesOn_after (.inl trivial) ?_ ?_ ?_ ?_, called_after ?_, act, rfl, ?_⟩
  · rw [calls, marks_append, marks_cons, marks_challenge]
    simpa [sendPorts, markOf] using unreset
  · rw [ctx, same]
    exact isFor
  · rw [ctx, still]
    exact begun
  · rw [ctx, learns, isSaved]
  · rw [calls]
    exact List.mem_append_right _ List.mem_cons_self
  · rw [starts, isSaved]

variable {start} in
/-- A third packet of the peer's starts our client. -/
theorem third_starts (accepts : start.Accepts) (isFor : w.IsFor peer slot)
    (begun : (w.contexts slot).handshakeBegin.isSome = true) :
    let act := w.handling L peer port now start (.third yours)
    (¬ w.Fails slot act ∧ w.GoesOn (w.after slot act) peer slot (w.contexts slot).ports) ∧
      w.Starts (w.after slot act) slot (w.contexts slot).ports start := by
  intro act
  obtain ⟨⟨same, still, keeps⟩, unreset⟩ :=
    startClient_keeps accepts w slot (w.contexts slot) peer
  have calls : (act.run slot (w.contexts slot)).calls =
      (startClient slot (w.contexts slot) peer (w.startEnv start)).2 := rfl
  have ctx : (act.run slot (w.contexts slot)).ctx =
      (startClient slot (w.contexts slot) peer (w.startEnv start)).1 := rfl
  refine ⟨goesOn_after (.inl trivial) ?_ ?_ ?_ ?_, act, rfl, rfl⟩
  · rw [calls]
    exact unreset
  · rw [ctx, same]
    exact isFor
  · rw [ctx, still]
    exact begun
  · rw [ctx, keeps]

variable {now} in
/-- A handshake whose packet is due sends it again. -/
theorem retried (isFor : w.IsFor peer slot) (resends : Resends (w.contexts slot) now)
    (ports : (w.contexts slot).ports = portsOf mine learned) :
    let act := Activation.doCheck now
    (¬ w.Fails slot act ∧ w.GoesOn (w.after slot act) peer slot (portsOf mine learned)) ∧
      .sentinelSendTo peer.addr (encode (Party.repeated ⟨some mine, learned, []⟩ mine)) ∈
        (w.after slot act).calls slot := by
  intro act
  obtain ⟨since, begun, isDue, notLong, notShort⟩ := resends
  have run : act.run slot (w.contexts slot) = returning (w.contexts slot,
      [sendPorts (w.contexts slot).remoteSentinel (w.contexts slot).ports.localServer
        (w.contexts slot).ports.localClient (w.contexts slot).ports.remoteServer
        (w.contexts slot).ports.remoteClient]) := by
    show returning (doCheck slot (w.contexts slot) now) = _
    simp only [doCheck, begun, Nat.not_lt.2 isDue, notLong, notShort, if_false]
  refine ⟨goesOn_after (.inr ⟨_, rfl⟩) ?_ ?_ ?_ ?_, called_after ?_⟩
  · rw [run]
    simp [returning, sendPorts, markOf]
  · rw [run]
    exact isFor
  · rw [run]
    show (w.contexts slot).handshakeBegin.isSome = true
    rw [begun]
    rfl
  · rw [run]
    exact ports
  · rw [run]
    have same : (w.contexts slot).remoteSentinel = peer.addr := isFor
    refine List.mem_singleton.2 ?_
    rw [sendPorts, same, ports]
    cases learned <;> rfl

end Reactions

end World

/-! ## Two nodes -/

namespace Nodes

/-- The node's context for the other one is handshaking, with these ports. -/
structure Engaged (net : Network) (s : Nodes) (side : Side) (slot : Slot) (ports : Ports) :
    Prop where
  isFor : (s.world side).IsFor (net.endpoint side.other) slot
  begun : ((s.world side).contexts slot).handshakeBegin.isSome = true
  ports : ((s.world side).contexts slot).ports = ports

/-- The node has no context for the other one, and a free one. -/
def Apart (net : Network) (s : Nodes) (side : Side) : Prop :=
  (∀ i, ¬ (s.world side).IsFor (net.endpoint side.other) i) ∧
    ∃ i, isEmpty ((s.world side).contexts i) = true

instance (net : Network) (s : Nodes) (side : Side) : Decidable (s.Apart net side) :=
  inferInstanceAs (Decidable (_ ∧ _))

/-- The node is handshaking with the other one, or can begin to. -/
def Opens (net : Network) (s : Nodes) (side : Side) : Prop :=
  (∃ slot ports, s.Engaged net side slot ports) ∨ s.Apart net side

/-- Both nodes have started their client, each on its own ports and those of the other. -/
def Completed (net : Network) (s : Nodes) : Prop :=
  ∃ ports : Side → PortPair, ∀ side, ∃ slot,
    s.Engaged net side slot (portsOf (ports side) (some (ports side.other))) ∧
      .started (portsOf (ports side) (some (ports side.other))) ∈ (s.world side).history slot

/-- The node's `StartClient` has run for the other one, on these ports. -/
structure Started (net : Network) (s t : Nodes) (start : Side → StartOutcome) (side : Side)
    (slot : Slot) (mine yours : PortPair) : Prop where
  engaged : t.Engaged net side slot (portsOf mine (some yours))
  starts : (s.world side).Starts (t.world side) slot (portsOf mine (some yours)) (start side)

/-- What a step of one node that resets nothing leaves. -/
structure Moved (net : Network) (s t : Nodes) (side : Side) (slot : Slot) (ports : Ports) :
    Prop where
  reset : t.reset = s.reset
  engaged : t.Engaged net side slot ports
  rest : t.world side.other = s.world side.other
  sound : t.Sound net

variable {net : Network} {s t : Nodes} {side : Side} {slot j : Slot} {ports : Ports} {now : Nat}
variable {port : Side → UInt16} {start : Side → StartOutcome}

/-- What one node does does not touch the contexts of the other. -/
theorem Moved.other (moved : s.Moved net t side slot ports) {more : Ports}
    (engaged : s.Engaged net side.other j more) : t.Engaged net side.other j more := by
  obtain ⟨isFor, begun, isPorts⟩ := engaged
  rw [← moved.rest] at isFor begun isPorts
  exact ⟨isFor, begun, isPorts⟩

/-- A handshake's activation that returns is a step of the two nodes. -/
theorem step_of_goesOn (sound : s.Sound net) {l : Label}
    {act : Activation} (permitted : s.Permitted net side l)
    (route : (s.world side).route (net.listener side) l = some (some (slot, act)))
    (goes : ¬ (s.world side).Fails slot act ∧ (s.world side).GoesOn ((s.world side).after slot act)
      (net.endpoint side.other) slot ports) :
    ∃ t, s.step net (side, l) = some t ∧ s.Moved net t side slot ports ∧
      t.world side = (s.world side).after slot act := by
  obtain ⟨returns, goesOn⟩ := goes
  have keeps : resets (net.endpoint side.other) (s.world side)
      ((s.world side).after slot act) = false := by
    refine decide_eq_false ?_
    rintro ⟨i, -, differs⟩
    exact differs (goesOn.uses i)
  have taken : s.step net (side, l) = some
      { world := Function.update s.world side ((s.world side).after slot act)
        reset := s.reset || resets (net.endpoint side.other) (s.world side)
          ((s.world side).after slot act) } := by
    simp only [step, if_pos permitted, World.step, route, Option.bind_some, if_neg returns,
      Option.map_some]
  have here : Function.update s.world side ((s.world side).after slot act) side =
      (s.world side).after slot act := Function.update_self _ _ _
  refine ⟨_, taken, ⟨?_, ⟨?_, ?_, ?_⟩, ?_, sound_step sound taken⟩, here⟩
  · show (s.reset || _) = s.reset
    rw [keeps, Bool.or_false]
  · show (Function.update s.world side _ side).IsFor _ slot
    rw [here]
    exact goesOn.isFor
  · show ((Function.update s.world side _ side).contexts slot).handshakeBegin.isSome = true
    rw [here]
    exact goesOn.begun
  · show ((Function.update s.world side _ side).contexts slot).ports = ports
    rw [here]
    exact goesOn.ports
  · exact Function.update_of_ne (other_ne side) _ _

/-- The other node's packet is delivered. -/
def delivery (net : Network) (port : Side → UInt16) (now : Nat) (start : Side → StartOutcome)
    (side : Side) (packet : Packet PortPair) : Side × Label :=
  (side, deliver (net.endpoint side.other) packet (port side) now (start side))

theorem permitted_delivery (now : Nat) (start : Side → StartOutcome) (bound : ∀ i, port i ≠ 0)
    {packet : Packet PortPair}
    (sent : s.Sent net side.other (encode packet)) :
    s.Permitted net side (delivery net port now start side packet).2 := by
  refine ⟨⟨fun _ => rfl, ?_⟩, fun _ => sent⟩
  simpa using bound side

/-- The ports of a handshake that the node begins. -/
def offer (net : Network) (port : Side → UInt16) (bound : ∀ i, port i ≠ 0) (side : Side) : PortPair :=
  ⟨(net.listener side).port, port side, (net.listener side).bound, bound side⟩

/-- The node connects to the other one. -/
def connection (net : Network) (port : Side → UInt16) (now : Nat) (side : Side) : Side × Label :=
  (side, .connectTo (some (net.endpoint side.other)) (fun _ => false) (some (port side)) now)

section Steps

variable (now) {mine theirs yours : PortPair} {learned : Option PortPair}

variable {now} in
theorem retry_step (sound : s.Sound net)
    (engaged : s.Engaged net side slot (portsOf mine learned))
    (resends : Resends ((s.world side).contexts slot) now) :
    ∃ t, s.step net (side, .doCheck slot now) = some t ∧
      s.Moved net t side slot (portsOf mine learned) ∧
      t.Sent net side (encode (Party.repeated ⟨some mine, learned, []⟩ mine)) := by
  obtain ⟨goes, sends⟩ := World.retried engaged.isFor resends engaged.ports
  obtain ⟨t, taken, moved, here⟩ := step_of_goesOn sound (l := .doCheck slot now)
    ⟨trivial, trivial⟩ rfl goes
  refine ⟨t, taken, moved, slot, ?_⟩
  rw [here]
  exact sends

theorem connect_step (sound : s.Sound net) (apart : s.Apart net side) (bound : ∀ i, port i ≠ 0) :
    ∃ t slot, s.step net (connection net port now side) = some t ∧
      s.Moved net t side slot (portsOf (offer net port bound side) none) ∧
      t.Sent net side (encode (.first (offer net port bound side))) ∧
      (s.world side).Allots (t.world side) slot := by
  obtain ⟨slot, entry, empty⟩ := World.entry_of_stranger (sound.single side) apart.1 apart.2
  obtain ⟨goes, sends, allots⟩ := World.connect_begun (net.listener side) (net.endpoint side.other)
    (port side) now empty (bound side)
  have permitted : s.Permitted net side (connection net port now side).2 :=
    ⟨⟨fun _ => rfl, by simpa using bound side⟩, trivial⟩
  have route : (s.world side).route (net.listener side) (connection net port now side).2 =
      some (some (slot,
        .connectTo (net.endpoint side.other) (net.listener side).port (port side) now)) := by
    simp [connection, World.route, entry]
  obtain ⟨t, taken, moved, here⟩ := step_of_goesOn sound permitted route goes
  refine ⟨t, slot, taken, moved, ⟨slot, ?_⟩, ?_⟩
  · rw [here]
    exact sends
  · rw [here]
    exact allots

variable (start) in
/-- A node that has no context for the other answers its first packet. -/
theorem first_step_of_apart (sound : s.Sound net) (bound : ∀ i, port i ≠ 0)
    (apart : s.Apart net side) (sent : s.Sent net side.other (encode (.first theirs))) :
    ∃ t slot, s.step net (delivery net port now start side (.first theirs)) = some t ∧
      s.Moved net t side slot (portsOf (offer net port bound side) (some theirs)) ∧
      t.Sent net side (encode (.second (offer net port bound side) theirs)) ∧
      (s.world side).Allots (t.world side) slot := by
  have permitted := permitted_delivery now start bound sent
  obtain ⟨slot, entry, empty⟩ := World.entry_of_stranger (sound.single side) apart.1 apart.2
  have idle := (sound.single side).grounded.idle_of_empty empty
  obtain ⟨goes, sends, allots⟩ := World.stranger_answered (net.listener side)
    (net.endpoint side.other) (port side) now (start side) theirs empty idle (bound side)
  obtain ⟨t, taken, moved, here⟩ := step_of_goesOn sound permitted (World.route_stranger entry) goes
  refine ⟨t, slot, taken, moved, ⟨slot, ?_⟩, ?_⟩
  · rw [here]
    exact sends
  · rw [here]
    exact allots

variable (start) in
theorem first_step (sound : s.Sound net) (unreset : s.reset = false) (bound : ∀ i, port i ≠ 0)
    (opens : s.Opens net side) (sent : s.Sent net side.other (encode (.first theirs))) :
    ∃ t slot mine, s.step net (delivery net port now start side (.first theirs)) = some t ∧
      s.Moved net t side slot (portsOf mine (some theirs)) ∧
      t.Sent net side (encode (.second mine theirs)) := by
  rcases opens with ⟨slot, ports, engaged⟩ | apart
  · obtain ⟨parties, met⟩ := sound.met unreset
    obtain ⟨mine, -, isPorts⟩ := (met.stands side).known slot engaged.isFor
    obtain ⟨goes, sends⟩ := World.first_answered (net.listener side) (port side) now
      (start side) theirs engaged.isFor engaged.begun isPorts
    obtain ⟨t, taken, moved, here⟩ := step_of_goesOn sound (permitted_delivery now start bound sent)
      (World.route_deliver (World.entry_of_isFor (sound.single side) engaged.isFor) engaged.begun)
      goes
    refine ⟨t, slot, mine, taken, moved, slot, ?_⟩
    rw [here]
    exact sends
  · obtain ⟨t, slot, taken, moved, sent, -⟩ := first_step_of_apart now start sound bound apart sent
    exact ⟨t, slot, _, taken, moved, sent⟩

theorem second_step (sound : s.Sound net) (bound : ∀ i, port i ≠ 0)
    (accepts : ∀ i, (start i).Accepts) (engaged : s.Engaged net side slot (portsOf mine learned))
    (sent : s.Sent net side.other (encode (.second theirs yours))) :
    ∃ t, s.step net (delivery net port now start side (.second theirs yours)) = some t ∧
      s.Moved net t side slot (portsOf mine (some theirs)) ∧
      t.Sent net side (encode (.third theirs)) ∧ s.Started net t start side slot mine theirs := by
  have permitted := permitted_delivery now start bound sent
  obtain ⟨goes, sends, starts⟩ := World.second_confirmed (net.listener side) (port side)
    now theirs yours (accepts side) engaged.isFor engaged.begun engaged.ports
  obtain ⟨t, taken, moved, here⟩ := step_of_goesOn sound permitted
    (World.route_deliver (World.entry_of_isFor (sound.single side) engaged.isFor) engaged.begun)
    goes
  refine ⟨t, taken, moved, ⟨slot, ?_⟩, moved.engaged, ?_⟩
  · rw [here]
    exact sends
  · rw [here]
    exact starts

theorem third_step (sound : s.Sound net) (bound : ∀ i, port i ≠ 0)
    (accepts : ∀ i, (start i).Accepts)
    (engaged : s.Engaged net side slot (portsOf mine (some theirs)))
    (sent : s.Sent net side.other (encode (.third yours))) :
    ∃ t, s.step net (delivery net port now start side (.third yours)) = some t ∧
      s.Moved net t side slot (portsOf mine (some theirs)) ∧
      s.Started net t start side slot mine theirs := by
  have permitted := permitted_delivery now start bound sent
  obtain ⟨goes, starts⟩ := World.third_starts (net.listener side) (port side) now yours
    (accepts side) engaged.isFor engaged.begun
  rw [engaged.ports] at goes starts
  obtain ⟨t, taken, moved, here⟩ := step_of_goesOn sound permitted
    (World.route_deliver (World.entry_of_isFor (sound.single side) engaged.isFor) engaged.begun)
    goes
  refine ⟨t, taken, moved, moved.engaged, ?_⟩
  rw [here]
  exact starts

end Steps

theorem sound_of_run {labels : List (Side × Label)} (run : exec (step net) {} labels = some s) :
    s.Sound net := by
  have always : Always (step net) (Sound net) {} labels :=
    always_of_keeps (fun _ _ _ sound taken => sound_step sound taken) labels (sound_start net)
  exact always.last run

/-- A node that has offered its ports, and can take part, is handshaking on them. -/
theorem Opens.engaged {parties : Side → Party PortPair} {mine : PortPair}
    (opens : s.Opens net side) (met : s.Met net parties) (offered : (parties side).offer = some mine) :
    ∃ j, s.Engaged net side j (portsOf mine (parties side).learned) := by
  rcases opens with ⟨j, ports, isFor, begun, -⟩ | ⟨stranger, -⟩
  · obtain ⟨other, isOffer, isPorts⟩ := (met.stands side).known j isFor
    obtain rfl : mine = other := Option.some.inj (offered.symm.trans isOffer)
    exact ⟨j, isFor, begun, isPorts⟩
  · obtain ⟨j, isFor, -⟩ := context_of_offer (met.stands side) offered
    exact absurd isFor (stranger j)

/-- Both nodes have started, and neither has been reset since. -/
theorem completed_of_started {mine yours : PortPair} {slot j : Slot}
    (ours : s.Started net t start side slot mine yours)
    (theirs : s.Started net t start side.other j yours mine) : t.Completed net := by
  refine ⟨Function.update (fun _ => yours) side mine, ?_⟩
  intro i
  rcases eq_or_other i side with rfl | rfl
  · rw [Function.update_self, Function.update_of_ne (other_ne i)]
    exact ⟨slot, ours.engaged, ours.starts.on_record⟩
  · rw [other_other, Function.update_self, Function.update_of_ne (other_ne side)]
    exact ⟨j, theirs.engaged, theirs.starts.on_record⟩

/-- A second packet that is delivered brings the third, and both nodes have started. -/
theorem started_of_second (now : Nat) {mine yours echoed : PortPair} {slot j : Slot}
    {learned : Option PortPair} (sound : s.Sound net) (bound : ∀ i, port i ≠ 0)
    (accepts : ∀ i, (start i).Accepts) (ours : s.Engaged net side slot (portsOf mine learned))
    (theirs : s.Engaged net side.other j (portsOf yours (some mine)))
    (sent : s.Sent net side.other (encode (.second yours echoed))) :
    ∃ t, exec (step net) s [delivery net port now start side (.second yours echoed),
        delivery net port now start side.other (.third yours)] = some t ∧
      t.reset = s.reset ∧ s.Started net t start side slot mine yours ∧
      s.Started net t start side.other j yours mine := by
  obtain ⟨t, second, moved, confirms, starts⟩ := second_step now sound bound accepts ours sent
  rw [← other_other side] at confirms
  obtain ⟨u, third, still, answers⟩ :=
    third_step now moved.sound bound accepts (moved.other theirs) confirms
  have kept := still.rest
  rw [other_other] at kept
  refine ⟨u, by simp [second, third], still.reset.trans moved.reset, ⟨?_, ?_⟩, answers.engaged, ?_⟩
  · have first := starts.engaged
    rw [← other_other side] at first
    have last := still.other first
    rwa [other_other] at last
  · rw [kept]
    exact starts.starts
  · rw [← moved.rest]
    exact answers.starts

/-- **A handshake can always be completed.**  In every state that two nodes reach before a context of
one for the other is reset: when a node sends its packet again and the other one is handshaking too, or
has a free context, then that packet and at most two more bring both nodes to `StartClient`, on ports
that mirror each other.  Each node's sessions grant the connection, and each bind gives a port. -/
theorem handshake_completes (net : Network) (labels : List (Side × Label)) (s : Nodes)
    (run : exec (step net) {} labels = some s) (unreset : s.reset = false)
    (side : Side) (slot : Slot) (now : Nat)
    (isFor : (s.world side).IsFor (net.endpoint side.other) slot)
    (resends : Resends ((s.world side).contexts slot) now) (opens : s.Opens net side.other)
    (port : Side → UInt16) (bound : ∀ i, port i ≠ 0)
    (start : Side → StartOutcome) (accepts : ∀ i, (start i).Accepts) :
    ∃ deliveries : List (Side × Packet PortPair), deliveries.length ≤ 3 ∧
      ∃ t, exec (step net) s ((side, .doCheck slot now) ::
          deliveries.map fun (i, packet) => delivery net port now start i packet) = some t ∧
        t.reset = false ∧ t.Completed net := by
  have sound := sound_of_run run
  obtain ⟨parties, met⟩ := sound.met unreset
  obtain ⟨mine, isOffer, isPorts⟩ := (met.stands side).known slot isFor
  have begun : ((s.world side).contexts slot).handshakeBegin.isSome = true := by
    obtain ⟨since, begun, -⟩ := resends
    rw [begun]
    rfl
  obtain ⟨t₁, retry, moved₁, sent₁⟩ := retry_step sound ⟨isFor, begun, isPorts⟩ resends
  cases learned : (parties side).learned with
  | some yours =>
      -- the other one has offered these ports, so it has a context, and the retry is a second packet
      rw [learned] at moved₁ sent₁
      have ours := moved₁.engaged
      rw [← other_other side] at sent₁ ours
      obtain ⟨j, engaged⟩ := opens.engaged met ((met.agrees side).learned yours learned)
      obtain ⟨t, delivers, still, first, last⟩ := started_of_second now moved₁.sound bound accepts
        (moved₁.other engaged) ours sent₁
      rw [other_other] at delivers
      refine ⟨[(side.other, .second mine yours), (side, .third mine)], Nat.le_succ 2, t, ?_,
        (still.trans moved₁.reset).trans unreset, completed_of_started first last⟩
      rw [exec_cons, retry]
      exact delivers
  | none =>
      rw [learned] at moved₁ sent₁
      have ours := moved₁.engaged
      rw [← other_other side] at sent₁ ours
      have stillOpens : t₁.Opens net side.other := by
        rcases opens with ⟨j, ports, engaged⟩ | apart
        · exact .inl ⟨j, ports, moved₁.other engaged⟩
        · rw [Apart, ← moved₁.rest] at apart
          exact .inr apart
      obtain ⟨t₂, j, yours, answer, moved₂, sent₂⟩ := first_step now start moved₁.sound
        (moved₁.reset.trans unreset) bound stillOpens sent₁
      have kept := moved₂.other ours
      rw [other_other] at kept
      obtain ⟨t, delivers, still, first, last⟩ := started_of_second now moved₂.sound bound accepts
        kept moved₂.engaged sent₂
      refine ⟨[(side.other, .first mine), (side, .second yours mine), (side.other, .third yours)],
        Nat.le_refl 3, t, ?_, ?_, completed_of_started first last⟩
      · rw [exec_cons, retry]
        show ((t₁.step net _).bind _) = _
        rw [answer]
        exact delivers
      · exact (still.trans moved₂.reset).trans (moved₁.reset.trans unreset)

/-- Both nodes connect, and both first packets are lost; the left one retries. -/
theorem handshake_completes_after_loss :
    ∃ s, exec (step sampleNetwork) {} (simultaneousOpen.take 2) = some s ∧
      ∃ deliveries : List (Side × Packet PortPair), deliveries.length ≤ 3 ∧
        ∃ t, exec (step sampleNetwork) s ((.left, .doCheck 0 (seconds 5)) ::
            deliveries.map fun (i, packet) => delivery sampleNetwork (fun _ => 6) (seconds 5)
              (fun _ => World.sampleStart) i packet) = some t ∧
          t.reset = false ∧ t.Completed sampleNetwork := by
  have reached : (exec (step sampleNetwork) {} (simultaneousOpen.take 2)).map (fun s => (s.reset,
        ((s.world .left).contexts 0).remoteSentinel, ((s.world .left).contexts 0).handshakeBegin,
        ((s.world .right).contexts 0).remoteSentinel,
        ((s.world .right).contexts 0).handshakeBegin)) =
      some (false, (sampleNetwork.endpoint .right).addr, some 0,
        (sampleNetwork.endpoint .left).addr, some 0) := by
    decide +kernel
  obtain ⟨s, run, facts⟩ := Option.map_eq_some_iff.1 reached
  simp only [Prod.mk.injEq] at facts
  obtain ⟨unreset, isFor, begun, isOther, otherBegun⟩ := facts
  have opens : s.Opens sampleNetwork .right :=
    .inl ⟨0, _, isOther, by rw [otherBegun]; rfl, rfl⟩
  refine ⟨s, run, handshake_completes sampleNetwork _ s run unreset .left 0 (seconds 5) isFor ?_
    opens (fun _ => 6) (fun _ => by decide) (fun _ => World.sampleStart) fun _ => ?_⟩
  · refine ⟨0, begun, by decide, by decide, ?_⟩
    rintro ⟨-, -, late⟩
    exact absurd late (by decide)
  · exact ⟨rfl, rfl⟩

/-- **One `ConnectTo` and three deliveries** bring two nodes that have let go of each other to
`StartClient`, each in a context that was free. -/
theorem started_of_apart (sound : s.Sound net) (side : Side) (apart : ∀ i, s.Apart net i)
    (bound : ∀ i, port i ≠ 0) (accepts : ∀ i, (start i).Accepts) (now : Nat) :
    ∃ deliveries : List (Side × Packet PortPair), deliveries.length = 3 ∧
      ∃ (t u : Nodes) (slot : Side → Slot),
        exec (step net) s (connection net port now side ::
          deliveries.map fun (i, packet) => delivery net port now start i packet) = some u ∧
        ∀ i, (s.world i).Allots (t.world i) (slot i) ∧
          t.Started net u start i (slot i) (offer net port bound i) (offer net port bound i.other) := by
  let mine := offer net port bound side
  let yours := offer net port bound side.other
  obtain ⟨t₁, j, connects, moved₁, sent₁, allots⟩ := connect_step now sound (apart side) bound
  have ours := moved₁.engaged
  rw [← other_other side] at sent₁ ours
  have stillApart : t₁.Apart net side.other := by
    rw [Apart, moved₁.rest]
    exact apart side.other
  obtain ⟨t, k, answer, moved₂, sent₂, allots₂⟩ :=
    first_step_of_apart now start moved₁.sound bound stillApart sent₁
  have rest := moved₂.rest
  have kept := moved₂.other ours
  have theirs := moved₂.engaged
  rw [other_other] at kept rest theirs answer sent₂
  obtain ⟨u, delivers, -, first, last⟩ := started_of_second now moved₂.sound bound accepts
    kept theirs sent₂
  refine ⟨[(side.other, .first mine), (side, .second yours mine), (side.other, .third yours)], rfl, t, u,
    Function.update (fun _ => k) side j, ?_, ?_⟩
  · rw [exec_cons, connects]
    show ((t₁.step net _).bind _) = _
    rw [answer]
    exact delivers
  · intro i
    rcases eq_or_other i side with rfl | rfl
    · rw [Function.update_self, rest]
      exact ⟨allots, first⟩
    · rw [other_other, Function.update_of_ne (other_ne side), ← moved₁.rest]
      exact ⟨allots₂, last⟩

/-- **Two nodes can always connect.**  In every state that they reach, whatever has been reset before
and whichever old packets are on their way: when neither has a context for the other and both have a
free one, one `ConnectTo` and three deliveries bring both to `StartClient`, on ports that mirror each
other. -/
theorem nodes_connect (net : Network) (labels : List (Side × Label)) (s : Nodes)
    (run : exec (step net) {} labels = some s) (side : Side) (apart : ∀ i, s.Apart net i)
    (port : Side → UInt16) (bound : ∀ i, port i ≠ 0)
    (start : Side → StartOutcome) (accepts : ∀ i, (start i).Accepts) (now : Nat) :
    ∃ deliveries : List (Side × Packet PortPair), deliveries.length = 3 ∧
      ∃ t, exec (step net) s (connection net port now side ::
          deliveries.map fun (i, packet) => delivery net port now start i packet) = some t ∧
        t.Completed net := by
  obtain ⟨deliveries, three, t, u, slot, delivers, started⟩ :=
    started_of_apart (sound_of_run run) side apart bound accepts now
  exact ⟨deliveries, three, u, delivers, completed_of_started (started side).2
    (by simpa using (started side.other).2)⟩

/-- The left node has given up once; its old packet is still on its way. -/
theorem nodes_connect_again :
    ∃ s, exec (step sampleNetwork) {}
        [(.left, .connectTo (some ⟨9, 1⟩) (fun _ => false) (some 2) 0),
          (.left, .doCheck 0 (seconds 61))] = some s ∧
      ∃ deliveries : List (Side × Packet PortPair), deliveries.length = 3 ∧
        ∃ t, exec (step sampleNetwork) s (connection sampleNetwork (fun _ => 6) 0 .right ::
            deliveries.map fun (i, packet) => delivery sampleNetwork (fun _ => 6) 0
              (fun _ => World.sampleStart) i packet) = some t ∧ t.Completed sampleNetwork := by
  have reached : (exec (step sampleNetwork) {}
      [(.left, .connectTo (some ⟨9, 1⟩) (fun _ => false) (some 2) 0),
        (.left, .doCheck 0 (seconds 61))]).map (fun s =>
          (decide (s.Apart sampleNetwork .left), decide (s.Apart sampleNetwork .right))) =
      some (true, true) := by
    decide +kernel
  obtain ⟨s, run, facts⟩ := Option.map_eq_some_iff.1 reached
  simp only [Prod.mk.injEq, decide_eq_true_eq] at facts
  have apart : ∀ i, s.Apart sampleNetwork i := by
    intro i
    cases i with
    | left => exact facts.1
    | right => exact facts.2
  exact ⟨s, run, nodes_connect sampleNetwork _ s run .right apart (fun _ => 6) (fun _ => by decide)
    (fun _ => World.sampleStart) (fun _ => ⟨rfl, rfl⟩) 0⟩

end Nodes

end Koisyn.Session
