/-
# Koisyn.Session.Establishment — two nodes always come to a full session

Once both nodes have started their clients, MsQuic has two connections between them to set up.  What it
reports of them comes in no fixed order: the connections are independent, and so are their streams.
`QuicEvent` lists what one node is told, and `QuicEvent.needs` the only order that is certain: a connection
has arrived before anything else is heard of it.

`nodes_establish`: from every state in which neither node has a context for the other, one `ConnectTo`,
three deliveries and these events in any such order leave both with an accepted session, both connections
and all the streams of both in the context for the other node.

The listener knows an incoming connection by the IP and the port that it comes from, so it goes to the
right context as long as no other one expects the same port of the same host.
-/
import Koisyn.Session.Completion
import Koisyn.Session.ChannelIdentity
import Koisyn.Theory.Schedule

namespace Koisyn.Session

open Koisyn.Channel
open Koisyn.Theory.Run
open Koisyn.Theory.Exchange
open Koisyn.Theory.Schedule

set_option autoImplicit false

/-- MsQuic opens the connection and its streams. -/
structure StartOutcome.Opens (start : StartOutcome) : Prop where
  connection : start.connection = true
  streams : ∀ i, start.streams i = true

/-! ## Free contexts hold no connection -/

/-- A context without ports has opened no connection. -/
def Unopened (ctx : Core) : Prop := ctx.ports.localServer = 0 → ctx.self = none

theorem unopened_effect {L : Listener} {ctx ctx' : Core} {act : Activation} {noted : List Mark}
    (effect : Effect ctx act ctx' noted) (legal : LegalOn L ctx act)
    (served : ctx.handshakeBegin.isSome → ctx.ports.localServer ≠ 0) (unopened : Unopened ctx) :
    Unopened ctx' := by
  cases effect with
  | quiet => exact unopened
  | connectTo => exact fun unbound => absurd (legal.1.symm.trans unbound) L.bound
  | saved => exact unopened
  | answered => exact fun unbound => absurd (legal.1.symm.trans unbound) L.bound
  | unopened starts =>
      intro unbound
      exact unopened ((Activation.of_starts starts).2.1.symm.trans unbound)
  | granted starts =>
      intro unbound
      have bound := served (begun_of_starts legal starts)
      exact absurd ((Activation.of_starts starts).2.1.symm.trans unbound) bound
  | connected => exact unopened
  | @closed conn isClient =>
      intro unbound
      cases isClient with
      | true => rfl
      | false => exact unopened unbound
  | refused | closedLast | longStop | shortStop | dropped => exact fun _ => rfl

/-- **What a `StartClient` that gets everything leaves.** -/
theorem effect_granted {ctx ctx' : Core} {act : Activation} {noted : List Mark} {ports : Ports}
    {env : StartEnv} {conn : Hquic} (effect : Effect ctx act ctx' noted)
    (starts : act.starts ctx.ports = some (ports, env)) (free : ctx.self = none)
    (opens : env.connection = some conn) (granted : env.granted = true) :
    ctx' = { ctx with ports, self := some conn, channelContext := env.channelContext } ∧
      noted = [.started ports, .accepted] := by
  have same : ∀ {ports' : Ports} {env' : StartEnv}, act.starts ctx.ports = some (ports', env') →
      ports = ports' ∧ env = env' :=
    fun other => Prod.mk.inj (Option.some.inj (starts.symm.trans other))
  cases effect with
  | quiet bystander => exact absurd bystander (Activation.of_starts starts).1.1
  | dropped drops => exact absurd drops ((Activation.of_starts starts).1.2 _)
  | unopened other skips =>
      obtain ⟨rfl, rfl⟩ := same other
      rcases skips with taken | failed
      · rw [free] at taken
        cases taken
      · cases opens.symm.trans failed
  | granted other _ opens' =>
      obtain ⟨rfl, rfl⟩ := same other
      obtain rfl : conn = _ := Option.some.inj (opens.symm.trans opens')
      exact ⟨rfl, rfl⟩
  | refused other _ _ refused =>
      obtain ⟨rfl, rfl⟩ := same other
      cases granted.symm.trans refused
  | _ => cases starts

/-! ## MsQuic's connections -/

/-- MsQuic has started this connection for the slot, and has not closed it. -/
def Runs (conns : List Conn) (conn : Hquic) (slot : Slot) (isClient connected : Bool) : Prop :=
  ∃ c, conns[conn]? = some c ∧ c.slot = slot ∧ c.isClient = isClient ∧ c.started = true ∧
    c.connected = connected ∧ c.closed = false

instance (conns : List Conn) (conn : Hquic) (slot : Slot) (isClient connected : Bool) :
    Decidable (Runs conns conn slot isClient connected) :=
  inferInstanceAs (Decidable (∃ c ∈ conns[conn]?, _ ∧ _))

section Runs

variable {conns : List Conn} {conn : Hquic} {slot : Slot} {isClient connected : Bool}

theorem Runs.append (runs : Runs conns conn slot isClient connected) (more : List Conn) :
    Runs (conns ++ more) conn slot isClient connected := by
  obtain ⟨c, present, rest⟩ := runs
  refine ⟨c, ?_, rest⟩
  rw [List.getElem?_append_left (List.getElem?_eq_some_iff.1 present).1, present]

/-- What is noted of a connection besides its `CONNECTED` and its `SHUTDOWN_COMPLETE` does not matter. -/
theorem Runs.replaced (runs : Runs conns conn slot isClient connected) (i : Hquic) :
    Runs (conns.modify i fun c => { c with replaced := true }) conn slot isClient connected := by
  obtain ⟨c, present, rest⟩ := runs
  by_cases same : i = conn
  · exact ⟨{ c with replaced := true }, by simp [present, same], rest⟩
  · exact ⟨c, by simp [present, same], rest⟩

theorem Runs.connects (runs : Runs conns conn slot isClient connected) :
    Runs (conns.modify conn fun c => { c with connected := true }) conn slot isClient true := by
  obtain ⟨c, present, here, type, started, -, isOpen⟩ := runs
  exact ⟨{ c with connected := true }, by simp [present], here, type, started,
    rfl, isOpen⟩

theorem Runs.other (runs : Runs conns conn slot isClient connected) {i : Hquic} (differs : i ≠ conn)
    (f : Conn → Conn) : Runs (conns.modify i f) conn slot isClient connected := by
  obtain ⟨c, present, rest⟩ := runs
  exact ⟨c, by simp [present, differs], rest⟩

theorem runs_last (conns : List Conn) (slot : Slot) (isClient : Bool) (use : Nat) :
    Runs (conns ++ [{ isClient, slot, use, started := true }]) conns.length slot isClient false :=
  ⟨_, List.getElem?_concat_length, rfl, rfl, rfl, rfl, rfl⟩

/-- Connections of different types are different. -/
theorem Runs.ne {other : Hquic} {isClient' connected' : Bool}
    (ours : Runs conns conn slot isClient connected)
    (theirs : Runs conns other slot isClient' connected') (types : isClient ≠ isClient') :
    conn ≠ other := by
  rintro rfl
  obtain ⟨c, present, -, isType, -⟩ := ours
  obtain ⟨d, present', -, isType', -⟩ := theirs
  obtain rfl : c = d := Option.some.inj (present.symm.trans present')
  exact types (isType.symm.trans isType')

end Runs

/-! ## What a node is told -/

/-- What MsQuic reports of the two connections of a session to one of its nodes. -/
inductive QuicEvent where
  | newConnection
  | connected (isClient : Bool)
  | streamStarted (index : Fin 4)
  deriving DecidableEq, Repr

/-- The peer's connection arrives before anything is heard of it. -/
def QuicEvent.needs : QuicEvent → List QuicEvent
  | .newConnection | .connected true => []
  | .connected false | .streamStarted _ => [.newConnection]

/-- The event, of connections with these handles; the streams of a client have the ids 0, 4, 8 and 12. -/
def QuicEvent.label (remote : QuicAddr) (client server : Hquic) : QuicEvent → Label
  | .newConnection => .newConnection remote true
  | .connected isClient => .connected (if isClient then client else server)
  | .streamStarted index => .peerStreamStarted server (4 * index)

namespace World

variable {L : Listener} {w v t : World} {peer : Endpoint} {slot : Slot} {ports : Ports}
variable {start : StartOutcome} {client server : Hquic} {done : QuicEvent → Bool}

/-- A connection from this port of the peer's is one for this context, and for no other. -/
def Expects (w : World) (peer : Endpoint) (port : UInt16) (slot : Slot) : Prop :=
  ∀ i, quicAddrCompareIp (w.contexts i).remoteSentinel peer.addr = true →
    (w.contexts i).ports.remoteClient = port → i = slot

/-- The context has opened a connection to the peer. -/
structure Calling (w : World) (peer : Endpoint) (slot : Slot) (ports : Ports) (client : Hquic) :
    Prop where
  isFor : w.IsFor peer slot
  isPorts : (w.contexts slot).ports = ports
  expects : w.Expects peer ports.remoteClient slot
  accepted : (w.standing slot).accepted = true
  self : (w.contexts slot).unreliable.self = some client
  selfStreams : ∀ i, ((w.contexts slot).reliable i).self.isSome = true

/-- These events of its two connections have come in. -/
structure Arriving (w : World) (peer : Endpoint) (slot : Slot) (ports : Ports) (client server : Hquic)
    (done : QuicEvent → Bool) : Prop extends w.Calling peer slot ports client where
  client : Runs w.conns client slot true (done (.connected true))
  unmet : done .newConnection = false → w.conns.length = server ∧ done (.connected false) = false
  met : done .newConnection = true → (w.contexts slot).unreliable.peer = some server ∧
    Runs w.conns server slot false (done (.connected false))
  peerStreams : ∀ i, done (.streamStarted i) = true →
    ((w.contexts slot).reliable i).peer.isSome = true
  refCount : (w.contexts slot).refCount =
    (if done (.connected true) then 1 else 0) + if done (.connected false) then 1 else 0
  cleared : ∀ isClient, done (.connected isClient) = true → (w.contexts slot).handshakeBegin = none

/-- **A full session**: accepted, both connections up, and the streams of both. -/
structure Established (w : World) (peer : Endpoint) (slot : Slot) (ports : Ports) : Prop where
  isFor : w.IsFor peer slot
  isPorts : (w.contexts slot).ports = ports
  accepted : (w.standing slot).accepted = true
  connected : (w.contexts slot).handshakeBegin = none ∧ (w.contexts slot).refCount = 2
  self : ∃ conn, (w.contexts slot).unreliable.self = some conn ∧ Runs w.conns conn slot true true
  peer : ∃ conn, (w.contexts slot).unreliable.peer = some conn ∧ Runs w.conns conn slot false true
  streams : ∀ i, ((w.contexts slot).reliable i).self.isSome = true ∧
    ((w.contexts slot).reliable i).peer.isSome = true

theorem established_iff : w.Established peer slot ports ↔ w.IsFor peer slot ∧
    (w.contexts slot).ports = ports ∧ (w.standing slot).accepted = true ∧
    ((w.contexts slot).handshakeBegin = none ∧ (w.contexts slot).refCount = 2) ∧
    (∃ conn ∈ (w.contexts slot).unreliable.self, Runs w.conns conn slot true true) ∧
    (∃ conn ∈ (w.contexts slot).unreliable.peer, Runs w.conns conn slot false true) ∧
    ∀ i, ((w.contexts slot).reliable i).self.isSome = true ∧
      ((w.contexts slot).reliable i).peer.isSome = true := by
  constructor
  · rintro ⟨isFor, isPorts, accepted, connected, self, peer, streams⟩
    exact ⟨isFor, isPorts, accepted, connected, self, peer, streams⟩
  · rintro ⟨isFor, isPorts, accepted, connected, self, peer, streams⟩
    exact ⟨isFor, isPorts, accepted, connected, self, peer, streams⟩

instance (w : World) (peer : Endpoint) (slot : Slot) (ports : Ports) :
    Decidable (w.Established peer slot ports) :=
  decidable_of_iff' _ established_iff

theorem Arriving.established (arriving : w.Arriving peer slot ports client server done)
    (every : ∀ e, done e = true) : w.Established peer slot ports := by
  have ours := arriving.client
  obtain ⟨peer, theirs⟩ := arriving.met (every _)
  have counted := arriving.refCount
  rw [every] at ours theirs
  rw [every, every] at counted
  exact ⟨arriving.isFor, arriving.isPorts, arriving.accepted,
    ⟨arriving.cleared true (every _), counted⟩, ⟨client, arriving.self, ours⟩, ⟨server, peer, theirs⟩,
    fun i => ⟨arriving.selfStreams i, arriving.peerStreams i (every _)⟩⟩

/-! ## The start -/

/-- **A `StartClient` in a context that was free** opens and starts everything. -/
theorem arriving_of_starts (allots : w.Allots v slot)
    (unopened : Unopened (core (w.contexts slot))) (starts : v.Starts t slot ports start)
    (accepts : start.Accepts) (opens : start.Opens) (isFor : t.IsFor peer slot)
    (others : ∀ i, quicAddrCompareIp (w.contexts i).remoteSentinel peer.addr = true →
      (w.contexts i).ports.remoteClient ≠ ports.remoteClient) :
    t.Arriving peer slot ports v.conns.length t.conns.length fun _ => false := by
  obtain ⟨act, rfl, starts⟩ := starts
  obtain ⟨refCount, unbound⟩ := isEmpty_iff.1 allots.empty
  have free : (v.contexts slot).unreliable.self = none :=
    allots.self.trans (unopened (by rw [core, unbound]))
  have opened : (v.startEnv start).connection = some v.conns.length := by
    simp [startEnv, opens.connection]
  have granted : (v.startEnv start).granted = true := by
    simp [StartEnv.granted, startEnv, accepts.shouldCreate, accepts.alive]
  obtain ⟨noted, effect, history⟩ := v.after_effect slot act
  obtain ⟨fields, rfl⟩ := effect_granted effect starts free opened granted
  have conns : (v.after slot act).conns =
      v.conns ++ [{ isClient := true, slot, use := v.use slot, started := true }] := by
    show v.connsAfter slot act = _
    have isOpen : v.opens slot act = some (v.startEnv start) := by
      simp [World.opens, starts, free, opened]
    unfold connsAfter
    rw [isOpen]
    dsimp only
    rw [granted]
  have streams : startsStreams (v.contexts slot) act = some (v.startEnv start) := by
    simp [startsStreams, starts, getsStarted, free, opened, granted]
  refine ⟨⟨isFor, congrArg Core.ports fields, ?_, ?_, congrArg Core.self fields, ?_⟩, ?_, fun _ => ⟨rfl, rfl⟩,
    fun arrived => ?_, fun i started => ?_, ?_, fun isClient connected => ?_⟩
  · intro i sameIp samePort
    by_contra other
    rw [after_contexts_ne _ other, allots.others i other] at sameIp samePort
    exact others i sameIp samePort
  · rw [standing_after_self history]
    rfl
  · intro i
    rw [after_contexts_self, ((run_starts slot streams).2.2 i).1]
    simp [startEnv, opens.streams]
  · rw [conns]
    exact runs_last _ _ _ _
  · cases arrived
  · cases started
  · exact (congrArg Core.refCount fields).trans (allots.refCount.trans refCount)
  · cases connected

/-! ## The events -/

/-- The listener gives the peer's connection to its context. -/
theorem listening_of_expects {port : UInt16} (isFor : w.IsFor peer slot)
    (expects : w.Expects peer port slot) (known : (w.contexts slot).ports.remoteClient = port) :
    w.listening { peer.addr with port } = some slot := by
  have same : quicAddrCompareIp (w.contexts slot).remoteSentinel { peer.addr with port } = true := by
    rw [show (w.contexts slot).remoteSentinel = peer.addr from isFor]
    simp [quicAddrCompareIp, Endpoint.addr]
  cases found : w.listening { peer.addr with port } with
  | none =>
      have passed := List.find?_eq_none.1 found slot (List.mem_finRange slot)
      simp [known, same] at passed
  | some i =>
      have matches_ := List.find?_some found
      simp only [Bool.and_eq_true, beq_iff_eq] at matches_
      exact congrArg some (expects i matches_.2 matches_.1.symm)

/-- An activation that returns, resets nothing and takes no `RecvMutex` is a step. -/
theorem step_of_returns {l : Label} {act : Activation}
    (route : w.route L l = some (some (slot, act)))
    (returns : (act.run slot (w.contexts slot)).exit = .returned .success)
    (noReset : .reset ∉ marks slot (act.run slot (w.contexts slot)).calls)
    (noChannel : channelOf act = none) : w.step L l = some (w.after slot act) := by
  simp only [World.step, route, Option.bind_some, if_neg (not_fails returns noReset noChannel)]

/-- An activation that resets nothing and keeps the handles of our side keeps the call. -/
theorem Calling.after {act : Activation} (calling : w.Calling peer slot ports client)
    (isFor : (act.run slot (w.contexts slot)).ctx.remoteSentinel = (w.contexts slot).remoteSentinel)
    (isPorts : (act.run slot (w.contexts slot)).ctx.ports = (w.contexts slot).ports)
    (self : (act.run slot (w.contexts slot)).ctx.unreliable.self = (w.contexts slot).unreliable.self)
    (selfStreams : ∀ i, ((act.run slot (w.contexts slot)).ctx.reliable i).self =
      ((w.contexts slot).reliable i).self)
    (noReset : .reset ∉ marks slot (act.run slot (w.contexts slot)).calls) :
    (w.after slot act).Calling peer slot ports client where
  isFor := by
    rw [IsFor, after_contexts_self, isFor]
    exact calling.isFor
  isPorts := by
    rw [after_contexts_self, isPorts]
    exact calling.isPorts
  expects := by
    intro i sameIp samePort
    by_contra other
    rw [after_contexts_ne _ other] at sameIp samePort
    exact other (calling.expects i sameIp samePort)
  accepted := by
    rcases (run_effect slot (w.contexts slot) act).resets_or_keeps (w.standing slot) with
      resets | ⟨-, keeps⟩
    · rw [List.count_eq_zero.2 noReset] at resets
      cases resets
    · rw [standing_after_self (w.after_history_self slot act)]
      exact keeps calling.accepted
  self := by
    rw [after_contexts_self, self]
    exact calling.self
  selfStreams i := by
    rw [after_contexts_self, selfStreams]
    exact calling.selfStreams i

variable (L)

theorem Arriving.takesConnection (arriving : w.Arriving peer slot ports client server done)
    (fresh : done .newConnection = false) :
    ∃ t, w.step L (.newConnection { peer.addr with port := ports.remoteClient } true) = some t ∧
      t.Arriving peer slot ports client server (Function.update done .newConnection true) := by
  let act : Activation := .newConnection w.conns.length true
  have noReset : .reset ∉ marks slot (act.run slot (w.contexts slot)).calls := by
    simp [act, Activation.run, returning, newConnection, markOf]
  have listened := listening_of_expects arriving.isFor arriving.expects (by rw [arriving.isPorts])
  have route : w.route L (.newConnection { peer.addr with port := ports.remoteClient } true) =
      some (some (slot, act)) := by
    simp [World.route, act, listened]
  have ctx : (w.after slot act).contexts slot = { w.contexts slot with
      unreliable := { (w.contexts slot).unreliable with peer := some w.conns.length } } :=
    after_contexts_self _ _ _
  -- the handle of an earlier connection of the peer's is only marked
  obtain ⟨kept, same, runs, conns⟩ : ∃ kept : List Conn, kept.length = w.conns.length ∧
      Runs kept client slot true (done (.connected true)) ∧ (w.after slot act).conns =
        kept ++ [{ isClient := false, slot, use := w.use slot, started := true }] := by
    cases old : (w.contexts slot).unreliable.peer with
    | none =>
        refine ⟨w.conns, rfl, arriving.client, ?_⟩
        simp [World.after, connsAfter, World.opens, act, Activation.starts, old]
    | some conn =>
        refine ⟨_, List.length_modify _ _ _, arriving.client.replaced conn, ?_⟩
        simp [World.after, connsAfter, World.opens, act, Activation.starts, old]
  obtain ⟨next, unheard⟩ := arriving.unmet fresh
  have isServer : server = kept.length := next.symm.trans same.symm
  refine ⟨_, step_of_returns route rfl noReset rfl,
    arriving.toCalling.after rfl rfl rfl (fun _ => rfl) noReset, ?_, ?_, ?_, ?_, ?_, ?_⟩
  · rw [conns]
    exact runs.append _
  · intro unmet
    simp at unmet
  · intro _
    rw [ctx, conns, isServer]
    refine ⟨congrArg some same.symm, ?_⟩
    simpa [unheard] using runs_last kept slot false (w.use slot)
  · rw [ctx]
    simpa using arriving.peerStreams
  · rw [ctx]
    simpa using arriving.refCount
  · rw [ctx]
    simpa using arriving.cleared

theorem Arriving.connects (arriving : w.Arriving peer slot ports client server done)
    (isClient : Bool) (fresh : done (.connected isClient) = false)
    (met : isClient = false → done .newConnection = true) :
    ∃ t, w.step L (.connected (if isClient then client else server)) = some t ∧
      t.Arriving peer slot ports client server (Function.update done (.connected isClient) true) := by
  let conn := if isClient then client else server
  let act : Activation := .connected conn
  have running : Runs w.conns conn slot isClient false := by
    rw [← fresh]
    cases isClient with
    | true => exact arriving.client
    | false => exact (arriving.met (met rfl)).2
  have route : w.route L (.connected conn) = some (some (slot, act)) := by
    obtain ⟨c, present, rfl, -, started, unheard, isOpen⟩ := running
    simp [World.route, startedConn_some.2 ⟨present, isOpen, started⟩, unheard, act]
  have noReset : .reset ∉ marks slot (act.run slot (w.contexts slot)).calls := by
    show _ ∉ marks slot (if _ then _ else _)
    split <;> simp [markOf]
  have ctx : (w.after slot act).contexts slot =
      { w.contexts slot with handshakeBegin := none, refCount := (w.contexts slot).refCount + 1 } :=
    after_contexts_self _ _ _
  have conns : (w.after slot act).conns =
      w.conns.modify conn fun c => { c with connected := true } := rfl
  refine ⟨_, step_of_returns route rfl noReset rfl,
    arriving.toCalling.after rfl rfl rfl (fun _ => rfl) noReset, ?_, ?_, ?_, ?_, ?_, ?_⟩
  · rw [conns]
    cases isClient with
    | true => simpa [conn] using arriving.client.connects
    | false => simpa using arriving.client.other (running.ne arriving.client (by decide)) _
  · intro unmet
    have still : done .newConnection = false := by simpa using unmet
    rw [conns, List.length_modify]
    cases isClient with
    | true => simpa using arriving.unmet still
    | false =>
        rw [met rfl] at still
        cases still
  · intro arrived
    obtain ⟨known, theirs⟩ := arriving.met (by simpa using arrived)
    rw [ctx, conns]
    refine ⟨known, ?_⟩
    cases isClient with
    | true => simpa using theirs.other (running.ne theirs (by decide)) _
    | false => simpa [conn] using theirs.connects
  · rw [ctx]
    simpa using arriving.peerStreams
  · rw [ctx]
    show (w.contexts slot).refCount + 1 = _
    rw [arriving.refCount]
    cases isClient with
    | true => simp [fresh, UInt32.add_comm]
    | false => simp [fresh]
  · rw [ctx]
    exact fun _ _ => rfl

theorem Arriving.takesStream (arriving : w.Arriving peer slot ports client server done)
    (index : Fin 4) (met : done .newConnection = true) :
    ∃ t, w.step L (.peerStreamStarted server (4 * index)) = some t ∧
      t.Arriving peer slot ports client server (Function.update done (.streamStarted index) true) := by
  let act : Activation := .peerStreamStarted server w.strms.length (4 * index)
  obtain ⟨known, running⟩ := arriving.met met
  have route : w.route L (.peerStreamStarted server (4 * index)) = some (some (slot, act)) := by
    obtain ⟨c, present, rfl, -, started, -, isOpen⟩ := running
    simp [World.route, startedConn_some.2 ⟨present, isOpen, started⟩, act]
  have shifted : (4 * index.val) >>> 2 = index.val := by
    rw [Nat.shiftRight_eq_div_pow]
    omega
  let chn : StreamChannel := { (w.contexts slot).reliable index with peer := some w.strms.length }
  have run : act.run slot (w.contexts slot) = ⟨.returned .success,
      { w.contexts slot with reliable := Function.update (w.contexts slot).reliable index chn },
      releaseStream ((w.contexts slot).reliable index).peer ++
        [.streamSetCallbackHandler w.strms.length slot]⟩ := by
    simp [act, chn, Activation.run, peerStreamStarted, shifted]
  have noReset : .reset ∉ marks slot (act.run slot (w.contexts slot)).calls := by
    rw [run]
    simp [markOf]
  have ctx : (w.after slot act).contexts slot = (act.run slot (w.contexts slot)).ctx :=
    after_contexts_self _ _ _
  rw [run] at ctx
  have conns : (w.after slot act).conns = w.conns := rfl
  refine ⟨_, step_of_returns route (by rw [run]) noReset rfl, arriving.toCalling.after ?_ ?_ ?_ ?_ noReset,
    ?_, ?_, ?_, ?_, ?_, ?_⟩
  · rw [run]
  · rw [run]
  · rw [run]
  · intro i
    rw [run]
    by_cases here : i = index
    · simp [here, chn]
    · simp [here]
  · simpa [conns] using arriving.client
  · simpa [conns] using arriving.unmet
  · intro _
    rw [ctx, conns]
    exact ⟨known, by simpa using running⟩
  · intro i started
    rw [ctx]
    by_cases here : i = index
    · simp [here, chn]
    · simpa [here] using arriving.peerStreams i (by simpa [here] using started)
  · rw [ctx]
    simpa using arriving.refCount
  · rw [ctx]
    simpa using arriving.cleared

end World

/-! ## Two nodes -/

namespace Nodes

/-- An event of a node, whose connections have these handles. -/
def eventLabel (net : Network) (port : Side → UInt16) (client server : Side → Hquic) :
    Side × QuicEvent → Side × Label
  | (i, e) => (i, e.label { (net.endpoint i.other).addr with port := port i.other } (client i) (server i))

/-- An event needs those of its own node only. -/
def needs : Side × QuicEvent → List (Side × QuicEvent)
  | (i, e) => e.needs.map fun earlier => (i, earlier)

/-- No session with another peer expects the port that the other node binds, at its host. -/
def Distinct (net : Network) (s : Nodes) (port : Side → UInt16) : Prop :=
  ∀ i slot, quicAddrCompareIp ((s.world i).contexts slot).remoteSentinel (net.endpoint i.other).addr =
    true → ((s.world i).contexts slot).ports.remoteClient ≠ port i.other

/-- No node has opened a connection in a context without ports. -/
def Unopened (s : Nodes) : Prop := ∀ i slot, Session.Unopened (core ((s.world i).contexts slot))

/-- `P` holds of each node, and of those of the events that are its own. -/
def Each {ε : Type} [DecidableEq ε] (P : Side → World → (ε → Bool) → Prop) (done : List (Side × ε))
    (s : Nodes) : Prop :=
  ∀ i, P i (s.world i) fun e => decide ((i, e) ∈ done)

/-- These events have come in. -/
def Arriving (net : Network) (port : Side → UInt16) (bound : ∀ i, port i ≠ 0) (slot : Side → Slot)
    (client server : Side → Hquic) : List (Side × QuicEvent) → Nodes → Prop :=
  Each fun i w => w.Arriving (net.endpoint i.other) (slot i)
    (portsOf (offer net port bound i) (some (offer net port bound i.other))) (client i) (server i)

variable {net : Network} {s t : Nodes} {port : Side → UInt16} {bound : ∀ i, port i ≠ 0}
variable {slot : Side → Slot} {client server : Side → Hquic} {done : List (Side × QuicEvent)}

theorem unopened_step (sound : s.Sound net) (unopened : s.Unopened) {label : Side × Label}
    (taken : s.step net label = some t) : t.Unopened := by
  obtain ⟨side, l⟩ := label
  simp only [step] at taken
  split at taken
  · obtain ⟨w, moves, rfl⟩ := Option.map_eq_some_iff.1 taken
    intro i j
    show Session.Unopened (core ((Function.update s.world side w i).contexts j))
    by_cases here : i = side
    · subst here
      rw [Function.update_self]
      rcases World.step_cases moves with ⟨-, rfl⟩ | ⟨k, act, route, -, rfl⟩
      · exact unopened i j
      · by_cases target : j = k
        · subst target
          obtain ⟨noted, effect, -⟩ := (s.world i).after_effect j act
          exact unopened_effect effect (World.legalOn_of_legal (World.route_legal route))
            ((sound.single i).grounded.bound j).served (unopened i j)
        · rw [World.after_contexts_ne _ target]
          exact unopened i j
    · rw [Function.update_of_ne here]
      exact unopened i j
  · cases taken

/-- What an event does at its own node is all that it does. -/
theorem advances_of_world {ε : Type} [DecidableEq ε] {P : Side → World → (ε → Bool) → Prop}
    {done : List (Side × ε)} {i : Side} {e : ε} {l : Label} (permitted : s.Permitted net i l)
    (holds : Each P done s)
    (advances : ∃ w, (s.world i).step (net.listener i) l = some w ∧
      P i w (Function.update (fun e => decide ((i, e) ∈ done)) e true)) :
    ∃ t, s.step net (i, l) = some t ∧ Each P ((i, e) :: done) t := by
  obtain ⟨w, taken, next⟩ := advances
  have stepped : s.step net (i, l) = some
      { world := Function.update s.world i w
        reset := s.reset || resets (net.endpoint i.other) (s.world i) w } := by
    simp only [step, if_pos permitted, taken, Option.map_some]
  refine ⟨_, stepped, ?_⟩
  intro j
  rcases eq_or_other j i with rfl | rfl
  · have noted : (fun e' => decide ((j, e') ∈ (j, e) :: done)) =
        Function.update (fun e' => decide ((j, e') ∈ done)) e true := by
      funext e'
      by_cases same : e' = e <;> simp [same]
    rw [noted]
    simpa using next
  · have noted : (fun e' => decide ((i.other, e') ∈ (i, e) :: done)) =
        fun e' => decide ((i.other, e') ∈ done) := by
      funext e'
      simp [other_ne]
    rw [noted]
    simpa [other_ne] using holds i.other

theorem permitted_event (i : Side) (event : Side × QuicEvent) :
    s.Permitted net i (eventLabel net port client server event).2 := by
  obtain ⟨j, e⟩ := event
  cases e <;> exact ⟨trivial, trivial⟩

/-- **The next event, whichever it is, is handled.** -/
theorem Arriving.advances (arriving : Arriving net port bound slot client server done s)
    (event : Side × QuicEvent) (fresh : event ∉ done) (met : needs event ⊆ done) :
    ∃ t, s.step net (eventLabel net port client server event) = some t ∧
      Arriving net port bound slot client server (event :: done) t := by
  obtain ⟨i, e⟩ := event
  have unmade : decide ((i, e) ∈ done) = false := decide_eq_false fresh
  refine advances_of_world (permitted_event i (i, e)) arriving ?_
  cases e with
  | newConnection => exact (arriving i).takesConnection (net.listener i) unmade
  | connected isClient =>
      refine (arriving i).connects (net.listener i) isClient unmade ?_
      rintro rfl
      exact decide_eq_true (met List.mem_cons_self)
  | streamStarted index =>
      exact (arriving i).takesStream (net.listener i) index (decide_eq_true (met List.mem_cons_self))

/-- **Two nodes always come to a full session.**  In every state that they reach, whatever has been reset
before and whichever old packets are on their way: when neither has a context for the other and both have
a free one, one `ConnectTo`, three deliveries and then the events of the two connections, in every order in
which a connection arrives before it is heard of, leave both nodes with an accepted session of both
connections and all their streams, on the ports of their listeners and those that they have bound. -/
theorem nodes_establish (net : Network) (labels : List (Side × Label)) (s : Nodes)
    (run : exec (step net) {} labels = some s) (side : Side) (apart : ∀ i, s.Apart net i)
    (port : Side → UInt16) (bound : ∀ i, port i ≠ 0) (distinct : s.Distinct net port)
    (start : Side → StartOutcome) (accepts : ∀ i, (start i).Accepts) (opens : ∀ i, (start i).Opens)
    (now : Nat) :
    ∃ deliveries : List (Side × Packet PortPair), deliveries.length = 3 ∧
      ∃ (u : Nodes) (client server : Side → Hquic),
        exec (step net) s (connection net port now side ::
          deliveries.map fun (i, packet) => delivery net port now start i packet) = some u ∧
        ∀ order, Ordered needs [] order → (∀ event, event ∈ order) →
          ∃ t, exec (step net) u (order.map (eventLabel net port client server)) = some t ∧
            ∀ i, ∃ slot, (t.world i).Established (net.endpoint i.other) slot
              (portsOf (offer net port bound i) (some (offer net port bound i.other))) := by
  have sound : Always (step net) (fun s => s.Sound net ∧ s.Unopened) {} labels :=
    always_of_keeps (fun s _ t both taken =>
      ⟨sound_step both.1 taken, unopened_step both.1 both.2 taken⟩) labels
      ⟨sound_start net, fun _ _ _ => rfl⟩
  obtain ⟨sound, unopened⟩ := sound.last run
  obtain ⟨deliveries, three, v, u, slot, delivers, started⟩ :=
    started_of_apart sound side apart bound accepts now
  refine ⟨deliveries, three, u, fun i => (v.world i).conns.length, fun i => (u.world i).conns.length,
    delivers, ?_⟩
  intro order ordered every
  have begins : Arriving net port bound slot (fun i => (v.world i).conns.length)
      (fun i => (u.world i).conns.length) [] u := by
    intro i
    obtain ⟨allots, calls⟩ := started i
    simpa using World.arriving_of_starts allots (unopened i (slot i)) calls.starts (accepts i) (opens i)
      calls.engaged.isFor fun j => distinct i j
  obtain ⟨t, runs, arrived⟩ := exec_of_ordered
    (fun _ _ event arriving fresh met => arriving.advances event fresh met) ordered begins
  refine ⟨t, runs, ?_⟩
  intro i
  refine ⟨slot i, (arrived i).established ?_⟩
  intro e
  simpa using every (i, e)

/-- Our own connection is up before the peer's arrives, and the right node hears of everything later. -/
def sampleOrder : List (Side × QuicEvent) :=
  [Side.left, Side.right].flatMap fun i =>
    (QuicEvent.connected true :: QuicEvent.newConnection ::
      (List.finRange 4).map QuicEvent.streamStarted ++ [QuicEvent.connected false]).map fun e => (i, e)

/-- The left node has given up once; its old packet is still on its way. -/
theorem nodes_establish_again :
    ∃ s, exec (step sampleNetwork) {}
        [(.left, .connectTo (some ⟨9, 1⟩) (fun _ => false) (some 2) 0),
          (.left, .doCheck 0 (seconds 61))] = some s ∧
      ∃ deliveries : List (Side × Packet PortPair), deliveries.length = 3 ∧
        ∃ (u : Nodes) (client server : Side → Hquic),
          exec (step sampleNetwork) s (connection sampleNetwork (fun _ => 6) 0 .right ::
            deliveries.map fun (i, packet) => delivery sampleNetwork (fun _ => 6) 0
              (fun _ => World.sampleStart) i packet) = some u ∧
          ∃ t, exec (step sampleNetwork) u (sampleOrder.map
              (eventLabel sampleNetwork (fun _ => 6) client server)) = some t ∧
            ∀ i, ∃ slot, (t.world i).Established (sampleNetwork.endpoint i.other) slot
              ⟨(sampleNetwork.listener i.other).port, 6, (sampleNetwork.listener i).port, 6⟩ := by
  have reached : (exec (step sampleNetwork) {}
      [(.left, .connectTo (some ⟨9, 1⟩) (fun _ => false) (some 2) 0),
        (.left, .doCheck 0 (seconds 61))]).map (fun s =>
          (decide (s.Apart sampleNetwork .left), decide (s.Apart sampleNetwork .right),
            decide (∀ j, ((s.world .left).contexts j).ports.remoteClient ≠ 6),
            decide (∀ j, ((s.world .right).contexts j).ports.remoteClient ≠ 6))) =
      some (true, true, true, true) := by
    decide +kernel
  obtain ⟨s, run, facts⟩ := Option.map_eq_some_iff.1 reached
  simp only [Prod.mk.injEq, decide_eq_true_eq] at facts
  obtain ⟨left, right, unknown, unknown'⟩ := facts
  have apart : ∀ i, s.Apart sampleNetwork i := by
    intro i
    cases i with
    | left => exact left
    | right => exact right
  have distinct : s.Distinct sampleNetwork fun _ => 6 := by
    intro i j _
    cases i with
    | left => exact unknown j
    | right => exact unknown' j
  have every : ∀ event, event ∈ sampleOrder := by
    rintro ⟨i, e⟩
    cases i <;> cases e with
    | connected isClient => cases isClient <;> simp [sampleOrder]
    | _ => simp [sampleOrder]
  obtain ⟨deliveries, three, u, client, server, delivers, establishes⟩ := nodes_establish sampleNetwork _ s
    run .right apart (fun _ => 6) (fun _ => by decide) distinct (fun _ => World.sampleStart)
    (fun _ => ⟨rfl, rfl⟩) (fun _ => ⟨rfl, fun _ => rfl⟩) 0
  exact ⟨s, run, deliveries, three, u, client, server, delivers,
    establishes sampleOrder (by decide) every⟩

end Nodes

end Koisyn.Session
