/-
# Koisyn.Session.ConnectionLedger — who holds a connection, from one activation to the next

A `SharedConnection` is in `Unreliable.Self` or `Unreliable.Peer` of some context, or it has been let go.
`seats` counts the sides of one context that hold a handle, and `run_seats` is the law of every
activation: what was held and what the activation got from MsQuic is still held or has been let go, as
often as it was.  `seated_after` says more of where: a connection of ours sits in `Self` and one of the
peer's in `Peer`, in the context that is its callback context, and in no other.
-/
import Koisyn.Session.RefusedConnection
import Koisyn.Session.StreamLedger

namespace Koisyn.Session

open Koisyn.Channel

set_option autoImplicit false

/-! ## Counting -/

/-- The number of sides that hold a connection. -/
def seats (chn : DatagramChannel) (conn : Hquic) : Nat :=
  (if chn.self = some conn then 1 else 0) + if chn.peer = some conn then 1 else 0

/-- How often a connection has been let go. -/
def lettings (conn : Hquic) (calls : List Call) : Nat := calls.count (.connectionShutdown conn)

theorem seats_pos {chn : DatagramChannel} {conn : Hquic} :
    0 < seats chn conn ↔ chn.self = some conn ∨ chn.peer = some conn := by
  unfold seats
  split <;> split <;> simp_all

theorem unheld_iff {ctx : ConnectionContext} {conn : Hquic} :
    Unheld ctx conn ↔ seats ctx.unreliable conn = 0 := by
  rw [← Nat.le_zero, ← Nat.not_lt, seats_pos, not_or]
  exact ⟨fun unheld => ⟨unheld.self, unheld.peer⟩, fun none_ => ⟨none_.1, none_.2⟩⟩

section Calls

variable {conn : Hquic} {calls more : List Call}

@[simp] theorem lettings_nil : lettings conn [] = 0 := rfl

@[simp] theorem lettings_append :
    lettings conn (calls ++ more) = lettings conn calls + lettings conn more :=
  List.count_append

@[simp] theorem lettings_releaseConnection (held : Option Hquic) :
    lettings conn (releaseConnection held) = if held = some conn then 1 else 0 := by
  cases held with
  | none => rfl
  | some other => by_cases same : other = conn <;> simp [lettings, releaseConnection, same]

/-- Calls that let no connection go. -/
def Keeping (calls : List Call) : Prop := ∀ conn, .connectionShutdown conn ∉ calls

theorem Keeping.lettings (keeping : Keeping calls) (conn : Hquic) : lettings conn calls = 0 :=
  List.count_eq_zero.2 (keeping conn)

theorem keeping_nil : Keeping [] := fun _ => List.not_mem_nil

theorem keeping_releaseStream (strm : Option Hquic) : Keeping (releaseStream strm) := by
  cases strm <;> simp [Keeping, releaseStream]

theorem keeping_append (first : Keeping calls) (second : Keeping more) : Keeping (calls ++ more) := by
  intro conn member
  rcases List.mem_append.1 member with here | later
  · exact first conn here
  · exact second conn later

theorem keeping_flatMap {ι : Type} (xs : List ι) (f : ι → List Call) (keeping : ∀ x, Keeping (f x)) :
    Keeping (xs.flatMap f) := by
  intro conn member
  obtain ⟨x, -, member⟩ := List.mem_flatMap.1 member
  exact keeping x conn member

theorem keeping_map {ι : Type} (xs : List ι) (f : ι → Call)
    (keeping : ∀ x conn, f x ≠ .connectionShutdown conn) : Keeping (xs.map f) := by
  intro conn member
  obtain ⟨x, -, same⟩ := List.mem_map.1 member
  exact keeping x conn same

theorem keeping_challenge (remote : Endpoint) (port : UInt16) : Keeping (challenge remote port) := by
  unfold challenge
  split <;> simp [Keeping]

end Calls

/-! ## The ledger of an activation -/

/-- **What an activation does with connections.**  Those held before and the one it got, ours or the
peer's, are held after or have been let go; none changes sides. -/
structure SeatLedger (before : DatagramChannel) (got : Option (Hquic × Bool))
    (after : DatagramChannel) (calls : List Call) : Prop where
  balance : ∀ conn, seats before conn + (if got.map (·.1) = some conn then 1 else 0) =
    seats after conn + lettings conn calls
  self : ∀ conn, after.self = some conn → before.self = some conn ∨ got = some (conn, true)
  peer : ∀ conn, after.peer = some conn → before.peer = some conn ∨ got = some (conn, false)

section Rules

variable {before between after : DatagramChannel} {got : Option (Hquic × Bool)}
variable {calls more : List Call}

theorem seatLedger_same (keeping : Keeping calls) (self : after.self = before.self)
    (peer : after.peer = before.peer) : SeatLedger before none after calls where
  balance conn := by
    rw [keeping.lettings, seats, seats, self, peer]
    simp
  self conn held := .inl (self ▸ held)
  peer conn held := .inl (peer ▸ held)

/-- One after the other. -/
theorem SeatLedger.trans (first : SeatLedger before got between calls)
    (second : SeatLedger between none after more) : SeatLedger before got after (calls ++ more) where
  balance conn := by
    have balanced := first.balance conn
    have rest : seats between conn + 0 = seats after conn + lettings conn more := second.balance conn
    rw [lettings_append]
    omega
  self conn held := first.self conn ((second.self conn held).resolve_right fun new => by cases new)
  peer conn held := first.peer conn ((second.peer conn held).resolve_right fun new => by cases new)

theorem SeatLedger.after_keeping (first : SeatLedger before got after calls) (keeping : Keeping more) :
    SeatLedger before got after (calls ++ more) :=
  first.trans (seatLedger_same keeping rfl rfl)

theorem SeatLedger.before_keeping (keeping : Keeping calls)
    (ledger : SeatLedger before got after more) : SeatLedger before got after (calls ++ more) where
  balance conn := by
    rw [lettings_append, keeping.lettings, Nat.zero_add]
    exact ledger.balance conn
  self := ledger.self
  peer := ledger.peer

theorem seatLedger_reset (slot : Slot) (ctx : ConnectionContext) :
    SeatLedger ctx.unreliable none ctx.reset.unreliable (ctx.resetCalls slot) where
  balance conn := by
    have first : Keeping [.reset slot] := by simp [Keeping]
    have streams : Keeping (.reset slot :: (List.finRange 4).flatMap fun i =>
        releaseStream (ctx.reliable i).self ++ releaseStream (ctx.reliable i).peer) :=
      keeping_append first (keeping_flatMap _ _ fun _ =>
        keeping_append (keeping_releaseStream _) (keeping_releaseStream _))
    rw [ConnectionContext.resetCalls, lettings_append, lettings_append, streams.lettings]
    simp [seats, ConnectionContext.reset]
  self _ held := by cases held
  peer _ held := by cases held

theorem seatLedger_clearSide (ctx : ConnectionContext) (isClient : Bool) :
    SeatLedger ctx.unreliable none (clearSide ctx isClient).unreliable
      (clearSideCalls ctx isClient) := by
  have streams : ∀ side : Fin 4 → Option Hquic,
      Keeping ((List.finRange 4).flatMap fun i => releaseStream (side i)) :=
    fun side => keeping_flatMap _ _ fun _ => keeping_releaseStream _
  cases isClient with
  | true =>
      refine ⟨?_, fun conn held => ?_, fun conn held => .inl held⟩
      · intro conn
        have kept := (streams fun i => (ctx.reliable i).self).lettings conn
        simp only [clearSideCalls, if_true, lettings_append, kept]
        simp [seats, clearSide, Nat.add_comm]
      · cases held
  | false =>
      refine ⟨?_, fun conn held => .inl held, fun conn held => ?_⟩
      · intro conn
        have kept := (streams fun i => (ctx.reliable i).peer).lettings conn
        simp only [clearSideCalls, Bool.false_eq_true, if_false, lettings_append, kept]
        simp [seats, clearSide]
      · cases held

end Rules

/-! ## The handlers -/

theorem shutdownComplete_seats (slot : Slot) (ctx : ConnectionContext) (conn : Hquic)
    (isClient : Bool) (alive : ObjectId → Bool) :
    SeatLedger ctx.unreliable none (shutdownComplete slot ctx conn isClient alive).1.unreliable
      (shutdownComplete slot ctx conn isClient alive).2 := by
  have closing : Keeping [.connectionClose conn] := by simp [Keeping]
  have cleared := seatLedger_clearSide ctx isClient
  unfold shutdownComplete
  dsimp only
  split
  · let counted : ConnectionContext := { clearSide ctx isClient with
      refCount := (clearSide ctx isClient).refCount - 1 }
    have told : Keeping [.onDisconnect slot (lockChannelContext alive counted.channelContext)] := by
      simp [Keeping]
    have reset := SeatLedger.before_keeping told (seatLedger_reset slot counted)
    exact (cleared.trans reset).after_keeping closing
  · exact cleared.after_keeping closing

/-- The connection that `StartClient` opens. -/
def opensConnection (ctx : ConnectionContext) (env : StartEnv) : Option (Hquic × Bool) :=
  if ctx.unreliable.self.isNone then env.connection.map fun conn => (conn, true) else none

theorem startClient_seats (slot : Slot) (ctx : ConnectionContext) (remote : Endpoint)
    (env : StartEnv) :
    SeatLedger ctx.unreliable (opensConnection ctx env) (startClient slot ctx remote env).1.unreliable
      (startClient slot ctx remote env).2 := by
  have asks : ∀ answer : Bool,
      Keeping (.startClient slot ctx.ports :: replacedCalls ctx env ++ [.onAccept slot answer]) := by
    intro answer
    have starts : Keeping [.startClient slot ctx.ports] := by simp [Keeping]
    refine keeping_append (keeping_append starts ?_) ?_
    · apply keeping_flatMap
      intro i
      split
      · exact keeping_releaseStream _
      · exact keeping_nil
    · simp [Keeping]
  have asked : ∀ {conn : Hquic} (answer : Bool), ctx.unreliable.self = none →
      env.connection = some conn →
      SeatLedger ctx.unreliable (opensConnection ctx env) (askedFor ctx conn env).unreliable
        (.startClient slot ctx.ports :: replacedCalls ctx env ++ [.onAccept slot answer]) := by
    intro conn answer free opens
    have got : opensConnection ctx env = some (conn, true) := by
      simp [opensConnection, free, opens]
    refine ⟨fun other => ?_, fun other held => ?_, fun other held => .inl held⟩
    · rw [(asks answer).lettings, got]
      by_cases same : conn = other <;>
        by_cases peer : ctx.unreliable.peer = some other <;>
          simp [seats, askedFor, opened, free, same, peer]
    · rw [got]
      cases held
      exact .inr rfl
  have started := startClient_started slot ctx remote env
  generalize startClient slot ctx remote env = r at started ⊢
  cases started with
  | unopened skips =>
      have unopened : opensConnection ctx env = none := by
        rw [opensConnection]
        rcases skips with taken | failed
        · exact if_neg (by simp [Option.isNone_eq_false_iff.2 taken])
        · rw [failed, Option.map_none, ite_self]
      rw [unopened]
      exact seatLedger_same (by simp [Keeping]) rfl rfl
  | granted conn free opens granted =>
      have begins : Keeping [.setLocalAddress conn ctx.ports.localClient,
          .connectionStart conn { remote.addr with port := ctx.ports.remoteServer }
            ctx.ports.remoteServer] := by simp [Keeping]
      refine ((asked true free opens).after_keeping begins).after_keeping ?_
      exact keeping_map _ _ fun _ _ => Call.noConfusion
  | refused conn free opens refused =>
      exact (asked false free opens).trans (seatLedger_reset slot (askedFor ctx conn env))

theorem receive1st_seats (ctx : ConnectionContext) (remoteServer remoteClient : UInt16)
    (remote : Endpoint) (localServer : UInt16) (sock : Option UInt16) (now : Nat) :
    SeatLedger ctx.unreliable none
      (receive1st ctx remoteServer remoteClient remote localServer sock now).1.unreliable
      (receive1st ctx remoteServer remoteClient remote localServer sock now).2 := by
  have challenged := keeping_challenge remote remoteClient
  have sends : ∀ (dest : QuicAddr) (a b c d : UInt16), Keeping [sendPorts dest a b c d] := by
    simp [Keeping, sendPorts]
  unfold receive1st
  dsimp only
  split
  · cases sock with
    | none => exact seatLedger_same challenged rfl rfl
    | some localClient =>
        exact seatLedger_same (keeping_append challenged (sends _ _ _ _ _)) rfl rfl
  · exact seatLedger_same (keeping_append challenged (sends _ _ _ _ _)) rfl rfl

theorem doCheck_seats (slot : Slot) (ctx : ConnectionContext) (now : Nat) :
    SeatLedger ctx.unreliable none (doCheck slot ctx now).1.unreliable (doCheck slot ctx now).2 := by
  have checked := doCheck_checked slot ctx now
  generalize doCheck slot ctx now = r at checked ⊢
  cases checked with
  | idle => exact seatLedger_same keeping_nil rfl rfl
  | longStop => exact seatLedger_reset slot ctx
  | shortStop => exact (seatLedger_reset slot ctx).after_keeping (by simp [Keeping])
  | retry => exact seatLedger_same (by simp [Keeping, sendPorts]) rfl rfl

theorem newConnection_seats (slot : Slot) (ctx : ConnectionContext) (conn : Hquic) :
    SeatLedger ctx.unreliable (some (conn, false)) (newConnection slot ctx conn).1.unreliable
      (newConnection slot ctx conn).2 := by
  have registered : Keeping [.connectionSetCallbackHandler conn slot,
      .connectionSetConfiguration conn] := by simp [Keeping]
  refine ⟨fun other => ?_, fun other held => .inl held, fun other held => ?_⟩
  · rw [newConnection, lettings_append, registered.lettings]
    simp only [seats, lettings_releaseConnection, Option.map_some, Option.some.injEq]
    omega
  · cases held
    exact .inr rfl

theorem datagramReceived_seats (slot : Slot) (ctx : ConnectionContext) (buf : List UInt8)
    (alive : ObjectId → Bool) :
    SeatLedger ctx.unreliable none (datagramReceived slot ctx buf alive).ctx.unreliable
      (datagramReceived slot ctx buf alive).calls := by
  have took := datagramReceived_took slot ctx buf alive
  generalize (datagramReceived slot ctx buf alive).ctx = after,
    (datagramReceived slot ctx buf alive).calls = calls at took ⊢
  cases took with
  | dropped => exact seatLedger_reset slot ctx
  | left => exact seatLedger_same keeping_nil rfl rfl
  | taken => exact seatLedger_same (by simp [Keeping]) rfl rfl

theorem receive_seats (slot : Slot) (ctx : ConnectionContext) (id : Nat) (ev : ReceiveEvent)
    (alive : ObjectId → Bool) :
    SeatLedger ctx.unreliable none (handleReceive slot alive id ev ctx).ctx.unreliable
      (handleReceive slot alive id ev ctx).calls := by
  have delivered : ∀ (index : Fin 4) (payloads : List (List UInt8)) (channelCtx : ObjectId),
      Keeping (payloads.map fun data => .onReliableReceive slot index data channelCtx) :=
    fun _ _ _ => keeping_map _ _ fun _ _ => Call.noConfusion
  have received := handleReceive_received slot alive id ev ctx
  generalize (handleReceive slot alive id ev ctx).ctx = after,
    (handleReceive slot alive id ev ctx).calls = calls at received ⊢
  cases received with
  | dropped => exact seatLedger_reset slot ctx
  | left => exact seatLedger_same keeping_nil rfl rfl
  | read => exact seatLedger_same (delivered _ _ _) rfl rfl
  | blocked =>
      refine seatLedger_same (keeping_append (delivered _ _ _) ?_) rfl rfl
      exact keeping_flatMap _ _ fun _ =>
        keeping_append (keeping_releaseStream _) (keeping_releaseStream _)

theorem peerStreamStarted_seats (slot : Slot) (ctx : ConnectionContext) (strm : Hquic) (id : Nat) :
    SeatLedger ctx.unreliable none (peerStreamStarted slot ctx strm id).ctx.unreliable
      (peerStreamStarted slot ctx strm id).calls := by
  unfold peerStreamStarted
  split
  · exact seatLedger_same (keeping_append (keeping_releaseStream _) (by simp [Keeping])) rfl rfl
  · exact seatLedger_same keeping_nil rfl rfl

theorem unreliablePacketSend_seats (ctx : ConnectionContext) (data : List UInt8) (env : SendEnv) :
    SeatLedger ctx.unreliable none (unreliablePacketSend ctx data env).2.1.unreliable
      (unreliablePacketSend ctx data env).2.2 := by
  unfold unreliablePacketSend
  dsimp only
  split
  · exact seatLedger_same keeping_nil rfl rfl
  · split
    · exact seatLedger_same keeping_nil rfl rfl
    · refine seatLedger_same (keeping_append ?_ ?_) rfl rfl
      · exact keeping_map _ _ fun _ _ => Call.noConfusion
      · split <;> simp [Keeping]

namespace World

variable (w : World)

/-- The connection that an activation gets from MsQuic, and whether it is ours. -/
def newConn (slot : Slot) (act : Activation) : Option (Hquic × Bool) :=
  match w.opens slot act, act with
  | some env, _ => env.connection.map fun conn => (conn, true)
  | none, .newConnection conn _ => some (conn, false)
  | none, _ => none

/-- **The ledger of every activation.** -/
theorem run_seats (slot : Slot) (act : Activation) :
    SeatLedger (w.contexts slot).unreliable (w.newConn slot act)
      (act.run slot (w.contexts slot)).ctx.unreliable (act.run slot (w.contexts slot)).calls := by
  let ctx := w.contexts slot
  have opens : ∀ {ports : Ports} {env : StartEnv}, act.starts ctx.ports = some (ports, env) →
      w.newConn slot act = opensConnection ctx env := by
    intro ports env starts
    have chosen : w.opens slot act =
        if ctx.unreliable.self.isNone && env.connection.isSome then some env else none := by
      rw [World.opens, starts]
      rfl
    have notNew : ∀ conn configured, act ≠ .newConnection conn configured := by
      rintro conn configured rfl
      cases starts
    unfold newConn opensConnection
    rw [chosen]
    cases free : ctx.unreliable.self.isNone <;> cases opened : env.connection <;>
      cases act <;> simp [opened] at notNew ⊢
  cases act with
  | connectTo remote localServer localClient now =>
      exact seatLedger_same (by simp [Keeping, sendPorts, Activation.run, returning, connectTo]) rfl rfl
  | receive1st remoteServer remoteClient remote localServer sock now =>
      exact receive1st_seats ctx remoteServer remoteClient remote localServer sock now
  | receive2nd remoteServer remoteClient remote env =>
      rw [opens rfl]
      let saved : ConnectionContext := { ctx with ports := { ctx.ports with remoteServer, remoteClient } }
      have sent : Keeping (challenge remote remoteClient ++
          [sendPorts remote.addr 0 0 remoteServer remoteClient]) :=
        keeping_append (keeping_challenge _ _) (by simp [Keeping, sendPorts])
      have ledger := SeatLedger.before_keeping sent (startClient_seats slot saved remote env)
      rw [List.append_assoc] at ledger
      exact ledger
  | receive3rd remote env =>
      rw [opens rfl]
      exact startClient_seats slot ctx remote env
  | doCheck now => exact doCheck_seats slot ctx now
  | newConnection conn configured => exact newConnection_seats slot ctx conn
  | connected conn =>
      refine seatLedger_same ?_ rfl rfl
      show Keeping (if _ then _ else _)
      split <;> simp [Keeping]
  | shutdownComplete conn isClient alive =>
      exact shutdownComplete_seats slot ctx conn isClient alive
  | peerStreamStarted conn strm id => exact peerStreamStarted_seats slot ctx strm id
  | datagramStateChanged maxSendLength => exact seatLedger_same keeping_nil rfl rfl
  | datagramReceived buf alive => exact datagramReceived_seats slot ctx buf alive
  | receive id ev alive => exact receive_seats slot ctx id ev alive
  | disconnect => exact seatLedger_reset slot ctx
  | unreliablePacketSend data env => exact unreliablePacketSend_seats ctx data env

/-! ## New handles -/

variable {w} {L : Listener} {slot : Slot} {act : Activation}

/-- `StartClient` opens the next connection. -/
theorem next_of_startEnv {start : StartOutcome} {conn : Hquic}
    (opens : (w.startEnv start).connection = some conn) : w.conns.length = conn := by
  have isNext : (w.startEnv start).connection =
    if start.connection then some w.conns.length else none := rfl
  rw [isNext] at opens
  split at opens
  · exact Option.some.inj opens
  · cases opens

/-- **The connection of an activation has a new handle**, the next one, and a record with its side and
its slot. -/
theorem newConn_of_route {l : Label} (route : w.route L l = some (some (slot, act))) :
    (w.newConn slot act = none ∧ (w.after slot act).conns.length = w.conns.length) ∨
      ∃ c, w.newConn slot act = some (w.conns.length, c.isClient) ∧ c.slot = slot ∧
        c.closed = false ∧ (w.after slot act).conns.length = w.conns.length + 1 ∧
        (w.after slot act).conns[w.conns.length]? = some c := by
  show _ ∧ (w.connsAfter slot act).length = _ ∨ ∃ c, _ ∧ _ ∧ _ ∧ (w.connsAfter slot act).length = _ ∧
    (w.connsAfter slot act)[w.conns.length]? = _
  unfold newConn connsAfter
  cases opened : w.opens slot act with
  | some env =>
      obtain ⟨ports, conn, starts, -, opens⟩ := opens_some opened
      obtain ⟨start, rfl⟩ := startEnv_of_route route starts
      have next : (w.startEnv start).connection = some w.conns.length := by
        rw [opens, next_of_startEnv opens]
      let c : Conn := { isClient := true, slot, use := w.use slot, started := (w.startEnv start).granted }
      refine .inr ⟨c, congrArg (Option.map fun conn => (conn, true)) next, rfl, rfl, ?_, ?_⟩
      · simp
      · exact List.getElem?_concat_length
  | none =>
      cases act with
      | newConnection conn configured =>
          obtain rfl : conn = w.conns.length := route_legal route
          let c : Conn := { isClient := false, slot, use := w.use slot, started := configured }
          have appended : ∀ kept : List Conn, kept.length = w.conns.length →
              (kept ++ [c]).length = w.conns.length + 1 ∧ (kept ++ [c])[w.conns.length]? = some c := by
            intro kept same
            rw [← same]
            exact ⟨by simp, List.getElem?_concat_length⟩
          refine .inr ⟨c, rfl, rfl, rfl, appended _ ?_⟩
          split
          · rfl
          · exact List.length_modify _ _ _
      | connected conn => exact .inl ⟨rfl, List.length_modify _ _ _⟩
      | shutdownComplete conn isClient alive => exact .inl ⟨rfl, List.length_modify _ _ _⟩
      | _ => exact .inl ⟨rfl, rfl⟩

/-- A connection keeps its place, its side and its slot, and stays closed. -/
theorem connsAfter_follows (slot : Slot) (act : Activation) {conn : Hquic} {d : Conn}
    (present : w.conns[conn]? = some d) : ∃ c, (w.after slot act).conns[conn]? = some c ∧
      c.isClient = d.isClient ∧ c.slot = d.slot ∧ (d.closed = true → c.closed = true) := by
  have inside : conn < w.conns.length := (List.getElem?_eq_some_iff.1 present).1
  have modified : ∀ (i : Nat) (f : Conn → Conn),
      (∀ c, (f c).isClient = c.isClient ∧ (f c).slot = c.slot ∧ (c.closed = true → (f c).closed = true)) →
      ∃ c, (w.conns.modify i f)[conn]? = some c ∧
        c.isClient = d.isClient ∧ c.slot = d.slot ∧ (d.closed = true → c.closed = true) := by
    intro i f same
    rw [List.getElem?_modify, present]
    split
    · exact ⟨f d, rfl, same d⟩
    · exact ⟨d, rfl, rfl, rfl, id⟩
  show ∃ c, (w.connsAfter slot act)[conn]? = _ ∧ _
  unfold connsAfter
  split
  · rw [List.getElem?_append_left inside]
    exact ⟨d, present, rfl, rfl, id⟩
  · dsimp only
    split
    · rw [List.getElem?_append_left inside]
      exact ⟨d, present, rfl, rfl, id⟩
    · rw [List.getElem?_append_left (by rwa [List.length_modify])]
      exact modified _ _ fun _ => ⟨rfl, rfl, id⟩
  · exact modified _ _ fun _ => ⟨rfl, rfl, id⟩
  · exact modified _ _ fun _ => ⟨rfl, rfl, fun _ => rfl⟩
  · exact ⟨d, present, rfl, rfl, id⟩

/-- A connection that has had its last event is closed. -/
theorem closed_after_shutdown (slot : Slot) {conn : Hquic} (isClient : Bool) (alive : ObjectId → Bool)
    {c : Conn} (present : (w.after slot (.shutdownComplete conn isClient alive)).conns[conn]? = some c) :
    c.closed = true := by
  have modified : (w.conns.modify conn fun c => { c with closed := true })[conn]? = some c := present
  rw [List.getElem?_modify] at modified
  obtain ⟨d, -, same⟩ := Option.map_eq_some_iff.1 modified
  rw [if_pos rfl] at same
  exact same ▸ rfl

/-! ## The whole session -/

/-- The number of sides that hold a connection. -/
def owners (w : World) (conn : Hquic) : Nat := ∑ slot, seats (w.contexts slot).unreliable conn

theorem seats_le_owners (slot : Slot) (conn : Hquic) :
    seats (w.contexts slot).unreliable conn ≤ w.owners conn :=
  Finset.single_le_sum (f := fun slot => seats (w.contexts slot).unreliable conn)
    (fun _ _ => Nat.zero_le _) (Finset.mem_univ slot)

theorem owners_eq_zero {conn : Hquic} :
    w.owners conn = 0 ↔ ∀ slot, Unheld (w.contexts slot) conn := by
  simp only [owners, Finset.sum_eq_zero_iff, Finset.mem_univ, true_imp_iff]
  exact forall_congr' fun slot => unheld_iff.symm

/-- The ledger of a step of the session. -/
theorem owners_after (slot : Slot) (act : Activation) (conn : Hquic) :
    w.owners conn + (if (w.newConn slot act).map (·.1) = some conn then 1 else 0) =
      (w.after slot act).owners conn + lettings conn (act.run slot (w.contexts slot)).calls := by
  have balance := (w.run_seats slot act).balance conn
  have rest : ∑ i ∈ Finset.univ.erase slot, seats ((w.after slot act).contexts i).unreliable conn =
      ∑ i ∈ Finset.univ.erase slot, seats (w.contexts i).unreliable conn := by
    refine Finset.sum_congr rfl fun i member => ?_
    rw [after_contexts_ne _ (Finset.ne_of_mem_erase member)]
  rw [owners, owners, ← Finset.add_sum_erase _ _ (Finset.mem_univ slot),
    ← Finset.add_sum_erase _ _ (Finset.mem_univ slot), rest, after_contexts_self]
  omega

/-- A connection sits on its own side of the context that is its callback context. -/
structure Seated (w : World) : Prop where
  self : ∀ slot conn, (w.contexts slot).unreliable.self = some conn →
    ∃ c, w.conns[conn]? = some c ∧ c.slot = slot ∧ c.isClient = true
  peer : ∀ slot conn, (w.contexts slot).unreliable.peer = some conn →
    ∃ c, w.conns[conn]? = some c ∧ c.slot = slot ∧ c.isClient = false

theorem seated_start : Seated {} where
  self _ _ held := by cases held
  peer _ _ held := by cases held

theorem seated_after {l : Label} (seated : w.Seated)
    (route : w.route L l = some (some (slot, act))) : (w.after slot act).Seated := by
  have ledger := w.run_seats slot act
  have stays : ∀ {i : Slot} {conn : Hquic} {isClient : Bool},
      (∃ c, w.conns[conn]? = some c ∧ c.slot = i ∧ c.isClient = isClient) →
      ∃ c, (w.after slot act).conns[conn]? = some c ∧ c.slot = i ∧ c.isClient = isClient := by
    rintro i conn isClient ⟨d, present, rfl, rfl⟩
    obtain ⟨c, kept, side, slot, -⟩ := connsAfter_follows slot act present
    exact ⟨c, kept, slot, side⟩
  have fresh : ∀ {conn : Hquic} {isClient : Bool}, w.newConn slot act = some (conn, isClient) →
      ∃ c, (w.after slot act).conns[conn]? = some c ∧ c.slot = slot ∧ c.isClient = isClient := by
    intro conn isClient got
    rcases newConn_of_route route with ⟨nothing, -⟩ | ⟨c, next, here, -, -, present⟩
    · rw [nothing] at got
      cases got
    · obtain ⟨rfl, rfl⟩ := Prod.mk.inj (Option.some.inj (next.symm.trans got))
      exact ⟨c, present, here, rfl⟩
  refine ⟨fun i conn held => ?_, fun i conn held => ?_⟩
  · by_cases here : i = slot
    · subst here
      rw [after_contexts_self] at held
      exact (ledger.self conn held).elim (fun old => stays (seated.self i conn old)) fresh
    · rw [after_contexts_ne _ here] at held
      exact stays (seated.self i conn held)
  · by_cases here : i = slot
    · subst here
      rw [after_contexts_self] at held
      exact (ledger.peer conn held).elim (fun old => stays (seated.peer i conn old)) fresh
    · rw [after_contexts_ne _ here] at held
      exact stays (seated.peer i conn held)

/-- `SHUTDOWN_COMPLETE` clears the side of its connection, which then sits nowhere. -/
theorem unheld_after_shutdown {conn : Hquic} {c : Conn} (seated : w.Seated)
    (present : w.conns[conn]? = some c) (alive : ObjectId → Bool) (i : Slot) :
    Unheld ((w.after c.slot (.shutdownComplete conn c.isClient alive)).contexts i) conn := by
  have side : ∀ {i : Slot} {isClient : Bool},
      (∃ d, w.conns[conn]? = some d ∧ d.slot = i ∧ d.isClient = isClient) →
      i = c.slot ∧ isClient = c.isClient := by
    rintro i isClient ⟨d, again, rfl, rfl⟩
    rw [present] at again
    cases again
    exact ⟨rfl, rfl⟩
  by_cases here : i = c.slot
  · subst here
    rw [after_contexts_self]
    show Unheld (Session.shutdownComplete c.slot (w.contexts c.slot) conn c.isClient alive).1 conn
    have notSelf : c.isClient = false → (w.contexts c.slot).unreliable.self ≠ some conn := by
      intro isPeer held
      have differ := (side (seated.self c.slot conn held)).2
      rw [isPeer] at differ
      cases differ
    have notPeer : c.isClient = true → (w.contexts c.slot).unreliable.peer ≠ some conn := by
      intro isOurs held
      have differ := (side (seated.peer c.slot conn held)).2
      rw [isOurs] at differ
      cases differ
    unfold Session.shutdownComplete
    dsimp only
    split
    · exact unheld_reset _ conn
    · cases ours : c.isClient with
      | true => exact ⟨by simp [clearSide], notPeer ours⟩
      | false => exact ⟨notSelf ours, by simp [clearSide]⟩
  · rw [after_contexts_ne _ here]
    exact ⟨fun held => here (side (seated.self i conn held)).1,
      fun held => here (side (seated.peer i conn held)).1⟩

end World

end Koisyn.Session
