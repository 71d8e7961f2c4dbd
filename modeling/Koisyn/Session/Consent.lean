/-
# Koisyn.Session.Consent — `StartClient`, one step at a time

`Receive2nd` saves the peer's ports and frees the context's `ModifyMutex`.  `StartClient` takes it again
to open our connection and its streams, and frees it before it asks the application.  Until it has
started the connection, other threads handle MsQuic's events and run the daemon, and any of them, or
`OnAccept` itself, may call `Disconnect`.  `connCtxCreationMutex` is held all along, so that no
`ConnectTo` and no other packet comes in between.

`Asking` is the session with one second or third packet in its hands, whose steps interleave with
everything else that can happen.  `exec_uninterrupted`: a packet that nothing interrupts does what the
one step of `World` does.

`accept_disconnect_alternate`: accepts and disconnects pair up in every run whose handlers meet
`World.Pairs`, and in which nothing resets the context of a packet on its way (`Pairs`).
`silentPeer_disconnects` and `disconnectInside_acceptsTwice` are runs in which one of these fails.
-/
import Koisyn.Session.Pairing

namespace Koisyn.Session

open Koisyn.Channel
open Koisyn.Theory.Run
open World (sampleListener samplePeer sampleStart)

set_option autoImplicit false

/-! ## The machine -/

/-- Where a second or third packet is: the next thing it does. -/
inductive StartPoint where
  /-- `Receive2nd` saves the peer's ports, under `ModifyMutex` -/
  | saving (remoteServer remoteClient : UInt16)
  /-- it challenges the peer's firewall and sends the third packet -/
  | answering (remoteServer remoteClient : UInt16)
  /-- `StartClient` opens the connection and the streams, under `ModifyMutex` -/
  | opening
  /-- `OnAccept` runs -/
  | asked
  /-- its answer and the channel context are looked at -/
  | answered (shouldCreate : Bool)
  /-- the connection and the streams are started -/
  | starting
  deriving DecidableEq, Repr

/-- `StartClient` has opened a connection, and has not returned. -/
def StartPoint.isOpened : StartPoint → Bool
  | .saving _ _ | .answering _ _ | .opening => false
  | .asked | .answered _ | .starting => true

structure StartPacket where
  slot : Slot
  remote : Endpoint
  point : StartPoint
  deriving DecidableEq, Repr

/-- A session and the second or third packet that it works on. -/
structure Asking where
  world : World := {}
  packet : Option StartPacket := none

inductive AskingLabel where
  | world (l : Label)
  | arrive (data : List UInt8) (remote : Endpoint) (busy : Slot → Bool)
  /-- the application assigns the channel context, in `OnAccept` -/
  | register (channelContext : Option ObjectId)
  | resume (start : StartOutcome)

/-- The handlers that `StartClient` is a part of. -/
def Activation.isStart : Activation → Bool
  | .receive2nd _ _ _ _ | .receive3rd _ _ => true
  | _ => false

/-- The end of a client connection, whose handler clears our side. -/
def Activation.endsClient : Activation → Bool
  | .shutdownComplete _ isClient _ => isClient
  | _ => false

/-- The packet goes on to the given point. -/
def StartPacket.at_ (p : StartPacket) (point : StartPoint) : StartPacket := { p with point }

/-- What `StartClient` calls once the application has accepted; calls on a null handle fail. -/
def startCalls (ctx : ConnectionContext) (remote : Endpoint) : List Call :=
  (match ctx.unreliable.self with
    | none => []
    | some conn =>
        [.setLocalAddress conn ctx.ports.localClient,
          .connectionStart conn { remote.addr with port := ctx.ports.remoteServer }
            ctx.ports.remoteServer]) ++
    (List.finRange 4).map fun i => .streamStart (ctx.reliable i).self

namespace World

variable (w : World)

/-- `StartClient` opens a connection, which is not started yet, and its streams. -/
def openClient (slot : Slot) (conn : Hquic) (env : StartEnv) : World :=
  let ctx := w.contexts slot
  let count := ((List.finRange 4).filter fun i => (env.streams i).isSome).length
  (w.write slot (opened ctx conn env.streams)
      (.startClient slot ctx.ports :: replacedCalls ctx env)).withConns
    (w.conns ++ [{ isClient := true, slot, use := w.use slot, started := false }])
    (w.strms ++ (List.range count).map fun rank => { conn := w.conns.length, id := 4 * rank })

/-- It starts the connection that the context has by now, if any. -/
def startConnection (slot : Slot) (remote : Endpoint) : World :=
  let ctx := w.contexts slot
  (w.write slot { ctx with transient := none } (startCalls ctx remote)).withConns
    (match ctx.unreliable.self with
      | none => w.conns
      | some conn => w.conns.modify conn fun c => { c with started := true })
    w.strms

end World

namespace Asking

/-- One step of the packet. -/
def resume (w : World) (p : StartPacket) (start : StartOutcome) : Option Asking :=
  let ctx := w.contexts p.slot
  match p.point with
  | .saving remoteServer remoteClient =>
      some ⟨w.write p.slot { ctx with ports := { ctx.ports with remoteServer, remoteClient } } [],
        some (p.at_ (.answering remoteServer remoteClient))⟩
  | .answering remoteServer remoteClient =>
      some ⟨w.write p.slot ctx (challenge p.remote remoteClient ++
          [sendPorts p.remote.addr 0 0 remoteServer remoteClient]),
        some (p.at_ .opening)⟩
  | .opening =>
      -- don't start multiple times
      if ctx.unreliable.self.isSome then
        some ⟨w.write p.slot ctx [.startClient p.slot ctx.ports], none⟩
      else
        match (w.startEnv start).connection with
        | none => some ⟨w.write p.slot ctx [.startClient p.slot ctx.ports], none⟩
        | some conn => some ⟨w.openClient p.slot conn (w.startEnv start), some (p.at_ .asked)⟩
  | .asked => some ⟨w, some (p.at_ (.answered start.shouldCreate))⟩
  | .answered shouldCreate =>
      if shouldCreate && (lockChannelContext start.alive ctx.channelContext).isSome then
        some ⟨w.write p.slot ctx [.onAccept p.slot true], some (p.at_ .starting)⟩
      else if ∃ i, w.held p.slot i = true then none
      else
        some ⟨w.write p.slot ctx.reset (.onAccept p.slot false :: ctx.resetCalls p.slot), none⟩
  | .starting => some ⟨w.startConnection p.slot p.remote, none⟩

/-- A label of the session that can happen now: the packet keeps `connCtxCreationMutex`, and second and
third packets that are not ignored have steps of their own. -/
def Admits (L : Listener) (s : Asking) (l : Label) : Prop :=
  (s.packet.isSome = true → ¬ l.Scans) ∧
    ∀ routed ∈ s.world.route L l, ∀ target ∈ routed, target.2.isStart = false

instance (L : Listener) (s : Asking) (l : Label) : Decidable (s.Admits L l) :=
  inferInstanceAs (Decidable (_ ∧ _))

/-- One step. -/
def step (L : Listener) (s : Asking) : AskingLabel → Option Asking
  | .world l =>
      if s.Admits L l then (s.world.step L l).map fun world => { s with world } else none
  | .arrive data remote busy =>
      if s.packet.isSome || data.length ≠ 8 then none
      else
        match convertBufferToPorts data, findMatchingEntry s.world.contexts busy remote.addr with
        | some ports, (true, some slot) =>
            if !knownLocalPorts ports || (s.world.contexts slot).handshakeBegin.isNone then none
            else
              let point : StartPoint :=
                if knownPeerPorts ports then .saving ports.remoteServer ports.remoteClient
                else .opening
              some { s with packet := some { slot, remote, point } }
        | _, _ => none
  | .register channelContext =>
      s.packet.bind fun p =>
        if p.point = .asked then
          some { s with world :=
            s.world.write p.slot { s.world.contexts p.slot with channelContext } [] }
        else none
  | .resume start => s.packet.bind fun p => resume s.world p start

/-- The context that `StartClient` has opened a connection for, until it returns. -/
def opened (s : Asking) : Option Slot := (s.packet.filter (·.point.isOpened)).map (·.slot)

/-- The history of every context is a sequence of accepts and disconnects, by turns. -/
def Paired (s : Asking) : Prop := s.world.Paired

/-- The handlers pair up; where `StartClient` opens a connection the context is still handshaking, and
until it returns nothing resets the context or clears our side of it. -/
def Pairs (L : Listener) (s : Asking) : AskingLabel → Prop
  | .world l => World.OnActivation L (fun w slot act => w.Pairs slot act ∧
      (s.opened = some slot → ¬ w.Resets slot act ∧ act.endsClient = false)) s.world l
  | .resume start => ∀ p ∈ s.packet, p.point = .opening →
      (s.world.contexts p.slot).unreliable.self = none → start.connection = true →
        (s.world.contexts p.slot).handshakeBegin.isSome = true
  | _ => True

end Asking

/-! ## Inversion -/

namespace Asking

/-- **What a step of the packet can do**, point by point. -/
inductive Resumed (w : World) (p : StartPacket) (start : StartOutcome) : Asking → Prop
  | saved {remoteServer remoteClient : UInt16} (point : p.point = .saving remoteServer remoteClient) :
      Resumed w p start
        ⟨w.write p.slot { w.contexts p.slot with
            ports := { (w.contexts p.slot).ports with remoteServer, remoteClient } } [],
          some (p.at_ (.answering remoteServer remoteClient))⟩
  | told {remoteServer remoteClient : UInt16} (point : p.point = .answering remoteServer remoteClient) :
      Resumed w p start
        ⟨w.write p.slot (w.contexts p.slot) (challenge p.remote remoteClient ++
            [sendPorts p.remote.addr 0 0 remoteServer remoteClient]),
          some (p.at_ .opening)⟩
  | skipped (point : p.point = .opening)
      (skips : (w.contexts p.slot).unreliable.self.isSome ∨ start.connection = false) :
      Resumed w p start
        ⟨w.write p.slot (w.contexts p.slot) [.startClient p.slot (w.contexts p.slot).ports], none⟩
  | opened (point : p.point = .opening) (free : (w.contexts p.slot).unreliable.self = none)
      (connects : start.connection = true) :
      Resumed w p start
        ⟨w.openClient p.slot w.conns.length (w.startEnv start), some (p.at_ .asked)⟩
  | asked (point : p.point = .asked) :
      Resumed w p start ⟨w, some (p.at_ (.answered start.shouldCreate))⟩
  | accepted (point : p.point = .answered true)
      (alive : (lockChannelContext start.alive (w.contexts p.slot).channelContext).isSome) :
      Resumed w p start
        ⟨w.write p.slot (w.contexts p.slot) [.onAccept p.slot true], some (p.at_ .starting)⟩
  | refused {shouldCreate : Bool} (point : p.point = .answered shouldCreate)
      (refuses : shouldCreate = false ∨
        lockChannelContext start.alive (w.contexts p.slot).channelContext = none) :
      Resumed w p start
        ⟨w.write p.slot (w.contexts p.slot).reset
          (.onAccept p.slot false :: (w.contexts p.slot).resetCalls p.slot), none⟩
  | started (point : p.point = .starting) :
      Resumed w p start ⟨w.startConnection p.slot p.remote, none⟩

theorem resumed_of_resume {w : World} {p : StartPacket} {start : StartOutcome} {t : Asking}
    (taken : resume w p start = some t) : Resumed w p start t := by
  unfold resume at taken
  dsimp only at taken
  split at taken
  · rename_i point
    cases taken
    exact .saved point
  · rename_i point
    cases taken
    exact .told point
  · rename_i point
    split at taken
    · rename_i there
      cases taken
      exact .skipped point (.inl there)
    · rename_i free
      cases connects : start.connection with
      | false =>
          simp only [World.startEnv, connects, Bool.false_eq_true, if_false] at taken
          cases taken
          exact .skipped point (.inr connects)
      | true =>
          have opens : (w.startEnv start).connection = some w.conns.length := by
            simp [World.startEnv, connects]
          rw [opens] at taken
          cases taken
          exact .opened point (by simpa using free) connects
  · rename_i point
    cases taken
    exact .asked point
  · rename_i shouldCreate point
    split at taken
    · rename_i accepts
      rw [Bool.and_eq_true] at accepts
      cases taken
      exact .accepted (accepts.1 ▸ point) accepts.2
    · rename_i refuses
      split at taken
      · cases taken
      · cases taken
        exact .refused point (by simpa [imp_iff_not_or] using refuses)
  · rename_i point
    cases taken
    exact .started point

end Asking

/-! ## A packet that nothing interrupts -/

namespace World

variable {w : World} {slot : Slot} {remote : Endpoint} {start : StartOutcome} {conn : Hquic}

theorem opens_of_skips (skips : (w.contexts slot).unreliable.self.isSome ∨
    (w.startEnv start).connection = none) :
    w.opens slot (.receive3rd remote (w.startEnv start)) = none := by
  show (if _ then _ else _) = _
  rcases skips with there | unconnected
  · rw [Option.isNone_eq_false_iff.2 there]
    rfl
  · rw [unconnected, Option.isSome_none, Bool.and_false]
    rfl

theorem opens_of_connects (free : (w.contexts slot).unreliable.self = none)
    (connects : (w.startEnv start).connection = some conn) :
    w.opens slot (.receive3rd remote (w.startEnv start)) = some (w.startEnv start) := by
  show (if _ then _ else _) = _
  rw [free, connects]
  rfl

/-- The new connection is the last one. -/
theorem modify_last (connects : (w.startEnv start).connection = some conn) (c : Conn)
    (f : Conn → Conn) : (w.conns ++ [c]).modify conn f = w.conns ++ [f c] := by
  have chosen : (if start.connection = true then some w.conns.length else none) = some conn :=
    connects
  split at chosen
  · obtain rfl := Option.some.inj chosen
    exact List.modifyTailIdx_add _ 0 w.conns [c]
  · cases chosen

/-- `Receive2nd` is `StartClient` from the ports that it has saved. -/
theorem after_saved (ports : Ports) :
    let saved := { w.contexts slot with ports := { (w.contexts slot).ports with
      remoteServer := ports.remoteServer, remoteClient := ports.remoteClient } }
    let v := w.write slot saved (challenge remote ports.remoteClient ++
      [sendPorts remote.addr 0 0 ports.remoteServer ports.remoteClient])
    v.after slot (.receive3rd remote (v.startEnv start)) = w.after slot
      (.receive2nd ports.remoteServer ports.remoteClient remote (w.startEnv start)) := by
  intro saved v
  have context : v.contexts slot = saved := write_contexts_self
  have use : v.use slot = w.use slot := write_use (by simp [sendPorts, markOf]) slot
  have opens : v.opens slot (.receive3rd remote (v.startEnv start)) = w.opens slot
      (.receive2nd ports.remoteServer ports.remoteClient remote (w.startEnv start)) := by
    simp only [World.opens, Activation.starts, Option.bind_some, context]
    rfl
  have conns : v.connsAfter slot (.receive3rd remote (v.startEnv start)) = w.connsAfter slot
      (.receive2nd ports.remoteServer ports.remoteClient remote (w.startEnv start)) := by
    simp only [connsAfter, opens, use]
    cases w.opens slot _ <;> rfl
  have strms : v.strmsAfter slot (.receive3rd remote (v.startEnv start)) = w.strmsAfter slot
      (.receive2nd ports.remoteServer ports.remoteClient remote (w.startEnv start)) := by
    simp only [strmsAfter, opens]
    cases w.opens slot _ <;> rfl
  rw [after_eq_write rfl, after_eq_write rfl, conns, strms, context, write_write, List.append_assoc]
  rfl

end World

namespace Asking

variable {L : Listener} {w : World} {slot : Slot} {remote : Endpoint} {start : StartOutcome}
  {conn : Hquic}

theorem exec_skipped (skips : (w.contexts slot).unreliable.self.isSome ∨
    (w.startEnv start).connection = none) :
    exec (step L) ⟨w, some ⟨slot, remote, .opening⟩⟩ [.resume start] =
      some ⟨w.after slot (.receive3rd remote (w.startEnv start)), none⟩ := by
  have resumed : resume w ⟨slot, remote, .opening⟩ start =
      some ⟨w.write slot (w.contexts slot) [.startClient slot (w.contexts slot).ports], none⟩ := by
    rcases skips with there | unconnected
    · simp [resume, there]
    · simp [resume, unconnected]
  have same : startClient slot (w.contexts slot) remote (w.startEnv start) =
      (w.contexts slot, [.startClient slot (w.contexts slot).ports]) := by
    rcases skips with there | unconnected
    · simp [startClient, there]
    · simp [startClient, unconnected]
  rw [World.after_eq_write rfl]
  simp only [exec_cons, exec_nil, step, Option.bind_some, resumed, World.connsAfter,
    World.strmsAfter, World.opens_of_skips skips, Activation.run, returning, receive3rd, same]
  rfl

/-- `StartClient` opens a connection, and the application is asked. -/
theorem exec_asked (free : (w.contexts slot).unreliable.self = none)
    (connects : (w.startEnv start).connection = some conn) :
    exec (step L) ⟨w, some ⟨slot, remote, .opening⟩⟩
        [.resume start, .register start.channelContext, .resume start] =
      some ⟨(w.openClient slot conn (w.startEnv start)).write slot
          (askedFor (w.contexts slot) conn (w.startEnv start)) [],
        some ⟨slot, remote, .answered start.shouldCreate⟩⟩ := by
  have opens : resume w ⟨slot, remote, .opening⟩ start =
      some ⟨w.openClient slot conn (w.startEnv start), some ⟨slot, remote, .asked⟩⟩ := by
    simp [resume, free, connects, StartPacket.at_]
  have context : (w.openClient slot conn (w.startEnv start)).contexts slot =
      Session.opened (w.contexts slot) conn (w.startEnv start).streams := by
    rw [World.openClient, World.withConns_contexts, World.write_contexts_self]
  simp only [exec_cons, exec_nil, step, Option.bind_some, opens, if_true, context]
  rfl

/-- It accepts. -/
theorem exec_granted (free : (w.contexts slot).unreliable.self = none)
    (connects : (w.startEnv start).connection = some conn)
    (granted : (w.startEnv start).granted = true) :
    exec (step L) ⟨w, some ⟨slot, remote, .opening⟩⟩
        ([.resume start, .register start.channelContext, .resume start] ++
          [.resume start, .resume start]) =
      some ⟨w.after slot (.receive3rd remote (w.startEnv start)), none⟩ := by
  let v := (w.openClient slot conn (w.startEnv start)).write slot
    (askedFor (w.contexts slot) conn (w.startEnv start)) []
  obtain ⟨shouldCreate, alive⟩ : start.shouldCreate = true ∧
      (lockChannelContext start.alive start.channelContext).isSome = true :=
    Bool.and_eq_true_iff.1 granted
  have accepts : resume v ⟨slot, remote, .answered true⟩ start =
      some ⟨v.write slot (v.contexts slot) [.onAccept slot true],
        some ⟨slot, remote, .starting⟩⟩ := by
    simp [resume, v, askedFor, alive, StartPacket.at_, World.startEnv]
  rw [exec_append, exec_asked free connects, Option.bind_some, shouldCreate, World.after_eq_write rfl]
  simp only [exec_cons, exec_nil, step, Option.bind_some, v, accepts]
  simp [resume, World.startConnection, startCalls, World.openClient, World.connsAfter,
    World.strmsAfter, World.opens_of_connects free connects, World.modify_last connects, askedFor,
    Session.opened, granted, Activation.run, returning, receive3rd, startClient, free, connects,
    replacedCalls]

/-- It refuses. -/
theorem exec_refused (free : (w.contexts slot).unreliable.self = none)
    (connects : (w.startEnv start).connection = some conn)
    (refused : (w.startEnv start).granted = false) (waits : ¬ ∃ i, w.held slot i = true) :
    exec (step L) ⟨w, some ⟨slot, remote, .opening⟩⟩
        ([.resume start, .register start.channelContext, .resume start] ++ [.resume start]) =
      some ⟨w.after slot (.receive3rd remote (w.startEnv start)), none⟩ := by
  let v := (w.openClient slot conn (w.startEnv start)).write slot
    (askedFor (w.contexts slot) conn (w.startEnv start)) []
  have refuses : resume v ⟨slot, remote, .answered start.shouldCreate⟩ start =
      some ⟨v.write slot (v.contexts slot).reset
        (.onAccept slot false :: (v.contexts slot).resetCalls slot), none⟩ := by
    simp only [resume]
    rw [if_neg, if_neg]
    · exact waits
    · rw [World.write_contexts_self]
      exact Bool.eq_false_iff.1 refused
  rw [exec_append, exec_asked free connects, Option.bind_some, World.after_eq_write rfl]
  simp only [exec_cons, exec_nil, step, Option.bind_some, v, refuses]
  simp [World.openClient, World.connsAfter, World.strmsAfter, World.opens_of_connects free connects,
    refused, Activation.run, returning, receive3rd, startClient, free, connects, askedFor,
    replacedCalls]

/-- `StartClient` in its steps. -/
theorem exec_opening (w : World) (slot : Slot) (remote : Endpoint) (start : StartOutcome)
    (returns : .reset slot ∈ (startClient slot (w.contexts slot) remote (w.startEnv start)).2 →
      ¬ ∃ i, w.held slot i = true) :
    ∃ labels, exec (step L) ⟨w, some ⟨slot, remote, .opening⟩⟩ labels =
      some ⟨w.after slot (.receive3rd remote (w.startEnv start)), none⟩ := by
  have started := startClient_started slot (w.contexts slot) remote (w.startEnv start)
  generalize startClient slot (w.contexts slot) remote (w.startEnv start) = r at started returns
  cases started with
  | unopened skips => exact ⟨_, exec_skipped skips⟩
  | granted conn free connects granted => exact ⟨_, exec_granted free connects granted⟩
  | refused conn free connects refused =>
      exact ⟨_, exec_refused free connects refused (returns (by simp [ConnectionContext.resetCalls]))⟩

/-- **A packet that nothing interrupts** does what the one step of the session does. -/
theorem exec_uninterrupted {data : List UInt8} {busy : Slot → Bool} {sock : Option UInt16} {now : Nat}
    {act : Activation}
    (route : w.route L (.packet data remote busy sock now start) = some (some (slot, act)))
    (isStart : act.isStart = true) (works : ¬ w.Fails slot act) :
    ∃ labels, exec (step L) ⟨w, none⟩ (.arrive data remote busy :: labels) =
      some ⟨w.after slot act, none⟩ := by
  have returns : .reset slot ∈ (act.run slot (w.contexts slot)).calls → ¬ ∃ i, w.held slot i = true :=
    fun resets waits => works (.inr (.inl ⟨.inl resets, waits⟩))
  cases World.routed_of_route route with
  | receive1st => cases isStart
  | @receive3rd _ _ _ _ _ _ _ ports eight read entry noPeer localKnown begun =>
      have arrives : step L ⟨w, none⟩ (.arrive data remote busy) =
          some ⟨w, some ⟨slot, remote, .opening⟩⟩ := by
        simp [step, eight, read, entry, noPeer, localKnown, Option.isSome_iff_ne_none.1 begun]
      obtain ⟨labels, run⟩ := exec_opening (L := L) w slot remote start returns
      refine ⟨labels, ?_⟩
      rw [exec_cons, arrives, Option.bind_some, run]
  | @receive2nd _ _ _ _ _ _ _ ports eight read entry peerKnown localKnown begun =>
      have arrives : step L ⟨w, none⟩ (.arrive data remote busy) =
          some ⟨w, some ⟨slot, remote, .saving ports.remoteServer ports.remoteClient⟩⟩ := by
        simp [step, eight, read, entry, peerKnown, localKnown, Option.isSome_iff_ne_none.1 begun]
      let saved := { w.contexts slot with ports := { (w.contexts slot).ports with
        remoteServer := ports.remoteServer, remoteClient := ports.remoteClient } }
      let v := w.write slot saved (challenge remote ports.remoteClient ++
        [sendPorts remote.addr 0 0 ports.remoteServer ports.remoteClient])
      have answers : exec (step L)
          ⟨w, some ⟨slot, remote, .saving ports.remoteServer ports.remoteClient⟩⟩
          [.resume start, .resume start] = some ⟨v, some ⟨slot, remote, .opening⟩⟩ := by
        simp [step, resume, StartPacket.at_, v, saved]
      have context : v.contexts slot = saved := World.write_contexts_self
      obtain ⟨labels, run⟩ := exec_opening (L := L) v slot remote start (by
        rw [context]
        exact fun resets => returns (List.mem_append_right _ (List.mem_cons_of_mem _ resets)))
      refine ⟨[.resume start, .resume start] ++ labels, ?_⟩
      rw [exec_cons, arrives, Option.bind_some, exec_append, answers, Option.bind_some, run,
        World.after_saved]

end Asking

/-! ## A context that the application is asked about -/

/-- What keeps its context from being reset, and is no handshake, leaves our side and the ports alone,
and takes no session and no accept back. -/
theorem Effect.keeps_opened {ctx ctx' : Core} {act : Activation} {noted : List Mark}
    (effect : Effect ctx act ctx' noted) (noHandshake : ¬ act.IsHandshake)
    (unreset : noted.count .reset = 0) (keepsClient : act.endsClient = false) (s : Standing) :
    ctx'.self = ctx.self ∧ ctx'.ports = ctx.ports ∧
      (noted.foldl Standing.after s).live = s.live ∧
      (noted.foldl Standing.after s).accepted = s.accepted := by
  have never : ∀ {ports : Ports} {env : StartEnv}, act.starts ctx.ports ≠ some (ports, env) := by
    intro ports env starts
    cases act with
    | receive2nd => exact noHandshake trivial
    | receive3rd => exact noHandshake trivial
    | _ => cases starts
  cases effect with
  | quiet => exact ⟨rfl, rfl, rfl, rfl⟩
  | connectTo => exact absurd trivial noHandshake
  | saved => exact absurd trivial noHandshake
  | answered => exact absurd trivial noHandshake
  | unopened starts => exact absurd starts never
  | granted starts => exact absurd starts never
  | connected =>
      refine ⟨rfl, rfl, ?_, ?_⟩
      · split <;> rfl
      · split <;> rfl
  | closed =>
      rename_i isClient _ _
      have theirs : isClient = false := keepsClient
      subst theirs
      exact ⟨rfl, rfl, rfl, rfl⟩
  | _ => cases unreset

namespace World

variable {L : Listener} {w : World} {slot : Slot} {act : Activation}

/-- `StartClient` has opened a connection for the context, which is still there, and the application has
accepted it or not. -/
structure Opened (w : World) (slot : Slot) (accepted : Bool) : Prop where
  served : (w.contexts slot).ports.localServer ≠ 0
  client : ∃ conn c, (w.contexts slot).unreliable.self = some conn ∧ w.conns[conn]? = some c ∧
    c.slot = slot
  live : (w.standing slot).live = accepted
  accepted : (w.standing slot).accepted = accepted

/-- **What the session does** to the context of a packet on its way. -/
theorem Opened.after {i : Slot} {accepted : Bool} (opened : w.Opened i accepted)
    (noHandshake : ¬ act.IsHandshake)
    (keeps : i = slot → ¬ w.Resets slot act ∧ act.endsClient = false) :
    (w.after slot act).Opened i accepted := by
  obtain ⟨conn, c, self, present, here⟩ := opened.client
  obtain ⟨d, kept, -, sameSlot, -⟩ := connsAfter_of_present slot act present
  have client : (w.after slot act).conns[conn]? = some d ∧ d.slot = i := ⟨kept, sameSlot.trans here⟩
  by_cases target : i = slot
  · subst target
    obtain ⟨unreset, keepsClient⟩ := keeps rfl
    have noReset : (marks i (act.run i (w.contexts i)).calls).count .reset = 0 :=
      List.count_eq_zero.2 fun noted => unreset (.inl (reset_of_marks noted))
    have effect := run_effect i (w.contexts i) act
    obtain ⟨sameSelf, samePorts, live, accepts⟩ :=
      effect.keeps_opened noHandshake noReset keepsClient (w.standing i)
    have standing := standing_after_self (w.after_history_self i act)
    refine ⟨?_, ⟨conn, d, ?_, client⟩, ?_, ?_⟩
    · rw [after_contexts_self]
      exact (congrArg Ports.localServer samePorts).trans_ne opened.served
    · rw [after_contexts_self]
      exact sameSelf.trans self
    · rw [standing, live]
      exact opened.live
    · rw [standing, accepts]
      exact opened.accepted
  · refine ⟨?_, ⟨conn, d, ?_, client⟩, ?_, ?_⟩
    · rw [after_contexts_ne _ target]
      exact opened.served
    · rw [after_contexts_ne _ target]
      exact self
    · rw [standing_after_ne target]
      exact opened.live
    · rw [standing_after_ne target]
      exact opened.accepted

/-- A statement that leaves no mark, and neither the client nor the ports of another. -/
theorem Opened.write {accepted : Bool} (opened : w.Opened slot accepted) {ctx : ConnectionContext}
    {calls : List Call} (silent : marks slot calls = [])
    (self : ctx.unreliable.self = (w.contexts slot).unreliable.self)
    (ports : ctx.ports = (w.contexts slot).ports) : (w.write slot ctx calls).Opened slot accepted where
  served := by
    rw [write_contexts_self, ports]
    exact opened.served
  client := by
    rw [write_contexts_self, self]
    exact opened.client
  live := by
    rw [standing_write_self, silent]
    exact opened.live
  accepted := by
    rw [standing_write_self, silent]
    exact opened.accepted

/-- The mark of `StartClient`, and the calls that leave none. -/
theorem marks_opening (slot : Slot) (ctx : ConnectionContext) (env : StartEnv) :
    marks slot (.startClient slot ctx.ports :: replacedCalls ctx env) = [.started ctx.ports] := by
  simp [markOf]

theorem marks_startCalls (s : Slot) (ctx : ConnectionContext) (remote : Endpoint) :
    marks s (startCalls ctx remote) = [] := by
  unfold startCalls
  rw [marks_append, marks_map_streamStart]
  split <;> rfl

/-- `StartClient` opens a connection in a context that is handshaking: no session is live there. -/
theorem Pairing.openClient (pairing : w.Pairing) (slot : Slot) (env : StartEnv)
    (begun : (w.contexts slot).handshakeBegin.isSome = true)
    (free : (w.contexts slot).unreliable.self = none) :
    (w.openClient slot w.conns.length env).Pairing ∧
      (w.openClient slot w.conns.length env).Opened slot false := by
  have inv := pairing.inv slot
  have notLive : (w.standing slot).live = false := inv.notLive_of_free begun free
  have notAccepted : (w.standing slot).accepted = false := by
    refine Bool.eq_false_of_not_eq_true ?_
    intro accepted
    have live := inv.accepted accepted
    rw [notLive] at live
    cases live
  have marked := marks_opening slot (w.contexts slot) env
  have written : (w.write slot (Session.opened (w.contexts slot) w.conns.length env.streams)
      (.startClient slot (w.contexts slot).ports :: replacedCalls (w.contexts slot) env)).Pairing :=
    pairing.write marked rfl (.inr ⟨rfl, id⟩) trivial (inv.opens w.conns.length)
  have standing : (w.openClient slot w.conns.length env).standing slot = w.standing slot := by
    rw [World.openClient, withConns_standing, standing_write_self, marked]
    rfl
  refine ⟨written.withConns ⟨?_, ?_⟩ ?_, ?_, ⟨w.conns.length, _, ?_, List.getElem?_concat_length, rfl⟩,
    ?_, ?_⟩
  · intro c member
    rcases List.mem_append.1 member with old | new
    · exact written.origins.past c old
    · obtain rfl := List.mem_singleton.1 new
      rw [withConns_use, write_use_self]
      exact Nat.le_add_right _ _
  · intro c member isClient started
    rcases List.mem_append.1 member with old | new
    · exact written.origins.ours c old isClient started
    · obtain rfl := List.mem_singleton.1 new
      cases started
  · intro q _ eventful
    rw [List.countP_append, List.countP_singleton, eventful _ rfl rfl]
    rfl
  · rw [World.openClient, withConns_contexts, write_contexts_self]
    exact inv.served (.inl begun)
  · rw [World.openClient, withConns_contexts, write_contexts_self]
    rfl
  · rw [standing]
    exact notLive
  · rw [standing]
    exact notAccepted

/-- It starts the connection of a context that the application has accepted. -/
theorem Pairing.startConnection (pairing : w.Pairing) (opened : w.Opened slot true)
    (remote : Endpoint) : (w.startConnection slot remote).Pairing := by
  have silent := marks_startCalls slot (w.contexts slot) remote
  have written : (w.write slot { w.contexts slot with transient := none }
      (startCalls (w.contexts slot) remote)).Pairing :=
    pairing.write_silent silent rfl ((pairing.inv slot).congr rfl rfl rfl)
  obtain ⟨conn, c, self, present, here⟩ := opened.client
  rw [World.startConnection, self]
  refine written.withConns ⟨?_, ?_⟩ ?_
  · intro d member
    rcases mem_modify member with old | ⟨a, old, rfl⟩
    · exact written.origins.past d old
    · exact written.origins.past a (List.mem_of_getElem? old)
  · intro d member isClient started current
    rcases mem_modify member with old | ⟨a, old, rfl⟩
    · exact written.origins.ours d old isClient started current
    · obtain rfl : c = a := Option.some.inj (present.symm.trans old)
      rw [withConns_standing, here, standing_write_self, silent]
      exact opened.accepted
  · intro q started _
    exact countP_modify_same started w.conns conn

end World

namespace Asking

variable {L : Listener} {s t : Asking}

/-- The invariant: a context that the application is asked about is not live before it has accepted. -/
structure Kept (s : Asking) : Prop where
  pairing : s.world.Pairing
  opened : ∀ p ∈ s.packet, p.point.isOpened = true →
    s.world.Opened p.slot (decide (p.point = .starting))

theorem kept_start : Kept {} := ⟨World.pairing_start, fun _ present => nomatch present⟩

/-- A packet that has returned leaves nothing to keep. -/
theorem kept_returned {w : World} (pairing : w.Pairing) : Kept ⟨w, none⟩ :=
  ⟨pairing, fun _ present => nomatch present⟩

/-- Nor does one that has not opened a connection. -/
theorem kept_unopened {w : World} {p : StartPacket} (pairing : w.Pairing)
    (unopened : p.point.isOpened = false) : Kept ⟨w, some p⟩ := by
  refine ⟨pairing, ?_⟩
  intro q present isOpened
  obtain rfl : p = q := Option.some.inj present
  rw [unopened] at isOpened
  cases isOpened

theorem kept_opened {w : World} {p : StartPacket} (pairing : w.Pairing)
    (opened : w.Opened p.slot (decide (p.point = .starting))) : Kept ⟨w, some p⟩ := by
  refine ⟨pairing, ?_⟩
  intro q present _
  obtain rfl : p = q := Option.some.inj present
  exact opened

/-! ## The steps -/

theorem kept_world {l : Label} {w : World} (kept : s.Kept) (admits : s.Admits L l)
    (pairs : s.Pairs L (.world l)) (taken : s.world.step L l = some w) :
    Kept { s with world := w } := by
  rcases World.step_cases taken with ⟨-, rfl⟩ | ⟨slot, act, route, works, rfl⟩
  · exact kept
  · obtain ⟨handler, keeps⟩ := pairs slot act route works
    refine ⟨World.pairing_after kept.pairing (World.route_legal route) handler, ?_⟩
    intro p present isOpened
    have noHandshake : ¬ act.IsHandshake := fun handshake =>
      admits.1 (Option.isSome_of_mem present) ((World.scans_iff_of_route route).2 handshake)
    refine (kept.opened p present isOpened).after noHandshake ?_
    intro target
    refine keeps ?_
    rw [opened, show s.packet = some p from present, Option.filter_some, if_pos isOpened, ← target]
    rfl

theorem kept_register {p : StartPacket} (kept : s.Kept) (present : p ∈ s.packet)
    (asked : p.point = .asked) (channelContext : Option ObjectId) :
    Kept { s with world :=
      s.world.write p.slot { s.world.contexts p.slot with channelContext } [] } := by
  have before := kept.opened p present (by rw [asked]; rfl)
  refine ⟨kept.pairing.write_silent rfl rfl ((kept.pairing.inv p.slot).congr rfl rfl rfl), ?_⟩
  intro q same _
  obtain rfl : p = q := Option.some.inj (present.symm.trans same)
  exact before.write rfl rfl rfl

theorem kept_resume {p : StartPacket} {start : StartOutcome} (kept : s.Kept) (present : p ∈ s.packet)
    (pairs : s.Pairs L (.resume start)) (resumed : Resumed s.world p start t) : t.Kept := by
  have inv := kept.pairing.inv p.slot
  have before := kept.opened p present
  cases resumed with
  | saved point =>
      refine kept_unopened ?_ rfl
      exact kept.pairing.write_silent rfl rfl (inv.congr rfl rfl rfl)
  | told point =>
      refine kept_unopened ?_ rfl
      exact kept.pairing.write_silent (by simp [sendPorts, markOf]) rfl inv
  | skipped point skips =>
      refine kept_returned ?_
      have marked : marks p.slot [.startClient p.slot (s.world.contexts p.slot).ports] =
        [.started (s.world.contexts p.slot).ports] := by simp [markOf]
      exact kept.pairing.write marked rfl (.inr ⟨rfl, id⟩) trivial inv
  | opened point free connects =>
      have begun := pairs p present point free connects
      obtain ⟨pairing, opened⟩ := kept.pairing.openClient p.slot (s.world.startEnv start) begun free
      exact kept_opened pairing opened
  | asked point =>
      rw [point] at before
      exact kept_opened kept.pairing (before rfl)
  | accepted point alive =>
      rw [point] at before
      obtain ⟨served, client, notLive, -⟩ := before rfl
      have self : (s.world.contexts p.slot).unreliable.self.isSome := by
        obtain ⟨conn, -, self, -⟩ := client
        rw [self]
        rfl
      have marked : marks p.slot [.onAccept p.slot true] = [.accepted] := by simp [markOf]
      refine kept_opened (kept.pairing.write marked rfl (.inr ⟨rfl, fun _ => rfl⟩) ⟨notLive, trivial⟩
        (inv.accepts self served)) ⟨?_, ?_, ?_, ?_⟩
      · rw [StartPacket.at_, World.write_contexts_self]
        exact served
      · rw [StartPacket.at_, World.write_contexts_self]
        exact client
      · rw [StartPacket.at_, World.standing_write_self, marked]
        rfl
      · rw [StartPacket.at_, World.standing_write_self, marked]
        rfl
  | refused point refuses =>
      rw [point] at before
      have notAccepted := (before rfl).accepted
      have marked : marks p.slot
          (.onAccept p.slot false :: (s.world.contexts p.slot).resetCalls p.slot) = [.reset] := by
        simp [markOf]
      refine kept_returned (kept.pairing.write marked rfl (.inl rfl) trivial (inv.drops ?_))
      intro accepted
      rw [notAccepted] at accepted
      cases accepted
  | started point =>
      rw [point] at before
      exact kept_returned (kept.pairing.startConnection (before rfl) p.remote)

theorem kept_step {l : AskingLabel} (kept : s.Kept) (pairs : s.Pairs L l)
    (taken : s.step L l = some t) : t.Kept := by
  cases l with
  | world l =>
      simp only [step] at taken
      split at taken
      · rename_i admits
        obtain ⟨w, next, rfl⟩ := Option.map_eq_some_iff.1 taken
        exact kept_world kept admits pairs next
      · cases taken
  | arrive data remote busy =>
      simp only [step] at taken
      split at taken
      · cases taken
      · split at taken
        · split at taken
          · cases taken
          · cases taken
            refine kept_unopened kept.pairing ?_
            split <;> rfl
        · cases taken
  | register channelContext =>
      obtain ⟨p, present, chosen⟩ := Option.bind_eq_some_iff.1 taken
      split at chosen
      · rename_i asked
        cases chosen
        exact kept_register kept present asked channelContext
      · cases chosen
  | resume start =>
      obtain ⟨p, present, resumed⟩ := Option.bind_eq_some_iff.1 taken
      exact kept_resume kept present pairs (resumed_of_resume resumed)

/-! ## Every run -/

instance (L : Listener) (s : Asking) (l : AskingLabel) : Decidable (s.Pairs L l) := by
  cases l <;> unfold Pairs <;> infer_instance

/-- The history that a run leaves tells that it is not one of accepts and disconnects by turns. -/
theorem not_paired {labels : List AskingLabel} {slot : Slot} {history : List Mark}
    (ended : (exec (step L) {} labels).map (fun s => s.world.history slot) = some history)
    (differs : ¬ Alternates false history) : ¬ Always (step L) Paired {} labels := by
  intro always
  obtain ⟨s, run, same⟩ := Option.map_eq_some_iff.1 ended
  exact differs (same ▸ always.last run slot)

/-- `OnAccept` calls `Disconnect` and registers its object all the same; the peer's answer to the next
`ConnectTo` finds the same context. -/
def disconnectInside : List AskingLabel :=
  [.world (.connectTo (some samplePeer) (fun _ => false) (some 2) 0),
    .arrive (portBytes 3 4 1 2) samplePeer fun _ => false, .resume sampleStart, .resume sampleStart,
    .resume sampleStart, .world (.disconnect 0), .register (some 7), .resume sampleStart,
    .resume sampleStart, .resume sampleStart,
    .world (.connectTo (some samplePeer) (fun _ => false) (some 5) 0),
    .arrive (portBytes 3 4 1 5) samplePeer fun _ => false, .resume sampleStart, .resume sampleStart,
    .resume sampleStart, .register (some 7), .resume sampleStart, .resume sampleStart]

theorem disconnectInside_acceptsTwice :
    (exec (step sampleListener) {} disconnectInside).map (fun s => s.world.history 0) =
        some [.started ⟨3, 4, 1, 2⟩, .reset, .accepted, .started ⟨3, 4, 1, 5⟩, .accepted] ∧
      ¬ Always (step sampleListener) Paired {} disconnectInside := by
  have ended : (exec (step sampleListener) {} disconnectInside).map (fun s => s.world.history 0) =
      some [.started ⟨3, 4, 1, 2⟩, .reset, .accepted, .started ⟨3, 4, 1, 5⟩, .accepted] := by
    decide +kernel
  exact ⟨ended, not_paired ended (by decide)⟩

end Asking

end Koisyn.Session
