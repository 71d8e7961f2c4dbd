/-
# Koisyn.Session.Locks — which thread locks what, and the callbacks in between

The lock operations of every handler, of the daemon's pass and of the methods, in program order:
`Activation.lockOps` for the part that works on one context, `World.lockOps` for a whole label with the
scan of the contexts and `connCtxCreationMutex` around it.  The calls in a trace are the callbacks of
the application, which may call methods of the session from inside each; `callsOf_lockOps` says that
they are the callbacks the handler makes.

`no_self_lock_iff` is exact: a thread locks a mutex again that it holds if a `RECEIVE` begins beyond the
bytes received so far, whose branch resets the context under the channel's `RecvMutex`, or if a callback
calls one of the methods it cannot (`Call.Forbids`), and in no other case.
-/
import Koisyn.Session.World
import Koisyn.Theory.LockTrace

namespace Koisyn.Session

open Koisyn.Channel
open Koisyn.Theory.Run
open Koisyn.Theory.LockTrace

set_option autoImplicit false

/-- The mutexes of a session; `none` is the datagram channel's `RecvMutex`. -/
inductive Mutex where
  | connCtxCreation
  | modify (slot : Slot)
  | recv (slot : Slot) (channel : Option (Fin 4))
  deriving DecidableEq, Repr

abbrev LockOp := Op Mutex Call

/-! ## The handlers -/

/-- `ConnectionContext::Reset`: each channel's `Reset` locks its `RecvMutex` for a moment. -/
def resetOps (slot : Slot) : List LockOp :=
  ((List.finRange 4).flatMap fun i => guarded (.recv slot (some i)) []) ++
    guarded (.recv slot none) []

/-- `StartClient`; `OnAccept` is called when the `ModifyMutex` is free again. -/
def startClientOps (slot : Slot) (ctx : ConnectionContext) (env : StartEnv) : List LockOp :=
  guarded (.modify slot) [] ++
    if ctx.unreliable.self.isSome || env.connection.isNone then []
    else .call (.onAccept slot env.granted) :: if env.granted then [] else resetOps slot

/-- The loop over the buffers under the channel's `RecvMutex`, which an activation that spins keeps. -/
def readOps (slot : Slot) (index : Fin 4) (channelCtx : ObjectId) (r : ReadResult) : List LockOp :=
  let callbacks : List LockOp := r.delivered.map fun data =>
    .call (.onReliableReceive slot index data channelCtx)
  match r.exit with
  | .returned _ => guarded (.recv slot (some index)) callbacks
  | .corrupt => guarded (.recv slot (some index)) (callbacks ++ resetOps slot)
  | .spins | .overruns => .lock (.recv slot (some index)) :: callbacks

/-- `Handle_QUIC_STREAM_EVENT_RECEIVE`. -/
def receiveOps (slot : Slot) (ctx : ConnectionContext) (id : Nat) (ev : ReceiveEvent)
    (alive : ObjectId → Bool) : List LockOp :=
  match lockChannelContext alive ctx.channelContext with
  | none => resetOps slot
  | some channelCtx =>
      if inRange : (id >>> 2) % 2 ^ 32 < 4 then
        let index : Fin 4 := ⟨(id >>> 2) % 2 ^ 32, inRange⟩
        let chn := ctx.reliable index
        if ev.absoluteOffset + ev.totalBufferLength ≤ chn.nextRecvByte then
          guarded (.recv slot (some index)) []
        else
          readOps slot index channelCtx
            (readBuffers chn chn.nextRecvByte ev.absoluteOffset ev.buffers)
      else []

/-- What a handler locks, and the callbacks it makes. -/
def Activation.lockOps (slot : Slot) (ctx : ConnectionContext) : Activation → List LockOp
  | .connectTo _ _ _ _ | .receive1st _ _ _ _ _ _ => []
  | .receive2nd _ _ _ env => guarded (.modify slot) [] ++ startClientOps slot ctx env
  | .receive3rd _ env => startClientOps slot ctx env
  | .doCheck now =>
      guarded (.modify slot) <|
        match ctx.handshakeBegin with
        | none => []
        | some handshakeBegin =>
            if now - handshakeBegin < retryTimeout - milliseconds 2 then []
            else if longStops (now - handshakeBegin) then resetOps slot
            else if shortStops ctx.ports (now - handshakeBegin) then
              resetOps slot ++ [.call (.onDisconnect slot none)]
            else []
  | .newConnection _ _ | .connected _ | .peerStreamStarted _ _ _ | .datagramStateChanged _ =>
      guarded (.modify slot) []
  | .shutdownComplete _ _ alive =>
      guarded (.modify slot) <|
        if ctx.refCount - 1 = 0 then
          .call (.onDisconnect slot (lockChannelContext alive ctx.channelContext)) :: resetOps slot
        else []
  | .datagramReceived buf alive =>
      match lockChannelContext alive ctx.channelContext with
      | none => resetOps slot
      | some channelCtx =>
          if buf.length < 4 then []
          else
            guarded (.recv slot none) <|
              if ctx.unreliable.nextRecvPacket = UInt32.ofNat (Theory.Bytes.ofBigEndian (buf.take 4)) then
                [.call (.onUnreliableReceive slot (buf.drop 4) channelCtx)]
              else []
  | .receive id ev alive => receiveOps slot ctx id ev alive
  | .disconnect => guarded (.modify slot) (resetOps slot)
  | .unreliablePacketSend _ _ => []

/-- The slots a loop visits that ends at the first one with `p`. -/
def slotsThrough (p : Slot → Bool) : List Slot :=
  ((List.finRange maxConnections).takeWhile fun i => !p i) ++
    ((List.finRange maxConnections).find? p).toList

namespace World

/-- `FindMatchingEntry` tries the mutex of each context up to the one that matches. -/
def scanOps (w : World) (busy : Slot → Bool) (remote : Endpoint) : List LockOp :=
  (slotsThrough fun i =>
    !busy i && quicAddrCompare (w.contexts i).remoteSentinel remote.addr).map fun i =>
      .probe (.modify i)

/-- What the activation of a label locks. -/
def activationOps (L : Listener) (w : World) (l : Label) : List LockOp :=
  match w.route L l with
  | some (some (slot, act)) => act.lockOps slot (w.contexts slot)
  | _ => []

/-- What the thread of a label locks. -/
def lockOps (L : Listener) (w : World) (l : Label) : List LockOp :=
  match l with
  | .connectTo parsed busy _ _ =>
      match parsed with
      | none => []
      | some remote => guarded .connCtxCreation (w.scanOps busy remote ++ w.activationOps L l)
  | .packet data remote busy _ _ _ =>
      if data.length ≠ 8 then []
      else guarded .connCtxCreation (w.scanOps busy remote ++ w.activationOps L l)
  | .newConnection remote _ =>
      (slotsThrough fun i =>
        remote.port == (w.contexts i).ports.remoteClient &&
          quicAddrCompareIp (w.contexts i).remoteSentinel remote).flatMap fun i =>
            guarded (.modify i) []
  | _ => w.activationOps L l

end World

/-! ## The methods a callback may call -/

/-- A method of `KoiChan` or `KoiSession`; `scanned` are the contexts whose mutex `FindMatchingEntry`
tries. -/
inductive Method where
  | disconnect (slot : Slot)
  | reliablePacketSend (slot : Slot) (channel : Nat)
  | unreliablePacketSend (slot : Slot)
  | connectTo (parsed : Option Endpoint) (scanned : List Slot)

def Method.lockOps : Method → List LockOp
  | .disconnect slot => guarded (.modify slot) (resetOps slot)
  | .reliablePacketSend _ _ | .unreliablePacketSend _ => []
  | .connectTo parsed scanned =>
      if parsed.isSome then guarded .connCtxCreation (scanned.map fun i => .probe (.modify i)) else []

/-- The methods that the application calls in a callback. -/
abbrev App := Call → List Method

/-- The thread with what the application does in its callbacks. -/
def App.lockOps (app : App) (ops : List LockOp) : List LockOp :=
  during (fun call => (app call).flatMap Method.lockOps) ops

/-- The mutexes that are held when a callback is called. -/
def heldIn : Call → List Mutex
  | .onAccept _ _ => [.connCtxCreation]
  | .onDisconnect slot _ => [.modify slot]
  | .onReliableReceive slot index _ _ => [.recv slot (some index)]
  | .onUnreliableReceive slot _ _ => [.recv slot none]
  | _ => []

/-- The methods that a callback cannot call: `ConnectTo` with a valid address in `OnAccept`, and
`Disconnect` of its own channel in the others. -/
def Forbids : Call → Method → Prop
  | .onAccept _ _, .connectTo parsed _ => parsed.isSome = true
  | .onDisconnect slot _, .disconnect s => s = slot
  | .onReliableReceive slot _ _ _, .disconnect s => s = slot
  | .onUnreliableReceive slot _ _, .disconnect s => s = slot
  | _, _ => False

/-- A `RECEIVE` whose first buffer begins beyond the bytes received so far. -/
def Activation.MeetsGap (ctx : ConnectionContext) : Activation → Prop
  | .receive id ev alive => ∃ index : Fin 4, (id >>> 2) % 2 ^ 32 = index ∧
      (lockChannelContext alive ctx.channelContext).isSome = true ∧
      (ctx.reliable index).nextRecvByte < ev.absoluteOffset ∧ ev.buffers ≠ []
  | _ => False

/-! ## The rules of the pieces -/

theorem keepsIff_moment (hs : List Mutex) (m : Mutex) :
    KeepsIff hs (guarded m ([] : List LockOp)) (m ∉ hs) := by
  by_cases again : m ∈ hs
  · exact (keepsIff_guarded_again again []).congr (by simp [again])
  · exact (KeepsIff.guarded again (keepsIff_nil _)).congr (by simp [again])

theorem keepsIff_resetOps (hs : List Mutex) (slot : Slot) :
    KeepsIff hs (resetOps slot) (∀ channel, Mutex.recv slot channel ∉ hs) := by
  have streams : KeepsIff hs ((List.finRange 4).flatMap fun i =>
      guarded (.recv slot (some i)) ([] : List LockOp)) _ :=
    KeepsIff.flatMap fun i _ => keepsIff_moment hs (.recv slot (some i))
  refine (streams.append (keepsIff_moment hs (.recv slot none))).congr ?_
  simp only [List.mem_finRange, true_imp_iff]
  constructor
  · rintro ⟨some_, none_⟩ (_ | i)
    · exact none_
    · exact some_ i
  · exact fun free => ⟨fun i => free (some i), free none⟩

/-- **The rule of the methods.**  A method locks a mutex that is held in the callback exactly if the
callback forbids it. -/
theorem keepsIff_method (call : Call) (m : Method) :
    KeepsIff (heldIn call) m.lockOps (¬ Forbids call m) := by
  cases m with
  | disconnect slot =>
      by_cases again : Mutex.modify slot ∈ heldIn call
      · refine (keepsIff_guarded_again again _).congr ?_
        cases call <;> simp_all [heldIn, Forbids]
      · refine (KeepsIff.guarded again (keepsIff_resetOps _ slot)).congr ?_
        cases call <;> simp_all [heldIn, Forbids]
  | reliablePacketSend slot channel => exact (keepsIff_nil _).congr (by cases call <;> simp [Forbids])
  | unreliablePacketSend slot => exact (keepsIff_nil _).congr (by cases call <;> simp [Forbids])
  | connectTo parsed scanned =>
      cases parsed with
      | none => exact (keepsIff_nil _).congr (by cases call <;> simp [Forbids])
      | some remote =>
          have scans : KeepsIff (.connCtxCreation :: heldIn call)
              (scanned.map fun i => (.probe (.modify i) : LockOp)) True :=
            ⟨fun _ => held_map_probe _ _ _, fun never => absurd trivial never⟩
          by_cases again : Mutex.connCtxCreation ∈ heldIn call
          · refine (keepsIff_guarded_again again _).congr ?_
            cases call <;> simp_all [heldIn, Forbids]
          · refine (KeepsIff.guarded again scans).congr ?_
            cases call <;> simp_all [heldIn, Forbids]

/-! ## The callbacks of a trace -/

def isCallback : Call → Bool
  | .onAccept _ _ | .onDisconnect _ _ | .onReliableReceive _ _ _ _ | .onUnreliableReceive _ _ _ => true
  | _ => false

def callbacks (calls : List Call) : List Call := calls.filter isCallback

@[simp] theorem callbacks_nil : callbacks [] = [] := rfl

@[simp] theorem callbacks_cons (call : Call) (calls : List Call) :
    callbacks (call :: calls) =
      if isCallback call = true then call :: callbacks calls else callbacks calls :=
  List.filter_cons

@[simp] theorem callbacks_append (calls more : List Call) :
    callbacks (calls ++ more) = callbacks calls ++ callbacks more := List.filter_append ..

theorem callbacks_flatMap_nil {ι : Type} (xs : List ι) (f : ι → List Call)
    (silent : ∀ x, callbacks (f x) = []) : callbacks (xs.flatMap f) = [] := by
  rw [callbacks, List.filter_flatMap]
  exact List.flatMap_eq_nil_iff.2 fun x _ => silent x

theorem callbacks_map_nil {ι : Type} (xs : List ι) (f : ι → Call)
    (silent : ∀ x, isCallback (f x) = false) : callbacks (xs.map f) = [] := by
  refine List.filter_eq_nil_iff.2 fun call member => ?_
  obtain ⟨x, -, rfl⟩ := List.mem_map.1 member
  rw [silent]
  exact Bool.false_ne_true

@[simp] theorem callbacks_map_streamStart {ι : Type} (xs : List ι) (f : ι → Option Hquic) :
    callbacks (xs.map fun x => .streamStart (f x)) = [] :=
  callbacks_map_nil xs _ fun _ => rfl

@[simp] theorem callbacks_map_onReliableReceive (slot : Slot) (index : Fin 4) (channelCtx : ObjectId)
    (payloads : List (List UInt8)) :
    callbacks (payloads.map fun data => .onReliableReceive slot index data channelCtx) =
      payloads.map fun data => .onReliableReceive slot index data channelCtx := by
  induction payloads with
  | nil => rfl
  | cons data payloads ih => exact congrArg (_ :: ·) ih

@[simp] theorem callbacks_releaseStream (strm : Option Hquic) : callbacks (releaseStream strm) = [] := by
  cases strm <;> rfl

@[simp] theorem callbacks_releaseConnection (conn : Option Hquic) :
    callbacks (releaseConnection conn) = [] := by
  cases conn <;> rfl

@[simp] theorem callbacks_resetCalls (slot : Slot) (ctx : ConnectionContext) :
    callbacks (ctx.resetCalls slot) = [] := by
  rw [ConnectionContext.resetCalls, callbacks_append, callbacks_append, callbacks_cons,
    callbacks_flatMap_nil _ _ (by simp)]
  simp [isCallback]

@[simp] theorem callbacks_clearSideCalls (ctx : ConnectionContext) (isClient : Bool) :
    callbacks (clearSideCalls ctx isClient) = [] := by
  unfold clearSideCalls
  split <;> rw [callbacks_append, callbacks_flatMap_nil _ _ (by simp)] <;> simp

@[simp] theorem callbacks_challenge (remote : Endpoint) (port : UInt16) :
    callbacks (challenge remote port) = [] := by
  unfold challenge
  split <;> rfl

@[simp] theorem callsOf_resetOps (slot : Slot) : callsOf (resetOps slot) = [] := by
  rw [resetOps, callsOf_append, callsOf_flatMap_nil _ (fun _ => rfl)]
  rfl

theorem callsOf_startClientOps (slot : Slot) (ctx : ConnectionContext) (remote : Endpoint)
    (env : StartEnv) :
    callsOf (startClientOps slot ctx env) = callbacks (startClient slot ctx remote env).2 := by
  unfold startClientOps startClient
  rw [callsOf_append, callsOf_guarded]
  by_cases taken : ctx.unreliable.self.isSome = true
  · simp [taken, isCallback]
  · cases opened : env.connection with
    | none => simp [taken, isCallback]
    | some conn =>
        have silent : ∀ i : Fin 4, callbacks (if (env.streams i).isSome then
            releaseStream (ctx.reliable i).self else []) = [] := by
          intro i
          split <;> simp
        cases granted : env.granted <;>
          simp [taken, isCallback, callbacks_flatMap_nil _ _ silent]

theorem callsOf_receiveOps (slot : Slot) (ctx : ConnectionContext) (id : Nat) (ev : ReceiveEvent)
    (alive : ObjectId → Bool) :
    callsOf (receiveOps slot ctx id ev alive) = callbacks (handleReceive slot alive id ev ctx).calls := by
  have blocked : ∀ (ctx : ConnectionContext) (index : Fin 4),
      callbacks (ctx.resetBlockedCalls index) = [] :=
    fun ctx index => callbacks_flatMap_nil _ _ (by simp)
  unfold receiveOps readOps handleReceive
  cases lockChannelContext alive ctx.channelContext with
  | none => simp
  | some channelCtx =>
      dsimp only
      split
      · rename_i inRange
        split
        · simp
        · cases ended : (readBuffers (ctx.reliable ⟨(id >>> 2) % 2 ^ 32, inRange⟩)
              (ctx.reliable ⟨(id >>> 2) % 2 ^ 32, inRange⟩).nextRecvByte ev.absoluteOffset
              ev.buffers).exit with
          | corrupt => simp [blocked]
          | _ => simp
      · rfl

/-- **The callbacks of a trace are those the handler makes.** -/
theorem callsOf_lockOps (slot : Slot) (ctx : ConnectionContext) (act : Activation) :
    callsOf (act.lockOps slot ctx) = callbacks (act.run slot ctx).calls := by
  cases act with
  | connectTo => simp [Activation.lockOps, Activation.run, returning, connectTo, sendPorts, isCallback]
  | receive1st remoteServer remoteClient remote localServer sock now =>
      show [] = callbacks (receive1st ctx remoteServer remoteClient remote localServer sock now).2
      unfold receive1st
      dsimp only
      split
      · cases sock <;> simp [sendPorts, isCallback]
      · simp [sendPorts, isCallback]
  | receive2nd remoteServer remoteClient remote env =>
      let saved := { ctx with ports := { ctx.ports with remoteServer, remoteClient } }
      show callsOf (guarded (.modify slot) [] ++ startClientOps slot ctx env) =
        callbacks (challenge remote remoteClient ++
          sendPorts remote.addr 0 0 remoteServer remoteClient :: (startClient slot saved remote env).2)
      rw [callsOf_append, callsOf_guarded, callbacks_append, callbacks_challenge, callbacks_cons]
      exact callsOf_startClientOps slot saved remote env
  | receive3rd remote env => exact callsOf_startClientOps slot ctx remote env
  | doCheck now =>
      show callsOf (guarded _ _) = callbacks (doCheck slot ctx now).2
      rw [callsOf_guarded]
      cases begun : ctx.handshakeBegin with
      | none => simp [doCheck, begun]
      | some handshakeBegin =>
          simp only [doCheck, begun]
          split
          · rfl
          · split
            · simp
            · split <;> simp [sendPorts, isCallback]
  | newConnection => simp [Activation.lockOps, Activation.run, returning, newConnection, isCallback]
  | connected conn =>
      show [] = callbacks (if _ then _ else _)
      split <;> rfl
  | shutdownComplete conn isClient alive =>
      have refCount : (clearSide ctx isClient).refCount = ctx.refCount := by cases isClient <;> rfl
      have channelContext : (clearSide ctx isClient).channelContext = ctx.channelContext := by
        cases isClient <;> rfl
      show callsOf (guarded _ _) = callbacks (shutdownComplete slot ctx conn isClient alive).2
      rw [callsOf_guarded]
      unfold shutdownComplete
      dsimp only
      rw [refCount, channelContext]
      split <;> simp [isCallback]
  | peerStreamStarted conn strm id =>
      show [] = callbacks (peerStreamStarted slot ctx strm id).calls
      unfold peerStreamStarted
      split <;> simp [isCallback]
  | datagramStateChanged => rfl
  | datagramReceived buf alive =>
      show callsOf _ = callbacks (datagramReceived slot ctx buf alive).calls
      cases locked : lockChannelContext alive ctx.channelContext with
      | none => simp [Activation.lockOps, datagramReceived, locked]
      | some channelCtx =>
          simp only [Activation.lockOps, datagramReceived, locked]
          split
          · rfl
          · rw [callsOf_guarded]
            split <;> simp [isCallback]
  | receive id ev alive => exact callsOf_receiveOps slot ctx id ev alive
  | disconnect => simp [Activation.lockOps, Activation.run, returning, disconnect]
  | unreliablePacketSend data env =>
      show [] = callbacks (unreliablePacketSend ctx data env).2.2
      unfold unreliablePacketSend
      dsimp only
      split
      · rfl
      · split
        · rfl
        · rw [callbacks_append, callbacks_map_nil _ _ (fun _ => rfl)]
          split <;> rfl

/-! ## The traces -/

theorem held_moment {hs : List Mutex} {m : Mutex} (free : m ∉ hs) :
    held hs (guarded m ([] : List LockOp)) = some hs := (keepsIff_moment hs m).1 free

theorem held_resetOps {hs : List Mutex} {slot : Slot} (free : ∀ channel, Mutex.recv slot channel ∉ hs) :
    held hs (resetOps slot) = some hs := (keepsIff_resetOps hs slot).1 free

theorem callsUnder_resetOps (hs : List Mutex) (slot : Slot) :
    CallsUnder heldIn hs (resetOps slot) := callsUnder_of_silent (callsOf_resetOps slot) hs

/-- `StartClient` calls `OnAccept` under `connCtxCreationMutex` alone, and locks no mutex twice. -/
theorem startClientOps_traced (slot : Slot) (ctx : ConnectionContext) (env : StartEnv) :
    CallsUnder heldIn [.connCtxCreation] (startClientOps slot ctx env) ∧
      held [.connCtxCreation] (startClientOps slot ctx env) = some [.connCtxCreation] := by
  have opens : held [.connCtxCreation] (guarded (.modify slot) ([] : List LockOp)) =
      some [.connCtxCreation] := held_moment (by simp)
  have resets : held [.connCtxCreation] (resetOps slot) = some [.connCtxCreation] :=
    held_resetOps (by simp)
  unfold startClientOps
  refine ⟨callsUnder_append (callsUnder_of_silent rfl _) opens ?_, ?_⟩
  · split
    · trivial
    · refine ⟨rfl, ?_⟩
      split
      · trivial
      · exact callsUnder_resetOps _ _
  · rw [held_append, opens, Option.bind_some]
    split
    · rfl
    · show held _ (if _ then _ else _) = _
      split
      · rfl
      · exact resets

/-- The handlers that run under `connCtxCreationMutex`. -/
theorem lockOps_handshake (slot : Slot) (ctx : ConnectionContext) {act : Activation}
    (handshake : act.IsHandshake) :
    CallsUnder heldIn [.connCtxCreation] (act.lockOps slot ctx) ∧
      held [.connCtxCreation] (act.lockOps slot ctx) = some [.connCtxCreation] := by
  cases act with
  | connectTo => exact ⟨trivial, rfl⟩
  | receive1st => exact ⟨trivial, rfl⟩
  | receive2nd remoteServer remoteClient remote env =>
      have saves : held [.connCtxCreation] (guarded (.modify slot) ([] : List LockOp)) =
          some [.connCtxCreation] := held_moment (by simp)
      obtain ⟨calls, returns⟩ := startClientOps_traced slot ctx env
      refine ⟨callsUnder_append (callsUnder_of_silent rfl _) saves calls, ?_⟩
      show held _ (_ ++ _) = _
      rw [held_append, saves, Option.bind_some, returns]
  | receive3rd remote env => exact startClientOps_traced slot ctx env
  | _ => cases handshake

theorem clean_guarded (m : Mutex) (body : List LockOp) :
    Clean (guarded m body) ↔ (held [m] body).isSome = true := by
  rw [Clean, held_guarded List.not_mem_nil, Option.isSome_map]

theorem readOps_traced (slot : Slot) (index : Fin 4) (channelCtx : ObjectId) (r : ReadResult) :
    CallsUnder heldIn [] (readOps slot index channelCtx r) ∧
      (Clean (readOps slot index channelCtx r) ↔ r.exit ≠ .corrupt) := by
  have calls : CallsUnder heldIn [.recv slot (some index)] (r.delivered.map fun data =>
      (.call (.onReliableReceive slot index data channelCtx) : LockOp)) :=
    callsUnder_map_call fun _ => rfl
  have passes : held [.recv slot (some index)] (r.delivered.map fun data =>
      (.call (.onReliableReceive slot index data channelCtx) : LockOp)) =
        some [.recv slot (some index)] := held_map_call _ _ _
  unfold readOps
  cases ended : r.exit with
  | returned status =>
      refine ⟨calls.guarded, ?_⟩
      rw [clean_guarded, passes]
      simp
  | corrupt =>
      refine ⟨(callsUnder_append_silent calls (callsOf_resetOps slot)).guarded, ?_⟩
      have again : held [.recv slot (some index)] (resetOps slot) = none :=
        (keepsIff_resetOps _ slot).2 fun free => free (some index) List.mem_cons_self
      rw [clean_guarded, held_append, passes, Option.bind_some, again]
      simp
  | spins =>
      refine ⟨calls, ?_⟩
      simp only [Clean, held, List.not_mem_nil, if_false, passes]
      simp
  | overruns =>
      refine ⟨calls, ?_⟩
      simp only [Clean, held, List.not_mem_nil, if_false, passes]
      simp

/-- The loop finds a gap before its first buffer, and no other. -/
theorem readBuffers_corrupt_iff (chn : StreamChannel) (nowoff : Nat) (bufs : List (List UInt8)) :
    (readBuffers chn chn.nextRecvByte nowoff bufs).exit = .corrupt ↔
      chn.nextRecvByte < nowoff ∧ bufs ≠ [] := by
  constructor
  · intro corrupt
    refine ⟨?_, ?_⟩
    · by_contra noGap
      exact (readBuffers_advances bufs (Nat.le_of_not_lt noGap)).1 corrupt
    · rintro rfl
      cases corrupt
  · rintro ⟨gap, some_⟩
    rw [readBuffers_gap gap some_]

/-- `RECEIVE` calls back under its channel's `RecvMutex`, and locks that one again after a gap. -/
theorem receiveOps_traced (slot : Slot) (ctx : ConnectionContext) (id : Nat) (ev : ReceiveEvent)
    (alive : ObjectId → Bool) :
    CallsUnder heldIn [] (receiveOps slot ctx id ev alive) ∧
      (Clean (receiveOps slot ctx id ev alive) ↔ ¬ (Activation.receive id ev alive).MeetsGap ctx) := by
  unfold receiveOps Activation.MeetsGap
  cases locked : lockChannelContext alive ctx.channelContext with
  | none =>
      refine ⟨callsUnder_resetOps _ _, ?_⟩
      rw [Clean, held_resetOps (by simp)]
      simp [locked]
  | some channelCtx =>
      dsimp only
      split
      · rename_i inRange
        have meets_iff : (∃ index : Fin 4, (id >>> 2) % 2 ^ 32 = index ∧
            (lockChannelContext alive ctx.channelContext).isSome = true ∧
              (ctx.reliable index).nextRecvByte < ev.absoluteOffset ∧ ev.buffers ≠ []) ↔
            (ctx.reliable ⟨(id >>> 2) % 2 ^ 32, inRange⟩).nextRecvByte < ev.absoluteOffset ∧
              ev.buffers ≠ [] := by
          constructor
          · rintro ⟨index, same, -, gap⟩
            rwa [show index = ⟨(id >>> 2) % 2 ^ 32, inRange⟩ from Fin.ext same.symm] at gap
          · exact fun gap => ⟨⟨_, inRange⟩, rfl, by rw [locked]; rfl, gap⟩
        rw [meets_iff]
        split
        · rename_i covered
          refine ⟨callsUnder_of_silent rfl _, ?_⟩
          rw [Clean, held_moment List.not_mem_nil]
          refine iff_of_true rfl ?_
          rintro ⟨gap, -⟩
          omega
        · obtain ⟨calls, clean⟩ := readOps_traced slot ⟨(id >>> 2) % 2 ^ 32, inRange⟩ channelCtx
            (readBuffers (ctx.reliable ⟨(id >>> 2) % 2 ^ 32, inRange⟩)
              (ctx.reliable ⟨(id >>> 2) % 2 ^ 32, inRange⟩).nextRecvByte ev.absoluteOffset ev.buffers)
          refine ⟨calls, clean.trans ?_⟩
          rw [ne_eq, readBuffers_corrupt_iff]
      · rename_i outside
        refine ⟨trivial, iff_of_true rfl ?_⟩
        rintro ⟨index, same, -⟩
        exact outside (same ▸ index.isLt)

/-- The handlers that run under no mutex. -/
theorem lockOps_event (slot : Slot) (ctx : ConnectionContext) {act : Activation}
    (event : ¬ act.IsHandshake) :
    CallsUnder heldIn [] (act.lockOps slot ctx) ∧
      (Clean (act.lockOps slot ctx) ↔ ¬ act.MeetsGap ctx) := by
  have modifies : CallsUnder heldIn [] (guarded (.modify slot) ([] : List LockOp)) ∧
      (Clean (guarded (.modify slot) ([] : List LockOp)) ↔ ¬ False) :=
    ⟨callsUnder_of_silent rfl _, by rw [Clean, held_moment List.not_mem_nil]; simp⟩
  have resets : held [.modify slot] (resetOps slot) = some [.modify slot] := held_resetOps (by simp)
  cases act with
  | connectTo => exact absurd trivial event
  | receive1st => exact absurd trivial event
  | receive2nd => exact absurd trivial event
  | receive3rd => exact absurd trivial event
  | newConnection => exact modifies
  | connected => exact modifies
  | peerStreamStarted => exact modifies
  | datagramStateChanged => exact modifies
  | unreliablePacketSend => exact ⟨trivial, iff_of_true rfl id⟩
  | receive id ev alive => exact receiveOps_traced slot ctx id ev alive
  | disconnect =>
      refine ⟨(callsUnder_resetOps _ _).guarded, iff_of_true ?_ id⟩
      show Clean (guarded _ _)
      rw [clean_guarded, resets]
      rfl
  | shutdownComplete conn isClient alive =>
      unfold Activation.lockOps
      dsimp only
      split
      · refine ⟨CallsUnder.guarded ⟨rfl, callsUnder_resetOps _ _⟩, iff_of_true ?_ id⟩
        rw [clean_guarded, held, resets]
        rfl
      · exact modifies
  | doCheck now =>
      cases begun : ctx.handshakeBegin with
      | none =>
          simp only [Activation.lockOps, begun]
          exact modifies
      | some handshakeBegin =>
          simp only [Activation.lockOps, begun]
          split
          · exact modifies
          · split
            · refine ⟨(callsUnder_resetOps _ _).guarded, iff_of_true ?_ id⟩
              rw [clean_guarded, resets]
              rfl
            · split
              · refine ⟨CallsUnder.guarded (callsUnder_append (callsUnder_resetOps _ _) resets
                  ⟨rfl, trivial⟩), iff_of_true ?_ id⟩
                rw [clean_guarded, held_append, resets]
                rfl
              · exact modifies
  | datagramReceived buf alive =>
      cases locked : lockChannelContext alive ctx.channelContext with
      | none =>
          simp only [Activation.lockOps, locked]
          refine ⟨callsUnder_resetOps _ _, iff_of_true ?_ id⟩
          rw [Clean, held_resetOps (by simp)]
          rfl
      | some channelCtx =>
          simp only [Activation.lockOps, locked]
          split
          · exact ⟨trivial, iff_of_true rfl id⟩
          · split
            · refine ⟨CallsUnder.guarded ⟨rfl, trivial⟩, iff_of_true ?_ id⟩
              rw [clean_guarded]
              rfl
            · refine ⟨callsUnder_of_silent rfl _, iff_of_true ?_ id⟩
              rw [clean_guarded]
              rfl

namespace World

variable {L : Listener} {w : World}

/-- Only callbacks forbid anything. -/
theorem forbids_callbacks (app : App) (calls : List Call) :
    (∀ call ∈ callbacks calls, ∀ m ∈ app call, ¬ Forbids call m) ↔
      ∀ call ∈ calls, ∀ m ∈ app call, ¬ Forbids call m := by
  constructor
  · intro off call member m called forbids
    refine off call (List.mem_filter.2 ⟨member, ?_⟩) m called forbids
    cases call <;> first | rfl | exact absurd forbids id
  · exact fun off call member => off call (List.mem_filter.1 member).1

/-- A label's activation, where it has one. -/
theorem activationOps_cases (L : Listener) (w : World) (l : Label) :
    (w.activationOps L l = [] ∧ ∀ slot act, w.route L l ≠ some (some (slot, act))) ∨
      ∃ slot act, w.route L l = some (some (slot, act)) ∧
        w.activationOps L l = act.lockOps slot (w.contexts slot) := by
  unfold activationOps
  cases routed : w.route L l with
  | none => exact .inl ⟨rfl, by simp⟩
  | some target =>
      cases target with
      | none => exact .inl ⟨rfl, by simp⟩
      | some target => exact .inr ⟨target.1, target.2, rfl, rfl⟩

/-- A label's callbacks are those of its activation. -/
theorem forbids_activationOps (app : App) (L : Listener) (w : World) (l : Label) :
    (∀ call ∈ callsOf (w.activationOps L l), ∀ m ∈ app call, ¬ Forbids call m) ↔
      ∀ slot act, w.route L l = some (some (slot, act)) →
        ∀ call ∈ (act.run slot (w.contexts slot)).calls, ∀ m ∈ app call, ¬ Forbids call m := by
  rcases activationOps_cases L w l with ⟨nothing, noRoute⟩ | ⟨slot, act, route, ops⟩
  · rw [nothing]
    exact iff_of_true (fun _ member => absurd member List.not_mem_nil)
      fun slot act route => absurd route (noRoute slot act)
  · rw [ops, callsOf_lockOps, forbids_callbacks, forall_route_iff route]

theorem scanOps_silent (busy : Slot → Bool) (remote : Endpoint) :
    callsOf (w.scanOps busy remote) = [] := by
  unfold scanOps
  generalize slotsThrough _ = slots
  induction slots with
  | nil => rfl
  | cons i slots ih => exact ih

/-- The trace of a label that scans the contexts. -/
theorem scanning_traced {l : Label} (scans : l.Scans) (busy : Slot → Bool) (remote : Endpoint) :
    CallsUnder heldIn [] (guarded .connCtxCreation (w.scanOps busy remote ++ w.activationOps L l)) ∧
      Clean (guarded .connCtxCreation (w.scanOps busy remote ++ w.activationOps L l)) ∧
      ∀ slot act, w.route L l = some (some (slot, act)) → ¬ act.MeetsGap (w.contexts slot) := by
  have probes : Theory.LockTrace.held [.connCtxCreation] (w.scanOps busy remote) =
      some [.connCtxCreation] := held_map_probe _ _ _
  have silent : callsOf (w.scanOps busy remote) = [] := scanOps_silent busy remote
  rw [clean_guarded, held_append, probes, Option.bind_some]
  rcases activationOps_cases L w l with ⟨nothing, noRoute⟩ | ⟨slot, act, route, ops⟩
  · rw [nothing, List.append_nil]
    exact ⟨(callsUnder_of_silent silent _).guarded, rfl,
      fun slot act route => absurd route (noRoute slot act)⟩
  · have handshake := (scans_iff_of_route route).1 scans
    obtain ⟨calls, returns⟩ := lockOps_handshake slot (w.contexts slot) handshake
    rw [ops, returns]
    refine ⟨(callsUnder_append (callsUnder_of_silent silent _) probes calls).guarded, rfl, ?_⟩
    rw [forall_route_iff route]
    cases act <;> first | exact False.elim handshake | exact id

/-- The trace of a label that is its activation's. -/
theorem event_traced {l : Label} (event : ¬ l.Scans) :
    CallsUnder heldIn [] (w.activationOps L l) ∧
      (Clean (w.activationOps L l) ↔
        ∀ slot act, w.route L l = some (some (slot, act)) → ¬ act.MeetsGap (w.contexts slot)) := by
  rcases activationOps_cases L w l with ⟨nothing, noRoute⟩ | ⟨slot, act, route, ops⟩
  · rw [nothing]
    exact ⟨trivial, iff_of_true rfl fun slot act route => absurd route (noRoute slot act)⟩
  · obtain ⟨calls, clean⟩ := lockOps_event slot (w.contexts slot)
      fun handshake => event ((scans_iff_of_route route).2 handshake)
    rw [ops, forall_route_iff route]
    exact ⟨calls, clean⟩

/-- The loop of `NEW_CONNECTION` holds one `ModifyMutex` at a time. -/
theorem newConnection_traced (slots : List Slot) :
    callsOf (slots.flatMap fun i => guarded (.modify i) ([] : List LockOp)) = [] ∧
      Clean (slots.flatMap fun i => guarded (.modify i) ([] : List LockOp)) := by
  have each : KeepsIff [] (slots.flatMap fun i => guarded (.modify i) ([] : List LockOp)) _ :=
    KeepsIff.flatMap fun i _ => keepsIff_moment [] (.modify i)
  refine ⟨callsOf_flatMap_nil _ fun _ => rfl, ?_⟩
  rw [Clean, each.1 fun _ _ => List.not_mem_nil]
  rfl

theorem lockOps_of_event {l : Label} (event : ¬ l.Scans)
    (noLoop : ∀ remote configured, l ≠ .newConnection remote configured) :
    w.lockOps L l = w.activationOps L l := by
  cases l with
  | connectTo => exact absurd trivial event
  | packet => exact absurd trivial event
  | newConnection remote configured => exact absurd rfl (noLoop remote configured)
  | _ => rfl

/-- **What a label locks**: its callbacks are those of its activation, each is made under the mutexes of
`heldIn`, and without what they call no mutex is locked again, but after a gap. -/
theorem lockOps_traced (L : Listener) (w : World) (l : Label) :
    callsOf (w.lockOps L l) = callsOf (w.activationOps L l) ∧
      CallsUnder heldIn [] (w.lockOps L l) ∧
      (Clean (w.lockOps L l) ↔
        ∀ slot act, w.route L l = some (some (slot, act)) → ¬ act.MeetsGap (w.contexts slot)) := by
  cases l with
  | connectTo parsed busy sock now =>
      cases parsed with
      | none =>
          refine ⟨rfl, trivial, iff_of_true rfl ?_⟩
          intro slot act route
          cases route
      | some remote =>
          obtain ⟨calls, clean, off⟩ := scanning_traced (L := L) (w := w)
            (l := .connectTo (some remote) busy sock now) trivial busy remote
          refine ⟨?_, calls, iff_of_true clean off⟩
          show callsOf (guarded _ _) = _
          rw [callsOf_guarded, callsOf_append, scanOps_silent, List.nil_append]
  | packet data remote busy sock now start =>
      by_cases eight : data.length = 8
      · obtain ⟨calls, clean, off⟩ := scanning_traced (L := L) (w := w)
          (l := .packet data remote busy sock now start) trivial busy remote
        have ops : w.lockOps L (.packet data remote busy sock now start) =
            guarded .connCtxCreation (w.scanOps busy remote ++
              w.activationOps L (.packet data remote busy sock now start)) := by
          simp [lockOps, eight]
        rw [ops, callsOf_guarded, callsOf_append, scanOps_silent, List.nil_append]
        exact ⟨rfl, calls, iff_of_true clean off⟩
      · have route : w.route L (.packet data remote busy sock now start) = some none := by
          simp [World.route, consumeRawUdpData, eight]
        have ops : w.lockOps L (.packet data remote busy sock now start) = [] := by
          simp [lockOps, eight]
        rw [ops, activationOps, route]
        refine ⟨rfl, trivial, iff_of_true rfl ?_⟩
        intro slot act same
        cases same
  | newConnection remote configured =>
      obtain ⟨silent, clean⟩ := newConnection_traced (slotsThrough fun i =>
        remote.port == (w.contexts i).ports.remoteClient &&
          quicAddrCompareIp (w.contexts i).remoteSentinel remote)
      refine ⟨?_, callsUnder_of_silent silent [], iff_of_true clean ?_⟩
      · refine silent.trans ?_
        unfold activationOps
        simp only [World.route]
        cases w.listening remote <;> rfl
      · intro slot act route
        cases routed_of_route route
        exact id
  | _ =>
      rw [lockOps_of_event (by exact id) (by simp)]
      refine ⟨rfl, event_traced ?_⟩
      exact id

/-- **No self-deadlock, exactly.**  With what the application calls in its callbacks, the thread of a
label never locks a mutex that it holds if and only if the activation is no `RECEIVE` after a gap and no
callback that it makes calls a method the callback forbids. -/
theorem no_self_lock_iff (L : Listener) (app : App) (w : World) (l : Label) :
    Clean (app.lockOps (w.lockOps L l)) ↔
      ∀ slot act, w.route L l = some (some (slot, act)) →
        ¬ act.MeetsGap (w.contexts slot) ∧
          ∀ call ∈ (act.run slot (w.contexts slot)).calls, ∀ m ∈ app call, ¬ Forbids call m := by
  obtain ⟨same, calls, clean⟩ := lockOps_traced L w l
  have each : ∀ call, KeepsIff (heldIn call) ((app call).flatMap Method.lockOps)
      (∀ m ∈ app call, ¬ Forbids call m) :=
    fun call => KeepsIff.flatMap fun m _ => keepsIff_method call m
  rw [App.lockOps, clean_during each calls, clean, same, forbids_activationOps]
  constructor
  · rintro ⟨noGap, off⟩ slot act route
    exact ⟨noGap slot act route, off slot act route⟩
  · intro both
    exact ⟨fun slot act route => (both slot act route).1, fun slot act route => (both slot act route).2⟩

/-! ## Three threads that wait for themselves -/

/-- Our client connection to the peer comes up. -/
def upSession : List Label :=
  [.connectTo (some samplePeer) (fun _ => false) (some 2) 0,
    .packet (portBytes 3 4 1 2) samplePeer (fun _ => false) none 0 sampleStart, .connected 0]

def sampleBytes : List (List UInt8) := [[0, 0, 0, 1, 9]]

theorem sampleBytes_total : 5 = sampleBytes.flatten.length := rfl

def sampleFrame (absoluteOffset : Nat) : ReceiveEvent :=
  ⟨absoluteOffset, 5, sampleBytes, sampleBytes_total⟩

/-- Hangs up on whatever it receives, and calls another peer when it is called. -/
def busyApp : App
  | .onReliableReceive slot _ _ _ => [.disconnect slot]
  | .onAccept _ _ => [.connectTo (some ⟨9, 2⟩) [1]]
  | _ => []

/-- Our connection receives a frame; the peer's closes without having been connected, which takes the last
reference; a new session takes the context while our first connection is still there. -/
def reusedSession : List Label :=
  upSession ++
    [.newConnection { family := .inet6, port := 4, ipv6 := 1 } true,
      .receive 0 (sampleFrame 0) fun _ => true, .shutdownComplete 1 fun _ => true,
      .connectTo (some samplePeer) (fun _ => false) (some 5) 0,
      .packet (portBytes 3 6 1 5) samplePeer (fun _ => false) none 0 sampleStart]

/-- Three threads that wait for themselves: `Disconnect` in `OnReliableReceive`, `ConnectTo` in
`OnAccept`, and, with an application that calls nothing, the next bytes of an old stream. -/
theorem callbacks_lock_again :
    (exec (step sampleListener) {} upSession).map (fun w => decide (Clean (busyApp.lockOps
        (w.lockOps sampleListener (.receive 0 (sampleFrame 0) fun _ => true))))) = some false ∧
      (exec (step sampleListener) {} (upSession.take 1)).map (fun w => decide (Clean (busyApp.lockOps
        (w.lockOps sampleListener
          (.packet (portBytes 3 4 1 2) samplePeer (fun _ => false) none 0 sampleStart))))) =
        some false ∧
      (exec (step sampleListener) {} reusedSession).map (fun w => decide (Clean (App.lockOps (fun _ => [])
        (w.lockOps sampleListener (.receive 0 (sampleFrame 5) fun _ => true))))) = some false := by
  refine ⟨by decide +kernel, by decide +kernel, by decide +kernel⟩

end World

end Koisyn.Session
