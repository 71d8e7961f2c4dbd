/-
# Koisyn.Session.Calls — which handler makes which call

`Activation.Makes` lists the calls that an activation may make: `ConnectionClose` is called by the
handler of `SHUTDOWN_COMPLETE` and on its own connection, the receive callbacks by the two receiving
handlers, and so on.  What is let go may be let go by any, since any may drop the connection.
`run_makes` proves the list complete.
-/
import Koisyn.Session.World

namespace Koisyn.Session

open Koisyn.Channel

set_option autoImplicit false

/-- `StartClient` runs. -/
def Activation.IsStart : Activation → Prop
  | .receive2nd _ _ _ _ | .receive3rd _ _ => True
  | _ => False

/-- The calls that an activation may make. -/
def Activation.Makes (act : Activation) : Call → Prop
  | .reset _ | .streamShutdown _ | .connectionShutdown _ => True
  | .sentinelSendTo _ _ => act.IsHandshake ∨ ∃ now, act = .doCheck now
  | .listenerSendTo _ _ => act.IsHandshake
  | .startClient _ _ | .onAccept _ _ | .setLocalAddress _ _ | .connectionStart _ _ _
  | .streamStart _ => act.IsStart
  | .onDisconnect _ _ =>
      (∃ now, act = .doCheck now) ∨ ∃ conn isClient alive, act = .shutdownComplete conn isClient alive
  | .onReliableReceive _ _ _ _ => ∃ id ev alive, act = .receive id ev alive
  | .onUnreliableReceive _ _ _ => ∃ buf alive, act = .datagramReceived buf alive
  | .connectionClose conn => ∃ isClient alive, act = .shutdownComplete conn isClient alive
  | .connectionSetCallbackHandler conn _ | .connectionSetConfiguration conn =>
      ∃ configured, act = .newConnection conn configured
  | .streamSetCallbackHandler strm _ => ∃ conn id, act = .peerStreamStarted conn strm id
  | .streamSend _ _ _ => False
  | .datagramSend _ _ _ | .deleteBuffer => ∃ data env, act = .unreliablePacketSend data env
  | .handshakeCleared _ => ∃ conn, act = .connected conn

section Lists

variable {act : Activation}

/-- The activation may make all of these calls. -/
def Activation.MakesAll (act : Activation) (calls : List Call) : Prop := ∀ call ∈ calls, act.Makes call

theorem makesAll_nil : act.MakesAll [] := fun _ member => absurd member List.not_mem_nil

theorem makesAll_cons {call : Call} {calls : List Call} :
    act.MakesAll (call :: calls) ↔ act.Makes call ∧ act.MakesAll calls :=
  List.forall_mem_cons

theorem makesAll_append {calls more : List Call} :
    act.MakesAll (calls ++ more) ↔ act.MakesAll calls ∧ act.MakesAll more :=
  List.forall_mem_append

theorem makesAll_flatMap {ι : Type} {xs : List ι} {f : ι → List Call}
    (makes : ∀ x, act.MakesAll (f x)) : act.MakesAll (xs.flatMap f) := by
  intro call member
  obtain ⟨x, -, member⟩ := List.mem_flatMap.1 member
  exact makes x call member

theorem makesAll_map {ι : Type} {xs : List ι} {f : ι → Call} (makes : ∀ x, act.Makes (f x)) :
    act.MakesAll (xs.map f) := by
  intro call member
  obtain ⟨x, -, rfl⟩ := List.mem_map.1 member
  exact makes x

theorem makesAll_releaseStream (strm : Option Hquic) : act.MakesAll (releaseStream strm) :=
  makesAll_map fun _ => trivial

theorem makesAll_releaseConnection (conn : Option Hquic) : act.MakesAll (releaseConnection conn) :=
  makesAll_map fun _ => trivial

theorem makesAll_resetCalls (slot : Slot) (ctx : ConnectionContext) :
    act.MakesAll (ctx.resetCalls slot) := by
  simp only [ConnectionContext.resetCalls, makesAll_append, makesAll_cons]
  refine ⟨⟨⟨trivial, makesAll_flatMap fun i => ?_⟩, ?_⟩, ?_⟩
  · exact makesAll_append.2 ⟨makesAll_releaseStream _, makesAll_releaseStream _⟩
  · exact makesAll_releaseConnection _
  · exact makesAll_releaseConnection _

theorem makesAll_challenge (handshake : act.IsHandshake) (remote : Endpoint) (remoteClient : UInt16) :
    act.MakesAll (challenge remote remoteClient) := by
  unfold challenge
  split
  · exact makesAll_cons.2 ⟨handshake, makesAll_nil⟩
  · exact makesAll_nil

end Lists

/-! ## The handlers -/

section Handlers

variable (slot : Slot) (ctx : ConnectionContext)

theorem startClient_makes {act : Activation} (starts : act.IsStart) (remote : Endpoint)
    (env : StartEnv) : act.MakesAll (startClient slot ctx remote env).2 := by
  have replaced : act.MakesAll (replacedCalls ctx env) := by
    apply makesAll_flatMap
    intro i
    split
    · exact makesAll_releaseStream _
    · exact makesAll_nil
  have started := startClient_started slot ctx remote env
  generalize startClient slot ctx remote env = r at started ⊢
  cases started with
  | unopened => exact makesAll_cons.2 ⟨starts, makesAll_nil⟩
  | granted conn =>
      simp only [makesAll_append, makesAll_cons]
      exact ⟨⟨⟨⟨starts, replaced⟩, starts, makesAll_nil⟩, starts, starts, makesAll_nil⟩,
        makesAll_map fun _ => starts⟩
  | refused conn =>
      simp only [makesAll_append, makesAll_cons]
      exact ⟨⟨⟨starts, replaced⟩, starts, makesAll_nil⟩, makesAll_resetCalls slot _⟩

theorem receive1st_makes {act : Activation} (handshake : act.IsHandshake)
    (remoteServer remoteClient : UInt16) (remote : Endpoint) (localServer : UInt16)
    (sock : Option UInt16) (now : Nat) :
    act.MakesAll (receive1st ctx remoteServer remoteClient remote localServer sock now).2 := by
  have challenged := makesAll_challenge handshake remote remoteClient
  unfold receive1st
  dsimp only
  split
  · split
    · exact challenged
    · exact makesAll_append.2 ⟨challenged, makesAll_cons.2 ⟨.inl handshake, makesAll_nil⟩⟩
  · exact makesAll_append.2 ⟨challenged, makesAll_cons.2 ⟨.inl handshake, makesAll_nil⟩⟩

theorem doCheck_makes (now : Nat) :
    (Activation.doCheck now).MakesAll (doCheck slot ctx now).2 := by
  have checked := doCheck_checked slot ctx now
  generalize doCheck slot ctx now = r at checked ⊢
  cases checked with
  | idle => exact makesAll_nil
  | longStop => exact makesAll_resetCalls slot ctx
  | shortStop =>
      refine makesAll_append.2 ⟨makesAll_resetCalls slot ctx, makesAll_cons.2 ⟨?_, makesAll_nil⟩⟩
      exact .inl ⟨now, rfl⟩
  | retry => exact makesAll_cons.2 ⟨.inr ⟨now, rfl⟩, makesAll_nil⟩

theorem clearSide_makes {act : Activation} (isClient : Bool) :
    act.MakesAll (clearSideCalls ctx isClient) := by
  have side : ∀ (held : Fin 4 → Option Hquic) (conn : Option Hquic),
      act.MakesAll (((List.finRange 4).flatMap fun i => releaseStream (held i)) ++
        releaseConnection conn) :=
    fun _ _ => makesAll_append.2
      ⟨makesAll_flatMap fun _ => makesAll_releaseStream _, makesAll_releaseConnection _⟩
  unfold clearSideCalls
  split
  · exact side _ _
  · exact side _ _

theorem shutdownComplete_makes (conn : Hquic) (isClient : Bool) (alive : ObjectId → Bool) :
    (Activation.shutdownComplete conn isClient alive).MakesAll
      (shutdownComplete slot ctx conn isClient alive).2 := by
  unfold shutdownComplete
  dsimp only
  split
  · simp only [makesAll_append, makesAll_cons]
    exact ⟨⟨clearSide_makes ctx isClient, .inr ⟨conn, isClient, alive, rfl⟩,
      makesAll_resetCalls slot _⟩, ⟨isClient, alive, rfl⟩, makesAll_nil⟩
  · refine makesAll_append.2 ⟨clearSide_makes ctx isClient, makesAll_cons.2 ⟨?_, makesAll_nil⟩⟩
    exact ⟨isClient, alive, rfl⟩

theorem peerStreamStarted_makes (conn strm : Hquic) (id : Nat) :
    (Activation.peerStreamStarted conn strm id).MakesAll (peerStreamStarted slot ctx strm id).calls := by
  unfold peerStreamStarted
  split
  · refine makesAll_append.2 ⟨makesAll_releaseStream _, makesAll_cons.2 ⟨?_, makesAll_nil⟩⟩
    exact ⟨conn, id, rfl⟩
  · exact makesAll_nil

theorem datagramReceived_makes (buf : List UInt8) (alive : ObjectId → Bool) :
    (Activation.datagramReceived buf alive).MakesAll (datagramReceived slot ctx buf alive).calls := by
  have took := datagramReceived_took slot ctx buf alive
  generalize (datagramReceived slot ctx buf alive).ctx = after,
    (datagramReceived slot ctx buf alive).calls = calls at took ⊢
  cases took with
  | dropped => exact makesAll_resetCalls slot ctx
  | left => exact makesAll_nil
  | taken => exact makesAll_cons.2 ⟨⟨buf, alive, rfl⟩, makesAll_nil⟩

theorem handleReceive_makes (id : Nat) (ev : ReceiveEvent) (alive : ObjectId → Bool) :
    (Activation.receive id ev alive).MakesAll (handleReceive slot alive id ev ctx).calls := by
  have received := handleReceive_received slot alive id ev ctx
  generalize (handleReceive slot alive id ev ctx).ctx = after,
    (handleReceive slot alive id ev ctx).calls = calls at received ⊢
  cases received with
  | dropped => exact makesAll_resetCalls slot ctx
  | left => exact makesAll_nil
  | read => exact makesAll_map fun _ => ⟨id, ev, alive, rfl⟩
  | blocked =>
      refine makesAll_append.2 ⟨makesAll_map fun _ => ⟨id, ev, alive, rfl⟩, makesAll_flatMap fun i => ?_⟩
      exact makesAll_append.2 ⟨makesAll_releaseStream _, makesAll_releaseStream _⟩

theorem unreliablePacketSend_makes (data : List UInt8) (env : SendEnv) :
    (Activation.unreliablePacketSend data env).MakesAll (unreliablePacketSend ctx data env).2.2 := by
  unfold unreliablePacketSend
  dsimp only
  split
  · exact makesAll_nil
  · split
    · exact makesAll_nil
    · refine makesAll_append.2 ⟨makesAll_map fun _ => ⟨data, env, rfl⟩, ?_⟩
      split
      · exact makesAll_nil
      · exact makesAll_cons.2 ⟨⟨data, env, rfl⟩, makesAll_nil⟩

/-- **Every call is one that its handler may make.** -/
theorem run_makes (act : Activation) : act.MakesAll (act.run slot ctx).calls := by
  cases act with
  | connectTo => exact makesAll_cons.2 ⟨.inl trivial, makesAll_nil⟩
  | receive1st remoteServer remoteClient remote localServer sock now =>
      apply receive1st_makes ctx
      trivial
  | receive2nd remoteServer remoteClient remote env =>
      refine makesAll_append.2 ⟨?_, makesAll_cons.2 ⟨.inl trivial, ?_⟩⟩
      · apply makesAll_challenge
        trivial
      · apply startClient_makes slot
        trivial
  | receive3rd remote env =>
      apply startClient_makes slot ctx
      trivial
  | doCheck now => exact doCheck_makes slot ctx now
  | newConnection conn configured =>
      refine makesAll_append.2 ⟨makesAll_releaseConnection _, makesAll_cons.2 ⟨⟨configured, rfl⟩, ?_⟩⟩
      exact makesAll_cons.2 ⟨⟨configured, rfl⟩, makesAll_nil⟩
  | connected conn =>
      show Activation.MakesAll _ (if ctx.handshakeBegin.isSome then _ else _)
      split
      · exact makesAll_cons.2 ⟨⟨conn, rfl⟩, makesAll_nil⟩
      · exact makesAll_nil
  | shutdownComplete conn isClient alive => exact shutdownComplete_makes slot ctx conn isClient alive
  | peerStreamStarted conn strm id => exact peerStreamStarted_makes slot ctx conn strm id
  | datagramStateChanged => exact makesAll_nil
  | datagramReceived buf alive => exact datagramReceived_makes slot ctx buf alive
  | receive id ev alive => exact handleReceive_makes slot ctx id ev alive
  | disconnect => exact makesAll_resetCalls slot ctx
  | unreliablePacketSend data env => exact unreliablePacketSend_makes ctx data env

end Handlers

end Koisyn.Session
