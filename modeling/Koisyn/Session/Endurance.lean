/-
# Koisyn.Session.Endurance — what ends a session, and that nothing else does

A full session is at the mercy of whatever reaches its context: packets of anyone on the sentinel's
socket, `ConnectTo`, the daemon, the events of every connection whose callback context is its slot, the
application.  `established_endures` lists what ends it, exactly: a session lasts through a run if and only
if nothing of the list is done to its context.  The list is short: an event of its connections or of others
in the same slot that comes or goes, a `Disconnect` or an application that has let its object go, and a
`RECEIVE` that begins beyond what has been received.  No packet is on it, whoever sends it and whatever it
says, and nothing that is done to another context.
-/
import Koisyn.Session.Parting
import Koisyn.Session.Locks

namespace Koisyn.Session

open Koisyn.Channel
open Koisyn.Theory.Run

set_option autoImplicit false

/-- An event of a connection that comes or goes. -/
def Activation.ComesOrGoes : Activation → Prop
  | .newConnection _ _ | .connected _ | .shutdownComplete _ _ _ => True
  | _ => False

/-- What ends a session in this context. -/
def Activation.Ends (ctx : ConnectionContext) (act : Activation) : Prop :=
  act.ComesOrGoes ∨ act.Drops ctx.channelContext ∨ act.MeetsGap ctx

instance decidableComesOrGoes : ∀ act : Activation, Decidable act.ComesOrGoes
  | .newConnection _ _ | .connected _ | .shutdownComplete _ _ _ => isTrue trivial
  | .connectTo _ _ _ _ | .receive1st _ _ _ _ _ _ | .receive2nd _ _ _ _ | .receive3rd _ _ | .doCheck _
  | .peerStreamStarted _ _ _ | .datagramStateChanged _ | .datagramReceived _ _ | .receive _ _ _
  | .disconnect | .unreliablePacketSend _ _ => isFalse id

instance decidableDrops (channelContext : Option ObjectId) :
    ∀ act : Activation, Decidable (act.Drops channelContext)
  | .datagramReceived _ alive | .receive _ _ alive =>
      inferInstanceAs (Decidable (lockChannelContext alive channelContext = none))
  | .disconnect => isTrue trivial
  | .connectTo _ _ _ _ | .receive1st _ _ _ _ _ _ | .receive2nd _ _ _ _ | .receive3rd _ _ | .doCheck _
  | .newConnection _ _ | .connected _ | .shutdownComplete _ _ _ | .peerStreamStarted _ _ _
  | .datagramStateChanged _ | .unreliablePacketSend _ _ => isFalse id

instance decidableMeetsGap (ctx : ConnectionContext) : ∀ act : Activation, Decidable (act.MeetsGap ctx)
  | .receive _ _ _ => inferInstanceAs (Decidable (∃ _ : Fin 4, _ ∧ _ ∧ _ ∧ _))
  | .connectTo _ _ _ _ | .receive1st _ _ _ _ _ _ | .receive2nd _ _ _ _ | .receive3rd _ _ | .doCheck _
  | .newConnection _ _ | .connected _ | .shutdownComplete _ _ _ | .peerStreamStarted _ _ _
  | .datagramStateChanged _ | .datagramReceived _ _ | .disconnect | .unreliablePacketSend _ _ =>
      isFalse id

instance (ctx : ConnectionContext) (act : Activation) : Decidable (act.Ends ctx) :=
  inferInstanceAs (Decidable (_ ∨ _ ∨ _))

/-- An activation that sets nothing up and drops nothing leaves a session's fields. -/
theorem effect_quiet {ctx ctx' : Core} {act : Activation} {noted : List Mark}
    (effect : Effect ctx act ctx' noted) (bystander : act.IsBystander)
    (keeps : ¬ act.Drops ctx.channelContext) (idle : ctx.handshakeBegin = none) :
    ctx' = ctx ∧ noted = [] := by
  cases effect with
  | quiet => exact ⟨rfl, rfl⟩
  | dropped drops => exact absurd drops keeps
  | longStop begun | shortStop begun => cases idle.symm.trans begun
  | unopened starts | granted starts | refused starts =>
      exact absurd bystander (Activation.of_starts starts).1.1
  | _ => exact bystander.elim

/-- Every handle is the one that it was. -/
structure SameHandles (ctx ctx' : ConnectionContext) : Prop where
  self : ctx'.unreliable.self = ctx.unreliable.self
  peer : ctx'.unreliable.peer = ctx.unreliable.peer
  streams : ∀ i, (ctx'.reliable i).self = (ctx.reliable i).self ∧
    (ctx'.reliable i).peer = (ctx.reliable i).peer

theorem sameHandles_refl (ctx : ConnectionContext) : SameHandles ctx ctx :=
  ⟨rfl, rfl, fun _ => ⟨rfl, rfl⟩⟩

theorem SameHandles.trans {ctx ctx' ctx'' : ConnectionContext} (first : SameHandles ctx ctx')
    (second : SameHandles ctx' ctx'') : SameHandles ctx ctx'' where
  self := second.self.trans first.self
  peer := second.peer.trans first.peer
  streams i := ⟨(second.streams i).1.trans (first.streams i).1,
    (second.streams i).2.trans (first.streams i).2⟩

/-- The connection of the peer's and every stream that was there are there still. -/
structure KeepsHandles (ctx ctx' : ConnectionContext) : Prop where
  peer : ctx'.unreliable.peer = ctx.unreliable.peer
  selfStreams : ∀ i, (ctx.reliable i).self.isSome = true → (ctx'.reliable i).self.isSome = true
  peerStreams : ∀ i, (ctx.reliable i).peer.isSome = true → (ctx'.reliable i).peer.isSome = true

theorem SameHandles.keeps {ctx ctx' : ConnectionContext} (same : SameHandles ctx ctx') :
    KeepsHandles ctx ctx' where
  peer := same.peer
  selfStreams i isSome := by rw [(same.streams i).1, isSome]
  peerStreams i isSome := by rw [(same.streams i).2, isSome]

/-- A `RECEIVE` for a live application that meets no gap changes no handle. -/
theorem handleReceive_sameHandles (slot : Slot) {ctx : ConnectionContext} {id : Nat} {ev : ReceiveEvent}
    {alive : ObjectId → Bool} (keeps : ¬ (Activation.receive id ev alive).Drops ctx.channelContext)
    (noGap : ¬ (Activation.receive id ev alive).MeetsGap ctx) :
    SameHandles ctx (handleReceive slot alive id ev ctx).ctx := by
  obtain ⟨channelCtx, locked⟩ := Option.ne_none_iff_exists'.1 keeps
  unfold handleReceive
  rw [locked]
  dsimp only
  split
  · rename_i inRange
    split
    · exact sameHandles_refl ctx
    · rw [if_neg]
      · obtain ⟨self, peer⟩ := readBuffers_handles (ctx.reliable ⟨_, inRange⟩)
          (ctx.reliable ⟨_, inRange⟩).nextRecvByte ev.absoluteOffset ev.buffers
        exact ⟨rfl, rfl, ConnectionContext.reads_handles self peer⟩
      · rw [readBuffers_corrupt_iff]
        rintro ⟨gap, some_⟩
        exact noGap ⟨⟨_, inRange⟩, rfl, by rw [locked]; rfl, gap, some_⟩
  · exact sameHandles_refl ctx

/-- The activation puts a stream into the context. -/
def Activation.StartsStream : Activation → Prop
  | .peerStreamStarted _ _ _ => True
  | _ => False

/-- **What is not on the list changes no handle** of a context that is not handshaking, unless it puts a
stream there. -/
theorem sameHandles_run (slot : Slot) {ctx : ConnectionContext} {act : Activation}
    (bystander : act.IsBystander) (idle : ctx.handshakeBegin = none) (spared : ¬ act.Ends ctx)
    (noStream : ¬ act.StartsStream) : SameHandles ctx (act.run slot ctx).ctx := by
  have keeps : ¬ act.Drops ctx.channelContext := fun drops => spared (.inr (.inl drops))
  cases act with
  | connectTo | receive1st | receive2nd | receive3rd | connected | shutdownComplete | disconnect =>
      exact bystander.elim
  | doCheck now =>
      have left : (doCheck slot ctx now).1 = ctx := by
        simp [doCheck, idle]
      show SameHandles ctx (doCheck slot ctx now).1
      rw [left]
      exact sameHandles_refl ctx
  | newConnection => exact absurd (.inl trivial) spared
  | peerStreamStarted => exact absurd trivial noStream
  | datagramStateChanged => exact ⟨rfl, rfl, fun _ => ⟨rfl, rfl⟩⟩
  | datagramReceived buf alive =>
      have took := datagramReceived_took slot ctx buf alive
      show SameHandles ctx (datagramReceived slot ctx buf alive).ctx
      generalize (datagramReceived slot ctx buf alive).ctx = after,
        (datagramReceived slot ctx buf alive).calls = calls at took ⊢
      cases took with
      | dropped expired => exact absurd expired keeps
      | left => exact sameHandles_refl ctx
      | taken => exact ⟨rfl, rfl, fun _ => ⟨rfl, rfl⟩⟩
  | receive id ev alive =>
      exact handleReceive_sameHandles slot keeps fun gap => spared (.inr (.inr gap))
  | unreliablePacketSend data env =>
      show SameHandles ctx (unreliablePacketSend ctx data env).2.1
      unfold unreliablePacketSend
      dsimp only
      split
      · exact sameHandles_refl ctx
      · split <;> exact ⟨rfl, rfl, fun _ => ⟨rfl, rfl⟩⟩

/-- **What is not on the list keeps the handles of a context that is not handshaking.** -/
theorem keepsHandles_run (slot : Slot) {ctx : ConnectionContext} {act : Activation}
    (bystander : act.IsBystander) (idle : ctx.handshakeBegin = none) (spared : ¬ act.Ends ctx) :
    KeepsHandles ctx (act.run slot ctx).ctx := by
  cases act with
  | peerStreamStarted conn strm id =>
      show KeepsHandles ctx (peerStreamStarted slot ctx strm id).ctx
      unfold peerStreamStarted
      split
      · rename_i inRange
        refine ⟨rfl, fun i isSome => ?_, fun i isSome => ?_⟩
        · by_cases here : i = ⟨id >>> 2, inRange⟩
          · subst here
            simpa using isSome
          · simpa [here] using isSome
        · by_cases here : i = ⟨id >>> 2, inRange⟩
          · simp [here]
          · simpa [here] using isSome
      · exact (sameHandles_refl ctx).keeps
  | _ => exact (sameHandles_run slot bystander idle spared id).keeps

/-- An application that is gone, or disconnects, loses the context. -/
theorem run_dropped (slot : Slot) {ctx : ConnectionContext} {act : Activation}
    (drops : act.Drops ctx.channelContext) : (act.run slot ctx).ctx = ctx.reset := by
  cases act with
  | datagramReceived buf alive =>
      have expired : lockChannelContext alive ctx.channelContext = none := drops
      show (datagramReceived slot ctx buf alive).ctx = _
      rw [datagramReceived, expired]
  | receive id ev alive =>
      show (handleReceive slot alive id ev ctx).ctx = _
      rw [handleReceive_expired drops]
  | disconnect => rfl
  | _ => exact drops.elim

/-- A `RECEIVE` that meets a gap gives its channel's streams away. -/
theorem run_gap (slot : Slot) {ctx : ConnectionContext} {act : Activation} (gap : act.MeetsGap ctx) :
    ∃ index, ((act.run slot ctx).ctx.reliable index).self = none := by
  cases act with
  | receive id ev alive =>
      obtain ⟨index, named, isSome, begins, some_⟩ := gap
      obtain ⟨channelCtx, locked⟩ := Option.isSome_iff_exists.1 isSome
      have inRange : (id >>> 2) % 2 ^ 32 < 4 := named ▸ index.isLt
      have isIndex : (⟨(id >>> 2) % 2 ^ 32, inRange⟩ : Fin 4) = index := Fin.ext named
      have unread : ¬ ev.absoluteOffset + ev.totalBufferLength ≤ (ctx.reliable index).nextRecvByte := by
        omega
      refine ⟨index, ?_⟩
      show ((handleReceive slot alive id ev ctx).ctx.reliable index).self = none
      rw [handleReceive, locked]
      dsimp only
      rw [dif_pos inRange, isIndex, if_neg unread, readBuffers_gap begins some_]
      simp [ConnectionContext.resetBlockedAt]
  | _ => exact gap.elim

namespace World

variable {L : Listener} {w : World} {peer : Endpoint} {slot i : Slot} {ports : Ports} {act : Activation}

/-! ## What keeps a session -/

/-- What is done to another context leaves this one's connections. -/
theorem runs_after_ne {conn : Hquic} {isClient connected : Bool}
    (runs : Runs w.conns conn slot isClient connected) (legal : w.Legal L i act) (other : i ≠ slot) :
    Runs (w.after i act).conns conn slot isClient connected := by
  have foreign : ∀ {k : Hquic} {c : Conn}, w.conns[k]? = some c → c.slot = i → k ≠ conn := by
    rintro k c present rfl rfl
    obtain ⟨d, present', here, -⟩ := runs
    obtain rfl : c = d := Option.some.inj (present.symm.trans present')
    exact other here
  show Runs (w.connsAfter i act) _ _ _ _
  unfold connsAfter
  split
  · exact runs.append _
  · dsimp only
    split
    · exact runs.append _
    · exact (runs.replaced _).append _
  · obtain ⟨c, started, here, -⟩ := legal
    exact runs.other (foreign (startedConn_some.1 started).1 here) _
  · obtain ⟨c, isOpen, here, -⟩ := legal
    exact runs.other (foreign (openConn_some.1 isOpen).1 here) _
  · exact runs

/-- **What is done to another context does not concern the session.** -/
theorem Established.after_ne (established : w.Established peer slot ports) (legal : w.Legal L i act)
    (other : i ≠ slot) : (w.after i act).Established peer slot ports := by
  have same : (w.after i act).contexts slot = w.contexts slot := after_contexts_ne _ other.symm _
  obtain ⟨client, self, ours⟩ := established.self
  obtain ⟨server, peer, theirs⟩ := established.peer
  refine ⟨?_, ?_, ?_, ?_, ⟨client, ?_, runs_after_ne ours legal other⟩,
    ⟨server, ?_, runs_after_ne theirs legal other⟩, ?_⟩
  · rw [IsFor, same]
    exact established.isFor
  · rw [same]
    exact established.isPorts
  · rw [standing_after_ne other.symm]
    exact established.accepted
  · rw [same]
    exact established.connected
  · rw [same]
    exact self
  · rw [same]
    exact peer
  · rw [same]
    exact established.streams

/-- What is not on the list and can be done to a session's context sets nothing up and makes nothing. -/
theorem Established.bystander (established : w.Established peer slot ports) (legal : w.Legal L slot act)
    (spared : ¬ act.Ends (w.contexts slot)) :
    act.IsBystander ∧ (w.after slot act).conns = w.conns := by
  obtain ⟨idle, counted⟩ := established.connected
  have occupied : ¬ isEmpty (w.contexts slot) = true := by
    simp [isEmpty, counted]
  cases act with
  | connectTo => exact absurd legal.2 occupied
  | receive1st => exact absurd (legal.2 idle) occupied
  | receive2nd | receive3rd =>
      have begun : (w.contexts slot).handshakeBegin.isSome = true := legal
      rw [idle] at begun
      cases begun
  | newConnection | connected | shutdownComplete => exact absurd (.inl trivial) spared
  | disconnect => exact absurd (.inr (.inl trivial)) spared
  | _ => exact ⟨trivial, rfl⟩

/-- **What is not on the list keeps the session.** -/
theorem Established.after_spared (established : w.Established peer slot ports)
    (legal : w.Legal L slot act) (spared : ¬ act.Ends (w.contexts slot)) :
    (w.after slot act).Established peer slot ports := by
  obtain ⟨idle, counted⟩ := established.connected
  obtain ⟨bystander, conns⟩ := established.bystander legal spared
  obtain ⟨handles, selfStreams, peerStreams⟩ := keepsHandles_run slot bystander idle spared
  obtain ⟨noted, effect, history⟩ := w.after_effect slot act
  obtain ⟨same, rfl⟩ := effect_quiet effect bystander (fun drops => spared (.inr (.inl drops))) idle
  obtain ⟨client, self, ours⟩ := established.self
  obtain ⟨server, peer, theirs⟩ := established.peer
  rw [← conns] at ours theirs
  rw [← after_contexts_self] at handles selfStreams peerStreams
  refine ⟨(congrArg Core.remoteSentinel same).trans established.isFor,
    (congrArg Core.ports same).trans established.isPorts, ?_,
    ⟨(congrArg Core.handshakeBegin same).trans idle, (congrArg Core.refCount same).trans counted⟩,
    ⟨client, (congrArg Core.self same).trans self, ours⟩, ⟨server, handles.trans peer, theirs⟩, ?_⟩
  · rw [standing_after_self history]
    exact established.accepted
  · intro i
    exact ⟨selfStreams i (established.streams i).1, peerStreams i (established.streams i).2⟩

/-! ## What ends a session -/

/-- **What is on the list ends the session.** -/
theorem Established.not_after (established : w.Established peer slot ports)
    (legal : w.Legal L slot act) (ends : act.Ends (w.contexts slot)) :
    ¬ (w.after slot act).Established peer slot ports := by
  intro still
  obtain ⟨noted, effect, -⟩ := w.after_effect slot act
  obtain ⟨-, counted⟩ := still.connected
  rcases ends with event | drops | gap
  · cases act with
    | newConnection conn configured =>
        obtain rfl : conn = w.conns.length := legal
        obtain ⟨other, peer, theirs⟩ := still.peer
        rw [after_contexts_self] at peer
        obtain rfl : w.conns.length = other := Option.some.inj peer
        obtain ⟨old, before, -⟩ := established.peer
        obtain ⟨c, present, -, -, -, connected, -⟩ := theirs
        -- the new connection has not been connected yet
        have last : c = { isClient := false, slot, use := w.use slot, started := configured } := by
          refine Option.some.inj (present.symm.trans ?_)
          simp [World.after, connsAfter, World.opens, Activation.starts, before]
        rw [last] at connected
        cases connected
    | connected conn =>
        rw [after_contexts_self] at counted
        have more : (w.contexts slot).refCount + 1 = 2 := counted
        rw [established.connected.2] at more
        cases more
    | shutdownComplete conn isClient alive =>
        have two : (core (w.contexts slot)).refCount = 2 := established.connected.2
        rcases effect_closed effect with ⟨last, -⟩ | ⟨-, less, -⟩
        · rw [two] at last
          cases last
        · rw [two] at less
          cases less.symm.trans counted
    | _ => exact event.elim
  · have isFor := still.isFor
    rw [IsFor, after_contexts_self, run_dropped slot drops] at isFor
    cases congrArg QuicAddr.family isFor
  · obtain ⟨index, gone⟩ := run_gap slot gap
    have streams := (still.streams index).1
    rw [after_contexts_self, gone] at streams
    cases streams

/-- **A session lasts exactly as long as nothing on the list is done to its context**: through every run,
whatever packets arrive, whatever the daemon and the application do otherwise, and whatever happens to the
other contexts. -/
theorem established_endures (L : Listener) (w : World) (peer : Endpoint) (slot : Slot) (ports : Ports)
    (established : w.Established peer slot ports) (labels : List Label) :
    Always (step L) (fun w => w.Established peer slot ports) w labels ↔
      EveryStep (step L)
        (OnActivation L fun w i act => i = slot → ¬ act.Ends (w.contexts slot)) w labels := by
  refine always_iff_everyStep ?_ labels established
  intro w l established
  rw [forall_step_iff established]
  refine forall₄_congr fun i act route _ => ?_
  have legal := route_legal route
  by_cases here : i = slot
  · subst here
    constructor
    · intro spared
      exact established.after_spared legal (spared rfl)
    · intro still _ ends
      exact established.not_after legal ends still
  · exact iff_of_true (fun same => absurd same here) (established.after_ne legal here)

/-- Packets of every kind from the peer and from a stranger, another `ConnectTo` and the daemon. -/
def sampleNoise : List Label :=
  [.packet (portBytes 3 9 0 0) ⟨9, 1⟩ (fun _ => false) (some 5) 0 sampleStart,
    .packet (portBytes 3 9 1 6) ⟨9, 1⟩ (fun _ => false) (some 5) 0 sampleStart,
    .packet (portBytes 0 0 1 6) ⟨9, 1⟩ (fun _ => false) (some 5) 0 sampleStart,
    .packet (portBytes 3 6 0 0) ⟨7, 1⟩ (fun _ => false) (some 5) 0 sampleStart,
    .connectTo (some ⟨9, 1⟩) (fun _ => false) (some 5) 0, .doCheck 0 (seconds 70)]

theorem established_endures_noise :
    ∃ s, exec (Nodes.step Nodes.sampleNetwork) {} Nodes.sampleSession = some s ∧
      Always (step sampleListener) (fun w => w.Established ⟨9, 1⟩ 0 ⟨3, 6, 1, 6⟩) (s.world .left)
        sampleNoise := by
  have reached : (exec (Nodes.step Nodes.sampleNetwork) {} Nodes.sampleSession).map (fun s =>
        decide ((s.world .left).Established ⟨9, 1⟩ 0 ⟨3, 6, 1, 6⟩ ∧ EveryStep (step sampleListener)
          (OnActivation sampleListener fun w i act => i = 0 → ¬ act.Ends (w.contexts 0)) (s.world .left)
          sampleNoise)) = some true := by
    decide +kernel
  obtain ⟨s, run, facts⟩ := Option.map_eq_some_iff.1 reached
  obtain ⟨established, spared⟩ := of_decide_eq_true facts
  exact ⟨s, run, (established_endures sampleListener _ ⟨9, 1⟩ 0 _ established sampleNoise).2 spared⟩

end World

end Koisyn.Session
