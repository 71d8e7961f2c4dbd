/-
# Koisyn.Session.FirstPacket — a first packet, one step at a time

`ConsumeRawUdpData` and `Receive1st` work on a context without its `ModifyMutex`: they hold
`connCtxCreationMutex` only, which keeps out `ConnectTo` and other packets but no handler of MsQuic,
no `Disconnect` and not the daemon.  `Race` is the session with one first packet in their hands, and
the packet's steps interleave with everything else that can happen.  `exec_uninterrupted` says that a
packet that nothing interrupts does what the one step of `World` does.

A first packet looks at `HandshakeBegin` twice, once to be ignored by a session that is up, once to
begin a handshake.  `live_undisturbed`: a context with a connection that is up is never put back into
handshaking as long as no `CONNECTED` comes in between, and as long as no context that is taken for empty
has a connection up (`Timely`).  `overtakenFirst_restarts` is a run in which a `CONNECTED` does, and
`reusedContext_restarts` one in which a reference count has wrapped.
-/
import Koisyn.Session.Recovery
import Koisyn.Session.Grounded

namespace Koisyn.Session

open Koisyn.Channel
open Koisyn.Theory.Run

set_option autoImplicit false

/-! ## The machine -/

/-- Where a first packet is: the next thing it does. -/
inductive FirstPoint where
  /-- looks at the next context of the loop of `FindMatchingEntry` -/
  | scanning (firstEmpty : Option Slot) (rest : List Slot)
  /-- tests `HandshakeBegin` in `ConsumeRawUdpData` -/
  | found (isMatching : Bool) (slot : Slot)
  /-- copies the local ports, saves the peer's ports and challenges its firewall -/
  | tested (slot : Slot)
  /-- tests `HandshakeBegin` in `Receive1st` -/
  | saved (slot : Slot) (localServer localClient : UInt16)
  /-- binds a socket and saves the local ports -/
  | renewing (slot : Slot)
  /-- saves the handshake time -/
  | reserved (slot : Slot) (localServer localClient : UInt16)
  /-- saves the socket and the peer's address, and answers -/
  | begun (slot : Slot) (localServer localClient : UInt16)
  deriving DecidableEq, Repr

/-- The context that a packet works on once it has passed its first test. -/
def FirstPoint.target : FirstPoint → Option Slot
  | .scanning _ _ | .found _ _ => none
  | .tested slot | .saved slot _ _ | .renewing slot | .reserved slot _ _ | .begun slot _ _ => some slot

/-- A first packet; `overtaken` tells whether its context had a `CONNECTED` since the first test. -/
structure FirstPacket where
  remoteServer : UInt16
  remoteClient : UInt16
  remote : Endpoint
  point : FirstPoint
  overtaken : Bool := false
  deriving DecidableEq, Repr

/-- A session and the first packet that it works on. -/
structure Race where
  world : World := {}
  first : Option FirstPacket := none

inductive RaceLabel where
  | world (l : Label)
  | arrive (data : List UInt8) (remote : Endpoint)
  | scan (busy : Bool)
  | resume (sock : Option UInt16) (now : Nat)

def Activation.isFirst : Activation → Bool
  | .receive1st _ _ _ _ _ _ => true
  | _ => false

def Activation.isConnected : Activation → Bool
  | .connected _ => true
  | _ => false

def Activation.isConnectTo : Activation → Bool
  | .connectTo _ _ _ _ => true
  | _ => false

namespace FirstPacket

/-- The packet goes on to the given point. -/
def at_ (p : FirstPacket) (point : FirstPoint) : FirstPacket := { p with point }

/-- What happens to the contexts while the packet is on its way. -/
def watch (p : FirstPacket) : Option (Slot × Activation) → FirstPacket
  | some (slot, act) =>
      { p with overtaken :=
          p.overtaken || (decide (p.point.target = some slot) && act.isConnected) }
  | none => p

/-- One turn of the loop of `FindMatchingEntry`. -/
def scan (p : FirstPacket) (contexts : Slot → ConnectionContext) (busy : Bool)
    (firstEmpty : Option Slot) (i : Slot) (rest : List Slot) : FirstPacket :=
  if busy then p.at_ (.scanning firstEmpty rest)
  else if quicAddrCompare (contexts i).remoteSentinel p.remote.addr then p.at_ (.found true i)
  else
    p.at_ (.scanning (if firstEmpty.isNone && isEmpty (contexts i) then some i else firstEmpty) rest)

end FirstPacket

namespace Race

/-- One step of the first packet after the scan. -/
def resume (L : Listener) (w : World) (p : FirstPacket) (sock : Option UInt16) (now : Nat) :
    Option Race :=
  match p.point with
  | .scanning firstEmpty [] =>
      some ⟨w, firstEmpty.map fun slot => p.at_ (.found false slot)⟩
  | .scanning _ (_ :: _) => none
  | .found isMatching slot =>
      let isConnected := (w.contexts slot).handshakeBegin.isNone
      if isMatching && isConnected then some ⟨w, none⟩
      else some ⟨w, some (p.at_ (.tested slot))⟩
  | .tested slot =>
      let ctx := w.contexts slot
      some ⟨w.write slot
          { ctx with ports := { ctx.ports with
              remoteServer := p.remoteServer, remoteClient := p.remoteClient } }
          (challenge p.remote p.remoteClient),
        some (p.at_ (.saved slot ctx.ports.localServer ctx.ports.localClient))⟩
  | .saved slot localServer localClient =>
      if (w.contexts slot).handshakeBegin.isNone then some ⟨w, some (p.at_ (.renewing slot))⟩
      else
        some ⟨w.write slot (w.contexts slot)
          [sendPorts p.remote.addr localServer localClient p.remoteServer p.remoteClient], none⟩
  | .renewing slot =>
      match sock with
      | none => some ⟨w, none⟩
      | some localClient =>
          let ctx := w.contexts slot
          some ⟨w.write slot
              { ctx with ports := { ctx.ports with localServer := L.port, localClient } } [],
            some (p.at_ (.reserved slot L.port localClient))⟩
  | .reserved slot localServer localClient =>
      some ⟨w.write slot { w.contexts slot with handshakeBegin := some now } [],
        some (p.at_ (.begun slot localServer localClient))⟩
  | .begun slot localServer localClient =>
      some ⟨w.write slot
          { w.contexts slot with transient := some localClient, remoteSentinel := p.remote.addr }
          [sendPorts p.remote.addr localServer localClient p.remoteServer p.remoteClient], none⟩

/-- A label of the session that can happen now: the packet keeps `connCtxCreationMutex`, and first
packets have steps of their own. -/
def Admits (L : Listener) (s : Race) (l : Label) : Prop :=
  (s.first.isSome = true → ¬ l.Scans) ∧
    ∀ routed ∈ s.world.route L l, ∀ target ∈ routed, target.2.isFirst = false

instance (L : Listener) (s : Race) (l : Label) : Decidable (s.Admits L l) :=
  inferInstanceAs (Decidable (_ ∧ _))

/-- One step. -/
def step (L : Listener) (s : Race) : RaceLabel → Option Race
  | .world l =>
      if s.Admits L l then
        (s.world.step L l).map fun t =>
          ⟨t, s.first.map fun p => p.watch ((s.world.route L l).join)⟩
      else none
  | .arrive data remote =>
      if s.first.isSome || data.length ≠ 8 then none
      else
        (convertBufferToPorts data).bind fun ports =>
          if knownPeerPorts ports && !knownLocalPorts ports then
            some ⟨s.world, some
              { remoteServer := ports.remoteServer, remoteClient := ports.remoteClient, remote
                point := .scanning none (List.finRange maxConnections) }⟩
          else none
  | .scan busy =>
      s.first.bind fun p =>
        match p.point with
        | .scanning firstEmpty (i :: rest) =>
            some { s with first := some (p.scan s.world.contexts busy firstEmpty i rest) }
        | _ => none
  | .resume sock now => s.first.bind fun p => resume L s.world p sock now

end Race

/-! ## Contexts with a connection that is up -/

section Effect

variable {ctx ctx' : Core} {act : Activation} {noted : List Mark}

/-- Nothing but a first packet or `ConnectTo` begins a handshake. -/
theorem Effect.begins (effect : Effect ctx act ctx' noted) (notFirst : act.isFirst = false)
    (notConnectTo : act.isConnectTo = false) :
    ctx'.handshakeBegin = ctx.handshakeBegin ∨ ctx'.handshakeBegin = none := by
  cases effect with
  | connectTo => cases notConnectTo
  | saved => cases notFirst
  | answered => cases notFirst
  | quiet => exact .inl rfl
  | unopened => exact .inl rfl
  | granted => exact .inl rfl
  | closed => exact .inl rfl
  | _ => exact .inr rfl

/-- Nothing else sets local ports, and only a reset clears them. -/
theorem Effect.keeps_local (effect : Effect ctx act ctx' noted) (notFirst : act.isFirst = false)
    (notConnectTo : act.isConnectTo = false) (unreset : noted.count .reset = 0) :
    ctx'.ports.localServer = ctx.ports.localServer ∧
      ctx'.ports.localClient = ctx.ports.localClient := by
  cases effect with
  | connectTo => cases notConnectTo
  | saved => cases notFirst
  | answered => cases notFirst
  | quiet => exact ⟨rfl, rfl⟩
  | unopened starts => exact (Activation.of_starts starts).2
  | granted starts => exact (Activation.of_starts starts).2
  | connected => exact ⟨rfl, rfl⟩
  | closed => exact ⟨rfl, rfl⟩
  | _ => cases unreset

end Effect

namespace World

/-- One of the context's connections has had `CONNECTED` and no `SHUTDOWN_COMPLETE`. -/
def Live (w : World) (slot : Slot) : Prop :=
  ∃ c ∈ w.conns, c.slot = slot ∧ c.connected = true ∧ c.closed = false

instance (w : World) (slot : Slot) : Decidable (w.Live slot) :=
  inferInstanceAs (Decidable (∃ _ ∈ _, _))

/-- A context with a connection that is up is not handshaking. -/
def Calm (w : World) : Prop := ∀ slot, w.Live slot → (w.contexts slot).handshakeBegin = none

/-- The local ports of a context are the same before and after. -/
def SameLocal (w t : World) (slot : Slot) : Prop :=
  (t.contexts slot).ports.localServer = (w.contexts slot).ports.localServer ∧
    (t.contexts slot).ports.localClient = (w.contexts slot).ports.localClient

variable {L : Listener} {w : World} {slot : Slot} {act : Activation}

theorem Calm.not_live (calm : w.Calm) (begun : (w.contexts slot).handshakeBegin.isSome = true) :
    ¬ w.Live slot := by
  intro live
  rw [calm slot live] at begun
  cases begun

/-- A context has a connection up after an activation only if it had one, or if it is the one that has
been connected. -/
theorem live_after (legal : w.Legal L slot act) {i : Slot} (live : (w.after slot act).Live i) :
    w.Live i ∨ i = slot ∧ act.isConnected = true := by
  obtain ⟨c, member, rfl, isConnected, unclosed⟩ := live
  rcases mem_connsAfter member with ⟨d, old, follows⟩ | made
  · have here : d.slot = c.slot := follows.origin.2.1.symm
    rcases follows.connects isConnected with wasConnected | ⟨conn, rfl, present⟩
    · exact .inl ⟨d, old, here, wasConnected, follows.unclosed unclosed⟩
    · obtain ⟨e, started, target, -⟩ := legal
      obtain rfl : d = e :=
        Option.some.inj (present.symm.trans (startedConn_some.1 started).1)
      exact .inr ⟨here.symm.trans target, rfl⟩
  · rw [made.unconnected] at isConnected
    cases isConnected

/-- **The step rule of a session.** -/
theorem calm_after (calm : w.Calm) (legal : w.Legal L slot act) (notFirst : act.isFirst = false)
    (unused : act.isConnectTo = true → ¬ w.Live slot) : (w.after slot act).Calm := by
  intro i live
  rcases live_after legal live with before | ⟨rfl, isConnected⟩
  · by_cases target : i = slot
    · subst target
      have notConnectTo : act.isConnectTo = false :=
        Bool.eq_false_of_not_eq_true fun takes => unused takes before
      obtain ⟨noted, effect, -⟩ := w.after_effect i act
      rcases effect.begins notFirst notConnectTo with kept | idle
      · exact kept.trans (calm i before)
      · exact idle
    · rw [after_contexts_ne _ target]
      exact calm i before
  · cases act with
    | connected conn =>
        rw [after_contexts_self]
        rfl
    | _ => cases isConnected

/-- An activation that does not reset the context leaves one with a connection up its local ports. -/
theorem sameLocal_after (notFirst : act.isFirst = false)
    (unused : act.isConnectTo = true → ¬ w.Live slot) {i : Slot} (live : w.Live i)
    (unreset : (w.after slot act).use i = w.use i) : SameLocal w (w.after slot act) i := by
  by_cases target : i = slot
  · subst target
    have notConnectTo : act.isConnectTo = false :=
      Bool.eq_false_of_not_eq_true fun takes => unused takes live
    obtain ⟨noted, effect, history⟩ := w.after_effect i act
    have grown := use_after_self history
    exact effect.keeps_local notFirst notConnectTo (by omega)
  · rw [SameLocal, after_contexts_ne _ target]
    exact ⟨rfl, rfl⟩

section Write

variable {ctx : ConnectionContext} {calls : List Call}

/-- **The step rule of the first packet's writes.** -/
theorem calm_write (calm : w.Calm) (idle : w.Live slot → ctx.handshakeBegin = none) :
    (w.write slot ctx calls).Calm := by
  intro i live
  have before : w.Live i := live
  by_cases target : i = slot
  · subst target
    rw [write_contexts_self]
    exact idle before
  · rw [write_contexts_ne target]
    exact calm i before

theorem sameLocal_write (server : ctx.ports.localServer = (w.contexts slot).ports.localServer)
    (client : ctx.ports.localClient = (w.contexts slot).ports.localClient) (i : Slot) :
    SameLocal w (w.write slot ctx calls) i := by
  by_cases target : i = slot
  · subst target
    rw [SameLocal, write_contexts_self]
    exact ⟨server, client⟩
  · rw [SameLocal, write_contexts_ne target]
    exact ⟨rfl, rfl⟩

end Write

end World

/-! ## The packet on its way -/

/-- The context that was taken for empty, when the packet is to go on with it. -/
def FirstPoint.takes : FirstPoint → Option Slot
  | .found false slot => some slot
  | _ => none

/-- Where the packet has the socket to begin a handshake with, once it has looked for one. -/
def FirstPoint.restarts (sock : Option UInt16) : FirstPoint → Option Slot
  | .renewing slot => sock.map fun _ => slot
  | .reserved slot _ _ => some slot
  | _ => none

namespace Race

open World

variable {L : Listener}

/-- The daemon has nothing to do with a context that has a connection up. -/
def Settled (s : Race) : Prop :=
  ∀ slot, s.world.Live slot → (s.world.contexts slot).handshakeBegin = none ∧
    ∀ now, doCheck slot (s.world.contexts slot) now = (s.world.contexts slot, [])

/-- A step that does not reset the context leaves one with a connection up its local ports. -/
def KeepsLocal (L : Listener) (s : Race) (l : RaceLabel) : Prop :=
  ∀ t, step L s l = some t → ∀ slot, s.world.Live slot →
    t.world.use slot = s.world.use slot → SameLocal s.world t.world slot

/-- No context is taken for empty that has a connection up, and no `CONNECTED` of a connection that is
still up comes between the packet's first test and its writes. -/
def Timely (L : Listener) (s : Race) : RaceLabel → Prop
  | .resume sock _ => ∀ p ∈ s.first,
      (∀ slot ∈ p.point.takes, ¬ s.world.Live slot) ∧
        ∀ slot ∈ p.point.restarts sock, p.overtaken = true → ¬ s.world.Live slot
  | .world l => OnActivation L (fun w slot act =>
      act.isConnectTo = true → ¬ w.Live slot) s.world l
  | _ => True

/-- The invariant: a context that the packet works on has no connection up unless it was overtaken. -/
structure Kept (s : Race) : Prop where
  calm : s.world.Calm
  fits : ∀ p ∈ s.first, ∀ slot ∈ p.point.target, p.overtaken = false → ¬ s.world.Live slot

theorem kept_start : Kept {} where
  calm := by
    rintro slot ⟨c, member, -⟩
    exact absurd member List.not_mem_nil
  fits _ present := by cases present

theorem Kept.settled {s : Race} (kept : s.Kept) : s.Settled := by
  intro slot live
  have idle := kept.calm slot live
  exact ⟨idle, fun now => by simp only [doCheck, idle]⟩

/-- The packet has done its last step. -/
theorem kept_done {w : World} (calm : w.Calm) : Kept ⟨w, none⟩ where
  calm := calm
  fits _ present := by cases present

/-- The packet goes on. -/
theorem kept_at {w : World} {p : FirstPacket} {point : FirstPoint} (calm : w.Calm)
    (fits : ∀ slot ∈ point.target, p.overtaken = false → ¬ w.Live slot) :
    Kept ⟨w, some (p.at_ point)⟩ where
  calm := calm
  fits := by
    rintro q present
    obtain rfl := Option.some.inj present
    exact fits

/-- The packet goes on in the context that it works on. -/
theorem kept_at_slot {w : World} {p : FirstPacket} {point : FirstPoint} {slot : Slot} (calm : w.Calm)
    (target : point.target = some slot) (fits : p.overtaken = false → ¬ w.Live slot) :
    Kept ⟨w, some (p.at_ point)⟩ := by
  refine kept_at calm ?_
  intro i here
  rw [target] at here
  exact Option.some.inj here ▸ fits

/-- **The step rule of the packet.** -/
theorem kept_resume {w : World} {p : FirstPacket} {sock : Option UInt16} {now : Nat} {t : Race}
    (kept : Kept ⟨w, some p⟩) (timely : (⟨w, some p⟩ : Race).Timely L (.resume sock now))
    (taken : resume L w p sock now = some t) :
    t.Kept ∧ ∀ slot, w.Live slot → SameLocal w t.world slot := by
  obtain ⟨remoteServer, remoteClient, remote, point, overtaken⟩ := p
  obtain ⟨free, timely⟩ := timely _ rfl
  have calm : w.Calm := kept.calm
  have fits := kept.fits _ rfl
  -- where it begins a handshake the context has no connection up, overtaken or not
  have dead : ∀ slot ∈ point.target, slot ∈ point.restarts sock → ¬ w.Live slot := by
    intro slot target restarts
    cases overtaken with
    | false => exact fits slot target rfl
    | true => exact timely slot restarts rfl
  cases point with
  | scanning firstEmpty rest =>
      cases rest with
      | cons i rest => cases taken
      | nil =>
          obtain rfl := Option.some.inj taken
          refine ⟨?_, fun slot _ => ⟨rfl, rfl⟩⟩
          cases firstEmpty with
          | none => exact kept_done calm
          | some slot => exact kept_at calm fun _ none_ => by cases none_
  | found isMatching slot =>
      simp only [resume] at taken
      split at taken
      · obtain rfl := Option.some.inj taken
        exact ⟨kept_done calm, fun slot _ => ⟨rfl, rfl⟩⟩
      · rename_i goesOn
        obtain rfl := Option.some.inj taken
        refine ⟨kept_at_slot calm rfl fun _ => ?_, fun slot _ => ⟨rfl, rfl⟩⟩
        -- a packet for a session that is up has been ignored
        cases isMatching with
        | true => exact calm.not_live (Option.isSome_iff_ne_none.2 (by simpa using goesOn))
        | false => exact free slot rfl
  | tested slot =>
      obtain rfl := Option.some.inj taken
      exact ⟨kept_at_slot (calm_write calm (calm slot)) rfl (fits slot rfl),
        fun i _ => by apply sameLocal_write <;> rfl⟩
  | saved slot localServer localClient =>
      simp only [resume] at taken
      split at taken
      · obtain rfl := Option.some.inj taken
        exact ⟨kept_at_slot calm rfl (fits slot rfl), fun slot _ => ⟨rfl, rfl⟩⟩
      · obtain rfl := Option.some.inj taken
        exact ⟨kept_done (calm_write calm (calm slot)), fun i _ => by apply sameLocal_write <;> rfl⟩
  | renewing slot =>
      cases sock with
      | none =>
          obtain rfl := Option.some.inj taken
          exact ⟨kept_done calm, fun slot _ => ⟨rfl, rfl⟩⟩
      | some localClient =>
          obtain rfl := Option.some.inj taken
          refine ⟨kept_at_slot (calm_write calm (calm slot)) rfl (fits slot rfl), ?_⟩
          intro i live
          have other : i ≠ slot := fun same => dead slot rfl rfl (same ▸ live)
          rw [SameLocal, write_contexts_ne other]
          exact ⟨rfl, rfl⟩
  | reserved slot localServer localClient =>
      obtain rfl := Option.some.inj taken
      have calmly : (w.write slot { w.contexts slot with handshakeBegin := some now } []).Calm :=
        calm_write calm fun live => absurd live (dead slot rfl rfl)
      exact ⟨kept_at_slot calmly rfl (fits slot rfl), fun i _ => by apply sameLocal_write <;> rfl⟩
  | begun slot localServer localClient =>
      obtain rfl := Option.some.inj taken
      exact ⟨kept_done (calm_write calm (calm slot)), fun i _ => by apply sameLocal_write <;> rfl⟩

theorem scan_target (p : FirstPacket) (contexts : Slot → ConnectionContext) (busy : Bool)
    (firstEmpty : Option Slot) (i : Slot) (rest : List Slot) :
    (p.scan contexts busy firstEmpty i rest).point.target = none := by
  unfold FirstPacket.scan
  split
  · rfl
  · split <;> rfl

theorem kept_scan {s : Race} (kept : s.Kept) {busy : Bool} {t : Race}
    (taken : step L s (.scan busy) = some t) : t.Kept ∧ t.world = s.world := by
  obtain ⟨p, -, taken⟩ := Option.bind_eq_some_iff.1 taken
  split at taken
  · obtain rfl := Option.some.inj taken
    refine ⟨⟨kept.calm, ?_⟩, rfl⟩
    rintro q present slot target
    obtain rfl := Option.some.inj present
    rw [scan_target] at target
    cases target
  · cases taken

theorem kept_arrive {s : Race} (kept : s.Kept) {data : List UInt8} {remote : Endpoint} {t : Race}
    (taken : step L s (.arrive data remote) = some t) : t.Kept ∧ t.world = s.world := by
  simp only [step] at taken
  split at taken
  · cases taken
  · obtain ⟨ports, -, taken⟩ := Option.bind_eq_some_iff.1 taken
    split at taken
    · obtain rfl := Option.some.inj taken
      refine ⟨⟨kept.calm, ?_⟩, rfl⟩
      rintro q present slot target
      obtain rfl := Option.some.inj present
      cases target
    · cases taken

/-- **What the session does while the packet is on its way.** -/
theorem kept_world {s : Race} (kept : s.Kept) {l : Label} (timely : s.Timely L (.world l)) {t : Race}
    (taken : step L s (.world l) = some t) :
    t.Kept ∧ ∀ slot, s.world.Live slot → t.world.use slot = s.world.use slot →
      SameLocal s.world t.world slot := by
  obtain ⟨w, first⟩ := s
  simp only [step] at taken
  split at taken
  · rename_i admits
    obtain ⟨w', moved, rfl⟩ := Option.map_eq_some_iff.1 taken
    rcases step_cases moved with ⟨route, rfl⟩ | ⟨slot, act, route, works, rfl⟩
    · -- nothing happens
      rw [route]
      refine ⟨⟨kept.calm, ?_⟩, fun slot _ _ => ⟨rfl, rfl⟩⟩
      rintro q present
      obtain ⟨p, isFirst, rfl⟩ := Option.map_eq_some_iff.1 present
      exact kept.fits p isFirst
    · have legal := route_legal route
      have notFirst : act.isFirst = false := admits.2 _ route _ rfl
      have unused : act.isConnectTo = true → ¬ w.Live slot := timely slot act route works
      rw [route]
      refine ⟨⟨calm_after kept.calm legal notFirst unused, ?_⟩,
        fun i live unreset => sameLocal_after notFirst unused live unreset⟩
      rintro q present i target unseen live
      obtain ⟨p, isFirst, rfl⟩ := Option.map_eq_some_iff.1 present
      have here : p.point.target = some i := target
      simp only [Option.join_some, FirstPacket.watch, here, Bool.or_eq_false_iff,
        Bool.and_eq_false_imp, decide_eq_true_eq, Option.some.injEq] at unseen
      rcases live_after legal live with before | ⟨isHere, isConnected⟩
      · exact kept.fits p isFirst i here unseen.1 before
      · rw [unseen.2 isHere] at isConnected
        cases isConnected
  · cases taken

theorem kept_step {s : Race} (kept : s.Kept) {l : RaceLabel} (timely : s.Timely L l) {t : Race}
    (taken : step L s l = some t) :
    t.Kept ∧ ∀ slot, s.world.Live slot → t.world.use slot = s.world.use slot →
      SameLocal s.world t.world slot := by
  cases l with
  | world l => exact kept_world kept timely taken
  | arrive data remote =>
      obtain ⟨kept', same⟩ := kept_arrive kept taken
      exact ⟨kept', fun slot _ _ => by rw [same]; exact ⟨rfl, rfl⟩⟩
  | scan busy =>
      obtain ⟨kept', same⟩ := kept_scan kept taken
      exact ⟨kept', fun slot _ _ => by rw [same]; exact ⟨rfl, rfl⟩⟩
  | resume sock now =>
      obtain ⟨w, first⟩ := s
      obtain ⟨p, rfl, resumed⟩ := Option.bind_eq_some_iff.1 taken
      obtain ⟨kept', same⟩ := kept_resume kept timely resumed
      exact ⟨kept', fun slot live _ => same slot live⟩

/-- **A context with a connection up is not put back into handshaking** as long as its first packets are
not overtaken by a `CONNECTED`, and none such is taken for empty. -/
theorem live_undisturbed (L : Listener) (labels : List RaceLabel)
    (every : EveryStep (step L) (Timely L) {} labels) :
    Always (step L) Settled {} labels ∧ EveryStep (step L) (KeepsLocal L) {} labels := by
  have always : Always (step L) Kept {} labels :=
    always_of_everyStep (fun s l t kept timely taken => (kept_step kept timely taken).1)
      kept_start every
  refine ⟨always.mono fun s kept => kept.settled, ?_⟩
  refine everyStep_of_always_of_everyStep ?_ always every
  intro s l kept timely t taken
  exact (kept_step kept timely taken).2

/-! ## A packet that nothing interrupts -/

/-- The loop of `FindMatchingEntry`, and what it returns. -/
theorem exec_scanning (w : World) (p : FirstPacket) (busy : Slot → Bool) (firstEmpty : Option Slot)
    (slots : List Slot) {isMatching : Bool} {slot : Slot}
    (entry : scanEntries w.contexts busy p.remote.addr firstEmpty slots = (isMatching, some slot)) :
    ∃ labels, exec (step L) ⟨w, some (p.at_ (.scanning firstEmpty slots))⟩ labels =
      some ⟨w, some (p.at_ (.found isMatching slot))⟩ := by
  induction slots generalizing firstEmpty with
  | nil =>
      obtain ⟨rfl, rfl⟩ := Prod.mk.inj entry
      exact ⟨[.resume none 0], rfl⟩
  | cons i rest ih =>
      have turn : step L ⟨w, some (p.at_ (.scanning firstEmpty (i :: rest)))⟩ (.scan (busy i)) =
          some ⟨w, some (p.scan w.contexts (busy i) firstEmpty i rest)⟩ := rfl
      unfold scanEntries at entry
      unfold FirstPacket.scan at turn
      cases skipped : busy i with
      | true =>
          simp only [skipped, if_true] at entry turn
          obtain ⟨labels, run⟩ := ih firstEmpty entry
          exact ⟨.scan true :: labels, by rw [exec_cons, turn]; exact run⟩
      | false =>
          simp only [skipped, Bool.false_eq_true, if_false] at entry turn
          split at entry
          · rename_i same
            obtain ⟨rfl, chosen⟩ := Prod.mk.inj entry
            obtain rfl := Option.some.inj chosen
            rw [if_pos same] at turn
            exact ⟨[.scan false], by rw [exec_cons, turn]; rfl⟩
          · rename_i differs
            rw [if_neg differs] at turn
            obtain ⟨labels, run⟩ := ih _ entry
            exact ⟨.scan false :: labels, by rw [exec_cons, turn]; exact run⟩

/-- `Receive1st` is one write after all. -/
theorem write_eq_after {w : World} {slot : Slot} {remoteServer remoteClient : UInt16}
    {remote : Endpoint} {localServer : UInt16} {sock : Option UInt16} {now : Nat} :
    let r := receive1st (w.contexts slot) remoteServer remoteClient remote localServer sock now
    w.write slot r.1 r.2 =
      w.after slot (.receive1st remoteServer remoteClient remote localServer sock now) := by
  intro r
  rw [after_eq_write rfl]
  rfl

/-- `Receive1st` in its steps. -/
theorem exec_tested (w : World) (p : FirstPacket) (slot : Slot) (sock : Option UInt16) (now : Nat) :
    let r := receive1st (w.contexts slot) p.remoteServer p.remoteClient p.remote L.port sock now
    ∃ labels, exec (step L) ⟨w, some (p.at_ (.tested slot))⟩ labels =
      some ⟨w.write slot r.1 r.2, none⟩ := by
  cases begun : (w.contexts slot).handshakeBegin with
  | some handshakeBegin =>
      refine ⟨[.resume none 0, .resume none 0], ?_⟩
      simp [step, resume, FirstPacket.at_, receive1st, begun]
  | none =>
      cases sock with
      | none =>
          refine ⟨[.resume none 0, .resume none 0, .resume none 0], ?_⟩
          simp [step, resume, FirstPacket.at_, receive1st, begun]
      | some localClient =>
          refine ⟨[.resume none 0, .resume none 0, .resume (some localClient) 0, .resume none now,
            .resume none 0], ?_⟩
          simp [step, resume, FirstPacket.at_, receive1st, begun]

/-- **A packet that nothing interrupts** does what the one step of the session does. -/
theorem exec_uninterrupted {w : World} {data : List UInt8} {remote : Endpoint} {busy : Slot → Bool}
    {sock : Option UInt16} {now : Nat} {start : StartOutcome} {slot : Slot} {act : Activation}
    (route : w.route L (.packet data remote busy sock now start) = some (some (slot, act)))
    (isFirst : act.isFirst = true) :
    ∃ labels, exec (step L) ⟨w, none⟩ (.arrive data remote :: labels) =
      some ⟨w.after slot act, none⟩ := by
  cases routed_of_route route with
  | receive2nd => cases isFirst
  | receive3rd => cases isFirst
  | @receive1st _ _ _ _ _ _ _ ports isMatching eight read entry peerKnown noLocal matched =>
      let p : FirstPacket :=
        { remoteServer := ports.remoteServer, remoteClient := ports.remoteClient, remote
          point := .scanning none (List.finRange maxConnections) }
      have arrives : step L ⟨w, none⟩ (.arrive data remote) = some ⟨w, some p⟩ := by
        simp [step, eight, read, peerKnown, noLocal, p]
      obtain ⟨scans, scanned⟩ := exec_scanning (L := L) w p busy none _ entry
      have goesOn : step L ⟨w, some (p.at_ (.found isMatching slot))⟩ (.resume none 0) =
          some ⟨w, some (p.at_ (.tested slot))⟩ := by
        cases isMatching with
        | true => simp [step, resume, FirstPacket.at_, Option.isSome_iff_ne_none.1 (matched rfl)]
        | false => simp [step, resume, FirstPacket.at_]
      obtain ⟨steps, ended⟩ := exec_tested (L := L) w p slot sock now
      refine ⟨scans ++ .resume none 0 :: steps, ?_⟩
      have scanned : exec (step L) ⟨w, some p⟩ scans = _ := scanned
      rw [exec_cons, arrives, Option.bind_some, exec_append, scanned, Option.bind_some, exec_cons,
        goesOn, Option.bind_some, ended, write_eq_after]

/-! ## A packet that is overtaken -/

/-- A handshake that a packet begins in a context with a connection up unsettles it. -/
theorem unsettled_of_live {w : World} {p : FirstPacket} {slot : Slot}
    {localServer localClient : UInt16} (point : p.point = .reserved slot localServer localClient)
    (live : w.Live slot) {sock : Option UInt16} {now : Nat} {t : Race}
    (taken : resume L w p sock now = some t) : ¬ t.Settled := by
  simp only [resume, point, Option.some.injEq] at taken
  subst taken
  intro settled
  have idle := (settled slot live).1
  rw [write_contexts_self] at idle
  cases idle

instance (L : Listener) (s : Race) : ∀ l : RaceLabel, Decidable (s.Timely L l)
  | .world l => inferInstanceAs (Decidable (OnActivation L (fun w slot act =>
      act.isConnectTo = true → ¬ w.Live slot) s.world l))
  | .resume _ _ => inferInstanceAs (Decidable (∀ _ ∈ _, (∀ _ ∈ _, _) ∧ ∀ _ ∈ _, _ → _))
  | .arrive _ _ | .scan _ => isTrue trivial

/-- The peer's first packet is answered, its third packet starts our client, and the first packet
comes again when the session is up. -/
def repeatedFirst : List RaceLabel :=
  .arrive (portBytes 3 4 0 0) samplePeer :: List.replicate 16 (.scan false) ++
    [.resume none 0, .resume none 0, .resume none 0, .resume none 0, .resume (some 2) 0,
      .resume none 0, .resume none 0,
      .world (.packet (portBytes 0 0 1 2) samplePeer (fun _ => false) none 0 sampleStart),
      .world (.connected 0), .arrive (portBytes 3 4 0 0) samplePeer, .scan false, .resume none 0]

theorem live_undisturbed_repeatedFirst :
    Always (step sampleListener) Settled {} repeatedFirst ∧
      EveryStep (step sampleListener) (KeepsLocal sampleListener) {} repeatedFirst :=
  live_undisturbed sampleListener repeatedFirst (by decide +kernel)

/-- We and the peer connect to each other, and our client comes up between the two tests of the peer's
first packet. -/
def overtakenFirst : List RaceLabel :=
  [.world (.connectTo (some samplePeer) (fun _ => false) (some 2) 0),
    .world (.packet (portBytes 3 4 1 2) samplePeer (fun _ => false) none 0 sampleStart),
    .arrive (portBytes 3 4 0 0) samplePeer, .scan false, .resume none 0, .world (.connected 0),
    .resume none 0, .resume none 0, .resume (some 5) 0, .resume none (seconds 1), .resume none 0]

/-- The session is handshaking again, on another local port, and the daemon shuts its connection down
twelve seconds later. -/
theorem overtakenFirst_restarts :
    (exec (step sampleListener) {} overtakenFirst).map (fun s =>
        (decide (s.world.Live 0), (s.world.contexts 0).handshakeBegin, (s.world.contexts 0).ports,
          decide (.connectionShutdown 0 ∈
            (doCheck 0 (s.world.contexts 0) (seconds 13)).2))) =
        some (true, some (seconds 1), ⟨3, 4, 1, 5⟩, true) ∧
      ¬ Always (step sampleListener) Settled {} overtakenFirst := by
  have ended : (exec (step sampleListener) {} overtakenFirst).map (fun s =>
      (decide (s.world.Live 0), (s.world.contexts 0).handshakeBegin, (s.world.contexts 0).ports,
        decide (.connectionShutdown 0 ∈
          (doCheck 0 (s.world.contexts 0) (seconds 13)).2))) =
      some (true, some (seconds 1), ⟨3, 4, 1, 5⟩, true) := by decide +kernel
  refine ⟨ended, ?_⟩
  intro always
  obtain ⟨s, run, state⟩ := Option.map_eq_some_iff.1 ended
  simp only [Prod.mk.injEq, decide_eq_true_eq] at state
  have idle := (always.last run 0 state.1).1
  rw [state.2.1] at idle
  cases idle

/-! ## A context that is taken for empty -/

/-- Our connection is up when the peer's ends without having come up, which resets the context and makes
its reference count zero.  We connect again, from another port. -/
def reusedContext : List RaceLabel :=
  [.world (.connectTo (some samplePeer) (fun _ => false) (some 2) 0),
    .world (.packet (portBytes 3 4 1 2) samplePeer (fun _ => false) none 0 sampleStart),
    .world (.connected 0), .world (.newConnection { samplePeer.addr with port := 4 } true),
    .world (.shutdownComplete 1 fun _ => true),
    .world (.connectTo (some samplePeer) (fun _ => false) (some 5) (seconds 1))]

/-- The context is handshaking while its first connection is still up. -/
theorem reusedContext_restarts :
    (exec (step sampleListener) {} reusedContext).map (fun s =>
        (decide (s.world.Live 0), (s.world.contexts 0).handshakeBegin,
          (s.world.contexts 0).ports.localClient)) = some (true, some (seconds 1), 5) ∧
      ¬ Always (step sampleListener) Settled {} reusedContext := by
  have ended : (exec (step sampleListener) {} reusedContext).map (fun s =>
      (decide (s.world.Live 0), (s.world.contexts 0).handshakeBegin,
        (s.world.contexts 0).ports.localClient)) = some (true, some (seconds 1), 5) := by
    decide +kernel
  refine ⟨ended, ?_⟩
  intro always
  obtain ⟨s, run, state⟩ := Option.map_eq_some_iff.1 ended
  simp only [Prod.mk.injEq, decide_eq_true_eq] at state
  have idle := (always.last run 0 state.1).1
  rw [state.2.1] at idle
  cases idle

end Race

end Koisyn.Session
