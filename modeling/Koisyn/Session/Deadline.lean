/-
# Koisyn.Session.Deadline — nobody extends the deadline of a half-open context

`HandshakeBegin` is written where a handshake begins, in `ConnectTo` and `Receive1st`, and cleared by
`Reset` and by `CONNECTED`.  Both writers want a context without one: `ConnectTo` takes an empty context,
which has none (`Grounded.idle_of_empty`), and `Receive1st` looks.

`deadline_kept`: from any state of any run, a context that is half-open keeps its time for as long as no
step resets it and none of its connections comes up, and a known peer port stays known.  So the first
pass of the daemon past the deadline finds the old time, and frees the context.
-/
import Koisyn.Session.Grounded
import Koisyn.Session.Recovery

namespace Koisyn.Session

open Koisyn.Channel
open Koisyn.Theory.Run

set_option autoImplicit false

/-! ## One activation -/

/-- The peer's ports that an activation saves are known. -/
def Activation.CarriesPorts : Activation → Prop
  | .receive1st remoteServer remoteClient _ _ _ _ => (remoteServer ||| remoteClient != 0) = true
  | .receive2nd remoteServer remoteClient _ _ => (remoteServer ||| remoteClient != 0) = true
  | _ => True

theorem carriesPorts_of_routed {L : Listener} {w : World} {l : Label} {slot : Slot}
    {act : Activation} (routed : World.Routed L w l slot act) : act.CarriesPorts := by
  cases routed with
  | receive1st _ _ _ peerKnown => exact peerKnown
  | receive2nd _ _ _ peerKnown => exact peerKnown
  | _ => trivial

/-- The ports of `StartClient` are known if they were or if its packet carries them. -/
theorem knownPeerPorts_of_starts {ports ports' : Ports} {env : StartEnv} {act : Activation}
    (starts : act.starts ports = some (ports', env)) (carries : act.CarriesPorts)
    (known : knownPeerPorts ports = true) : knownPeerPorts ports' = true := by
  cases act with
  | receive2nd remoteServer remoteClient remote env' =>
      obtain ⟨rfl, -⟩ := Prod.mk.inj (Option.some.inj starts)
      exact carries
  | receive3rd remote env' =>
      obtain ⟨rfl, -⟩ := Prod.mk.inj (Option.some.inj starts)
      exact known
  | _ => cases starts

/-- A context that is half-open since then; `known` asks for a peer port as well. -/
structure HalfOpen (ctx : Core) (handshakeBegin : Nat) (known : Bool) : Prop where
  begun : ctx.handshakeBegin = some handshakeBegin
  ports : known = true → knownPeerPorts ctx.ports = true

/-- **The step rule of one context.**  The cases are what an activation can do: those that reset leave a
mark, those that begin a handshake find one begun. -/
theorem halfOpen_effect {L : Listener} {ctx ctx' : Core} {act : Activation} {noted : List Mark}
    {s : Standing} {handshakeBegin : Nat} {known : Bool} (effect : Effect ctx act ctx' noted)
    (legal : LegalOn L ctx act) (bound : Bound ctx s) (carries : act.CarriesPorts)
    (halfOpen : HalfOpen ctx handshakeBegin known) (unreset : .reset ∉ noted)
    (notConnected : ∀ conn, act ≠ .connected conn) : HalfOpen ctx' handshakeBegin known := by
  obtain ⟨begun, ports⟩ := halfOpen
  have isSome : ctx.handshakeBegin.isSome = true := by
    rw [begun]
    rfl
  cases effect with
  | quiet => exact ⟨begun, ports⟩
  | connectTo remote localServer localClient now =>
      have served := bound.served isSome
      rw [legal.2.2] at served
      exact absurd rfl served
  | saved => exact ⟨begun, fun _ => carries⟩
  | answered idle =>
      rw [idle] at begun
      cases begun
  | unopened starts =>
      exact ⟨begun, fun asked => knownPeerPorts_of_starts starts carries (ports asked)⟩
  | granted starts =>
      exact ⟨begun, fun asked => knownPeerPorts_of_starts starts carries (ports asked)⟩
  | connected conn => exact absurd rfl (notConnected conn)
  | closed => exact ⟨begun, ports⟩
  | refused => exact absurd (by simp) unreset
  | closedLast => exact absurd (by simp) unreset
  | longStop => exact absurd (by simp) unreset
  | shortStop => exact absurd (by simp) unreset
  | dropped => exact absurd (by simp) unreset

/-- A pass of the daemon past the deadline: a minute after the handshake began, or twelve seconds if a
peer port is known. -/
def Overdue (ports : Ports) (handshakeBegin now : Nat) : Prop :=
  handshakeBegin + longStopRetryTimeout ≤ now ∨
    knownPeerPorts ports = true ∧ handshakeBegin + shortStopRetryTimeout ≤ now

/-- It resets the context. -/
theorem doCheck_of_overdue (slot : Slot) {ctx : ConnectionContext} {handshakeBegin now : Nat}
    (begun : ctx.handshakeBegin = some handshakeBegin)
    (overdue : Overdue ctx.ports handshakeBegin now) : (doCheck slot ctx now).1 = ctx.reset := by
  by_cases long : longStops (now - handshakeBegin)
  · exact World.late_doCheck_resets slot ctx begun long
  · obtain ⟨known, late⟩ : knownPeerPorts ctx.ports = true ∧
        handshakeBegin + shortStopRetryTimeout ≤ now := by
      refine overdue.resolve_left fun late => long ?_
      simp only [longStops, longStopRetryTimeout, seconds, milliseconds] at late ⊢
      omega
    have notEarly : ¬ now - handshakeBegin < retryTimeout - milliseconds 2 := by
      simp only [shortStopRetryTimeout, retryTimeout, seconds, milliseconds] at late ⊢
      omega
    have short : shortStops ctx.ports (now - handshakeBegin) := by
      refine ⟨long, known, ?_⟩
      simp only [shortStopRetryTimeout, seconds, milliseconds] at late ⊢
      omega
    simp only [doCheck, begun, if_neg notEarly, if_neg long, if_pos short]

/-! ## Runs -/

namespace World

variable {L : Listener} {w : World} {slot : Slot}

/-- The activation neither resets this slot nor is the `CONNECTED` of one of its connections. -/
def SparesHalfOpen (slot : Slot) (w : World) (i : Slot) (act : Activation) : Prop :=
  i = slot → ¬ w.Resets slot act ∧ ∀ conn, act ≠ .connected conn

instance decidableNotConnected : ∀ act : Activation, Decidable (∀ conn, act ≠ .connected conn)
  | .connected conn => isFalse fun never => never conn rfl
  | .connectTo _ _ _ _ | .receive1st _ _ _ _ _ _ | .receive2nd _ _ _ _ | .receive3rd _ _
  | .doCheck _ | .newConnection _ _ | .shutdownComplete _ _ _ | .peerStreamStarted _ _ _
  | .datagramStateChanged _ | .datagramReceived _ _ | .receive _ _ _ | .disconnect
  | .unreliablePacketSend _ _ => isTrue nofun

instance (slot : Slot) (w : World) (i : Slot) (act : Activation) :
    Decidable (SparesHalfOpen slot w i act) := inferInstanceAs (Decidable (_ → _ ∧ _))

/-- Half-open since then, in a run so far. -/
structure Waits (slot : Slot) (handshakeBegin : Nat) (known : Bool) (w : World) : Prop where
  grounded : w.Grounded
  halfOpen : HalfOpen (core (w.contexts slot)) handshakeBegin known

theorem waits_step {handshakeBegin : Nat} {known : Bool} {l : Label} {t : World}
    (waits : w.Waits slot handshakeBegin known) (spared : OnActivation L (SparesHalfOpen slot) w l)
    (taken : w.step L l = some t) : t.Waits slot handshakeBegin known := by
  rcases step_cases taken with ⟨-, rfl⟩ | ⟨i, act, route, works, rfl⟩
  · exact waits
  · refine ⟨grounded_after waits.grounded (route_legal route), ?_⟩
    by_cases target : i = slot
    · subst target
      obtain ⟨unreset, notConnected⟩ := spared i act route works rfl
      have effect := run_effect i (w.contexts i) act
      rw [after_contexts_self]
      refine halfOpen_effect effect (legalOn_of_legal (route_legal route)) (waits.grounded.bound i)
        (carriesPorts_of_routed (routed_of_route route)) waits.halfOpen ?_ notConnected
      exact fun noted => unreset (.inl (reset_of_marks noted))
    · rw [after_contexts_ne _ (Ne.symm target)]
      exact waits.halfOpen

/-- **A half-open context keeps its deadline**, in every run, whatever comes: until a step resets it or
one of its connections comes up its handshake time does not change, nor does a known peer port become
unknown.  A pass of the daemon past the deadline leaves nothing but the reference count. -/
theorem deadline_kept (L : Listener) {labels : List Label}
    (reached : exec (step L) {} labels = some w) {handshakeBegin : Nat}
    (begun : (w.contexts slot).handshakeBegin = some handshakeBegin) {later : List Label}
    (spared : EveryStep (step L) (OnActivation L (SparesHalfOpen slot)) w later) {t : World}
    (run : exec (step L) w later = some t) :
    (t.contexts slot).handshakeBegin = some handshakeBegin ∧
      (knownPeerPorts (w.contexts slot).ports = true →
        knownPeerPorts (t.contexts slot).ports = true) ∧
      ∀ now t', t.step L (.doCheck slot now) = some t' →
        Overdue (t.contexts slot).ports handshakeBegin now →
        t'.contexts slot = { refCount := (t.contexts slot).refCount } := by
  have grounded : w.Grounded :=
    (always_of_after (fun w slot act => grounded_after) labels grounded_start).last reached
  have start : w.Waits slot handshakeBegin (knownPeerPorts (w.contexts slot).ports) :=
    ⟨grounded, ⟨begun, id⟩⟩
  have waits := (always_of_everyStep (fun _ _ _ => waits_step) start spared).last run
  refine ⟨waits.halfOpen.begun, waits.halfOpen.ports, ?_⟩
  intro now t' taken overdue
  rw [after_of_route rfl taken, after_contexts_self, ← ConnectionContext.reset_eq]
  exact doCheck_of_overdue slot waits.halfOpen.begun overdue

/-- We try to connect at time 0. -/
def attempt : List Label := [.connectTo (some samplePeer) (fun _ => false) (some 2) 0]

/-- The peer tries to, again and again, and so do we. -/
def attempts : List Label :=
  [.packet (portBytes 3 4 0 0) samplePeer (fun _ => false) (some 5) (seconds 2) sampleStart,
    .connectTo (some samplePeer) (fun _ => false) (some 6) (seconds 4), .doCheck 0 (seconds 5),
    .packet (portBytes 3 4 0 0) samplePeer (fun _ => false) (some 7) (seconds 11) sampleStart]

def attempted : World := (exec (step sampleListener) {} attempt).get (by decide +kernel)

def pursued : World := (exec (step sampleListener) attempted attempts).get (by decide +kernel)

/-- The context is free after twelve seconds. -/
theorem deadline_kept_attempts :
    ∃ t, pursued.step sampleListener (.doCheck 0 (seconds 12)) = some t ∧
      t.contexts 0 = { refCount := (pursued.contexts 0).refCount } := by
  have reached : exec (step sampleListener) {} attempt = some attempted := (Option.some_get _).symm
  have run : exec (step sampleListener) attempted attempts = some pursued :=
    (Option.some_get _).symm
  obtain ⟨t, taken⟩ := Option.isSome_iff_exists.1
    (by decide +kernel : (pursued.step sampleListener (.doCheck 0 (seconds 12))).isSome = true)
  have begun : (attempted.contexts 0).handshakeBegin = some 0 := by decide +kernel
  have kept := deadline_kept sampleListener reached begun (by decide +kernel) run
  exact ⟨t, taken, kept.2.2 _ t taken (.inr (by decide +kernel))⟩

end World

end Koisyn.Session
