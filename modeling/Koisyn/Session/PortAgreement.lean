/-
# Koisyn.Session.PortAgreement — two nodes that agree on their ports

Two sessions talk over a network that keeps every packet and delivers any of them at any time
(`Nodes`).  No scan misses a context, every bind gives a port, and a packet from the other node is one
that it has sent (`Permitted`); the rest of each node's world is not restricted.

Each node stands for a party of `Theory.Exchange`, so `ports_agree` is the exchange's agreement read
off the two worlds: until a context of one node for the other is reset, stored remote ports are the
other's local ports, and whenever `StartClient` runs the peer expects our connection.
-/
import Koisyn.Session.Party

namespace Koisyn.Session

open Koisyn.Channel
open Koisyn.Theory.Run
open Koisyn.Theory.Exchange

set_option autoImplicit false

inductive Side where
  | left | right
  deriving DecidableEq, Repr

def Side.other : Side → Side
  | .left => .right
  | .right => .left

/-- The listener and the sentinel's address of each node. -/
structure Network where
  listener : Side → Listener
  endpoint : Side → Endpoint

/-- Two sessions; `reset` says whether a context of one for the other has been reset. -/
structure Nodes where
  world : Side → World := fun _ => {}
  reset : Bool := false

namespace Nodes

/-- The node has sent these bytes to the other. -/
def Sent (net : Network) (s : Nodes) (side : Side) (data : List UInt8) : Prop :=
  ∃ slot, .sentinelSendTo (net.endpoint side.other).addr data ∈ (s.world side).calls slot

/-- A packet from the other node is one that it has sent. -/
def Permitted (net : Network) (s : Nodes) (side : Side) (l : Label) : Prop :=
  l.Undisturbed ∧ l.Carries (net.endpoint side.other) (s.Sent net side.other)

instance (net : Network) (s : Nodes) (side : Side) (data : List UInt8) :
    Decidable (s.Sent net side data) :=
  inferInstanceAs (Decidable (∃ slot, _ ∈ (s.world side).calls slot))

instance (l : Label) : Decidable l.Undisturbed := by
  cases l <;> unfold Label.Undisturbed <;> infer_instance

instance (net : Network) (s : Nodes) (side : Side) (l : Label) :
    Decidable (s.Permitted net side l) := by
  cases l <;> unfold Permitted Label.Carries <;> infer_instance

/-- A context for the peer is reset between two worlds. -/
def resets (peer : Endpoint) (w t : World) : Bool :=
  decide (∃ slot, w.IsFor peer slot ∧ t.use slot ≠ w.use slot)

/-- One step, of one of the nodes. -/
def step (net : Network) (s : Nodes) : Side × Label → Option Nodes
  | (side, l) =>
      if s.Permitted net side l then
        ((s.world side).step (net.listener side) l).map fun t =>
          { world := Function.update s.world side t
            reset := s.reset || resets (net.endpoint side.other) (s.world side) t }
      else none

/-- The ports that `a` stores for `b` are those that `b` reserves for `a`. -/
structure PortsAgree (a b : World) (self peer : Endpoint) : Prop where
  unique : ∀ i j, a.IsFor peer i → a.IsFor peer j → i = j
  server : ∀ i, a.IsFor peer i → (a.contexts i).ports.remoteServer ≠ 0 →
    ∃ j, b.IsFor self j ∧ (a.contexts i).ports.remoteServer = (b.contexts j).ports.localServer
  client : ∀ i, a.IsFor peer i → (a.contexts i).ports.remoteClient ≠ 0 →
    ∃ j, b.IsFor self j ∧ (a.contexts i).ports.remoteClient = (b.contexts j).ports.localClient

/-- `StartClient` on these ports of `a` calls a peer `b` that expects it. -/
def Expected (b : World) (self : Endpoint) (ports : Ports) : Prop :=
  ports.remoteServer ≠ 0 ∧ ports.remoteClient ≠ 0 ∧
    (∃ j, b.IsFor self j ∧ ports.remoteServer = (b.contexts j).ports.localServer ∧
      ports.remoteClient = (b.contexts j).ports.localClient ∧
      (b.contexts j).ports.remoteClient = ports.localClient) ∧
    (b.listening { self.addr with port := ports.localClient }).isSome

/-- The nodes agree on their ports, in both directions. -/
def Agree (net : Network) (s : Nodes) : Prop :=
  s.reset = false → ∀ side,
    PortsAgree (s.world side) (s.world side.other) (net.endpoint side) (net.endpoint side.other)

/-- Every `StartClient` for the other node is expected there. -/
def StartsExpected (net : Network) (s : Nodes) (label : Side × Label) : Prop :=
  let (side, l) := label
  s.Permitted net side l → s.reset = false → ∀ slot act ports,
    (s.world side).route (net.listener side) l = some (some (slot, act)) →
    (s.world side).IsFor (net.endpoint side.other) slot →
    .startClient slot ports ∈ (act.run slot ((s.world side).contexts slot)).calls →
    Expected (s.world side.other) (net.endpoint side) ports

/-- Both worlds stand for parties that agree. -/
structure Met (net : Network) (s : Nodes) (parties : Side → Party PortPair) : Prop where
  stands : ∀ side, (s.world side).Stands (net.endpoint side.other) (parties side)
  agrees : ∀ side, Agrees (parties side) (parties side.other)

/-- The invariant. -/
structure Sound (net : Network) (s : Nodes) : Prop where
  single : ∀ side, (s.world side).Single
  met : s.reset = false → ∃ parties, s.Met net parties

variable {net : Network} {s : Nodes}

@[simp] theorem other_other (side : Side) : side.other.other = side := by cases side <;> rfl

theorem eq_or_other (i side : Side) : i = side ∨ i = side.other := by
  cases i <;> cases side <;> simp [Side.other]

theorem other_ne (side : Side) : side.other ≠ side := by cases side <;> simp [Side.other]

theorem sound_start (net : Network) : Sound net {} where
  single _ := World.single_start
  met _ := ⟨fun _ => {}, fun _ => World.stands_start _, fun _ => agrees_start⟩

/-- A packet from the other node is one of its party's. -/
theorem Met.carries {parties : Side → Party PortPair} (met : s.Met net parties) {side : Side}
    {l : Label} (permitted : s.Permitted net side l) :
    l.Carries (net.endpoint side.other) fun data =>
      ∃ packet ∈ (parties side.other).sent, data = encode packet := by
  cases l with
  | packet data remote busy sock now start =>
      intro same
      obtain ⟨slot, sent⟩ := permitted.2 same
      exact (met.stands side.other).sends slot data sent
  | _ => trivial

/-- **The step rule.** -/
theorem sound_step (sound : s.Sound net) {label : Side × Label} {t : Nodes}
    (taken : s.step net label = some t) : t.Sound net := by
  obtain ⟨side, l⟩ := label
  simp only [step] at taken
  split at taken
  swap
  · cases taken
  rename_i permitted
  obtain ⟨w, next, rfl⟩ := Option.map_eq_some_iff.1 taken
  have single := sound.single side
  have sees := World.sees_of_undisturbed (w := s.world side) permitted.1
  have singleNext : w.Single := (World.single_step single l).1 sees w next
  have there : Function.update s.world side w side.other = s.world side.other :=
    Function.update_of_ne (other_ne side) _ _
  refine ⟨?_, ?_⟩
  · intro i
    show (Function.update s.world side w i).Single
    rcases eq_or_other i side with rfl | rfl
    · rw [Function.update_self]
      exact singleNext
    · rw [there]
      exact sound.single _
  · intro unreset
    obtain ⟨before, kept⟩ := Bool.or_eq_false_iff.1 unreset
    obtain ⟨parties, met⟩ := sound.met before
    have ours := met.agrees side
    have theirs := met.agrees side.other
    rw [other_other] at theirs
    -- the node that moves moves as its party does
    have moved : ∃ starts t, (parties side).Step (parties side.other).sent starts t ∧
        w.Stands (net.endpoint side.other) t := by
      rcases World.step_cases next with ⟨-, rfl⟩ | ⟨slot, act, route, -, rfl⟩
      · exact ⟨false, parties side, .idle, met.stands side⟩
      · refine World.stands_after single (met.stands side) ours.unmet permitted.1
          (World.delivered_of_route (met.carries permitted) route) route ?_
        intro isFor
        by_contra differs
        exact of_decide_eq_false kept ⟨slot, isFor, differs⟩
    obtain ⟨starts, t, step, stands⟩ := moved
    obtain ⟨oursNext, theirsNext⟩ := agree_step ours theirs step
    refine ⟨Function.update parties side t, ?_, ?_⟩
    · intro i
      show (Function.update s.world side w i).Stands _ _
      rcases eq_or_other i side with rfl | rfl
      · rw [Function.update_self, Function.update_self]
        exact stands
      · rw [there, Function.update_of_ne (other_ne side)]
        exact met.stands side.other
    · intro i
      rcases eq_or_other i side with rfl | rfl
      · rw [Function.update_self, Function.update_of_ne (other_ne i)]
        exact oursNext
      · rw [other_other, Function.update_self, Function.update_of_ne (other_ne side)]
        exact theirsNext

/-- The offer of a party is in its world. -/
theorem context_of_offer {w : World} {peer : Endpoint} {p : Party PortPair} (stands : w.Stands peer p)
    {mine : PortPair} (offered : p.offer = some mine) :
    ∃ j, w.IsFor peer j ∧ (w.contexts j).ports = portsOf mine p.learned := by
  obtain ⟨j, isFor⟩ := stands.present (by rw [offered]; rfl)
  obtain ⟨other, isOffer, ports⟩ := stands.known j isFor
  obtain rfl : mine = other := Option.some.inj (offered.symm.trans isOffer)
  exact ⟨j, isFor, ports⟩

theorem agree_of_sound (sound : s.Sound net) : s.Agree net := by
  intro unreset side
  obtain ⟨parties, met⟩ := sound.met unreset
  have single := sound.single side
  have learned : ∀ i, (s.world side).IsFor (net.endpoint side.other) i →
      ((s.world side).contexts i).ports.remoteServer = 0 ∧
          ((s.world side).contexts i).ports.remoteClient = 0 ∨
        ∃ j, (s.world side.other).IsFor (net.endpoint side) j ∧
          ((s.world side).contexts i).ports.remoteServer =
            ((s.world side.other).contexts j).ports.localServer ∧
          ((s.world side).contexts i).ports.remoteClient =
            ((s.world side.other).contexts j).ports.localClient := by
    intro i isFor
    obtain ⟨mine, -, ports⟩ := (met.stands side).known i isFor
    rw [ports]
    cases learned : (parties side).learned with
    | none => exact .inl ⟨rfl, rfl⟩
    | some theirs =>
        have stands := met.stands side.other
        rw [other_other] at stands
        obtain ⟨j, isOther, theirPorts⟩ :=
          context_of_offer stands ((met.agrees side).learned theirs learned)
        refine .inr ⟨j, isOther, ?_⟩
        rw [theirPorts]
        exact ⟨rfl, rfl⟩
  refine ⟨?_, ?_, ?_⟩
  · intro i j isI isJ
    exact single.one.unique single.addressed ((World.isFor_iff single.addressed).1 isI)
      ((World.isFor_iff single.addressed).1 isJ)
  · intro i isFor known
    rcases learned i isFor with unknown | ⟨j, isOther, same, -⟩
    · exact absurd unknown.1 known
    · exact ⟨j, isOther, same⟩
  · intro i isFor known
    rcases learned i isFor with unknown | ⟨j, isOther, -, same⟩
    · exact absurd unknown.2 known
    · exact ⟨j, isOther, same⟩

theorem startsExpected_of_sound (sound : s.Sound net) (label : Side × Label) :
    s.StartsExpected net label := by
  obtain ⟨side, l⟩ := label
  intro permitted unreset slot act ports route isFor ran
  obtain ⟨parties, met⟩ := sound.met unreset
  have theirs := met.agrees side.other
  have stands := met.stands side.other
  rw [other_other] at theirs stands
  obtain ⟨t, mine, step, offered, rfl⟩ :=
    World.starts_of_stands (sound.single side) (met.stands side) permitted.1
      (World.delivered_of_route (met.carries permitted) route) route isFor ran
  obtain ⟨ours, yours, isOffer, learned, theirOffer, echoed⟩ := agreed_of_starts theirs step
  obtain rfl : mine = ours := Option.some.inj (offered.symm.trans isOffer)
  obtain ⟨j, isOther, theirPorts⟩ := context_of_offer stands theirOffer
  rw [learned]
  refine ⟨yours.serves, yours.binds, ⟨j, isOther, ?_⟩, ?_⟩
  · rw [theirPorts, echoed]
    exact ⟨rfl, rfl, rfl⟩
  · refine List.find?_isSome.2 ⟨j, List.mem_finRange j, ?_⟩
    rw [theirPorts, echoed, isOther]
    simp [portsOf, quicAddrCompareIp, Endpoint.addr]

/-- **Port agreement.**  In every run of two nodes, until a context of one for the other is reset,
the remote ports stored are the other's local ports, and whenever `StartClient` runs, the peer has
stored our client port and its listener lets our connection in. -/
theorem ports_agree (net : Network) (labels : List (Side × Label)) :
    Always (step net) (Agree net) {} labels ∧ EveryStep (step net) (StartsExpected net) {} labels := by
  have sound : Always (step net) (Sound net) {} labels :=
    always_of_keeps (fun _ _ _ sound taken => sound_step sound taken) labels (sound_start net)
  exact ⟨sound.mono fun _ => agree_of_sound,
    everyStep_of_always (fun _ label sound => startsExpected_of_sound sound label) sound⟩

/-! ## Both sides open -/

def sampleNetwork : Network where
  listener := fun
    | .left => World.sampleListener
    | .right => ⟨3, by decide⟩
  endpoint := fun
    | .left => ⟨8, 1⟩
    | .right => ⟨9, 1⟩

/-- Both nodes connect; the left one's first packet is answered, and that answer confirmed. -/
def simultaneousOpen : List (Side × Label) :=
  [(.left, .connectTo (some ⟨9, 1⟩) (fun _ => false) (some 2) 0),
    (.right, .connectTo (some ⟨8, 1⟩) (fun _ => false) (some 4) 0),
    (.right, .packet (portBytes 1 2 0 0) ⟨8, 1⟩ (fun _ => false) (some 5) 0 World.sampleStart),
    (.left, .packet (portBytes 3 4 1 2) ⟨9, 1⟩ (fun _ => false) (some 5) 0 World.sampleStart),
    (.right, .packet (portBytes 0 0 3 4) ⟨8, 1⟩ (fun _ => false) (some 5) 0 World.sampleStart)]

example : (exec (step sampleNetwork) {} simultaneousOpen).map
      (fun s => (s.reset, (s.world .left).history 0, (s.world .right).history 0)) =
    some (false, [.started ⟨3, 4, 1, 2⟩, .accepted], [.started ⟨1, 2, 3, 4⟩, .accepted]) := by
  decide +kernel

end Nodes

end Koisyn.Session
