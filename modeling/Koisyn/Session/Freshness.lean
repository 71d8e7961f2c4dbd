/-
# Koisyn.Session.Freshness — what a second or third packet must match

A packet whose last two fields are not both zero is taken as a second or a third one.  The fields echo
the receiver's local ports, and nothing compares them with the ports of the context: what counts is
that the sender is the peer of a context still handshaking (`Reaches`).

`answers_reach` is the rule, for every step of every run: such a packet stores its remote ports, or
leads to `StartClient`, exactly where it reaches.  `staleAnswer_starts` is a stale third packet that
starts a client towards port zero.
-/
import Koisyn.Session.Party

namespace Koisyn.Session

open Koisyn.Channel
open Koisyn.Theory.Run

set_option autoImplicit false

/-- The ports that a packet carries, when it is taken as a second or a third one. -/
def Label.answer : Label → Option Ports
  | .packet data _ _ _ _ _ =>
      if data.length = 8 then (convertBufferToPorts data).filter knownLocalPorts else none
  | _ => none

/-- A context's ports once such a packet is handled: a second one stores its remote ports. -/
def answered (stored carried : Ports) : Ports :=
  if knownPeerPorts carried then
    { stored with remoteServer := carried.remoteServer, remoteClient := carried.remoteClient }
  else stored

namespace World

variable {L : Listener} {w t : World} {slot : Slot} {act : Activation} {l : Label}

/-- The sender is the peer of this context, which is still handshaking, and the scan finds it. -/
def Reaches (w : World) (slot : Slot) : Label → Prop
  | .packet _ remote busy _ _ _ =>
      quicAddrCompare (w.contexts slot).remoteSentinel remote.addr = true ∧
        (w.contexts slot).handshakeBegin.isSome ∧
        findMatchingEntry w.contexts busy remote.addr = (true, some slot)
  | _ => False

/-- Between two worlds `StartClient` runs on `slot`, from these ports. -/
def StartsFrom (w t : World) (slot : Slot) (ports : Ports) : Prop :=
  .started ports ∈ (t.history slot).drop (w.history slot).length

/-- The packet changes the context's ports or leads to `StartClient`. -/
def Acts (w t : World) (slot : Slot) : Prop :=
  (t.contexts slot).ports ≠ (w.contexts slot).ports ∨ ∃ ports, w.StartsFrom t slot ports

/-- Answers act only where they echo the ports of the context. -/
def Echoes (w t : World) (l : Label) (slot : Slot) : Prop :=
  ∀ carried, l.answer = some carried → w.Acts t slot →
    carried.localServer = (w.contexts slot).ports.localServer ∧
      carried.localClient = (w.contexts slot).ports.localClient

/-- `StartClient` knows the port it connects to. -/
def KnowsServer (w t : World) (slot : Slot) : Prop :=
  ∀ ports, w.StartsFrom t slot ports → ports.remoteServer ≠ 0

/-- What an answer does in one step to the context in `slot`, and when `StartClient` runs there. -/
structure Answers (w t : World) (l : Label) (slot : Slot) : Prop where
  reaches : ∀ carried, l.answer = some carried → w.Acts t slot → w.Reaches slot l
  ports : ∀ carried, l.answer = some carried → w.Reaches slot l →
    (t.contexts slot).ports = answered (w.contexts slot).ports carried ∨
      (t.contexts slot).ports = {} ∧ t.use slot = w.use slot + 1
  starts : ∀ ports, w.StartsFrom t slot ports ↔ ∃ carried, l.answer = some carried ∧
    w.Reaches slot l ∧ ports = answered (w.contexts slot).ports carried
  unknown : (∃ ports, w.StartsFrom t slot ports ∧ ports.remoteServer = 0) ↔
    ∃ carried, l.answer = some carried ∧ w.Reaches slot l ∧
      (if knownPeerPorts carried then carried.remoteServer
        else (w.contexts slot).ports.remoteServer) = 0

theorem answer_some {data : List UInt8} {remote : Endpoint} {busy : Slot → Bool}
    {sock : Option UInt16} {now : Nat} {start : StartOutcome} {carried : Ports} :
    (Label.packet data remote busy sock now start).answer = some carried ↔
      data.length = 8 ∧ convertBufferToPorts data = some carried ∧
        knownLocalPorts carried = true := by
  simp [Label.answer, Option.filter_eq_some_iff]

/-- An answer that reaches a context leads to `StartClient`. -/
theorem starts_of_reaches {carried : Ports} (isAnswer : l.answer = some carried)
    (reaches : w.Reaches slot l) :
    ∃ act env, w.route L l = some (some (slot, act)) ∧
      act.starts (w.contexts slot).ports =
        some (answered (w.contexts slot).ports carried, env) := by
  cases l with
  | packet data remote busy sock now start =>
      obtain ⟨eight, read, localKnown⟩ := answer_some.1 isAnswer
      obtain ⟨-, begun, entry⟩ := reaches
      have unconnected : (w.contexts slot).handshakeBegin.isNone = false := by
        rw [← Option.not_isSome, begun]
        rfl
      cases peerKnown : knownPeerPorts carried with
      | true =>
          refine ⟨.receive2nd carried.remoteServer carried.remoteClient remote (w.startEnv start),
            w.startEnv start, ?_, ?_⟩
          · simp [World.route, consumeRawUdpData, eight, read, entry, unconnected, peerKnown,
              localKnown]
          · simp [Activation.starts, answered, peerKnown]
      | false =>
          refine ⟨.receive3rd remote (w.startEnv start), w.startEnv start, ?_, ?_⟩
          · simp [World.route, consumeRawUdpData, eight, read, entry, unconnected, peerKnown,
              localKnown]
          · simp [Activation.starts, answered, peerKnown]
  | _ => cases isAnswer

/-- An answer that leads anywhere reaches a context. -/
theorem reaches_of_answer {carried : Ports} (isAnswer : l.answer = some carried)
    (route : w.route L l = some (some (slot, act))) : w.Reaches slot l := by
  cases routed_of_route route with
  | receive1st _ read _ _ noLocal =>
      obtain ⟨-, read', localKnown⟩ := answer_some.1 isAnswer
      obtain rfl := Option.some.inj (read.symm.trans read')
      rw [localKnown] at noLocal
      cases noLocal
  | receive2nd _ _ entry _ _ begun => exact ⟨(findMatchingEntry_matching entry).2, begun, entry⟩
  | receive3rd _ _ entry _ _ begun => exact ⟨(findMatchingEntry_matching entry).2, begun, entry⟩
  | _ => cases isAnswer

/-- Only an answer leads to `StartClient`. -/
theorem answer_of_starts {ports : Ports} {env : StartEnv}
    (route : w.route L l = some (some (slot, act)))
    (starts : act.starts (w.contexts slot).ports = some (ports, env)) :
    ∃ carried, l.answer = some carried ∧ ports = answered (w.contexts slot).ports carried := by
  cases routed_of_route route with
  | receive2nd eight read _ peerKnown localKnown =>
      obtain ⟨rfl, -⟩ := Prod.mk.inj (Option.some.inj starts)
      exact ⟨_, answer_some.2 ⟨eight, read, localKnown⟩, by simp [answered, peerKnown]⟩
  | receive3rd eight read _ noPeer localKnown =>
      obtain ⟨rfl, -⟩ := Prod.mk.inj (Option.some.inj starts)
      exact ⟨_, answer_some.2 ⟨eight, read, localKnown⟩, by simp [answered, noPeer]⟩
  | _ => cases starts

/-- `StartClient` runs in an activation exactly when it is one that starts. -/
theorem startsFrom_after {ports : Ports} :
    w.StartsFrom (w.after slot act) slot ports ↔
      ∃ env, act.starts (w.contexts slot).ports = some (ports, env) := by
  obtain ⟨noted, effect, history⟩ := w.after_effect slot act
  rw [StartsFrom, history, List.drop_left]
  exact ⟨effect.starts_of_started, fun ⟨env, starts⟩ => effect.started_of_starts starts⟩

theorem not_acts_of_same (contexts : t.contexts slot = w.contexts slot)
    (history : t.history slot = w.history slot) : ¬ w.Acts t slot := by
  rintro (changed | ⟨ports, starts⟩)
  · rw [contexts] at changed
    exact changed rfl
  · rw [StartsFrom, history, List.drop_length] at starts
    exact absurd starts List.not_mem_nil

/-- A step acts on the slot of its activation only. -/
theorem route_of_acts (taken : w.step L l = some t) {i : Slot} (acts : w.Acts t i) :
    ∃ act, w.route L l = some (some (i, act)) ∧ t = w.after i act := by
  rcases step_cases taken with ⟨-, rfl⟩ | ⟨slot, act, route, -, rfl⟩
  · exact absurd acts (not_acts_of_same rfl rfl)
  · by_cases target : i = slot
    · subst target
      exact ⟨act, route, rfl⟩
    · exact absurd acts
        (not_acts_of_same (after_contexts_ne _ target act) (after_history_ne _ target act))

/-- `StartClient` runs in a step exactly when an answer reaches the context. -/
theorem startsFrom_iff (taken : w.step L l = some t) (i : Slot) (ports : Ports) :
    w.StartsFrom t i ports ↔ ∃ carried, l.answer = some carried ∧
      w.Reaches i l ∧ ports = answered (w.contexts i).ports carried := by
  constructor
  · intro starts
    obtain ⟨act, route, rfl⟩ := route_of_acts taken (.inr ⟨ports, starts⟩)
    obtain ⟨env, isStart⟩ := startsFrom_after.1 starts
    obtain ⟨carried, isAnswer, rfl⟩ := answer_of_starts route isStart
    exact ⟨carried, isAnswer, reaches_of_answer isAnswer route, rfl⟩
  · rintro ⟨carried, isAnswer, reaches, rfl⟩
    obtain ⟨act, env, route, isStart⟩ := starts_of_reaches (L := L) isAnswer reaches
    obtain rfl := after_of_route route taken
    exact startsFrom_after.2 ⟨env, isStart⟩

theorem remoteServer_answered (stored carried : Ports) : (answered stored carried).remoteServer =
    if knownPeerPorts carried then carried.remoteServer else stored.remoteServer := by
  unfold answered
  split <;> rfl

/-- **The step rule**, of any state. -/
theorem answers_of_step (taken : w.step L l = some t) (i : Slot) : w.Answers t l i := by
  refine ⟨?_, ?_, startsFrom_iff taken i, ?_⟩
  · intro carried isAnswer acts
    obtain ⟨act, route, rfl⟩ := route_of_acts taken acts
    exact reaches_of_answer isAnswer route
  · intro carried isAnswer reaches
    obtain ⟨act, env, route, isStart⟩ := starts_of_reaches (L := L) isAnswer reaches
    obtain rfl := after_of_route route taken
    obtain ⟨noted, effect, history⟩ := w.after_effect i act
    refine (Effect.ports_of_starts effect isStart).imp id fun refused => ⟨refused.1, ?_⟩
    rw [use_after_self history, refused.2]
  · constructor
    · rintro ⟨ports, starts, zero⟩
      obtain ⟨carried, isAnswer, reaches, rfl⟩ := (startsFrom_iff taken i ports).1 starts
      exact ⟨carried, isAnswer, reaches, (remoteServer_answered _ _).symm.trans zero⟩
    · rintro ⟨carried, isAnswer, reaches, zero⟩
      exact ⟨_, (startsFrom_iff taken i _).2 ⟨carried, isAnswer, reaches, rfl⟩,
        (remoteServer_answered _ _).trans zero⟩

/-- **What answers do**, in every step of every run. -/
theorem answers_reach (L : Listener) (labels : List Label) :
    EveryStep (step L) (fun w l => ∀ t, w.step L l = some t → ∀ slot, w.Answers t l slot) {}
      labels :=
  everyStep_of_always (I := fun _ => True) (fun _ _ _ _ taken slot => answers_of_step taken slot)
    (always_of_keeps (fun _ _ _ _ _ => trivial) labels trivial)

/-! ## A stale third packet -/

/-- A third packet of the sample peer's that echoes ports nine and nine. -/
def stalePacket : Label :=
  .packet (portBytes 0 0 9 9) samplePeer (fun _ => false) none 0 sampleStart

/-- We connect from port 2, and then it arrives. -/
def staleAnswer : List Label :=
  [.connectTo (some samplePeer) (fun _ => false) (some 2) 0, stalePacket]

theorem staleAnswer_starts :
    (exec (step sampleListener) {} staleAnswer).map (fun w => w.history 0) =
        some [.started ⟨0, 0, 1, 2⟩, .accepted] ∧
      ¬ EveryStep (step sampleListener) (fun w l => ∀ t, w.step sampleListener l = some t →
        ∀ slot, w.Echoes t l slot) {} staleAnswer ∧
      ¬ EveryStep (step sampleListener) (fun w l => ∀ t, w.step sampleListener l = some t →
        ∀ slot, w.KnowsServer t slot) {} staleAnswer := by
  have ended : (exec (step sampleListener) {} (staleAnswer.take 1)).bind (fun w =>
      (w.step sampleListener stalePacket).map fun t =>
        ((w.contexts 0).ports, w.history 0, t.history 0)) =
      some (⟨0, 0, 1, 2⟩, [], [.started ⟨0, 0, 1, 2⟩, .accepted]) := by decide +kernel
  obtain ⟨w, run, next⟩ := Option.bind_eq_some_iff.1 ended
  obtain ⟨t, taken, state⟩ := Option.map_eq_some_iff.1 next
  obtain ⟨ports, rest⟩ := Prod.mk.inj state
  obtain ⟨before, after⟩ := Prod.mk.inj rest
  have starts : w.StartsFrom t 0 ⟨0, 0, 1, 2⟩ := by
    rw [StartsFrom, before, after]
    exact List.mem_cons_self
  refine ⟨by decide +kernel, ?_, ?_⟩
  · intro every
    have echoes := EveryStep.visit (staleAnswer.take 1) [] every run t taken 0
      ⟨0, 0, 9, 9⟩ (by decide) (.inr ⟨_, starts⟩)
    rw [ports] at echoes
    exact absurd echoes (by decide)
  · intro every
    exact EveryStep.visit (staleAnswer.take 1) [] every run t taken 0 _ starts rfl

end World

end Koisyn.Session
