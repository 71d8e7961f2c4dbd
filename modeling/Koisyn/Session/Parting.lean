/-
# Koisyn.Session.Parting — a session leaves nothing behind

A full session ends when MsQuic has shut both of its connections down, in whichever order, and the
application may have called `Disconnect` at any time before or after.  `nodes_part`: whatever the order,
both nodes come out of it with the context free, without one for the other node, and with `OnDisconnect`
called once.  They are as far apart as before they connected, so they can connect again (`Establishment`).

A `RECEIVE` handler that hangs keeps its channel's `RecvMutex`, and no reset of the context gets past it:
the session has to end with none.
-/
import Koisyn.Session.Establishment

namespace Koisyn.Session

open Koisyn.Channel
open Koisyn.Theory.Run
open Koisyn.Theory.Exchange
open Koisyn.Theory.Schedule

set_option autoImplicit false

/-- What ends a session: a connection is shut down, or the application disconnects once more. -/
inductive EndEvent where
  | closed (isClient : Bool)
  | disconnect (call : Nat)
  deriving DecidableEq, Repr

/-- The event, of connections with these handles. -/
def EndEvent.label (slot : Slot) (conn : Bool → Hquic) (alive : ObjectId → Bool) : EndEvent → Label
  | .closed isClient => .shutdownComplete (conn isClient) alive
  | .disconnect _ => .disconnect slot

theorem Runs.closes {conns : List Conn} {conn : Hquic} {slot : Slot} {isClient connected : Bool}
    (runs : Runs conns conn slot isClient connected) :
    ∃ c, conns[conn]? = some c ∧ c.isOpen = true ∧ c.slot = slot ∧ c.isClient = isClient := by
  obtain ⟨c, present, here, type, started, -, unclosed⟩ := runs
  exact ⟨c, present, Conn.isOpen_iff.2 ⟨unclosed, .inr started⟩, here, type⟩

/-- **What a `SHUTDOWN_COMPLETE` does**: the last one blanks the context and tells the application. -/
theorem effect_closed {ctx ctx' : Core} {conn : Hquic} {isClient : Bool} {alive : ObjectId → Bool}
    {noted : List Mark} (effect : Effect ctx (.shutdownComplete conn isClient alive) ctx' noted) :
    (ctx.refCount - 1 = 0 ∧ ctx' = .blank 0 ∧ noted = [.disconnected, .reset]) ∨
      (ctx.refCount - 1 ≠ 0 ∧ ctx'.refCount = ctx.refCount - 1 ∧ noted = []) := by
  cases effect with
  | closedLast last => exact .inl ⟨last, congrArg Core.blank last, rfl⟩
  | closed more => exact .inr ⟨more, rfl, rfl⟩
  | quiet bystander => exact bystander.elim
  | dropped drops => exact drops.elim
  | unopened starts | granted starts | refused starts => cases starts

theorem effect_disconnect {ctx ctx' : Core} {noted : List Mark}
    (effect : Effect ctx .disconnect ctx' noted) : ctx' = .blank ctx.refCount ∧ noted = [.reset] := by
  cases effect with
  | dropped => exact ⟨rfl, rfl⟩
  | quiet bystander => exact bystander.elim
  | unopened starts | granted starts | refused starts => cases starts

/-- The connections that have not been shut down. -/
def remaining (done : EndEvent → Bool) : UInt32 :=
  (if done (.closed true) then 0 else 1) + if done (.closed false) then 0 else 1

theorem remaining_closes {done : EndEvent → Bool} {isClient : Bool}
    (fresh : done (.closed isClient) = false) : remaining done ≠ 0 ∧
      remaining (Function.update done (.closed isClient) true) = remaining done - 1 := by
  cases isClient with
  | true => cases other : done (.closed false) <;> simp [remaining, fresh, other]
  | false => cases other : done (.closed true) <;> simp [remaining, fresh, other]

namespace World

variable {L : Listener} {w : World} {peer : Endpoint} {slot : Slot} {conn : Bool → Hquic}
variable {before : List Mark} {done : EndEvent → Bool}

/-- These are the handles of the context's connections, ours under `true`. -/
def Handles (w : World) (slot : Slot) (conn : Bool → Hquic) : Prop :=
  (w.contexts slot).unreliable.self = some (conn true) ∧
    (w.contexts slot).unreliable.peer = some (conn false)

/-- The session once these events have come in. -/
structure Parting (w : World) (peer : Endpoint) (slot : Slot) (conn : Bool → Hquic) (before : List Mark)
    (done : EndEvent → Bool) : Prop where
  only : ∀ i, w.IsFor peer i → i = slot
  unheld : ∀ i, w.held slot i = false
  runs : ∀ isClient, done (.closed isClient) = false → Runs w.conns (conn isClient) slot isClient true
  refCount : (w.contexts slot).refCount = remaining done
  blank : remaining done = 0 → (w.contexts slot).ports = {} ∧ (w.contexts slot).remoteSentinel = {}
  told : ∃ noted, w.history slot = before ++ noted ∧
    noted.count .disconnected = if remaining done = 0 then 1 else 0

/-- An activation that returns and takes no `RecvMutex` is a step where none is held. -/
theorem step_of_unheld {l : Label} {act : Activation}
    (route : w.route L l = some (some (slot, act)))
    (returns : (act.run slot (w.contexts slot)).exit = .returned .success)
    (noChannel : channelOf act = none) (unheld : ∀ i, w.held slot i = false) :
    w.step L l = some (w.after slot act) := by
  have works : ¬ w.Fails slot act := by
    rintro (overruns | ⟨-, i, held⟩ | ⟨i, taken, -⟩)
    · rw [returns] at overruns
      cases overruns
    · rw [unheld i] at held
      cases held
    · rw [noChannel] at taken
      cases taken
  simp only [World.step, route, Option.bind_some, if_neg works]

theorem unheld_after {act : Activation} (noChannel : channelOf act = none)
    (unheld : ∀ i, w.held slot i = false) (i : Fin 4) : (w.after slot act).held slot i = false := by
  show Function.update w.held slot _ slot i = false
  rw [Function.update_self, unheld, noChannel]
  rfl

/-- The reset of the context for a peer leaves none for it. -/
theorem only_after (only : ∀ i, w.IsFor peer i → i = slot) (act : Activation) :
    ∀ i, (w.after slot act).IsFor peer i → i = slot := by
  intro i isFor
  by_contra other
  rw [IsFor, after_contexts_ne _ other] at isFor
  exact other (only i isFor)

theorem parting_of_established {ports : Ports} (single : w.Single)
    (established : w.Established peer slot ports) (unheld : ∀ i, w.held slot i = false) :
    ∃ conn, w.Handles slot conn ∧ w.Parting peer slot conn (w.history slot) fun _ => false := by
  obtain ⟨client, self, ours⟩ := established.self
  obtain ⟨server, peer, theirs⟩ := established.peer
  refine ⟨fun isClient => if isClient then client else server, ⟨self, peer⟩, ?_, unheld, ?_,
    established.connected.2, ?_, [], (List.append_nil _).symm, rfl⟩
  · intro i isFor
    exact single.one.unique single.addressed ((isFor_iff single.addressed).1 isFor)
      ((isFor_iff single.addressed).1 established.isFor)
  · intro isClient _
    cases isClient with
    | true => exact ours
    | false => exact theirs
  · intro none_
    cases none_

variable (L)

/-- **A connection is shut down**: the last one takes the context with it. -/
theorem Parting.closes (parting : w.Parting peer slot conn before done) (isClient : Bool)
    (alive : ObjectId → Bool) (fresh : done (.closed isClient) = false) :
    ∃ t, w.step L (.shutdownComplete (conn isClient) alive) = some t ∧
      t.Parting peer slot conn before (Function.update done (.closed isClient) true) := by
  let act : Activation := .shutdownComplete (conn isClient) isClient alive
  have running := parting.runs isClient fresh
  have route : w.route L (.shutdownComplete (conn isClient) alive) = some (some (slot, act)) := by
    obtain ⟨c, present, isOpen, rfl, rfl⟩ := running.closes
    simp [World.route, openConn_some.2 ⟨present, isOpen⟩, act]
  obtain ⟨more, rest⟩ := remaining_closes fresh
  obtain ⟨noted, marks, counts⟩ := parting.told
  rw [if_neg more] at counts
  rw [← parting.refCount] at rest
  obtain ⟨further, effect, history⟩ := w.after_effect slot act
  rw [marks, List.append_assoc] at history
  have conns : (w.after slot act).conns =
      w.conns.modify (conn isClient) fun c => { c with closed := true } := rfl
  refine ⟨_, step_of_unheld route rfl rfl parting.unheld, only_after parting.only act,
    unheld_after rfl parting.unheld, ?_, ?_, ?_, noted ++ further, history, ?_⟩
  · intro other unclosed
    have differs : isClient ≠ other := by
      rintro rfl
      simp at unclosed
    have still := parting.runs other (by simpa [differs.symm] using unclosed)
    rw [conns]
    exact still.other (running.ne still differs) _
  · rw [rest]
    rcases effect_closed effect with ⟨last, blank, -⟩ | ⟨-, counted, -⟩
    · exact (congrArg Core.refCount blank).trans last.symm
    · exact counted
  · intro none_
    rcases effect_closed effect with ⟨-, blank, -⟩ | ⟨others, -⟩
    · exact ⟨congrArg Core.ports blank, congrArg Core.remoteSentinel blank⟩
    · exact absurd (rest.symm.trans none_) others
  · rw [rest, List.count_append, counts]
    rcases effect_closed effect with ⟨last, -, rfl⟩ | ⟨others, -, rfl⟩
    · exact (if_pos last).symm
    · exact (if_neg others).symm

/-- **The application disconnects**, which ends the session for it. -/
theorem Parting.disconnects (parting : w.Parting peer slot conn before done) (call : Nat) :
    ∃ t, w.step L (.disconnect slot) = some t ∧
      t.Parting peer slot conn before (Function.update done (.disconnect call) true) := by
  obtain ⟨noted, marks, counts⟩ := parting.told
  obtain ⟨further, effect, history⟩ := w.after_effect slot .disconnect
  obtain ⟨blank, rfl⟩ := effect_disconnect effect
  rw [marks, List.append_assoc] at history
  have rest : remaining (Function.update done (.disconnect call) true) = remaining done := by
    simp [remaining]
  refine ⟨_, step_of_unheld rfl rfl rfl parting.unheld, only_after parting.only _,
    unheld_after rfl parting.unheld, ?_, ?_, fun _ => ?_, noted ++ [.reset], history, ?_⟩
  · intro isClient unclosed
    exact parting.runs isClient (by simpa using unclosed)
  · rw [rest]
    exact (congrArg Core.refCount blank).trans parting.refCount
  · exact ⟨congrArg Core.ports blank, congrArg Core.remoteSentinel blank⟩
  · rw [rest, List.count_append, counts]
    simp

end World

/-! ## Two nodes -/

namespace Nodes

/-- An event of a node, whose connections have these handles. -/
def endLabel (slot : Side → Slot) (conn : Side → Bool → Hquic)
    (alive : Side × EndEvent → ObjectId → Bool) : Side × EndEvent → Side × Label
  | (i, e) => (i, e.label (slot i) (conn i) (alive (i, e)))

/-- These events have come in. -/
def Parting (net : Network) (slot : Side → Slot) (conn : Side → Bool → Hquic)
    (before : Side → List Mark) : List (Side × EndEvent) → Nodes → Prop :=
  Each fun i w => w.Parting (net.endpoint i.other) (slot i) (conn i) (before i)

variable {net : Network} {s : Nodes} {slot : Side → Slot} {conn : Side → Bool → Hquic}
variable {before : Side → List Mark} {done : List (Side × EndEvent)}

theorem permitted_end (alive : Side × EndEvent → ObjectId → Bool) (i : Side)
    (event : Side × EndEvent) :
    s.Permitted net i (endLabel slot conn alive event).2 := by
  obtain ⟨j, e⟩ := event
  cases e <;> exact ⟨trivial, trivial⟩

/-- **The next event, whichever it is, is handled.** -/
theorem Parting.advances (parting : Parting net slot conn before done s)
    (alive : Side × EndEvent → ObjectId → Bool) (event : Side × EndEvent) (fresh : event ∉ done) :
    ∃ t, s.step net (endLabel slot conn alive event) = some t ∧
      Parting net slot conn before (event :: done) t := by
  obtain ⟨i, e⟩ := event
  have unmade : decide ((i, e) ∈ done) = false := decide_eq_false fresh
  refine advances_of_world (permitted_end alive i (i, e)) parting ?_
  cases e with
  | closed isClient => exact (parting i).closes (net.listener i) isClient _ unmade
  | disconnect call => exact (parting i).disconnects (net.listener i) call

/-- **A session leaves nothing behind.**  In every state that two nodes reach with a full session between
them and no `RECEIVE` that hangs, for every order in which its connections are shut down at both nodes,
and however often the applications disconnect in between: both nodes have the context free again and none
for the other, and each application has been told once. -/
theorem nodes_part (net : Network) (labels : List (Side × Label)) (s : Nodes)
    (run : exec (step net) {} labels = some s) (slot : Side → Slot) (ports : Side → Ports)
    (established : ∀ i, (s.world i).Established (net.endpoint i.other) (slot i) (ports i))
    (unheld : ∀ i j, (s.world i).held (slot i) j = false)
    (alive : Side × EndEvent → ObjectId → Bool) :
    ∃ conn : Side → Bool → Hquic, (∀ i, (s.world i).Handles (slot i) (conn i)) ∧
      ∀ order : List (Side × EndEvent), order.Nodup →
        (∀ i isClient, (i, .closed isClient) ∈ order) →
          ∃ t, exec (step net) s (order.map (endLabel slot conn alive)) = some t ∧
            ∀ i, t.Apart net i ∧ isEmpty ((t.world i).contexts (slot i)) = true ∧
              ∃ noted, (t.world i).history (slot i) = (s.world i).history (slot i) ++ noted ∧
                noted.count .disconnected = 1 := by
  have sound := sound_of_run run
  choose conn handles parting using fun i =>
    World.parting_of_established (sound.single i) (established i) (unheld i)
  refine ⟨conn, handles, ?_⟩
  intro order nodup every
  have begins : Parting net slot conn (fun i => (s.world i).history (slot i)) [] s := by
    intro i
    simpa using parting i
  obtain ⟨t, runs, parted⟩ := exec_of_ordered
    (fun _ _ event parting fresh _ => parting.advances alive event fresh)
    (ordered_of_nodup nodup fun _ _ => List.not_mem_nil) begins
  refine ⟨t, runs, ?_⟩
  intro i
  have none_ : remaining (fun e => decide ((i, e) ∈ order.reverse ++ [])) = 0 := by
    simp [remaining, every]
  obtain ⟨unbound, blank⟩ := (parted i).blank none_
  have free : isEmpty ((t.world i).contexts (slot i)) = true :=
    isEmpty_iff.2 ⟨(parted i).refCount.trans none_, unbound⟩
  obtain ⟨noted, history, counts⟩ := (parted i).told
  rw [if_pos none_] at counts
  refine ⟨⟨?_, slot i, free⟩, free, noted, history, counts⟩
  intro j isFor
  obtain rfl := (parted i).only j isFor
  rw [World.IsFor, blank] at isFor
  cases congrArg QuicAddr.family isFor

def sampleOffer (i : Side) : PortPair := offer sampleNetwork (fun _ => 6) (fun _ => by decide) i

/-- The right node connects, and everything comes in. -/
def sampleSession : List (Side × Label) :=
  let deliveries : List (Side × Packet PortPair) :=
    [(.left, .first (sampleOffer .right)), (.right, .second (sampleOffer .left) (sampleOffer .right)),
      (.left, .third (sampleOffer .left))]
  connection sampleNetwork (fun _ => 6) 0 .right ::
    deliveries.map (fun (i, packet) =>
      delivery sampleNetwork (fun _ => 6) 0 (fun _ => World.sampleStart) i packet) ++
    sampleOrder.map (eventLabel sampleNetwork (fun _ => 6) (fun _ => 0) (fun _ => 1))

/-- The right application disconnects after the first of its connections has gone. -/
def sampleEnd : List (Side × EndEvent) :=
  [(.right, .closed false), (.left, .closed true), (.right, .disconnect 0), (.right, .closed true),
    (.left, .closed false)]

theorem nodes_part_disconnected :
    ∃ s, exec (step sampleNetwork) {} sampleSession = some s ∧
      ∃ (conn : Side → Bool → Hquic) (t : Nodes), (∀ i, (s.world i).Handles 0 (conn i)) ∧
        exec (step sampleNetwork) s
          (sampleEnd.map (endLabel (fun _ => 0) conn fun _ _ => true)) = some t ∧
        ∀ i, t.Apart sampleNetwork i ∧ isEmpty ((t.world i).contexts 0) = true ∧
          ∃ noted, (t.world i).history 0 = (s.world i).history 0 ++ noted ∧
            noted.count .disconnected = 1 := by
  have reached : (exec (step sampleNetwork) {} sampleSession).map (fun s =>
        (decide ((s.world .left).Established (sampleNetwork.endpoint .right) 0 ⟨3, 6, 1, 6⟩ ∧
            ∀ j, (s.world .left).held 0 j = false),
          decide ((s.world .right).Established (sampleNetwork.endpoint .left) 0 ⟨1, 6, 3, 6⟩ ∧
            ∀ j, (s.world .right).held 0 j = false))) = some (true, true) := by
    decide +kernel
  obtain ⟨s, run, facts⟩ := Option.map_eq_some_iff.1 reached
  simp only [Prod.mk.injEq, decide_eq_true_eq] at facts
  obtain ⟨⟨left, leftUnheld⟩, right, rightUnheld⟩ := facts
  have established : ∀ i, (s.world i).Established (sampleNetwork.endpoint i.other) 0
      (portsOf (sampleOffer i) (some (sampleOffer i.other))) := by
    intro i
    cases i with
    | left => exact left
    | right => exact right
  have unheld : ∀ i j, (s.world i).held 0 j = false := by
    intro i
    cases i with
    | left => exact leftUnheld
    | right => exact rightUnheld
  obtain ⟨conn, handles, parts⟩ :=
    nodes_part sampleNetwork sampleSession s run (fun _ => 0) _ established unheld fun _ _ => true
  have every : ∀ i isClient, (i, .closed isClient) ∈ sampleEnd := by
    intro i isClient
    cases i <;> cases isClient <;> decide
  obtain ⟨t, parted⟩ := parts sampleEnd (by decide) every
  exact ⟨s, run, conn, t, handles, parted⟩

end Nodes

end Koisyn.Session
