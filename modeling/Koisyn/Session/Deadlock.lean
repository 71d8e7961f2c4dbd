/-
# Koisyn.Session.Deadlock — threads of a session that wait for each other

A process has many threads in a session: MsQuic's, which run the handlers, the sentinel's, the daemon, and
those of the application, which call the methods and at last the destructor.  What one of them locks is
the trace of its `Activity`s, one after the other, whatever state each finds.

The mutexes have an order: `connCtxCreationMutex`, then the `ModifyMutex` of a context, then a `RecvMutex`.
Every handler keeps to it as long as each callback calls only what it `Permits`, which `permits_iff` says
exactly: no `Disconnect` but in `OnAccept`, and no `ConnectTo`.  `sessions_never_deadlock` is the result
for any number of threads and any interleaving of their operations.

It is not enough that no thread waits for itself.  `reconnect_deadlocks`: an application that calls
`ConnectTo` in `OnDisconnect`, which never locks anything again, can be there when a packet is answered
for that context, and then neither thread ever goes on.  `hangUps_deadlock` is the same for two receive
callbacks that call `Disconnect` on each other's channel.
-/
import Koisyn.Session.Locks
import Koisyn.Theory.LockOrder
import Mathlib.Data.Fintype.Card
import Mathlib.Data.Fintype.EquivFin
import Mathlib.Order.Fin.Basic

namespace Koisyn.Session

open Koisyn.Channel
open Koisyn.Theory.Run
open Koisyn.Theory.LockTrace
open Koisyn.Theory.LockOrder

set_option autoImplicit false

/-! ## The order of the mutexes -/

def Mutex.rank : Mutex → Fin 3
  | .connCtxCreation => 0
  | .modify _ => 1
  | .recv _ _ => 2

/-- The methods that lock only above the mutexes a callback is called under. -/
def Permits : Call → Method → Prop
  | .onAccept _ _, .disconnect _ => True
  | _, .disconnect _ => False
  | _, .connectTo parsed _ => parsed = none
  | _, .reliablePacketSend _ _ | _, .unreliablePacketSend _ => True

/-- What a thread does in a session: it handles a label in the state it finds, calls a method, or runs the
body of the destructor, in which it looks at each context's reference count a number of times. -/
inductive Activity where
  | label (L : Listener) (w : World) (l : Label)
  | method (m : Method)
  | destroy (polls : Slot → Nat)

/-- The body of `~KoiSession` after the daemon has been joined. -/
def destroyOps (polls : Slot → Nat) : List LockOp :=
  (List.finRange maxConnections).flatMap fun slot =>
    guarded (.modify slot) (resetOps slot) ++
      (List.range (polls slot)).flatMap fun _ => guarded (.modify slot) []

def Activity.lockOps (app : App) : Activity → List LockOp
  | .label L w l => app.lockOps (w.lockOps L l)
  | .method m => m.lockOps
  | .destroy polls => destroyOps polls

/-- The handler returns, and its callbacks call what they may. -/
def Activity.Sound (app : App) : Activity → Prop
  | .label L w l => ∀ slot act, w.route L l = some (some (slot, act)) →
      (∃ status, (act.run slot (w.contexts slot)).exit = .returned status) ∧
        ∀ call ∈ callbacks (act.run slot (w.contexts slot)).calls, ∀ m ∈ app call, Permits call m
  | .method _ | .destroy _ => True

/-! ## The traces are ordered -/

abbrev KeepsOrder (hs : List Mutex) (ops : List LockOp) : Prop := Ordered Mutex.rank hs ops hs

theorem keepsOrder_moment {hs : List Mutex} {m : Mutex} (above : ∀ h ∈ hs, h.rank < m.rank) :
    KeepsOrder hs (guarded m []) := Ordered.guarded above rfl

theorem keepsOrder_resetOps {hs : List Mutex} (slot : Slot) (above : ∀ h ∈ hs, h.rank < 2) :
    KeepsOrder hs (resetOps slot) := by
  refine Ordered.followed ?_ (keepsOrder_moment above)
  exact ordered_flatMap fun i _ => keepsOrder_moment above

theorem not_keepsOrder_guarded {hs : List Mutex} {h m : Mutex} (member : h ∈ hs)
    (notAbove : ¬ h.rank < m.rank) (body : List LockOp) : ¬ KeepsOrder hs (guarded m body) := by
  intro ordered
  exact notAbove (ordered.1 h member)

/-- **The rule of the methods.**  A callback permits a method exactly if it locks in order there. -/
theorem permits_iff {call : Call} (isCallback : isCallback call = true) (m : Method) :
    Permits call m ↔ KeepsOrder (heldIn call) m.lockOps := by
  cases m with
  | disconnect slot =>
      cases call with
      | onAccept s granted =>
          refine iff_of_true trivial (Ordered.guarded (by simp [heldIn, Mutex.rank]) ?_)
          exact keepsOrder_resetOps slot (by simp [heldIn, Mutex.rank])
      | onDisconnect s ctx =>
          apply iff_of_false id
          exact not_keepsOrder_guarded (h := .modify s) List.mem_cons_self (by simp [Mutex.rank]) _
      | onReliableReceive s i data ctx =>
          apply iff_of_false id
          exact not_keepsOrder_guarded (h := .recv s (some i)) List.mem_cons_self (by simp [Mutex.rank]) _
      | onUnreliableReceive s data ctx =>
          apply iff_of_false id
          exact not_keepsOrder_guarded (h := .recv s none) List.mem_cons_self (by simp [Mutex.rank]) _
      | _ => cases isCallback
  | reliablePacketSend slot channel => exact iff_of_true (by cases call <;> trivial) rfl
  | unreliablePacketSend slot => exact iff_of_true (by cases call <;> trivial) rfl
  | connectTo parsed scanned =>
      have asked : Permits call (.connectTo parsed scanned) ↔ parsed = none := by
        cases call <;> exact Iff.rfl
      obtain ⟨h, member⟩ : ∃ h, h ∈ heldIn call := by
        cases call with
        | onAccept s granted => exact ⟨_, List.mem_cons_self⟩
        | onDisconnect s ctx => exact ⟨_, List.mem_cons_self⟩
        | onReliableReceive s i data ctx => exact ⟨_, List.mem_cons_self⟩
        | onUnreliableReceive s data ctx => exact ⟨_, List.mem_cons_self⟩
        | _ => cases isCallback
      rw [asked]
      cases parsed with
      | none => exact iff_of_true rfl rfl
      | some remote =>
          apply iff_of_false (Option.some_ne_none remote)
          -- nothing ranks below `connCtxCreationMutex`
          exact not_keepsOrder_guarded member (by simp [Mutex.rank]) _

theorem keepsOrder_method (m : Method) : KeepsOrder [] m.lockOps := by
  cases m with
  | disconnect slot =>
      exact Ordered.guarded (by simp) (keepsOrder_resetOps slot (by simp [Mutex.rank]))
  | reliablePacketSend slot channel => rfl
  | unreliablePacketSend slot => rfl
  | connectTo parsed scanned =>
      cases parsed with
      | none => rfl
      | some remote => exact Ordered.guarded (by simp) (ordered_map_probe _ _ _)

theorem keepsOrder_destroyOps (polls : Slot → Nat) : KeepsOrder [] (destroyOps polls) := by
  refine ordered_flatMap fun slot _ => Ordered.followed ?_ ?_
  · exact Ordered.guarded (by simp) (keepsOrder_resetOps slot (by simp [Mutex.rank]))
  · exact ordered_flatMap fun _ _ => keepsOrder_moment (by simp)

theorem keepsOrder_startClientOps (slot : Slot) (ctx : ConnectionContext) (env : StartEnv) :
    KeepsOrder [.connCtxCreation] (startClientOps slot ctx env) := by
  refine Ordered.followed (keepsOrder_moment (by simp [Mutex.rank])) ?_
  split
  · rfl
  · show KeepsOrder [.connCtxCreation] (if _ then _ else _)
    split
    · rfl
    · exact keepsOrder_resetOps slot (by simp [Mutex.rank])

theorem keepsOrder_readOps (slot : Slot) (index : Fin 4) (channelCtx : ObjectId) {r : ReadResult}
    {status : QuicStatus} (returned : r.exit = .returned status) :
    KeepsOrder [] (readOps slot index channelCtx r) := by
  unfold readOps
  simp only [returned]
  exact Ordered.guarded (by simp) (ordered_map_call _ _ _)

/-- The handlers that run under `connCtxCreationMutex`. -/
theorem keepsOrder_handshake (slot : Slot) (ctx : ConnectionContext) {act : Activation}
    (handshake : act.IsHandshake) : KeepsOrder [.connCtxCreation] (act.lockOps slot ctx) := by
  cases act with
  | connectTo => rfl
  | receive1st => rfl
  | receive2nd remoteServer remoteClient remote env =>
      refine Ordered.followed (keepsOrder_moment (by simp [Mutex.rank])) ?_
      exact keepsOrder_startClientOps slot ctx env
  | receive3rd remote env => exact keepsOrder_startClientOps slot ctx env
  | _ => cases handshake

theorem keepsOrder_receiveOps (slot : Slot) (ctx : ConnectionContext) (id : Nat) (ev : ReceiveEvent)
    (alive : ObjectId → Bool) {status : QuicStatus}
    (returned : (handleReceive slot alive id ev ctx).exit = .returned status) :
    KeepsOrder [] (receiveOps slot ctx id ev alive) := by
  unfold receiveOps
  unfold handleReceive at returned
  cases locked : lockChannelContext alive ctx.channelContext with
  | none => exact keepsOrder_resetOps slot (by simp)
  | some channelCtx =>
      simp only [locked] at returned ⊢
      split
      · rename_i inRange
        simp only [dif_pos inRange] at returned
        split
        · exact keepsOrder_moment (by simp)
        · rename_i newer
          rw [if_neg newer] at returned
          split at returned
          · cases returned
          · exact keepsOrder_readOps slot _ channelCtx returned
      · rfl

/-- The handlers that run under no mutex. -/
theorem keepsOrder_event (slot : Slot) (ctx : ConnectionContext) {act : Activation}
    (event : ¬ act.IsHandshake) {status : QuicStatus}
    (returned : (act.run slot ctx).exit = .returned status) : KeepsOrder [] (act.lockOps slot ctx) := by
  have resets : KeepsOrder [.modify slot] (resetOps slot) := keepsOrder_resetOps slot (by simp [Mutex.rank])
  have calls : ∀ call, KeepsOrder [.modify slot] [(.call call : LockOp)] := fun _ => rfl
  cases act with
  | connectTo => exact absurd trivial event
  | receive1st => exact absurd trivial event
  | receive2nd => exact absurd trivial event
  | receive3rd => exact absurd trivial event
  | newConnection => exact keepsOrder_moment (by simp)
  | connected => exact keepsOrder_moment (by simp)
  | peerStreamStarted => exact keepsOrder_moment (by simp)
  | datagramStateChanged => exact keepsOrder_moment (by simp)
  | unreliablePacketSend => rfl
  | receive id ev alive => exact keepsOrder_receiveOps slot ctx id ev alive returned
  | disconnect => exact Ordered.guarded (by simp) resets
  | shutdownComplete conn isClient alive =>
      refine Ordered.guarded (by simp) ?_
      split
      · exact resets
      · rfl
  | doCheck now =>
      refine Ordered.guarded (by simp) ?_
      split
      · rfl
      · split
        · rfl
        · split
          · exact resets
          · split
            · exact resets.followed (calls _)
            · rfl
  | datagramReceived buf alive =>
      unfold Activation.lockOps
      dsimp only
      split
      · exact keepsOrder_resetOps slot (by simp)
      · split
        · rfl
        · refine Ordered.guarded (by simp) ?_
          split <;> rfl

namespace World

variable {L : Listener} {w : World} {l : Label}

theorem keepsOrder_lockOps (returns : ∀ slot act, w.route L l = some (some (slot, act)) →
    ∃ status, (act.run slot (w.contexts slot)).exit = .returned status) :
    KeepsOrder [] (w.lockOps L l) := by
  have scanning : ∀ busy remote, l.Scans → KeepsOrder [.connCtxCreation]
      (w.scanOps busy remote ++ w.activationOps L l) := by
    intro busy remote scans
    refine Ordered.followed (ordered_map_probe _ _ _) ?_
    rcases activationOps_cases L w l with ⟨nothing, -⟩ | ⟨slot, act, route, ops⟩
    · rw [nothing]
      rfl
    · rw [ops]
      exact keepsOrder_handshake slot _ ((scans_iff_of_route route).1 scans)
  have event : ¬ l.Scans → KeepsOrder [] (w.activationOps L l) := by
    intro event
    rcases activationOps_cases L w l with ⟨nothing, -⟩ | ⟨slot, act, route, ops⟩
    · rw [nothing]
      rfl
    · obtain ⟨status, returned⟩ := returns slot act route
      rw [ops]
      exact keepsOrder_event slot _ (fun handshake => event ((scans_iff_of_route route).2 handshake))
        returned
  cases l with
  | connectTo parsed busy sock now =>
      cases parsed with
      | none => rfl
      | some remote => exact Ordered.guarded (by simp) (scanning busy remote trivial)
  | packet data remote busy sock now start =>
      unfold lockOps
      dsimp only
      split
      · rfl
      · exact Ordered.guarded (by simp) (scanning busy remote trivial)
  | newConnection remote configured =>
      exact ordered_flatMap fun i _ => keepsOrder_moment (by simp)
  | _ => exact event id

end World

/-- An activity of a sound application locks in order, and keeps nothing. -/
theorem Activity.keepsOrder {app : App} {a : Activity} (sound : a.Sound app) :
    KeepsOrder [] (a.lockOps app) := by
  cases a with
  | method m => exact keepsOrder_method m
  | destroy polls => exact keepsOrder_destroyOps polls
  | label L w l =>
      have returns := fun slot act route => (sound slot act route).1
      obtain ⟨same, calls, -⟩ := World.lockOps_traced L w l
      refine (World.keepsOrder_lockOps returns).during calls fun call member => ?_
      rw [same] at member
      refine ordered_flatMap fun m called => ?_
      rcases World.activationOps_cases L w l with ⟨nothing, -⟩ | ⟨slot, act, route, ops⟩
      · rw [nothing] at member
        cases member
      · rw [ops, callsOf_lockOps] at member
        exact (permits_iff (List.mem_filter.1 member).2 m).1 ((sound slot act route).2 call member m called)

section Threads

variable {ι : Type} [DecidableEq ι] [Fintype ι]

/-- The threads of a process, each with what it does in the session. -/
def processStart (app : App) (threads : ι → List Activity) : Threads ι Mutex Call :=
  Threads.start fun i => (threads i).flatMap (Activity.lockOps app)

/-- **A session never deadlocks** if every handler returns and the callbacks call only what they may.
However the operations of its threads interleave, some thread can move as long as one has something left
to do; all of them can reach their ends; and no run is longer than what they had to do. -/
theorem sessions_never_deadlock (app : App) (threads : ι → List Activity)
    (sound : ∀ i, ∀ a ∈ threads i, a.Sound app) {is : List ι} {t : Threads ι Mutex Call}
    (run : exec Theory.LockOrder.step (processStart app threads) is = some t) :
    ((∃ i, t.rest i ≠ []) → ∃ i, (Theory.LockOrder.step t i).isSome = true) ∧
      (∃ more u, exec Theory.LockOrder.step t more = some u ∧ ∀ i, u.rest i = []) ∧
      is.length ≤ ∑ i, ((threads i).flatMap (Activity.lockOps app)).length := by
  have all : AllOrdered Mutex.rank t := by
    refine allOrdered_exec (allOrdered_start fun i => ?_) run
    exact ordered_flatMap fun a member => Activity.keepsOrder (sound i a member)
  refine ⟨?_, completes all, ?_⟩
  · rintro ⟨i, unfinished⟩
    exact progress all unfinished
  · have counted := exec_pending run
    show _ ≤ pending (processStart app threads)
    omega

end Threads

/-- A peer has called, and its third packet has not come yet. -/
def calledSession : List Label :=
  [.packet (portBytes 3 4 0 0) World.samplePeer (fun _ => false) (some 2) 0 World.sampleStart]

def calledOnce : World :=
  (exec (World.step World.sampleListener) {} calledSession).get (by decide +kernel)

/-- Answers everything with a message. -/
def answeringApp : App := fun _ => [.reliablePacketSend 0 0, .unreliablePacketSend 0]

/-- A pass of the daemon that gives the handshake up, and a thread that hangs up and ends the session. -/
def daemonAndEnd : Bool → List Activity
  | true => [.label World.sampleListener calledOnce (.doCheck 0 (seconds 13))]
  | false => [.method (.disconnect 0), .destroy fun _ => 1]

theorem sessions_never_deadlock_two :
    ∃ run : (exec Theory.LockOrder.step (processStart answeringApp daemonAndEnd)
        (List.replicate 13 true ++ [false])).isSome = true,
      ∃ more u, exec Theory.LockOrder.step (Option.get _ run) more = some u ∧
        ∀ i, u.rest i = [] := by
  have sends : ∀ call, ∀ m ∈ answeringApp call, Permits call m := by
    intro call m member
    rcases List.mem_pair.1 member with rfl | rfl <;> cases call <;> trivial
  have sound : ∀ i, ∀ a ∈ daemonAndEnd i, a.Sound answeringApp := by
    rintro (_ | _) a member
    · rcases List.mem_pair.1 member with rfl | rfl <;> trivial
    · obtain rfl := List.mem_singleton.1 member
      rintro s act ⟨⟩
      exact ⟨⟨.success, rfl⟩, fun call _ => sends call⟩
  refine ⟨by decide +kernel, ?_⟩
  exact (sessions_never_deadlock answeringApp daemonAndEnd sound (Option.some_get _).symm).2.1

/-! ## Two threads that wait for each other -/

/-- The two threads in `processStart`, the first one under `true`. -/
def twoThreads (first second : Activity) (i : Bool) : List Activity := [if i then first else second]

/-- On the way every mutex that is tried is free, and then both threads wait, whatever moves. -/
def DeadlockReachable (app : App) (first second : Activity) : Prop :=
  ∃ (is : List Bool) (t : Threads Bool Mutex Call),
    exec Theory.LockOrder.step (processStart app (twoThreads first second)) is = some t ∧
      EveryStep Theory.LockOrder.step TriesFree (processStart app (twoThreads first second)) is ∧
      ∀ more, Always Theory.LockOrder.step (fun u => Waits u true ∧ Waits u false) t more

/-- `goes` is the thread that goes first. -/
theorem deadlockReachable_of_traces {app : App} {first second : Activity} (goes : Bool) {m n : Mutex}
    {hs hs' : List Mutex} {ops ops' more more' : List LockOp}
    (trace : (if goes then first else second).lockOps app = ops ++ .lock n :: more)
    (trace' : (if !goes then first else second).lockOps app = ops' ++ .lock m :: more')
    (reaches : held [] ops = some hs) (reaches' : held [] ops' = some hs') (holds : m ∈ hs)
    (holds' : n ∈ hs') (apart : ∀ a, .lock a ∈ ops' → a ∉ hs)
    (tries : ∀ a, .probe a ∈ ops → .lock a ∉ ops)
    (tries' : ∀ a, .probe a ∈ ops' → a ∉ hs ∧ .lock a ∉ ops') : DeadlockReachable app first second := by
  let traces : Bool → List LockOp := fun i =>
    (twoThreads first second i).flatMap (Activity.lockOps app)
  have mine : traces goes = ops ++ .lock n :: more := (List.append_nil _).trans trace
  have other : traces (!goes) = ops' ++ .lock m :: more' := (List.append_nil _).trans trace'
  obtain ⟨is, t, run, crossed, tried⟩ :=
    crossed_of_traces (by simp) mine other reaches reaches' holds holds' apart tries tries'
  refine ⟨is, t, run, tried, fun more => (crossed.always more).mono fun u waits => ?_⟩
  cases goes with
  | true => exact waits
  | false => exact waits.symm

/-- `OnDisconnect` is called under its context's `ModifyMutex`, at the beginning or after the reset. -/
theorem lockOps_onDisconnect {slot : Slot} {ctx : ConnectionContext} {act : Activation}
    {channelCtx : Option ObjectId}
    (called : .onDisconnect slot channelCtx ∈ (act.run slot ctx).calls) :
    ((∃ now, act = .doCheck now) ∨ ∃ conn isClient alive, act = .shutdownComplete conn isClient alive) ∧
      ∃ pre post, (pre = [] ∨ pre = resetOps slot) ∧ act.lockOps slot ctx =
        .lock (.modify slot) :: (pre ++ .call (.onDisconnect slot channelCtx) :: post) := by
  have member : .onDisconnect slot channelCtx ∈ callsOf (act.lockOps slot ctx) := by
    rw [callsOf_lockOps]
    exact List.mem_filter.2 ⟨called, rfl⟩
  have noted : .disconnected ∈ marks slot (act.run slot ctx).calls :=
    mem_marks called (by simp [markOf])
  have effect := run_effect slot ctx act
  generalize marks slot (act.run slot ctx).calls = trail at noted effect
  generalize core (act.run slot ctx).ctx = after at effect
  cases effect with
  | closedLast last =>
      replace last : ctx.refCount - 1 = 0 := last
      simp only [Activation.lockOps, if_pos last] at member ⊢
      rw [callsOf_guarded, callsOf_cons_call, callsOf_resetOps, List.mem_singleton] at member
      rw [← member]
      exact ⟨.inr ⟨_, _, _, rfl⟩, [], resetOps slot ++ [.unlock (.modify slot)], .inl rfl, rfl⟩
  | @shortStop now handshakeBegin begun stops =>
      replace begun : ctx.handshakeBegin = some handshakeBegin := begun
      replace stops : shortStops ctx.ports (now - handshakeBegin) := stops
      have due : ¬ now - handshakeBegin < retryTimeout - milliseconds 2 := by
        have late := stops.2.2
        simp only [shortStopRetryTimeout, retryTimeout, seconds, milliseconds] at late ⊢
        omega
      simp only [Activation.lockOps, begun, if_neg due, if_neg stops.1, if_pos stops] at member ⊢
      rw [callsOf_guarded, callsOf_append, callsOf_resetOps, List.nil_append, callsOf_cons_call,
        callsOf_nil, List.mem_singleton] at member
      rw [← member]
      refine ⟨.inl ⟨now, rfl⟩, resetOps slot, [.unlock (.modify slot)], .inr rfl, ?_⟩
      simp [guarded]
  | connected conn =>
      split at noted <;> simp at noted
  | _ => simp at noted

/-- A packet that is answered leads to `StartClient`, whose thread comes to the `ModifyMutex` under
`connCtxCreationMutex`. -/
theorem lockOps_answered {L : Listener} {w : World} {l : Label} {slot : Slot} {act : Activation}
    (route : w.route L l = some (some (slot, act)))
    (answered : (act.starts (w.contexts slot).ports).isSome = true) :
    ∃ (scanned : List Slot) (post : List LockOp), w.lockOps L l =
      (.lock .connCtxCreation :: scanned.map fun i => .probe (.modify i)) ++
        .lock (.modify slot) :: post := by
  have first : ∃ post, act.lockOps slot (w.contexts slot) = .lock (.modify slot) :: post := by
    cases act with
    | receive2nd => exact ⟨_, rfl⟩
    | receive3rd => exact ⟨_, rfl⟩
    | _ => cases answered
  obtain ⟨post, ops⟩ := first
  cases l with
  | packet data remote busy sock now start =>
      have eight : data.length = 8 := by
        by_contra other
        simp [World.route, consumeRawUdpData, other] at route
      refine ⟨slotsThrough fun i =>
        !busy i && quicAddrCompare (w.contexts i).remoteSentinel remote.addr,
        post ++ [.unlock .connCtxCreation], ?_⟩
      have inner : w.activationOps L (.packet data remote busy sock now start) =
          .lock (.modify slot) :: post := by
        rw [World.activationOps, route]
        exact ops
      simp [World.lockOps, eight, inner, guarded, World.scanOps]
  | connectTo parsed busy sock now =>
      cases World.routed_of_route route
      cases answered
  | _ =>
      cases World.routed_of_route route
      cases answered

/-- `Reset` locks `RecvMutex`es and tries nothing. -/
theorem resetOps_avoids {slot : Slot} {op : LockOp} (member : op ∈ resetOps slot) :
    op ≠ .lock .connCtxCreation ∧ ∀ m, op ≠ .probe m := by
  rcases List.mem_append.1 member with channel | datagrams
  · obtain ⟨i, -, locks⟩ := List.mem_flatMap.1 channel
    rcases List.mem_pair.1 locks with rfl | rfl <;> simp
  · rcases List.mem_pair.1 datagrams with rfl | rfl <;> simp

/-- The thread of a label that calls `OnDisconnect` comes to it under the `ModifyMutex` alone, and has
neither locked `connCtxCreationMutex` nor tried a mutex by then. -/
theorem label_onDisconnect (app : App) {L : Listener} {w : World} {l : Label} {slot : Slot}
    {act : Activation} {channelCtx : Option ObjectId}
    (route : w.route L l = some (some (slot, act)))
    (called : .onDisconnect slot channelCtx ∈ (act.run slot (w.contexts slot)).calls) :
    ∃ ops more, held [] ops = some [.modify slot] ∧
      (∀ op ∈ ops, op ≠ .lock .connCtxCreation ∧ ∀ m, op ≠ .probe m) ∧
      (Activity.label L w l).lockOps app =
        ops ++ ((app (.onDisconnect slot channelCtx)).flatMap Method.lockOps ++ more) := by
  obtain ⟨caller, pre, post, resets, ops⟩ := lockOps_onDisconnect called
  have silent : callsOf pre = [] := by
    rcases resets with rfl | rfl
    · rfl
    · exact callsOf_resetOps slot
  have passes : held [.modify slot] pre = some [.modify slot] := by
    rcases resets with rfl | rfl
    · rfl
    · exact held_resetOps (by simp)
  have avoids : ∀ op ∈ pre, op ≠ .lock .connCtxCreation ∧ ∀ m, op ≠ .probe m := by
    rcases resets with rfl | rfl
    · exact fun _ member => absurd member List.not_mem_nil
    · exact fun _ => resetOps_avoids
  have alone : w.lockOps L l = w.activationOps L l := by
    apply World.lockOps_of_event
    · rw [World.scans_iff_of_route route]
      rcases caller with ⟨now, rfl⟩ | ⟨conn, isClient, alive, rfl⟩ <;> exact id
    · rintro remote configured rfl
      cases World.routed_of_route route
      rcases caller with ⟨now, other⟩ | ⟨conn, isClient, alive, other⟩ <;> cases other
  have same : w.lockOps L l = act.lockOps slot (w.contexts slot) := by
    rw [alone, World.activationOps, route]
  refine ⟨.lock (.modify slot) :: (pre ++ [.call (.onDisconnect slot channelCtx)]),
    during (fun call => (app call).flatMap Method.lockOps) post, ?_, ?_, ?_⟩
  · rw [held, if_neg List.not_mem_nil, held_append, passes]
    rfl
  · intro op member
    simp only [List.mem_cons, List.mem_append, List.not_mem_nil, or_false] at member
    rcases member with rfl | before | rfl
    · simp
    · exact avoids op before
    · simp
  · show during _ (w.lockOps L l) = _
    rw [same, ops]
    show .lock (.modify slot) :: during _ (pre ++ .call (.onDisconnect slot channelCtx) :: post) = _
    rw [during_append, during_of_silent silent, List.cons_append, List.append_assoc]
    rfl

/-- **Reconnecting in `OnDisconnect` can deadlock.**  One thread has found the context a packet is for
when another takes its `ModifyMutex` to call `OnDisconnect`, and in it the application `ConnectTo`. -/
theorem reconnect_deadlocks (app : App) {L : Listener} {w w' : World} {l l' : Label} {slot : Slot}
    {act act' : Activation} {channelCtx : Option ObjectId} {remote : Endpoint} {scanned : List Slot}
    {more : List Method} (route : w.route L l = some (some (slot, act)))
    (disconnects : .onDisconnect slot channelCtx ∈ (act.run slot (w.contexts slot)).calls)
    (reconnects : app (.onDisconnect slot channelCtx) = .connectTo (some remote) scanned :: more)
    (route' : w'.route L l' = some (some (slot, act')))
    (answered : (act'.starts (w'.contexts slot).ports).isSome = true) :
    DeadlockReachable app (.label L w l) (.label L w' l') := by
  obtain ⟨ops, rest, reaches, avoids, trace⟩ := label_onDisconnect app route disconnects
  obtain ⟨probed, post, ops'⟩ := lockOps_answered route' answered
  have silent : callsOf (.lock .connCtxCreation ::
      probed.map fun i => (.probe (.modify i) : LockOp)) = [] := by
    rw [callsOf_cons_lock, callsOf_map_probe]
  have trace' : (Activity.label L w' l').lockOps app =
      (.lock .connCtxCreation :: probed.map fun i => .probe (.modify i)) ++
        .lock (.modify slot) :: during (fun call => (app call).flatMap Method.lockOps) post := by
    show during _ (w'.lockOps L l') = _
    rw [ops', during_append, during_of_silent silent]
    rfl
  rw [reconnects] at trace
  have reaches' : held [] (.lock .connCtxCreation ::
      probed.map fun i => (.probe (.modify i) : LockOp)) = some [.connCtxCreation] := by
    rw [held, if_neg List.not_mem_nil, held_map_probe]
  -- the packet's scan comes before the pass locks anything
  refine deadlockReachable_of_traces false trace' trace reaches' reaches List.mem_cons_self
    List.mem_cons_self ?_ ?_ ?_
  · intro a member held
    obtain rfl := List.mem_singleton.1 held
    exact (avoids _ member).1 rfl
  · intro a tried locked
    rcases List.mem_cons.1 tried with other | probe
    · cases other
    · obtain ⟨i, -, same⟩ := List.mem_map.1 probe
      cases same
      rcases List.mem_cons.1 locked with other | locks
      · cases other
      · obtain ⟨j, -, other⟩ := List.mem_map.1 locks
        cases other
  · exact fun a tried => absurd rfl ((avoids _ tried).2 a)

/-- The third packet, thirteen seconds later. -/
def lateThird : Label :=
  .packet (portBytes 0 0 1 2) World.samplePeer (fun _ => false) none (seconds 13) World.sampleStart

/-- Calls whom it has lost again. -/
def reconnectingApp : App
  | .onDisconnect _ _ => [.connectTo (some World.samplePeer) [0]]
  | _ => []

theorem reconnect_deadlocks_late : DeadlockReachable reconnectingApp
    (.label World.sampleListener calledOnce (.doCheck 0 (seconds 13)))
    (.label World.sampleListener calledOnce lateThird) := by
  have third : ((calledOnce.route World.sampleListener lateThird).join.map fun target =>
      (target.1, (target.2.starts (calledOnce.contexts target.1).ports).isSome)) =
        some (0, true) := by
    decide +kernel
  obtain ⟨⟨slot, act⟩, joined, same⟩ := Option.map_eq_some_iff.1 third
  obtain ⟨here, answered⟩ := Prod.mk.inj same
  obtain rfl : slot = 0 := here
  have pass : calledOnce.route World.sampleListener (.doCheck 0 (seconds 13)) =
      some (some (0, .doCheck (seconds 13))) := rfl
  have disconnects : Call.onDisconnect 0 none ∈
      (Activation.run 0 (calledOnce.contexts 0) (.doCheck (seconds 13))).calls := by
    decide +kernel
  exact reconnect_deadlocks reconnectingApp pass disconnects rfl (Option.join_eq_some_iff.1 joined)
    answered

/-- `Reset` comes to each channel's `RecvMutex` when it has let those before it go. -/
theorem resetOps_reaches (slot : Slot) (index : Fin 4) {hs : List Mutex}
    (free : ∀ channel, Mutex.recv slot channel ∉ hs) :
    ∃ pre post, resetOps slot = pre ++ .lock (.recv slot (some index)) :: post ∧
      held hs pre = some hs ∧ ∀ a, .lock a ∈ pre → ∃ i, i ≠ index ∧ a = .recv slot (some i) := by
  obtain ⟨before, after, split, fresh⟩ := List.eq_append_cons_of_mem (List.mem_finRange index)
  have passes : KeepsIff hs (before.flatMap fun i => guarded (.recv slot (some i)) ([] : List LockOp)) _ :=
    KeepsIff.flatMap fun i _ => keepsIff_moment hs (.recv slot (some i))
  refine ⟨before.flatMap fun i => guarded (.recv slot (some i)) [], .unlock (.recv slot (some index)) ::
    (after.flatMap fun i => guarded (.recv slot (some i)) []) ++ guarded (.recv slot none) [], ?_,
    passes.1 fun i _ => free (some i), ?_⟩
  · rw [resetOps, split]
    simp [guarded]
  · intro a member
    obtain ⟨i, earlier, locks⟩ := List.mem_flatMap.1 member
    refine ⟨i, ?_, ?_⟩
    · rintro rfl
      exact fresh earlier
    · simpa [guarded] using locks

/-- The thread of a `RECEIVE` comes to its first callback under the `RecvMutex` alone. -/
theorem receiveOps_onReliableReceive {slot s : Slot} {ctx : ConnectionContext} {id : Nat}
    {ev : ReceiveEvent} {alive : ObjectId → Bool} {index : Fin 4} {data : List UInt8}
    {channelCtx : ObjectId} {rest : List Call}
    (called : callsOf (receiveOps slot ctx id ev alive) =
      .onReliableReceive s index data channelCtx :: rest) :
    ∃ post, receiveOps slot ctx id ev alive =
      .lock (.recv s (some index)) :: .call (.onReliableReceive s index data channelCtx) :: post := by
  unfold receiveOps at called ⊢
  split at called
  · rw [callsOf_resetOps] at called
    cases called
  · split at called
    · rename_i found inRange
      dsimp only at called ⊢
      split at called
      · cases called
      · rename_i newer
        rw [dif_pos inRange, if_neg newer]
        generalize readBuffers _ _ _ _ = r at called ⊢
        unfold readOps at called ⊢
        cases payloads : r.delivered with
        | nil =>
            rw [payloads] at called
            split at called <;> simp at called
        | cons first later =>
            rw [payloads] at called
            split at called
            all_goals
              simp only [List.map_cons, List.cons_append, callsOf_guarded, callsOf_cons_lock,
                callsOf_cons_call, List.cons.injEq, Call.onReliableReceive.injEq] at called
              obtain ⟨⟨rfl, rfl, rfl, rfl⟩, -⟩ := called
              exact ⟨_, rfl⟩
    · cases called

/-- The thread of a `RECEIVE` whose first callback hangs up on another channel comes, with the mutexes of
the callback and that channel's `ModifyMutex`, to each `RecvMutex` of that channel. -/
theorem label_hangUp (app : App) {L : Listener} {w : World} {l : Label} {slot other : Slot} {id : Nat}
    {ev : ReceiveEvent} {alive : ObjectId → Bool} {index : Fin 4} {data : List UInt8}
    {channelCtx : ObjectId} {rest : List Call} {more : List Method} (apart : slot ≠ other)
    (route : w.route L l = some (some (slot, .receive id ev alive)))
    (called : callbacks (handleReceive slot alive id ev (w.contexts slot)).calls =
      .onReliableReceive slot index data channelCtx :: rest)
    (hangsUp : app (.onReliableReceive slot index data channelCtx) = .disconnect other :: more)
    (index' : Fin 4) :
    ∃ ops post, (Activity.label L w l).lockOps app =
        ops ++ .lock (.recv other (some index')) :: post ∧
      held [] ops = some [.modify other, .recv slot (some index)] ∧
      (∀ a, .lock a ∈ ops → a = .recv slot (some index) ∨ a = .modify other ∨
        ∃ i, i ≠ index' ∧ a = .recv other (some i)) ∧ ∀ a, .probe a ∉ ops := by
  have calls := (callsOf_receiveOps slot (w.contexts slot) id ev alive).trans called
  obtain ⟨post, receives⟩ := receiveOps_onReliableReceive calls
  have free : ∀ channel, Mutex.recv other channel ∉ [.modify other, .recv slot (some index)] := by
    simp [apart.symm]
  obtain ⟨pre, later, resets, passes, locks⟩ := resetOps_reaches other index' free
  have same : w.lockOps L l = receiveOps slot (w.contexts slot) id ev alive := by
    cases World.routed_of_route route
    show w.activationOps L _ = _
    rw [World.activationOps, route]
    rfl
  refine ⟨.lock (.recv slot (some index)) :: .call (.onReliableReceive slot index data channelCtx) ::
    .lock (.modify other) :: pre, later ++ (.unlock (.modify other) :: (more.flatMap Method.lockOps ++
      during (fun call => (app call).flatMap Method.lockOps) post)), ?_, ?_, ?_, ?_⟩
  · show during _ (w.lockOps L l) = _
    rw [same, receives]
    show _ :: _ :: (((app _).flatMap Method.lockOps) ++ during _ post) = _
    rw [hangsUp]
    simp [Method.lockOps, guarded, resets]
  · rw [held, if_neg List.not_mem_nil, held, held, if_neg (by simp)]
    exact passes
  · intro a member
    simp only [List.mem_cons, Op.lock.injEq, reduceCtorEq, false_or] at member
    rcases member with rfl | rfl | member
    · exact .inl rfl
    · exact .inr (.inl rfl)
    · exact .inr (.inr (locks a member))
  · intro a member
    simp only [List.mem_cons, reduceCtorEq, false_or] at member
    have inside : .probe a ∈ resetOps other := resets ▸ List.mem_append_left _ member
    exact (resetOps_avoids inside).2 a rfl

/-- **Two callbacks that hang up on each other's channel can deadlock**: each is called under its
channel's `RecvMutex`, which the other's `Disconnect` locks. -/
theorem hangUps_deadlock (app : App) {L : Listener} {w w' : World} {l l' : Label} {slot slot' : Slot}
    {id id' : Nat} {ev ev' : ReceiveEvent} {alive alive' : ObjectId → Bool} {index index' : Fin 4}
    {data data' : List UInt8} {channelCtx channelCtx' : ObjectId} {rest rest' : List Call}
    {more more' : List Method} (apart : slot ≠ slot')
    (route : w.route L l = some (some (slot, .receive id ev alive)))
    (called : callbacks (handleReceive slot alive id ev (w.contexts slot)).calls =
      .onReliableReceive slot index data channelCtx :: rest)
    (hangsUp : app (.onReliableReceive slot index data channelCtx) = .disconnect slot' :: more)
    (route' : w'.route L l' = some (some (slot', .receive id' ev' alive')))
    (called' : callbacks (handleReceive slot' alive' id' ev' (w'.contexts slot')).calls =
      .onReliableReceive slot' index' data' channelCtx' :: rest')
    (hangsUp' : app (.onReliableReceive slot' index' data' channelCtx') = .disconnect slot :: more') :
    DeadlockReachable app (.label L w l) (.label L w' l') := by
  obtain ⟨ops, post, trace, reaches, -, noTry⟩ := label_hangUp app apart route called hangsUp index'
  obtain ⟨ops', post', trace', reaches', locks, noTry'⟩ :=
    label_hangUp app apart.symm route' called' hangsUp' index
  refine deadlockReachable_of_traces true trace trace' reaches reaches' (by simp) (by simp) ?_
    (fun a tried => absurd tried (noTry a)) fun a tried => absurd tried (noTry' a)
  intro a member
  rcases locks a member with rfl | rfl | ⟨i, different, rfl⟩
  · simp [apart.symm]
  · simp [apart]
  · simp [different]

/-- Our connections to two peers are up. -/
def twoPeers : List Label :=
  World.upSession ++
    [.connectTo (some ⟨8, 1⟩) (fun _ => false) (some 5) 0,
      .packet (portBytes 6 7 1 5) ⟨8, 1⟩ (fun _ => false) none 0 World.sampleStart, .connected 1]

def upToTwo : World := (exec (World.step World.sampleListener) {} twoPeers).get (by decide +kernel)

/-- Lets one peer's message end the session with the other. -/
def exclusiveApp : App
  | .onReliableReceive slot _ _ _ => if slot = 0 then [.disconnect 1] else [.disconnect 0]
  | _ => []

theorem hangUps_deadlock_two : DeadlockReachable exclusiveApp
    (.label World.sampleListener upToTwo (.receive 0 (World.sampleFrame 0) fun _ => true))
    (.label World.sampleListener upToTwo (.receive 4 (World.sampleFrame 0) fun _ => true)) := by
  have called : ∀ slot : Slot, slot < 2 →
      callbacks (handleReceive slot (fun _ => true) 0 (World.sampleFrame 0)
        (upToTwo.contexts slot)).calls = [.onReliableReceive slot 0 [9] 7] := by
    decide +kernel
  exact hangUps_deadlock exclusiveApp (by decide) rfl (called 0 (by decide)) rfl rfl
    (called 1 (by decide)) rfl

end Koisyn.Session
