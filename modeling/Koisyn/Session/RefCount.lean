/-
# Koisyn.Session.RefCount — the reference count and the connections that are up

`CONNECTED` increments a context's reference count and `SHUTDOWN_COMPLETE` decrements it, whether or
not the connection was ever connected.  So the count is the number of connections that are up
(`up`: connected and not closed) only as long as no connection closes that was never connected, and
as long as the count fits in 32 bits.

`refCount_counts` is exact: in a run the count is right in every state, no decrement wraps, and the
application is told of the end only when no connection is left, if and only if every step is
`Balanced`.  `failedHandshake_wraps` is the shortest run without: our client connection fails its
handshake, and the count wraps to `2 ^ 32 - 1`.
-/
import Koisyn.Session.World

namespace Koisyn.Session

open Koisyn.Channel
open Koisyn.Theory.Run

set_option autoImplicit false

namespace World

variable (L : Listener) (w : World)

/-- Connected and still open, for the context in `slot`. -/
def isUp (slot : Slot) (c : Conn) : Bool := decide (c.slot = slot) && c.connected && c.isOpen

/-- The number of a context's connections that are up. -/
def up (slot : Slot) : Nat := w.conns.countP (isUp slot)

/-- Every reference count is the number of connections that are up. -/
def CountsUp : Prop := ∀ slot, (w.contexts slot).refCount.toNat = w.up slot

/-- A connection that closes has been connected, and one more connection fits in the count. -/
def Balanced (slot : Slot) : Activation → Prop
  | .connected _ => w.up slot + 1 < 2 ^ 32
  | .shutdownComplete conn _ _ => ∀ c ∈ w.openConn conn, c.connected = true
  | _ => True

instance decidableBalanced (slot : Slot) :
    ∀ act : Activation, Decidable (w.Balanced slot act)
  | .connected _ => inferInstanceAs (Decidable (_ < _))
  | .shutdownComplete _ _ _ => inferInstanceAs (Decidable (∀ _ ∈ _, _ = true))
  | .connectTo _ _ _ _ | .receive1st _ _ _ _ _ _ | .receive2nd _ _ _ _ | .receive3rd _ _
  | .doCheck _ | .newConnection _ _ | .peerStreamStarted _ _ _ | .datagramStateChanged _
  | .datagramReceived _ _ | .receive _ _ _ | .disconnect | .unreliablePacketSend _ _ =>
      isTrue trivial

/-- The handler of `SHUTDOWN_COMPLETE` does not decrement zero, and calls `OnDisconnect` and `Reset`
only when it leaves no connection up. -/
def ClosesLast (slot : Slot) : Activation → Prop
  | .shutdownComplete conn isClient alive =>
      let calls := (shutdownComplete slot (w.contexts slot) conn isClient alive).2
      0 < (w.contexts slot).refCount ∧
        ((∃ channelContext, .onDisconnect slot channelContext ∈ calls) ∨ .reset slot ∈ calls →
          (w.after slot (.shutdownComplete conn isClient alive)).up slot = 0)
  | _ => True

end World

/-- The reference count after an activation. -/
def countAfter (refCount : UInt32) : Activation → UInt32
  | .connected _ => refCount + 1
  | .shutdownComplete _ _ _ => refCount - 1
  | _ => refCount

theorem Effect.refCount {ctx ctx' : Core} {act : Activation} {noted : List Mark}
    (effect : Effect ctx act ctx' noted) : ctx'.refCount = countAfter ctx.refCount act := by
  cases effect with
  | quiet bystander => cases act <;> first | rfl | cases bystander
  | unopened starts => cases act <;> first | rfl | cases starts
  | granted starts => cases act <;> first | rfl | cases starts
  | refused starts => cases act <;> first | rfl | cases starts
  | dropped drops => cases act <;> first | rfl | cases drops
  | _ => rfl

/-- What a `SHUTDOWN_COMPLETE` does: the one that takes the last reference resets. -/
theorem Effect.closes {ctx ctx' : Core} {conn : Hquic} {isClient : Bool} {alive : ObjectId → Bool}
    {noted : List Mark} (effect : Effect ctx (.shutdownComplete conn isClient alive) ctx' noted) :
    (ctx.refCount - 1 = 0 ∧ noted = [.disconnected, .reset]) ∨ (ctx.refCount - 1 ≠ 0 ∧ noted = []) := by
  cases effect with
  | quiet bystander => cases bystander
  | unopened starts => cases starts
  | granted starts => cases starts
  | refused starts => cases starts
  | dropped drops => cases drops
  | closedLast last => exact .inl ⟨last, rfl⟩
  | closed more => exact .inr ⟨more, rfl⟩

namespace World

variable {L : Listener} {w : World}

theorem up_after {slot : Slot} {act : Activation} (notConnected : ∀ conn, act ≠ .connected conn)
    (notShutdown : ∀ conn isClient alive, act ≠ .shutdownComplete conn isClient alive) (i : Slot) :
    (w.after slot act).up i = w.up i :=
  countP_connsAfter (fun _ => rfl) (fun c isConnected _ => by simp [isUp, isConnected])
    notConnected notShutdown

theorem up_connected {slot i : Slot} {conn : Hquic} {c : Conn} (started : w.startedConn conn = some c)
    (first : c.connected = false) (here : c.slot = slot) :
    (w.after slot (.connected conn)).up i = w.up i + if slot = i then 1 else 0 := by
  obtain ⟨present, unclosed, wasStarted⟩ := startedConn_some.1 started
  have counted := countP_modify (isUp i) (fun c => { c with connected := true }) present
  simp only [isUp, Conn.isOpen, here, first, unclosed, wasStarted, Bool.and_true, Bool.and_false,
    Bool.or_true, Bool.not_false, Bool.false_eq_true, if_false, Nat.add_zero,
    decide_eq_true_eq] at counted
  exact counted

theorem up_shutdownComplete {slot i : Slot} {conn : Hquic} (isClient : Bool)
    (alive : ObjectId → Bool) {c : Conn} (isOpen : w.openConn conn = some c) (here : c.slot = slot) :
    (w.after slot (.shutdownComplete conn isClient alive)).up i +
        (if slot = i ∧ c.connected = true then 1 else 0) = w.up i := by
  obtain ⟨present, raises⟩ := openConn_some.1 isOpen
  have counted := countP_modify (isUp i) (fun c => { c with closed := true }) present
  simp only [isUp, here, raises, Conn.isOpen_closed, Bool.and_true, Bool.and_false, Bool.false_eq_true, if_false,
    Nat.add_zero, Bool.and_eq_true, decide_eq_true_eq] at counted
  exact counted

/-- The count of a slot that a step does not work on. -/
theorem refCount_after_ne {slot i : Slot} (other : i ≠ slot) (act : Activation) :
    ((w.after slot act).contexts i).refCount = (w.contexts i).refCount := by
  rw [after_contexts_ne _ other]

theorem refCount_after (slot : Slot) (act : Activation) :
    ((w.after slot act).contexts slot).refCount = countAfter (w.contexts slot).refCount act := by
  obtain ⟨noted, effect, -⟩ := w.after_effect slot act
  exact effect.refCount

/-- Only `CONNECTED` and `SHUTDOWN_COMPLETE` count. -/
theorem countsUp_after_quiet {slot : Slot} {act : Activation} (counts : w.CountsUp)
    (notConnected : ∀ conn, act ≠ .connected conn)
    (notShutdown : ∀ conn isClient alive, act ≠ .shutdownComplete conn isClient alive) :
    (w.after slot act).CountsUp := by
  intro i
  rw [up_after notConnected notShutdown]
  by_cases target : i = slot
  · have same : countAfter (w.contexts slot).refCount act = (w.contexts slot).refCount := by
      cases act with
      | connected conn => exact absurd rfl (notConnected conn)
      | shutdownComplete conn isClient alive => exact absurd rfl (notShutdown conn isClient alive)
      | _ => rfl
    rw [target, refCount_after, same]
    exact counts slot
  · rw [refCount_after_ne target]
    exact counts i

/-- **The step rule.**  A step keeps the counts exactly if it is balanced. -/
theorem countsUp_after {slot : Slot} {act : Activation} (counts : w.CountsUp)
    (legal : w.Legal L slot act) : w.Balanced slot act ↔ (w.after slot act).CountsUp := by
  have before := counts slot
  have small := (w.contexts slot).refCount.toNat_lt
  -- the other slots' counts are not touched
  have here_iff : ((w.after slot act).contexts slot).refCount.toNat = (w.after slot act).up slot ∧
      (∀ i, i ≠ slot → (w.after slot act).up i = w.up i) → (w.after slot act).CountsUp := by
    rintro ⟨here, others⟩ i
    by_cases same : i = slot
    · rw [same]
      exact here
    · rw [refCount_after_ne same, others i same]
      exact counts i
  cases act with
  | connected conn =>
      obtain ⟨c, started, here, first⟩ := legal
      have up := fun i => up_connected (i := i) started first here
      have refCount : ((w.after slot (.connected conn)).contexts slot).refCount =
          (w.contexts slot).refCount + 1 := refCount_after slot _
      have added : ((w.contexts slot).refCount + 1).toNat = (w.up slot + 1) % 2 ^ 32 := by
        rw [UInt32.toNat_add, before]
        rfl
      constructor
      · intro fits
        refine here_iff ⟨?_, fun i other => by rw [up, if_neg (Ne.symm other), Nat.add_zero]⟩
        rw [refCount, added, up, if_pos rfl]
        exact Nat.mod_eq_of_lt fits
      · intro after
        have counted := after slot
        rw [refCount, added, up, if_pos rfl] at counted
        show w.up slot + 1 < 2 ^ 32
        omega
  | shutdownComplete conn isClient alive =>
      obtain ⟨c, isOpen, here, -⟩ := legal
      have up := fun i => up_shutdownComplete (i := i) isClient alive isOpen here
      have refCount :
          ((w.after slot (.shutdownComplete conn isClient alive)).contexts slot).refCount =
            (w.contexts slot).refCount - 1 := refCount_after slot _
      have whole : w.Balanced slot (.shutdownComplete conn isClient alive) ↔ c.connected = true := by
        simp only [Balanced, isOpen, Option.mem_some_iff, forall_eq']
      rw [whole]
      constructor
      · intro isConnected
        refine here_iff ⟨?_, fun i other => by simpa [Ne.symm other] using up i⟩
        have counted := up slot
        simp only [isConnected, and_self, if_true] at counted
        rw [refCount, UInt32.toNat_sub_of_le _ _ (by rw [UInt32.le_iff_toNat_le]; simp; omega),
          before]
        simp
        omega
      · intro after
        by_contra never
        have counted := after slot
        have same := up slot
        simp only [never, and_false, if_false, Nat.add_zero] at same
        rw [refCount, same, ← before, UInt32.toNat_sub] at counted
        simp at counted
        omega
  | _ => exact ⟨fun _ => countsUp_after_quiet counts (by simp) (by simp), fun _ => trivial⟩

/-- A balanced `SHUTDOWN_COMPLETE` decrements a positive count, and ends the session with the last
connection. -/
theorem closesLast_of_balanced {slot : Slot} {act : Activation} (counts : w.CountsUp)
    (legal : w.Legal L slot act) (balanced : w.Balanced slot act) : w.ClosesLast slot act := by
  cases act with
  | shutdownComplete conn isClient alive =>
      have after := (countsUp_after counts legal).1 balanced slot
      obtain ⟨c, isOpen, here, -⟩ := legal
      have isConnected : c.connected = true := balanced c isOpen
      have up := up_shutdownComplete (i := slot) isClient alive isOpen here
      simp only [isConnected, and_self, if_true] at up
      have before := counts slot
      refine ⟨?_, ?_⟩
      · rw [UInt32.lt_iff_toNat_lt, before]
        show 0 < w.up slot
        omega
      · intro called
        have noted : marks slot
            (shutdownComplete slot (w.contexts slot) conn isClient alive).2 ≠ [] := by
          rcases called with ⟨channelContext, member⟩ | member
          · exact List.ne_nil_of_mem (mem_marks member
              (show _ = some .disconnected by simp [markOf]))
          · exact List.ne_nil_of_mem (mem_marks member
              (show _ = some .reset by simp [markOf]))
        have effect := shutdownComplete_effect slot (w.contexts slot) conn isClient alive
        have last : (w.contexts slot).refCount - 1 = 0 := (effect.closes.resolve_right fun more => noted more.2).1
        have refCount :
            ((w.after slot (.shutdownComplete conn isClient alive)).contexts slot).refCount = 0 :=
          (refCount_after slot _).trans last
        rw [refCount] at after
        exact after.symm
  | _ => trivial

/-- **The reference count, exactly.**  In a run every reference count is the number of connections
that are up, in every state, and each `SHUTDOWN_COMPLETE` decrements a positive count and ends the
session with the last of them, if and only if every step is balanced. -/
theorem refCount_counts (L : Listener) (labels : List Label) :
    (Always (step L) CountsUp {} labels ∧
        EveryStep (step L) (OnActivation L ClosesLast) {} labels) ↔
      EveryStep (step L) (OnActivation L Balanced) {} labels := by
  have start : CountsUp {} := fun _ => rfl
  have always_iff : Always (step L) CountsUp {} labels ↔
      EveryStep (step L) (OnActivation L Balanced) {} labels :=
    always_iff_everyActivation (fun _ _ _ counts legal => countsUp_after counts legal) labels start
  constructor
  · rintro ⟨always, -⟩
    exact always_iff.1 always
  · intro every
    have always := always_iff.2 every
    refine ⟨always, everyStep_of_always_of_everyStep ?_ always every⟩
    intro w l counts balanced slot act route works
    exact closesLast_of_balanced counts (route_legal route) (balanced slot act route works)

/-! ## A handshake that fails -/

/-- We connect, the peer answers, our client starts, and its connection never comes up. -/
def failedHandshake : List Label :=
  [.connectTo (some samplePeer) (fun _ => false) (some 2) 0,
    .packet (portBytes 3 4 1 2) samplePeer (fun _ => false) none 0 sampleStart,
    .shutdownComplete 0 fun _ => true]

theorem failedHandshake_wraps :
    (exec (step sampleListener) {} failedHandshake).map
        (fun w => ((w.contexts 0).refCount, w.up 0)) = some (4294967295, 0) ∧
      ¬ Always (step sampleListener) CountsUp {} failedHandshake := by
  have ended : (exec (step sampleListener) {} failedHandshake).map
      (fun w => ((w.contexts 0).refCount, w.up 0)) = some (4294967295, 0) := by decide +kernel
  refine ⟨ended, ?_⟩
  intro always
  obtain ⟨w, run, state⟩ := Option.map_eq_some_iff.1 ended
  have counts := always.last run 0
  rw [(Prod.mk.inj state).1, (Prod.mk.inj state).2] at counts
  exact absurd counts (by decide)

end World

end Koisyn.Session
