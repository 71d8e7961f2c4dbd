/-
# Koisyn.Session.Acceptance — no connected session without the application's consent

`OnAccept` is asked by `StartClient`, after a second or a third packet.  The peer's QUIC connection
comes on another path: `NEW_CONNECTION` lets it in as soon as the first packet has told its port, and
its `CONNECTED` clears the handshake time, after which second and third packets are ignored.

`connected_accepted` is exact: in a run every context that counts as connected has been accepted in
its current use if and only if each `CONNECTED` that finds a handshake time is of a client connection
of ours in that use, or comes after the acceptance (`Asks`).  `overtaken` is a run in which the
peer's connection overtakes its third packet.
-/
import Koisyn.Session.Grounded

namespace Koisyn.Session

open Koisyn.Channel
open Koisyn.Theory.Run

set_option autoImplicit false

section Step

variable {ctx ctx' : Core} {act : Activation} {noted : List Mark} {s : Standing}

/-- Only a `CONNECTED` makes an accepted handshake time count as cleared. -/
theorem cleared_effect (effect : Effect ctx act ctx' noted)
    (notConnected : ∀ conn, act ≠ .connected conn)
    (before : s.cleared = true → s.accepted = true) :
    (noted.foldl Standing.after s).cleared = true →
      (noted.foldl Standing.after s).accepted = true := by
  cases effect with
  | connected conn => exact absurd rfl (notConnected conn)
  | granted => exact fun _ => rfl
  | quiet => exact before
  | connectTo => exact before
  | saved => exact before
  | answered => exact before
  | unopened => exact before
  | closed => exact before
  | _ => exact fun isCleared => absurd isCleared Bool.false_ne_true

theorem marks_connected {conn : Hquic} (effect : Effect ctx (.connected conn) ctx' noted) :
    noted = if ctx.handshakeBegin.isSome then [.cleared] else [] := by
  cases effect with
  | connected => rfl
  | quiet bystander => cases bystander
  | dropped drops => cases drops
  | unopened starts => cases starts
  | granted starts => cases starts
  | refused starts => cases starts

end Step

namespace World

variable {L : Listener} {w : World}

/-- A context that counts as connected: a `CONNECTED` has cleared its handshake time, and it has
ports. -/
def CountsAsConnected (w : World) (slot : Slot) : Prop :=
  (w.contexts slot).handshakeBegin = none ∧ (w.contexts slot).ports ≠ {} ∧
    (w.standing slot).cleared = true

instance (w : World) (slot : Slot) : Decidable (w.CountsAsConnected slot) :=
  inferInstanceAs (Decidable (_ ∧ _ ∧ _))

/-- The application has accepted every session that counts as connected. -/
def Accepted (w : World) : Prop :=
  ∀ slot, w.CountsAsConnected slot → (w.standing slot).accepted = true

/-- A `CONNECTED` that finds a handshake time is of our client of this use, or comes after
`OnAccept`. -/
def Asks (w : World) (slot : Slot) : Activation → Prop
  | .connected conn => (w.contexts slot).handshakeBegin.isSome →
      (w.standing slot).accepted = true ∨
        ∃ c ∈ w.startedConn conn, c.isClient = true ∧ c.use = w.use slot
  | _ => True

/-- A cleared context counts as connected. -/
theorem accepted_iff (grounded : w.Grounded) :
    w.Accepted ↔ ∀ slot, (w.standing slot).cleared = true → (w.standing slot).accepted = true := by
  refine forall_congr' fun slot => ⟨?_, ?_⟩
  · intro accepted isCleared
    obtain ⟨idle, listening⟩ := (grounded.bound slot).cleared isCleared
    refine accepted ⟨idle, ?_, isCleared⟩
    intro unbound
    rw [core, unbound] at listening
    exact listening rfl
  · intro accepted counts
    exact accepted counts.2.2

/-- **The step rule.**  A step keeps every connected session accepted exactly if it asks. -/
theorem accepted_after {slot : Slot} {act : Activation} (grounded : w.Grounded)
    (accepted : w.Accepted) (legal : w.Legal L slot act) :
    w.Asks slot act ↔ (w.after slot act).Accepted := by
  rw [accepted_iff grounded] at accepted
  rw [accepted_iff (grounded_after grounded legal)]
  obtain ⟨noted, effect, history⟩ := w.after_effect slot act
  have standing := standing_after_self history
  have here_iff : (∀ i, ((w.after slot act).standing i).cleared = true →
      ((w.after slot act).standing i).accepted = true) ↔
      ((noted.foldl Standing.after (w.standing slot)).cleared = true →
        (noted.foldl Standing.after (w.standing slot)).accepted = true) := by
    rw [← standing]
    refine ⟨fun all => all slot, ?_⟩
    intro here i
    by_cases target : i = slot
    · rw [target]
      exact here
    · rw [standing_after_ne target]
      exact accepted i
  rw [here_iff]
  cases act with
  | connected conn =>
      rw [marks_connected effect]
      by_cases begun : (w.contexts slot).handshakeBegin.isSome = true
      · rw [if_pos (show (core (w.contexts slot)).handshakeBegin.isSome = true from begun)]
        refine ⟨?_, fun kept _ => .inl (kept rfl)⟩
        intro asks _
        obtain ⟨d, found, here, -⟩ := legal
        rcases asks begun with isAccepted | ⟨c, present, isClient, current⟩
        · exact isAccepted
        · obtain rfl : d = c := Option.some.inj (found.symm.trans present)
          obtain ⟨there, -, started⟩ := startedConn_some.1 present
          rw [← here] at current ⊢
          exact grounded.origins.ours d (List.mem_of_getElem? there) isClient started current
      · rw [if_neg (show ¬ (core (w.contexts slot)).handshakeBegin.isSome = true from begun)]
        exact ⟨fun _ => accepted slot, fun _ isBegun => absurd isBegun begun⟩
  | _ => exact ⟨fun _ => cleared_effect effect (by simp) (accepted slot), fun _ => trivial⟩

/-- **No connected session without acceptance, exactly.** -/
theorem connected_accepted (L : Listener) (labels : List Label) :
    Always (step L) Accepted {} labels ↔ EveryStep (step L) (OnActivation L Asks) {} labels := by
  have grounded : Always (step L) Grounded {} labels :=
    always_of_after (fun _ _ _ grounded legal => grounded_after grounded legal) labels
      grounded_start
  have exact_ : Always (step L) (fun w => w.Grounded ∧ w.Accepted) {} labels ↔
      EveryStep (step L) (OnActivation L Asks) {} labels := by
    refine always_iff_everyActivation ?_ labels
      ⟨grounded_start, fun _ counts => absurd counts.2.2 Bool.false_ne_true⟩
    intro w slot act both legal
    rw [accepted_after both.1 both.2 legal]
    exact ⟨fun kept => ⟨grounded_after both.1 legal, kept⟩, And.right⟩
  rw [← exact_]
  exact ⟨grounded.and, fun both => both.mono fun _ => And.right⟩

/-! ## A connection that overtakes the third packet -/

/-- A first packet is answered, and the peer's connection comes in and up. -/
def overtaken : List Label :=
  [.packet (portBytes 3 4 0 0) samplePeer (fun _ => false) (some 2) 0 sampleStart,
    .newConnection { samplePeer.addr with port := 4 } true, .connected 0]

theorem overtaken_connects :
    (exec (step sampleListener) {} overtaken).map
        (fun w => (decide (w.CountsAsConnected 0), w.standing 0)) =
      some (true, { accepted := false, cleared := true, live := false }) ∧
    ¬ Always (step sampleListener) Accepted {} overtaken := by
  have ended : (exec (step sampleListener) {} overtaken).map
      (fun w => (decide (w.CountsAsConnected 0), w.standing 0)) =
        some (true, { accepted := false, cleared := true, live := false }) := by decide +kernel
  refine ⟨ended, ?_⟩
  intro always
  obtain ⟨w, run, state⟩ := Option.map_eq_some_iff.1 ended
  obtain ⟨counts, standing⟩ := Prod.mk.inj state
  have accepted := always.last run 0 (of_decide_eq_true counts)
  rw [standing] at accepted
  cases accepted

end World

end Koisyn.Session
