/-
# Koisyn.Session.Grounded — what every run keeps

`Bound` is the invariant of one context that needs no condition: while it is handshaking, and once a
handshake time was cleared in its current use, it has a local port, and a cleared context begins no
other handshake.  `Grounded` adds the origins of the connections; `grounded_after` keeps both.
-/
import Koisyn.Session.History

namespace Koisyn.Session

open Koisyn.Channel

set_option autoImplicit false

/-- What a context keeps in any run: while handshaking, and after a handshake time was cleared, it has
a local port, and the latter does not begin another handshake. -/
structure Bound (ctx : Core) (s : Standing) : Prop where
  served : ctx.handshakeBegin.isSome → ctx.ports.localServer ≠ 0
  cleared : s.cleared = true → ctx.handshakeBegin = none ∧ ctx.ports.localServer ≠ 0

theorem bound_blank (refCount : UInt32) {s : Standing} (fresh : s.cleared = false) :
    Bound (.blank refCount) s where
  served begun := by cases begun
  cleared isCleared := by
    rw [fresh] at isCleared
    cases isCleared

section Step

variable {L : Listener} {ctx ctx' : Core} {act : Activation} {noted : List Mark} {s : Standing}

theorem Bound.congr (bound : Bound ctx s) (begun : ctx'.handshakeBegin = ctx.handshakeBegin)
    (server : ctx'.ports.localServer = ctx.ports.localServer) : Bound ctx' s := by
  refine ⟨?_, ?_⟩
  · rw [begun, server]
    exact bound.served
  · rw [begun, server]
    exact bound.cleared

theorem Bound.begin_ (bound : Bound ctx s) (unbound : ctx.ports = {}) {ports : Ports}
    (serves : ports.localServer ≠ 0) (now : Nat) (remote : QuicAddr) :
    Bound { ctx with ports, handshakeBegin := some now, remoteSentinel := remote } s := by
  refine ⟨fun _ => serves, ?_⟩
  intro isCleared
  have listening := (bound.cleared isCleared).2
  rw [unbound] at listening
  exact absurd rfl listening

/-- **The step rule of one context.** -/
theorem bound_effect (effect : Effect ctx act ctx' noted) (bound : Bound ctx s)
    (legal : LegalOn L ctx act) : Bound ctx' (noted.foldl Standing.after s) := by
  cases effect with
  | quiet bystander => exact bound
  | connectTo remote localServer localClient now =>
      obtain ⟨rfl, -, unbound⟩ := legal
      exact bound.begin_ unbound L.bound now remote.addr
  | saved known => exact bound.congr rfl rfl
  | answered idle =>
      obtain ⟨rfl, empty⟩ := legal
      exact bound.begin_ (empty idle).2 L.bound _ _
  | unopened starts =>
      refine Bound.congr (s := s) bound ?_ ?_
      · rfl
      · exact (Activation.of_starts starts).2.1
  | granted starts =>
      have kept : Bound ctx { s with accepted := true, live := true } :=
        ⟨bound.served, bound.cleared⟩
      refine kept.congr ?_ ?_
      · rfl
      · exact (Activation.of_starts starts).2.1
  | connected conn =>
      refine ⟨fun begun => absurd begun Bool.false_ne_true, ?_⟩
      intro isCleared
      refine ⟨rfl, ?_⟩
      by_cases begun : ctx.handshakeBegin.isSome = true
      · exact bound.served begun
      · rw [if_neg begun] at isCleared
        exact (bound.cleared isCleared).2
  | closed more => exact bound.congr rfl rfl
  | refused => exact bound_blank _ rfl
  | closedLast => exact bound_blank _ rfl
  | longStop => exact bound_blank _ rfl
  | shortStop => exact bound_blank _ rfl
  | dropped => exact bound_blank _ rfl

end Step

namespace World

variable {L : Listener} {w : World}

structure Grounded (w : World) : Prop where
  origins : w.Origins
  bound : ∀ slot, Bound (core (w.contexts slot)) (w.standing slot)

theorem grounded_start : Grounded {} where
  origins := origins_start
  bound _ := bound_blank 0 rfl

/-- An empty context is not handshaking. -/
theorem Grounded.idle_of_empty (grounded : w.Grounded) {slot : Slot}
    (empty : isEmpty (w.contexts slot) = true) : (w.contexts slot).handshakeBegin = none := by
  by_contra begun
  apply (grounded.bound slot).served (Option.isSome_iff_ne_none.2 begun)
  rw [core, (isEmpty_iff.1 empty).2]

theorem grounded_after {slot : Slot} {act : Activation} (grounded : w.Grounded)
    (legal : w.Legal L slot act) : (w.after slot act).Grounded := by
  obtain ⟨noted, effect, history⟩ := w.after_effect slot act
  refine ⟨origins_after grounded.origins, ?_⟩
  intro i
  by_cases target : i = slot
  · rw [target, standing_after_self history]
    exact bound_effect effect (grounded.bound slot) (legalOn_of_legal legal)
  · rw [after_contexts_ne _ target, standing_after_ne target]
    exact grounded.bound i

end World

end Koisyn.Session
