/-
# Koisyn.Session.Addressee — a packet touches the context of its own peer

`ConsumeRawUdpData` and `ConnectTo` look for a context by the remote address, whatever the other contexts
hold and whichever of them other threads have locked, and all that follows, `Receive1st`, `Receive2nd`,
`Receive3rd`, `StartClient` and `Reset`, works on the context that was found.

`only_addressee`: of any table of contexts the call changes at most one, and that one either has the remote
or is free; where there is neither nothing changes and nothing is sent.  `handled` is what the call does
even where it does not return, so that nothing is left out by a call that blocks.
-/
import Koisyn.Session.World

namespace Koisyn.Session

open Koisyn.Channel
open Koisyn.Theory.Run

set_option autoImplicit false

/-- The remote of a packet, or the one that the text of `ConnectTo` was parsed to. -/
def Label.remote : Label → Option Endpoint
  | .connectTo parsed _ _ _ => parsed
  | .packet _ remote _ _ _ _ => some remote
  | _ => none

namespace World

variable (w : World) {L : Listener} {l : Label} {slot : Slot} {act : Activation}

/-- The context has this remote, or is free. -/
def AnswersTo (remote : Endpoint) (slot : Slot) : Prop :=
  quicAddrCompare (w.contexts slot).remoteSentinel remote.addr = true ∨
    isEmpty (w.contexts slot) = true

/-- What a call does, as far as it gets. -/
def handled (L : Listener) (l : Label) : World :=
  match w.route L l with
  | some (some (slot, act)) => w.after slot act
  | _ => w

/-- Nothing but this context has changed: no other context, no `RecvMutex` of another and nothing sent
for another; and MsQuic keeps the connections and the streams that it had. -/
structure SameElsewhere (w t : World) (slot : Slot) : Prop where
  contexts : ∀ i, i ≠ slot → t.contexts i = w.contexts i
  held : ∀ i, i ≠ slot → t.held i = w.held i
  calls : ∀ i, i ≠ slot → t.calls i = w.calls i
  conns : w.conns <+: t.conns
  strms : w.strms <+: t.strms

variable {w}

/-- A call that returns has done that. -/
theorem handled_of_step {t : World} (taken : w.step L l = some t) : t = w.handled L l := by
  rcases step_cases taken with ⟨route, rfl⟩ | ⟨slot, act, route, -, rfl⟩
  · rw [handled, route]
  · rw [handled, route]

/-- A handshake activation changes its own context. -/
theorem sameElsewhere_after (handshake : act.IsHandshake) :
    SameElsewhere w (w.after slot act) slot where
  contexts _ other := Function.update_of_ne other _ _
  held _ other := Function.update_of_ne other _ _
  calls _ other := Function.update_of_ne other _ _
  conns := by
    show w.conns <+: w.connsAfter slot act
    unfold connsAfter
    split
    · exact List.prefix_append _ _
    · exact handshake.elim
    · exact handshake.elim
    · exact handshake.elim
    · exact List.prefix_refl _
  strms := by
    show w.strms <+: w.strmsAfter slot act
    unfold strmsAfter
    split
    · exact List.prefix_append _ _
    · exact handshake.elim
    · exact List.prefix_refl _

/-- The context that a call goes on to has its remote or is free. -/
theorem answersTo_of_route (scans : l.Scans) (route : w.route L l = some (some (slot, act))) :
    ∃ remote, l.remote = some remote ∧ w.AnswersTo remote slot := by
  cases routed_of_route route with
  | connectTo entry => exact ⟨_, rfl, .inr (findMatchingEntry_empty entry).2.1⟩
  | @receive1st _ _ _ _ _ _ _ _ isMatching _ _ entry =>
      refine ⟨_, rfl, ?_⟩
      cases isMatching with
      | true => exact .inl (findMatchingEntry_matching entry).2
      | false => exact .inr (findMatchingEntry_empty entry).2.1
  | receive2nd _ _ entry => exact ⟨_, rfl, .inl (findMatchingEntry_matching entry).2⟩
  | receive3rd _ _ entry => exact ⟨_, rfl, .inl (findMatchingEntry_matching entry).2⟩
  | _ => exact scans.elim

/-- **A packet, or a call of `ConnectTo`, touches only the context of its own peer**: for every table of
contexts, whichever of them are busy. -/
theorem only_addressee (L : Listener) (w : World) (l : Label) (scans : l.Scans) :
    (w.handled L l = w ∨ ∃ remote slot, l.remote = some remote ∧ w.AnswersTo remote slot ∧
        SameElsewhere w (w.handled L l) slot) ∧
      ((∀ remote, l.remote = some remote → ∀ slot, ¬ w.AnswersTo remote slot) →
        w.handled L l = w) ∧
      ∀ t, w.step L l = some t → t = w.handled L l := by
  have touched : w.handled L l = w ∨ ∃ remote slot, l.remote = some remote ∧
      w.AnswersTo remote slot ∧ SameElsewhere w (w.handled L l) slot := by
    rw [handled]
    split
    · rename_i slot act route
      obtain ⟨remote, called, addressed⟩ := answersTo_of_route scans route
      exact .inr ⟨remote, slot, called, addressed,
        sameElsewhere_after ((scans_iff_of_route route).1 scans)⟩
    · exact .inl rfl
  refine ⟨touched, ?_, fun t => handled_of_step⟩
  intro noOne
  rcases touched with same | ⟨remote, slot, called, addressed, -⟩
  · exact same
  · exact absurd addressed (noOne remote called slot)

/-- A first packet to an empty session. -/
theorem only_addressee_first :
    ({} : World).handled sampleListener
        (.packet (portBytes 3 4 0 0) samplePeer (fun _ => false) (some 5) 0 sampleStart) = {} ∨
      ∃ remote slot, some samplePeer = some remote ∧ ({} : World).AnswersTo remote slot ∧
        SameElsewhere {} (({} : World).handled sampleListener
          (.packet (portBytes 3 4 0 0) samplePeer (fun _ => false) (some 5) 0 sampleStart)) slot :=
  (only_addressee sampleListener {} (.packet _ _ _ _ _ _) trivial).1

end World

end Koisyn.Session
