/-
# Koisyn.Session.Callbacks — in which session a message is handed over

The handlers of a stream's `RECEIVE` and of `DATAGRAM_RECEIVED` know the slot of their event's
connection and nothing of its session.  They hand a message to the application with the object that
the slot's context holds at that moment.

`messages_in_session`: in every run, a message goes to the object that the slot's present session has
registered, while the application owns it, between an `OnAccept` that it granted and the session's
`OnDisconnect`; never to a session that was refused, has ended or was not asked about.  What it does not
say is that the event is of the same session: an old connection's message goes to the present one.
-/
import Koisyn.Session.Calls
import Koisyn.Session.Registration

namespace Koisyn.Session

open Koisyn.Channel
open Koisyn.Theory.Run

set_option autoImplicit false

/-! ## The calls -/

/-- The slot and the object with which a receive callback is called. -/
def receiverOf : Call → Option (Slot × ObjectId)
  | .onReliableReceive slot _ _ channelContext => some (slot, channelContext)
  | .onUnreliableReceive slot _ channelContext => some (slot, channelContext)
  | _ => none

/-- The object is owned by the application while the activation runs; only those that may hand a
message over ask. -/
def Activation.Owns (object : ObjectId) : Activation → Prop
  | .datagramReceived _ alive | .receive _ _ alive => alive object = true
  | _ => False

/-- Only the two receiving handlers hand messages over. -/
theorem receives_of_receiver {act : Activation} {call : Call} (makes : act.Makes call)
    {receiver : Slot × ObjectId} (received : receiverOf call = some receiver) :
    (∃ id ev alive, act = .receive id ev alive) ∨ ∃ buf alive, act = .datagramReceived buf alive := by
  cases call with
  | onReliableReceive => exact .inl makes
  | onUnreliableReceive => exact .inr makes
  | _ => cases received

/-- The calls hand messages over in this slot only, and only to the object that its context holds. -/
def HandsToHeld (slot : Slot) (ctx : ConnectionContext) (alive : ObjectId → Bool)
    (calls : List Call) : Prop :=
  ∀ call ∈ calls, ∀ receiver, receiverOf call = some receiver →
    receiver.1 = slot ∧ lockChannelContext alive ctx.channelContext = some receiver.2

section Handlers

variable (slot : Slot) (ctx : ConnectionContext) (alive : ObjectId → Bool)

/-- What any activation may do hands nothing over. -/
theorem handsToHeld_of_makesAll {calls : List Call} (makes : Activation.disconnect.MakesAll calls) :
    HandsToHeld slot ctx alive calls := by
  intro call member receiver received
  rcases receives_of_receiver (makes call member) received with ⟨_, _, _, same⟩ | ⟨_, _, same⟩ <;>
    cases same

theorem datagramReceived_hands (buf : List UInt8) :
    HandsToHeld slot ctx alive (datagramReceived slot ctx buf alive).calls := by
  unfold datagramReceived
  split
  · exact handsToHeld_of_makesAll slot ctx alive (makesAll_resetCalls slot ctx)
  · rename_i channelCtx locked
    split
    · exact handsToHeld_of_makesAll slot ctx alive makesAll_nil
    · dsimp only
      split
      · intro call member receiver received
        obtain rfl := List.mem_singleton.1 member
        obtain rfl := Option.some.inj received
        exact ⟨rfl, locked⟩
      · exact handsToHeld_of_makesAll slot ctx alive makesAll_nil

theorem handleReceive_hands (id : Nat) (ev : ReceiveEvent) :
    HandsToHeld slot ctx alive (handleReceive slot alive id ev ctx).calls := by
  have blocked : ∀ (ctx : ConnectionContext) (index : Fin 4),
      Activation.disconnect.MakesAll (ctx.resetBlockedCalls index) := fun _ _ =>
    makesAll_flatMap fun _ => makesAll_append.2 ⟨makesAll_releaseStream _, makesAll_releaseStream _⟩
  unfold handleReceive
  split
  · exact handsToHeld_of_makesAll slot ctx alive (makesAll_resetCalls slot ctx)
  · rename_i channelCtx locked
    split
    · dsimp only
      have delivered : ∀ (index : Fin 4) (payloads : List (List UInt8)),
          HandsToHeld slot ctx alive
            (payloads.map fun data => .onReliableReceive slot index data channelCtx) := by
        intro index payloads call member receiver received
        obtain ⟨data, -, rfl⟩ := List.mem_map.1 member
        obtain rfl := Option.some.inj received
        exact ⟨rfl, locked⟩
      split
      · exact handsToHeld_of_makesAll slot ctx alive makesAll_nil
      · split
        · intro call member
          rcases List.mem_append.1 member with handed | rest
          · exact delivered _ _ call handed
          · exact handsToHeld_of_makesAll slot ctx alive (blocked _ _) call rest
        · exact delivered _ _
    · exact handsToHeld_of_makesAll slot ctx alive makesAll_nil

/-- **Who is handed a message**: the object that the context holds, by an event while the application
owns it. -/
theorem receiver_run (act : Activation) {call : Call} (member : call ∈ (act.run slot ctx).calls)
    {receiver : Slot × ObjectId} (received : receiverOf call = some receiver) :
    receiver.1 = slot ∧ ctx.channelContext = some receiver.2 ∧ act.Owns receiver.2 := by
  rcases receives_of_receiver (run_makes slot ctx act call member) received with
    ⟨id, ev, alive, rfl⟩ | ⟨buf, alive, rfl⟩
  · obtain ⟨here, locked⟩ := handleReceive_hands slot ctx alive id ev call member receiver received
    exact ⟨here, Option.filter_eq_some_iff.1 locked⟩
  · obtain ⟨here, locked⟩ := datagramReceived_hands slot ctx alive buf call member receiver received
    exact ⟨here, Option.filter_eq_some_iff.1 locked⟩

end Handlers

/-! ## The session -/

/-- A context that holds an object is one whose session was accepted and not disconnected since. -/
def Admitted (ctx : Core) (s : Standing) : Prop :=
  ctx.channelContext.isSome → s.accepted = true ∧ s.live = true

theorem Effect.admitted {ctx ctx' : Core} {act : Activation} {noted : List Mark} {s : Standing}
    (effect : Effect ctx act ctx' noted) (admitted : Admitted ctx s) :
    Admitted ctx' (noted.foldl Standing.after s) := by
  cases effect with
  | granted => exact fun _ => ⟨rfl, rfl⟩
  | connected =>
      intro holds
      obtain ⟨accepted, live⟩ := admitted holds
      split <;> exact ⟨accepted, live⟩
  | refused => intro holds; cases holds
  | closedLast => intro holds; cases holds
  | longStop => intro holds; cases holds
  | shortStop => intro holds; cases holds
  | dropped => intro holds; cases holds
  | _ => exact admitted

namespace World

/-- Every context that holds an object is of a session that was accepted. -/
def AllAdmitted (w : World) : Prop :=
  ∀ slot, Admitted (core (w.contexts slot)) (w.standing slot)

theorem allAdmitted_after {w : World} (all : w.AllAdmitted) (slot : Slot) (act : Activation) :
    (w.after slot act).AllAdmitted := by
  intro i
  by_cases here : i = slot
  · subst here
    obtain ⟨noted, effect, history⟩ := w.after_effect i act
    rw [standing_after_self history]
    exact effect.admitted (all i)
  · rw [after_contexts_ne _ here, standing_after_ne here]
    exact all i

end World

/-- What is true of a message handed to an object by an activation in the slot. -/
structure InSession (w : World) (registry : Registry) (slot : Slot) (act : Activation)
    (object : ObjectId) : Prop where
  /-- It is the object that the slot's present session registered. -/
  registered : registry slot (w.use slot) = some object
  accepted : (w.standing slot).accepted = true
  /-- The session's `OnDisconnect` has not been called. -/
  live : (w.standing slot).live = true
  owned : act.Owns object

/-- Whatever messages the step's activation hands over, it hands them over in its slot's session. -/
def HandsInSession (L : Listener) (s : World × Registry) (l : Label) : Prop :=
  ∀ slot act, s.1.route L l = some (some (slot, act)) →
    ∀ call ∈ (act.run slot (s.1.contexts slot)).calls, ∀ receiver ∈ receiverOf call,
      receiver.1 = slot ∧ InSession s.1 s.2 slot act receiver.2

/-- **Messages are handed over in a session**: in every run, each goes to the object that the slot's
present session registered, which the application still owns, after its `OnAccept` was granted and
before its `OnDisconnect`. -/
theorem messages_in_session (L : Listener) (labels : List Label) :
    EveryStep (registryStep L) (HandsInSession L) ({}, fun _ _ => none) labels := by
  let Holds : World × Registry → Prop := fun s => Current s ∧ s.1.AllAdmitted
  have keeps : ∀ s l t, Holds s → registryStep L s l = some t → Holds t := by
    rintro ⟨w, registry⟩ l ⟨t, registry'⟩ ⟨current, admitted⟩ taken
    obtain ⟨taken, rfl⟩ := recording_some.1 taken
    have taken : w.step L l = some t := taken
    refine ⟨current_step current taken, ?_⟩
    rcases World.step_cases taken with ⟨-, rfl⟩ | ⟨slot, act, -, -, rfl⟩
    · exact admitted
    · exact World.allAdmitted_after admitted slot act
  have start : Holds ({}, fun _ _ => none) :=
    ⟨⟨fun _ => rfl, fun _ _ _ => rfl⟩, fun _ holds => by cases holds⟩
  have rule : ∀ s l, Holds s → HandsInSession L s l := by
    rintro ⟨w, registry⟩ l ⟨current, admitted⟩ slot act - call member receiver received
    obtain ⟨here, holds, owned⟩ := receiver_run slot (w.contexts slot) act member received
    have isSome : (core (w.contexts slot)).channelContext.isSome := by
      show (w.contexts slot).channelContext.isSome
      rw [holds]
      rfl
    obtain ⟨accepted, live⟩ := admitted slot isSome
    have now : (w.contexts slot).channelContext = registry slot (w.use slot) := current.now slot
    exact ⟨here, now.symm.trans holds, accepted, live, owned⟩
  exact everyStep_of_always rule (always_of_keeps keeps labels start)

end Koisyn.Session
