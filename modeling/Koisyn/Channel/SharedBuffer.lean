/-
# Koisyn.Channel.SharedBuffer — who frees a send's buffer

A send lends one `RawBuffer` to MsQuic on up to two handles.  The caller raises the buffer's
reference count in a first loop, hands the buffer over in a second, and deletes it itself when no
handle took it; the completion handlers of the sends that were accepted lower the count and delete the
buffer at zero.  The machine runs the caller's loops and the handlers in every interleaving: a
completion may come as soon as its send was accepted, and another thread may run between a handler's
decrement and its `delete[]`.

* `buffer_safe`: the buffer is freed at most once, and never touched afterwards.
* It is not always freed (`refusedSend_leaks`): `buffer_freed_iff` is the exact condition, that no
  handle took it, or that every one did and each send is reported by an event that lowers the count.
-/
import Koisyn.Channel.Send
import Koisyn.Theory.Run

namespace Koisyn.Channel

open Koisyn.Theory.Run

set_option autoImplicit false

/-- `StreamSend` or `DatagramSend`. -/
inductive SendKind where
  | stream | datagram
  deriving DecidableEq, Repr

/-- `QUIC_DATAGRAM_SEND_STATE`, in the order of its values. -/
inductive DatagramSendState where
  | unknown | sent | lostSuspect | lostDiscarded | acknowledged | acknowledgedSpurious | canceled
  deriving DecidableEq, Repr

/-- `QUIC_DATAGRAM_SEND_STATE_IS_FINAL`. -/
def DatagramSendState.isFinal (state : DatagramSendState) : Bool :=
  decide (DatagramSendState.lostDiscarded.ctorIdx ≤ state.ctorIdx)

/-- The events that carry the buffer back as their `ClientContext`. -/
inductive SendEvent where
  | sendComplete (canceled : Bool)
  | datagramSendStateChanged (state : DatagramSendState)
  deriving DecidableEq, Repr

namespace SendEvent

def kind : SendEvent → SendKind
  | sendComplete _ => .stream
  | datagramSendStateChanged _ => .datagram

/-- No event of this send follows. -/
def isFinal : SendEvent → Bool
  | sendComplete _ => true
  | datagramSendStateChanged state => state.isFinal

/-- `Handle_QUIC_STREAM_EVENT_SEND_COMPLETE` always decrements the count,
`Handle_QUIC_CONNECTION_EVENT_DATAGRAM_SEND_STATE_CHANGED` only in the state `SENT`. -/
def lowers : SendEvent → Bool
  | sendComplete _ => true
  | datagramSendStateChanged state => state == .sent

end SendEvent

/-- A send that MsQuic accepted: the events raised for it, and whether its handler has seen the count
reach zero and is about to delete the buffer. -/
structure AcceptedSend where
  heard : List SendEvent := []
  deleting : Bool := false
  deriving DecidableEq, Repr

namespace AcceptedSend

def isFinal (send : AcceptedSend) : Bool := send.heard.any (·.isFinal)

def lowered (send : AcceptedSend) : Bool := send.heard.any (·.lowers)

/-- What MsQuic may raise: events of the send's kind until a final one, `SENT` at most once. -/
def Allows (kind : SendKind) (send : AcceptedSend) (ev : SendEvent) : Prop :=
  ev.kind = kind ∧ send.isFinal = false ∧
    (ev = .datagramSendStateChanged .sent → ev ∉ send.heard)

instance decidableAllows (kind : SendKind) (send : AcceptedSend) (ev : SendEvent) :
    Decidable (send.Allows kind ev) := by
  unfold Allows
  infer_instance

end AcceptedSend

/-- Where the caller is: in its first loop, in its second, or back. -/
inductive Caller where
  | counting (todo : List (Hquic × Bool))
  | sending (todo : List (Hquic × Bool)) (sent : Bool)
  | returned (sent : Bool)
  deriving DecidableEq, Repr

structure BufferState where
  /-- The handles of the call and what MsQuic will answer on each. -/
  handles : List (Hquic × Bool)
  caller : Caller
  refCount : UInt32 := 0
  sends : List AcceptedSend := []
  frees : Nat := 0
  /-- The buffer was read, written or passed on after it was freed. -/
  stale : Bool := false
  deriving DecidableEq, Repr

inductive BufferLabel where
  | caller
  | event (i : Nat) (ev : SendEvent)
  | delete (i : Nat)
  deriving DecidableEq, Repr

namespace BufferState

def touch (s : BufferState) : BufferState := { s with stale := s.stale || decide (0 < s.frees) }

def free (s : BufferState) : BufferState := { s with frees := s.frees + 1 }

end BufferState

/-- One step of the caller, of MsQuic with the handler it calls, or of a handler that deletes. -/
def bufferStep (kind : SendKind) (s : BufferState) : BufferLabel → Option BufferState
  | .caller =>
      match s.caller with
      | .counting (_ :: todo) =>
          some { s.touch with refCount := s.refCount + 1, caller := .counting todo }
      | .counting [] => some { s with caller := .sending s.handles false }
      | .sending ((_, succeeded) :: todo) sent =>
          some { s.touch with
            sends := if succeeded then s.sends ++ [{}] else s.sends
            caller := .sending todo (sent || succeeded) }
      | .sending [] sent =>
          some { (if sent then s else s.free) with caller := .returned sent }
      | .returned _ => none
  | .event i ev =>
      match s.sends[i]? with
      | none => none
      | some send =>
          if send.Allows kind ev then
            if ev.lowers then
              some { s.touch with
                refCount := s.refCount - 1
                sends := s.sends.set i ⟨send.heard ++ [ev], s.refCount - 1 == 0⟩ }
            else some { s with sends := s.sends.set i ⟨send.heard ++ [ev], send.deleting⟩ }
          else none
  | .delete i =>
      match s.sends[i]? with
      | some ⟨heard, true⟩ => some { s.free with sends := s.sends.set i ⟨heard, false⟩ }
      | _ => none

/-- After `MakeBuffer`, which sets the count to zero. -/
def bufferStart (handles : List (Hquic × Bool)) : BufferState where
  handles := handles
  caller := .counting handles

/-- The call has returned, MsQuic is done with every send it accepted, and no handler is running. -/
structure BufferState.Settled (s : BufferState) : Prop where
  returned : ∃ sent, s.caller = .returned sent
  final : ∀ send ∈ s.sends, send.isFinal = true
  idle : ∀ send ∈ s.sends, send.deleting = false

/-! ## What the count says -/

namespace Caller

/-- The handles not handed over yet, of those of the call. -/
def remaining (handles : List (Hquic × Bool)) : Caller → List (Hquic × Bool)
  | counting _ => handles
  | sending todo _ => todo
  | returned _ => []

/-- How many handles the count does not include yet. -/
def uncounted : Caller → Nat
  | counting todo => todo.length
  | _ => 0

/-- The local variable `sent`. -/
def sent : Caller → Bool
  | counting _ => false
  | sending _ sent => sent
  | returned sent => sent

end Caller

namespace BufferState

/-- The sends whose handler has decremented the count. -/
def lowered (s : BufferState) : Nat := s.sends.countP (·.lowered)

/-- The handlers about to delete the buffer. -/
def deleting (s : BufferState) : Nat := s.sends.countP (·.deleting)

/-- The deletes that are due: one when the last of the call's handles is lowered, one when the caller
returns without a send. -/
def due (handles lowered : Nat) (caller : Caller) : Nat :=
  (if 0 < handles ∧ lowered = handles then 1 else 0) + if caller = .returned false then 1 else 0

theorem due_open {handles lowered : Nat} {caller : Caller} (open_ : caller ≠ .returned false) :
    due handles lowered caller = if 0 < handles ∧ lowered = handles then 1 else 0 := by
  rw [due, if_neg open_, Nat.add_zero]

/-- Only the caller's last step is a delete. -/
theorem due_congr {handles lowered : Nat} {caller caller' : Caller}
    (open_ : caller ≠ .returned false) (open' : caller' ≠ .returned false) :
    due handles lowered caller = due handles lowered caller' := by
  rw [due_open open_, due_open open']

/-- **The books of a buffer.**  The count is the handles it was raised for, less the sends whose handler
has lowered it, and the deletes that are due are done or about to be. -/
structure Accounted (kind : SendKind) (s : BufferState) : Prop where
  small : s.handles.length < 2 ^ 32
  counted : s.refCount.toNat + s.lowered + s.caller.uncounted = s.handles.length
  accepted : ∃ done, done ++ s.caller.remaining s.handles = s.handles ∧
    s.sends.length = done.countP (·.2)
  sent : s.caller.sent = true ↔ s.sends ≠ []
  freed : s.frees + s.deleting = due s.handles.length s.lowered s.caller
  pending : ∀ send ∈ s.sends, send.deleting = true → send.lowered = true
  ofKind : ∀ send ∈ s.sends, ∀ ev ∈ send.heard, ev.kind = kind
  fresh : s.stale = false

theorem lowered_le (s : BufferState) : s.lowered ≤ s.sends.length := List.countP_le_length

namespace Accounted

variable {kind : SendKind} {s : BufferState}

theorem sends_le (accounted : Accounted kind s) :
    s.sends.length + (s.caller.remaining s.handles).length ≤ s.handles.length := by
  obtain ⟨done, split, accepted⟩ := accounted.accepted
  have := List.countP_le_length (p := fun t : Hquic × Bool => t.2) (l := done)
  have := congrArg List.length split
  rw [List.length_append] at this
  omega

theorem not_returned_false (accounted : Accounted kind s) (some_ : s.sends ≠ []) :
    s.caller ≠ .returned false := by
  intro returned
  have := accounted.sent.2 some_
  rw [returned] at this
  cases this

/-- No send is accepted before every handle is counted. -/
theorem uncounted_zero (accounted : Accounted kind s) (some_ : s.sends ≠ []) :
    s.caller.uncounted = 0 := by
  have few := accounted.sends_le
  have := List.length_pos_iff.2 some_
  cases at_ : s.caller with
  | counting todo =>
      rw [at_, Caller.remaining] at few
      omega
  | _ => rfl

/-- While a send of the call is not lowered, the buffer is not freed and no handler deletes it. -/
theorem alive (accounted : Accounted kind s) (open_ : s.caller ≠ .returned false)
    (short : s.lowered < s.handles.length) : s.frees = 0 ∧ s.deleting = 0 := by
  have freed := accounted.freed
  rw [due_open open_, if_neg (by omega)] at freed
  omega

theorem freed_le (accounted : Accounted kind s) : s.frees + s.deleting ≤ 1 := by
  have freed := accounted.freed
  by_cases returned : s.caller = .returned false
  · have none_ : s.sends = [] := by
      by_contra some_
      exact accounted.not_returned_false some_ returned
    have := s.lowered_le
    rw [none_, List.length_nil] at this
    rw [due, if_neg (by omega), if_pos returned] at freed
    omega
  · rw [due_open returned] at freed
    split at freed <;> omega

end Accounted

theorem accounted_start (kind : SendKind) {handles : List (Hquic × Bool)}
    (small : handles.length < 2 ^ 32) : Accounted kind (bufferStart handles) where
  small := small
  counted := by simp [bufferStart, lowered, Caller.uncounted]
  accepted := ⟨[], rfl, rfl⟩
  sent := by simp [bufferStart, Caller.sent]
  freed := by
    rw [due_open (by simp [bufferStart]), if_neg]
    · rfl
    · rintro ⟨some_, none_⟩
      rw [← none_] at some_
      exact Nat.lt_irrefl 0 some_
  pending _ member := absurd member List.not_mem_nil
  ofKind _ member := absurd member List.not_mem_nil
  fresh := rfl

theorem touch_eq {s : BufferState} (alive : s.frees = 0) : s.touch = s := by
  have kept : (s.stale || decide (0 < s.frees)) = s.stale := by simp [alive]
  rw [touch, kept]

end BufferState

open BufferState

section Step

variable {kind : SendKind} {s t : BufferState}

/-- The caller goes on without a send or a delete. -/
theorem accounted_moves (accounted : Accounted kind s) {caller : Caller} {refCount : UInt32}
    (open_ : s.caller ≠ .returned false) (open' : caller ≠ .returned false)
    (counted : refCount.toNat + s.lowered + caller.uncounted = s.handles.length)
    (accepted : ∃ done, done ++ caller.remaining s.handles = s.handles ∧
      s.sends.length = done.countP (·.2))
    (sent : caller.sent = true ↔ s.sends ≠ []) :
    Accounted kind { s with caller := caller, refCount := refCount } where
  small := accounted.small
  counted := counted
  accepted := accepted
  sent := sent
  freed := accounted.freed.trans (due_congr open_ open')
  pending := accounted.pending
  ofKind := accounted.ofKind
  fresh := accounted.fresh

/-- The first loop. -/
theorem accounted_counting (accounted : Accounted kind s) {todo : List (Hquic × Bool)}
    (at_ : s.caller = .counting todo) (taken : bufferStep kind s .caller = some t) :
    Accounted kind t := by
  obtain ⟨done, split, accepted⟩ := accounted.accepted
  have few := accounted.sends_le
  have counted := accounted.counted
  have open_ : s.caller ≠ .returned false := by simp [at_]
  simp only [at_, Caller.remaining, Caller.uncounted] at split few counted
  have none_ : s.sends = [] := by
    rw [← List.length_eq_zero_iff]
    omega
  cases todo with
  | nil =>
      simp only [bufferStep, at_, Option.some.injEq] at taken
      obtain rfl := taken
      exact accounted_moves accounted open_ (by simp) counted ⟨[], rfl, by simp [none_]⟩
        (by simp [Caller.sent, none_])
  | cons handle todo =>
      rw [List.length_cons] at counted
      have alive := (accounted.alive open_ (by omega)).1
      have raised : (s.refCount + 1).toNat = s.refCount.toNat + 1 := by
        have := accounted.small
        rw [UInt32.toNat_add]
        exact Nat.mod_eq_of_lt (by simp; omega)
      simp only [bufferStep, at_, touch_eq alive, Option.some.injEq] at taken
      obtain rfl := taken
      refine accounted_moves accounted open_ (by simp) ?_ ⟨done, split, accepted⟩
        (by simp [Caller.sent, none_])
      show (s.refCount + 1).toNat + s.lowered + todo.length = s.handles.length
      omega

/-- A send that MsQuic accepts: no event has been raised for it yet. -/
theorem accounted_accepts (accounted : Accounted kind s) {handle : Hquic × Bool}
    {todo : List (Hquic × Bool)} {sent : Bool} (at_ : s.caller = .sending (handle :: todo) sent)
    (succeeded : handle.2 = true) :
    Accounted kind { s with sends := s.sends ++ [{}], caller := .sending todo true } := by
  obtain ⟨done, split, accepted⟩ := accounted.accepted
  have counted := accounted.counted
  have open_ : s.caller ≠ .returned false := by simp [at_]
  simp only [at_, Caller.remaining, Caller.uncounted] at split counted
  have sameLowered : (s.sends ++ [({} : AcceptedSend)]).countP (·.lowered) = s.lowered := by
    simp [lowered, AcceptedSend.lowered]
  have sameDeleting : (s.sends ++ [({} : AcceptedSend)]).countP (·.deleting) = s.deleting := by
    simp [deleting]
  refine ⟨accounted.small, ?_, ⟨done ++ [handle], ?_, ?_⟩, by simp [Caller.sent], ?_, ?_, ?_,
    accounted.fresh⟩
  · show s.refCount.toNat + (s.sends ++ [({} : AcceptedSend)]).countP (·.lowered) + 0 = _
    rw [sameLowered]
    exact counted
  · rw [List.append_assoc]
    exact split
  · simp [succeeded, accepted]
  · show s.frees + (s.sends ++ [({} : AcceptedSend)]).countP (·.deleting) =
      due s.handles.length ((s.sends ++ [({} : AcceptedSend)]).countP (·.lowered)) _
    rw [sameLowered, sameDeleting]
    exact accounted.freed.trans (due_congr open_ (by simp))
  · intro send member deletes
    rcases List.mem_append.1 member with old | new
    · exact accounted.pending send old deletes
    · obtain rfl := List.mem_singleton.1 new
      cases deletes
  · intro send member ev heard
    rcases List.mem_append.1 member with old | new
    · exact accounted.ofKind send old ev heard
    · obtain rfl := List.mem_singleton.1 new
      cases heard

/-- The second loop, and the return. -/
theorem accounted_sending (accounted : Accounted kind s) {todo : List (Hquic × Bool)} {sent : Bool}
    (at_ : s.caller = .sending todo sent) (taken : bufferStep kind s .caller = some t) :
    Accounted kind t := by
  obtain ⟨done, split, accepted⟩ := accounted.accepted
  have few := accounted.sends_le
  have counted := accounted.counted
  have sent_iff := accounted.sent
  have open_ : s.caller ≠ .returned false := by simp [at_]
  simp only [at_, Caller.remaining, Caller.uncounted, Caller.sent] at split few counted sent_iff
  cases todo with
  | nil =>
      simp only [bufferStep, at_, Option.some.injEq] at taken
      obtain rfl := taken
      cases sent with
      | true =>
          exact accounted_moves accounted open_ (by simp) counted ⟨done, split, accepted⟩ sent_iff
      | false =>
          refine ⟨accounted.small, counted, ⟨done, split, accepted⟩, sent_iff, ?_,
            accounted.pending, accounted.ofKind, accounted.fresh⟩
          have freed := accounted.freed
          rw [due_open open_] at freed
          show s.frees + 1 + s.deleting = due s.handles.length s.lowered (.returned false)
          rw [Nat.add_right_comm, freed, due, if_pos rfl]
  | cons handle todo =>
      have below := s.lowered_le
      rw [List.length_cons] at few
      have alive := (accounted.alive open_ (by omega)).1
      obtain ⟨h, succeeded⟩ := handle
      simp only [bufferStep, at_, touch_eq alive, Option.some.injEq] at taken
      obtain rfl := taken
      cases succeeded with
      | true =>
          rw [Bool.or_true, if_pos rfl]
          exact accounted_accepts accounted at_ rfl
      | false =>
          refine accounted_moves accounted open_ (by simp) counted
            ⟨done ++ [(h, false)], ?_, by simpa using accepted⟩ (by simpa [Caller.sent] using sent_iff)
          rw [List.append_assoc]
          exact split

theorem accounted_caller (accounted : Accounted kind s) (taken : bufferStep kind s .caller = some t) :
    Accounted kind t := by
  cases at_ : s.caller with
  | counting todo => exact accounted_counting accounted at_ taken
  | sending todo sent => exact accounted_sending accounted at_ taken
  | returned sent =>
      simp only [bufferStep, at_] at taken
      cases taken

/-- **What an event does**: its send has heard it; where the handler decrements, the count is one less,
and at zero a delete follows. -/
theorem event_cases {i : Nat} {ev : SendEvent} (taken : bufferStep kind s (.event i ev) = some t) :
    ∃ send, s.sends[i]? = some send ∧ send.Allows kind ev ∧
      (ev.lowers = true ∧ t = { s.touch with
          refCount := s.refCount - 1
          sends := s.sends.set i ⟨send.heard ++ [ev], s.refCount - 1 == 0⟩ } ∨
        ev.lowers = false ∧ t = { s with
          sends := s.sends.set i ⟨send.heard ++ [ev], send.deleting⟩ }) := by
  simp only [bufferStep] at taken
  cases found : s.sends[i]? with
  | none =>
      rw [found] at taken
      cases taken
  | some send =>
      simp only [found, Option.ite_none_right_eq_some] at taken
      obtain ⟨allowed, taken⟩ := taken
      refine ⟨send, rfl, allowed, ?_⟩
      cases lowers : ev.lowers with
      | true => exact .inl ⟨rfl, by simpa [lowers] using taken.symm⟩
      | false => exact .inr ⟨rfl, by simpa [lowers] using taken.symm⟩

/-- A send hears at most one event that lowers the count. -/
theorem not_lowered_of_allows {send : AcceptedSend} {ev : SendEvent} (allowed : send.Allows kind ev)
    (ofKind : ∀ old ∈ send.heard, old.kind = kind) (lowers : ev.lowers = true) :
    send.lowered = false := by
  obtain ⟨sameKind, open_, once⟩ := allowed
  refine List.any_eq_false.2 fun old heard lowered => ?_
  have notFinal := List.any_eq_false.1 open_ old heard
  have oldKind := (ofKind old heard).trans sameKind.symm
  cases old with
  | sendComplete canceled => exact notFinal rfl
  | datagramSendStateChanged state =>
      cases ev with
      | sendComplete canceled => cases oldKind
      | datagramSendStateChanged state' =>
          obtain rfl : state' = .sent := by simpa [SendEvent.lowers] using lowers
          obtain rfl : state = .sent := by simpa [SendEvent.lowers] using lowered
          exact once rfl heard

theorem countP_set_add {α : Type} {l : List α} {i : Nat} {x : α} (found : l[i]? = some x)
    (p : α → Bool) (y : α) :
    (l.set i y).countP p + (p x).toNat = l.countP p + (p y).toNat := by
  obtain ⟨inside, rfl⟩ := List.getElem?_eq_some_iff.1 found
  have counted := List.boole_getElem_le_countP (p := p) (l := l) inside
  rw [List.countP_set inside]
  cases here : p l[i] <;> cases p y <;>
    simp only [here, if_true, if_false, Bool.false_eq_true, Bool.toNat_true, Bool.toNat_false]
      at counted ⊢ <;> omega

/-- One send changes: what is left to say is that the count and the deletes still agree. -/
theorem accounted_set (accounted : Accounted kind s) (i : Nat) (new : AcceptedSend) (refCount : UInt32)
    (frees : Nat) (ofKind : ∀ ev ∈ new.heard, ev.kind = kind)
    (pending : new.deleting = true → new.lowered = true)
    (counted : refCount.toNat + (s.sends.set i new).countP (·.lowered) + s.caller.uncounted =
      s.handles.length)
    (freed : frees + (s.sends.set i new).countP (·.deleting) =
      due s.handles.length ((s.sends.set i new).countP (·.lowered)) s.caller) :
    Accounted kind { s with refCount := refCount, frees := frees, sends := s.sends.set i new } where
  small := accounted.small
  counted := counted
  accepted := by
    obtain ⟨done, split, accepted⟩ := accounted.accepted
    exact ⟨done, split, by rw [← accepted, List.length_set]⟩
  sent := by
    rw [accounted.sent, ne_eq, ne_eq, ← List.length_eq_zero_iff, ← List.length_eq_zero_iff,
      List.length_set]
  freed := freed
  pending other inside isDeleting := by
    rcases List.mem_or_eq_of_mem_set inside with before | rfl
    · exact accounted.pending other before isDeleting
    · exact pending isDeleting
  ofKind other inside := by
    rcases List.mem_or_eq_of_mem_set inside with before | rfl
    · exact accounted.ofKind other before
    · exact ofKind
  fresh := accounted.fresh

theorem accounted_event (accounted : Accounted kind s) {i : Nat} {ev : SendEvent}
    (taken : bufferStep kind s (.event i ev) = some t) : Accounted kind t := by
  obtain ⟨send, found, allowed, handled⟩ := event_cases taken
  have member := List.mem_of_getElem? found
  have some_ : s.sends ≠ [] := List.ne_nil_of_mem member
  have heardKind : ∀ old ∈ send.heard ++ [ev], old.kind = kind := by
    intro old isHeard
    rcases List.mem_append.1 isHeard with before | now
    · exact accounted.ofKind send member old before
    · rw [List.mem_singleton.1 now]
      exact allowed.1
  rcases handled with ⟨lowers, rfl⟩ | ⟨silent, rfl⟩
  · have first := not_lowered_of_allows allowed (accounted.ofKind send member) lowers
    have notDeleting : send.deleting = false := by
      by_contra deletes
      rw [accounted.pending send member (by simpa using deletes)] at first
      cases first
    have nowLowered : (⟨send.heard ++ [ev], s.refCount - 1 == 0⟩ : AcceptedSend).lowered = true := by
      simp [AcceptedSend.lowered, lowers]
    have more := countP_set_add found (·.lowered) ⟨send.heard ++ [ev], s.refCount - 1 == 0⟩
    have deletes := countP_set_add found (·.deleting) ⟨send.heard ++ [ev], s.refCount - 1 == 0⟩
    have bounded := List.countP_le_length (p := fun send : AcceptedSend => send.lowered)
      (l := s.sends.set i ⟨send.heard ++ [ev], s.refCount - 1 == 0⟩)
    simp only [first, nowLowered, notDeleting, Bool.toNat_false, Bool.toNat_true, Nat.add_zero]
      at more deletes
    rw [more, List.length_set] at bounded
    have few := accounted.sends_le
    have counted := accounted.counted
    rw [accounted.uncounted_zero some_] at counted
    have open_ := accounted.not_returned_false some_
    unfold lowered at counted
    obtain ⟨unfreed, idle⟩ := accounted.alive open_ (by unfold lowered; omega)
    have fewer : (s.refCount - 1).toNat = s.refCount.toNat - 1 :=
      UInt32.toNat_sub_of_le _ _ (UInt32.le_iff_toNat_le.2 (by simp; omega))
    rw [touch_eq unfreed]
    refine accounted_set accounted i _ _ _ heardKind (fun _ => nowLowered) ?_ ?_
    · rw [fewer, more, accounted.uncounted_zero some_]
      omega
    · -- the count is zero exactly when every handle of the call is lowered
      have last : (s.refCount - 1 == 0) =
          decide (s.sends.countP (·.lowered) + 1 = s.handles.length) := by
        rw [Bool.eq_iff_iff, beq_iff_eq, decide_eq_true_iff, ← UInt32.toNat_inj, fewer]
        simp only [UInt32.toNat_zero]
        omega
      unfold deleting at idle
      rw [deletes, more, due_open open_, unfreed, last, idle]
      by_cases isLast : s.sends.countP (·.lowered) + 1 = s.handles.length
      · rw [if_pos ⟨by omega, isLast⟩, decide_eq_true isLast]
        rfl
      · rw [if_neg fun both => isLast both.2, decide_eq_false isLast]
        rfl
  · have same : (⟨send.heard ++ [ev], send.deleting⟩ : AcceptedSend).lowered = send.lowered := by
      simp [AcceptedSend.lowered, silent]
    have more := countP_set_add found (·.lowered) ⟨send.heard ++ [ev], send.deleting⟩
    have deletes := countP_set_add found (·.deleting) ⟨send.heard ++ [ev], send.deleting⟩
    simp only [same, Nat.add_right_cancel_iff] at more deletes
    refine accounted_set accounted i _ _ _ heardKind ?_ ?_ ?_
    · rw [same]
      exact accounted.pending send member
    · rw [more]
      exact accounted.counted
    · rw [deletes, more]
      exact accounted.freed

theorem accounted_delete (accounted : Accounted kind s) {i : Nat}
    (taken : bufferStep kind s (.delete i) = some t) : Accounted kind t := by
  simp only [bufferStep] at taken
  split at taken
  · rename_i heard found
    obtain rfl := Option.some.inj taken
    have member := List.mem_of_getElem? found
    have more := countP_set_add found (·.lowered) ⟨heard, false⟩
    have deletes := countP_set_add found (·.deleting) ⟨heard, false⟩
    simp only [AcceptedSend.lowered, Nat.add_right_cancel_iff, Bool.toNat_true, Bool.toNat_false,
      Nat.add_zero] at more deletes
    refine accounted_set accounted i _ _ _ (accounted.ofKind ⟨heard, true⟩ member)
      (fun deleting => by cases deleting) ?_ ?_
    · unfold AcceptedSend.lowered
      rw [more]
      exact accounted.counted
    · have freed := accounted.freed
      unfold AcceptedSend.lowered
      rw [more, BufferState.free, Nat.add_assoc, Nat.add_comm 1, deletes]
      exact freed
  · cases taken

theorem accounted_step (label : BufferLabel) (accounted : Accounted kind s)
    (taken : bufferStep kind s label = some t) : Accounted kind t := by
  cases label with
  | caller => exact accounted_caller accounted taken
  | event i ev => exact accounted_event accounted taken
  | delete i => exact accounted_delete accounted taken

end Step

theorem accounted_run (kind : SendKind) {handles : List (Hquic × Bool)}
    (small : handles.length < 2 ^ 32) (labels : List BufferLabel) :
    Always (bufferStep kind) (Accounted kind) (bufferStart handles) labels :=
  always_of_keeps (fun _ label _ => accounted_step label) labels (accounted_start kind small)

theorem length_targets (peer self : Option Hquic) (env : SendEnv) :
    (targets peer self env).length < 2 ^ 32 := by
  cases peer <;> cases self <;> simp [targets]

/-- **No use after free and no double free.**  In every interleaving of a call's loops with the
completions of its sends, the buffer is freed at most once and not touched afterwards. -/
theorem buffer_safe (kind : SendKind) (peer self : Option Hquic) (env : SendEnv)
    (labels : List BufferLabel) :
    Always (bufferStep kind) (fun s => s.frees ≤ 1 ∧ s.stale = false)
      (bufferStart (targets peer self env)) labels := by
  refine (accounted_run kind (length_targets peer self env) labels).mono fun s accounted => ?_
  exact ⟨le_trans (Nat.le_add_right _ _) accounted.freed_le, accounted.fresh⟩

/-! ## When the buffer is freed -/

namespace BufferState

/-- What the handler of the `i`-th accepted send was called with. -/
def heardAt (s : BufferState) (i : Nat) : List SendEvent := (s.sends[i]?).elim [] (·.heard)

theorem heardAt_set {s : BufferState} {i : Nat} {send : AcceptedSend} (found : s.sends[i]? = some send)
    (new : AcceptedSend) (j : Nat) :
    ((s.sends.set i new)[j]?).elim [] (·.heard) = if i = j then new.heard else s.heardAt j := by
  by_cases same : i = j
  · subst same
    rw [if_pos rfl, List.getElem?_set_self (List.getElem?_eq_some_iff.1 found).1, Option.elim_some]
  · rw [if_neg same, List.getElem?_set_ne same, heardAt]

end BufferState

section Run

variable {kind : SendKind} {s t : BufferState}

theorem handles_step {label : BufferLabel} (taken : bufferStep kind s label = some t) :
    t.handles = s.handles := by
  cases label with
  | caller =>
      simp only [bufferStep] at taken
      split at taken
      · exact (Option.some.inj taken) ▸ rfl
      · exact (Option.some.inj taken) ▸ rfl
      · exact (Option.some.inj taken) ▸ rfl
      · obtain rfl := Option.some.inj taken
        dsimp only
        split <;> rfl
      · cases taken
  | event i ev =>
      obtain ⟨send, -, -, ⟨-, rfl⟩ | ⟨-, rfl⟩⟩ := event_cases taken <;> rfl
  | delete i =>
      simp only [bufferStep] at taken
      split at taken
      · exact (Option.some.inj taken) ▸ rfl
      · cases taken

theorem handles_run {handles : List (Hquic × Bool)} {labels : List BufferLabel}
    (run : exec (bufferStep kind) (bufferStart handles) labels = some s) : s.handles = handles :=
  (always_of_keeps (I := fun s => s.handles = handles)
    (fun _ _ _ same taken => (handles_step taken).trans same) labels rfl).last run

theorem heardAt_step {label : BufferLabel} (taken : bufferStep kind s label = some t) (j : Nat)
    (ev : SendEvent) : ev ∈ t.heardAt j ↔ ev ∈ s.heardAt j ∨ label = .event j ev := by
  cases label with
  | caller =>
      have same : t.heardAt j = s.heardAt j := by
        simp only [bufferStep] at taken
        split at taken
        · exact (Option.some.inj taken) ▸ rfl
        · exact (Option.some.inj taken) ▸ rfl
        · obtain rfl := Option.some.inj taken
          unfold heardAt
          dsimp only
          split
          · rcases Nat.lt_trichotomy j s.sends.length with inside | rfl | beyond
            · rw [List.getElem?_append_left inside]
            · simp
            · rw [List.getElem?_eq_none (by simp; omega), List.getElem?_eq_none (by omega)]
          · rfl
        · obtain rfl := Option.some.inj taken
          unfold heardAt
          dsimp only
          split <;> rfl
        · cases taken
      simp [same]
  | event i other =>
      obtain ⟨send, found, -, ⟨-, rfl⟩ | ⟨-, rfl⟩⟩ := event_cases taken <;>
      · rw [heardAt, heardAt_set found]
        by_cases same : i = j
        · subst same
          simp [heardAt, found, eq_comm]
        · simp [same]
  | delete i =>
      simp only [bufferStep] at taken
      split at taken
      · rename_i heard found
        obtain rfl := Option.some.inj taken
        rw [heardAt, heardAt_set found]
        by_cases same : i = j
        · subst same
          simp [heardAt, found]
        · simp [same]
      · cases taken

/-- A handler was called with exactly the events of its send in the run. -/
theorem heardAt_run {labels : List BufferLabel} (run : exec (bufferStep kind) s labels = some t)
    (j : Nat) (ev : SendEvent) : ev ∈ t.heardAt j ↔ ev ∈ s.heardAt j ∨ .event j ev ∈ labels := by
  induction labels generalizing s with
  | nil =>
      obtain rfl := Option.some.inj run
      simp
  | cons label labels ih =>
      simp only [exec_cons, Option.bind_eq_some_iff] at run
      obtain ⟨middle, taken, rest⟩ := run
      rw [ih rest, heardAt_step taken, List.mem_cons, or_assoc, eq_comm (a := label)]

/-- A stream send that is done has lowered the count; a datagram send has if it was `SENT`. -/
theorem lowered_iff_of_final (accounted : Accounted kind s) {send : AcceptedSend}
    (member : send ∈ s.sends) (final : send.isFinal = true) :
    send.lowered = true ↔
      (kind = .datagram → .datagramSendStateChanged .sent ∈ send.heard) := by
  have ofKind := accounted.ofKind send member
  cases kind with
  | stream =>
      obtain ⟨ev, heard, -⟩ := List.any_eq_true.1 final
      have lowered : send.lowered = true := by
        refine List.any_eq_true.2 ⟨ev, heard, ?_⟩
        cases ev with
        | sendComplete canceled => rfl
        | datagramSendStateChanged state => cases ofKind _ heard
      simp [lowered]
  | datagram =>
      constructor
      · intro lowered _
        obtain ⟨ev, heard, lowers⟩ := List.any_eq_true.1 lowered
        cases ev with
        | sendComplete canceled => cases ofKind _ heard
        | datagramSendStateChanged state =>
            obtain rfl : state = .sent := by simpa [SendEvent.lowers] using lowers
            exact heard
      · intro heard
        exact List.any_eq_true.2 ⟨_, heard rfl, rfl⟩

/-- Once everything is settled, the buffer is freed exactly if no send was accepted, or every handle's
was and each of them lowered the count. -/
theorem freed_iff_of_settled (accounted : Accounted kind s) (settled : s.Settled) :
    0 < s.frees ↔ (∀ h ∈ s.handles, h.2 = false) ∨
      (∀ h ∈ s.handles, h.2 = true) ∧ ∀ send ∈ s.sends, send.lowered = true := by
  obtain ⟨sent, returned⟩ := settled.returned
  obtain ⟨done, split, accepted⟩ := accounted.accepted
  have idle : s.deleting = 0 := List.countP_eq_zero.2 fun send member => by
    simp [settled.idle send member]
  have freed := accounted.freed
  have few := s.lowered_le
  have sent_iff := accounted.sent
  rw [returned, Caller.remaining, List.append_nil] at split
  rw [returned, Caller.sent] at sent_iff
  subst split
  rw [idle, Nat.add_zero] at freed
  by_cases none_ : s.sends = []
  · have refused : ∀ h ∈ s.handles, h.2 = false := by
      rw [none_, List.length_nil, eq_comm, List.countP_eq_zero] at accepted
      simpa using accepted
    have notSent : sent = false := by simpa [none_] using sent_iff
    rw [freed, returned, notSent, due, if_pos rfl]
    simp only [Nat.zero_lt_succ, true_iff]
    exact .inl refused
  · have open_ := accounted.not_returned_false none_
    have positive := List.length_pos_iff.2 none_
    have bounded := List.countP_le_length (p := fun t : Hquic × Bool => t.2) (l := s.handles)
    have someAccepted : ¬ ∀ h ∈ s.handles, h.2 = false := by
      intro refused
      rw [List.countP_eq_zero.2 (by simpa using refused)] at accepted
      omega
    have all_iff : (∀ h ∈ s.handles, h.2 = true) ↔ s.sends.length = s.handles.length := by
      rw [accepted, List.countP_eq_length]
    have lowered_iff : (∀ send ∈ s.sends, send.lowered = true) ↔ s.lowered = s.sends.length := by
      rw [lowered, List.countP_eq_length]
    rw [freed, due_open open_, all_iff, lowered_iff, or_iff_right someAccepted]
    split <;> omega

end Run

/-- **Freed, exactly.**  When the call has returned and every accepted send has reached its final state,
the buffer has been freed if and only if no handle accepted the send, or every handle did and, for
datagrams, each was reported `SENT`. -/
theorem buffer_freed_iff (kind : SendKind) (peer self : Option Hquic) (env : SendEnv)
    (labels : List BufferLabel) (s : BufferState)
    (run : exec (bufferStep kind) (bufferStart (targets peer self env)) labels = some s)
    (settled : s.Settled) :
    0 < s.frees ↔ (∀ h ∈ targets peer self env, h.2 = false) ∨
      (∀ h ∈ targets peer self env, h.2 = true) ∧ (kind = .datagram →
        ∀ i < (targets peer self env).length,
          .event i (.datagramSendStateChanged .sent) ∈ labels) := by
  have accounted := (accounted_run kind (length_targets peer self env) labels).last run
  have handles := handles_run run
  rw [freed_iff_of_settled accounted settled, handles]
  refine or_congr_right (and_congr_right fun all => ?_)
  have length : s.sends.length = (targets peer self env).length := by
    obtain ⟨sent, returned⟩ := settled.returned
    obtain ⟨done, split, accepted⟩ := accounted.accepted
    rw [returned, Caller.remaining, List.append_nil, handles] at split
    rw [accepted, split, List.countP_eq_length.2 all]
  have heard : ∀ i (inside : i < s.sends.length) (ev : SendEvent),
      ev ∈ (s.sends[i]).heard ↔ .event i ev ∈ labels := by
    intro i inside ev
    have read := heardAt_run run i ev
    simpa [heardAt, bufferStart, List.getElem?_eq_getElem inside] using read
  rw [← length]
  constructor
  · intro lowered isDatagram i inside
    have member := List.getElem_mem inside
    exact (heard i inside _).1 ((lowered_iff_of_final accounted member
      (settled.final _ member)).1 (lowered _ member) isDatagram)
  · intro reported send member
    obtain ⟨i, inside, rfl⟩ := List.getElem_of_mem member
    refine (lowered_iff_of_final accounted member (settled.final _ member)).2 fun isDatagram => ?_
    exact (heard i inside _).2 (reported isDatagram i inside)

/-- The peer's stream accepts the frame and reports it complete; ours refuses it, and the buffer stays.
A datagram that is canceled before it was sent leaves its buffer, too. -/
theorem refusedSend_leaks :
    (∃ s, exec (bufferStep .stream) (bufferStart (targets (some 1) (some 2) ⟨true, true, false⟩))
        [.caller, .caller, .caller, .caller, .caller, .caller, .event 0 (.sendComplete false)] =
          some s ∧ s.Settled ∧ s.frees = 0) ∧
      ∃ s, exec (bufferStep .datagram) (bufferStart (targets none (some 2) ⟨true, true, true⟩))
        [.caller, .caller, .caller, .caller, .event 0 (.datagramSendStateChanged .canceled)] =
          some s ∧ s.Settled ∧ s.frees = 0 := by
  refine ⟨⟨_, rfl, ⟨⟨true, rfl⟩, ?_, ?_⟩, rfl⟩, ⟨_, rfl, ⟨⟨true, rfl⟩, ?_, ?_⟩, rfl⟩⟩ <;> decide

/-- Both streams accept; the first completion comes before the second send, the last one deletes. -/
theorem buffer_freed_iff_sample :
    ∃ s, exec (bufferStep .stream) (bufferStart (targets (some 1) (some 2) ⟨true, true, true⟩))
        [.caller, .caller, .caller, .caller, .event 0 (.sendComplete false), .caller, .caller,
          .event 1 (.sendComplete true), .delete 1] = some s ∧
      (0 < s.frees ↔ (∀ h ∈ targets (some 1) (some 2) ⟨true, true, true⟩, h.2 = false) ∨
        (∀ h ∈ targets (some 1) (some 2) ⟨true, true, true⟩, h.2 = true) ∧
          (SendKind.stream = .datagram →
            ∀ i < (targets (some 1) (some 2) ⟨true, true, true⟩).length,
              BufferLabel.event i (.datagramSendStateChanged .sent) ∈
                [.caller, .caller, .caller, .caller, .event 0 (.sendComplete false), .caller, .caller,
                  .event 1 (.sendComplete true), .delete 1])) :=
  ⟨_, rfl, buffer_freed_iff .stream (some 1) (some 2) ⟨true, true, true⟩ _ _ rfl
    ⟨⟨true, rfl⟩, by decide, by decide⟩⟩

/-! ## The calls the machine runs -/

/-- However the handlers come in between, the caller returns whether a handle accepted. -/
theorem returned_any {kind : SendKind} {peer self : Option Hquic} {env : SendEnv}
    {labels : List BufferLabel} {s : BufferState} {sent : Bool}
    (run : exec (bufferStep kind) (bufferStart (targets peer self env)) labels = some s)
    (returned : s.caller = .returned sent) : sent = (targets peer self env).any (·.2) := by
  have accounted := (accounted_run kind (length_targets peer self env) labels).last run
  obtain ⟨done, split, accepted⟩ := accounted.accepted
  have sent_iff := accounted.sent
  rw [returned, Caller.remaining, List.append_nil, handles_run run] at split
  rw [returned, Caller.sent, ne_eq, ← List.length_eq_zero_iff, accepted, split,
    List.countP_eq_zero] at sent_iff
  rw [Bool.eq_iff_iff, sent_iff, List.any_eq_true]
  simp

theorem reliablePacketSend_returned {ctx : ConnectionContext} {channel : Fin 4} {data : List UInt8}
    {env : SendEnv} (fits : data.length ≤ 65512) (allocated : env.allocated = true)
    {labels : List BufferLabel} {s : BufferState} {sent : Bool}
    (run : exec (bufferStep .stream)
      (bufferStart (targets (ctx.reliable channel).peer (ctx.reliable channel).self env)) labels = some s)
    (returned : s.caller = .returned sent) :
    (reliablePacketSend (some ctx) channel data env).1 = sent := by
  rw [returned_any run returned]
  simp [reliablePacketSend, makeBuffer, allocated, Nat.not_lt.2 fits, channel.isLt]

theorem unreliablePacketSend_returned {ctx : ConnectionContext} {data : List UInt8} {env : SendEnv}
    (fits : data.length ≤ ctx.unreliable.maxSendLength.toNat) (allocated : env.allocated = true)
    {labels : List BufferLabel} {s : BufferState} {sent : Bool}
    (run : exec (bufferStep .datagram)
      (bufferStart (targets ctx.unreliable.peer ctx.unreliable.self env)) labels = some s)
    (returned : s.caller = .returned sent) : (unreliablePacketSend ctx data env).1 = sent := by
  rw [returned_any run returned]
  simp [unreliablePacketSend, makeBuffer, allocated, Nat.not_lt.2 fits]

end Koisyn.Channel
