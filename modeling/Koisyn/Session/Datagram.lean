/-
# Koisyn.Session.Datagram — the unreliable channel from end to end

The machine has both ends of one session.  `UnreliablePacketSend` numbers its datagrams and puts one
copy on each connection that accepts it; the network delivers any copy at any time, any number of
times or never; `DATAGRAM_RECEIVED` hands a payload to the application exactly when its number is the
next one expected.

* `unreliable_in_order`: as long as fewer than `2 ^ 32` sends are made, what is handed over are
  datagrams that were sent, each once and in the order of the calls.
* The expected number waits for a datagram that was lost for good (`lostDatagram_silences`), and
  `unreliable_unsilenced` is exact: every datagram newer than all those delivered is delivered if and
  only if none arrives with one before it missing (`NoGap`).
-/
import Koisyn.Session.Events
import Koisyn.Theory.Run

namespace Koisyn.Session

open Koisyn.Channel
open Koisyn.Theory.Bytes
open Koisyn.Theory.Run

set_option autoImplicit false

/-- The payloads that calls hand to `OnUnreliableReceive` of the context in `slot`. -/
def deliveredUnreliably (slot : Slot) (calls : List Call) : List (List UInt8) :=
  calls.filterMap fun
    | .onUnreliableReceive s data _ => if s = slot then some data else none
    | _ => none

/-- The datagrams that `DatagramSend` accepts on a connection. -/
def datagramsOn (conn : Hquic) (calls : List Call) : List (List UInt8) :=
  calls.filterMap fun
    | .datagramSend h buf true => if h = conn then some buf.bytes else none
    | _ => none

/-- The packet number in a datagram's header. -/
def packetNumber (buf : List UInt8) : UInt32 := UInt32.ofNat (ofBigEndian (buf.take 4))

structure DatagramState where
  sender : ConnectionContext
  receiver : ConnectionContext
  /-- The datagrams that were accepted on each connection; the network may deliver any of them. -/
  accepted : Hquic → List (List UInt8) := fun _ => []
  /-- The number of `UnreliablePacketSend` calls. -/
  sends : Nat := 0
  /-- The numbers and the payloads of the calls that returned true. -/
  sent : List (UInt32 × List UInt8) := []
  /-- The numbers of the datagrams delivered to the application. -/
  numbers : List UInt32 := []
  calls : List Call := []
  alive : ObjectId → Bool

inductive DatagramLabel where
  | setSelf (conn : Option Hquic)
  | setPeer (conn : Option Hquic)
  | stateChanged (maxSendLength : UInt16)
  | send (data : List UInt8) (env : SendEnv)
  | arrive (conn : Hquic) (buf : List UInt8)
  | release (object : ObjectId)

/-- The session's channel context is alive at the receiver. -/
def DatagramState.Open (s : DatagramState) : Prop :=
  (lockChannelContext s.alive s.receiver.channelContext).isSome

section Machine

variable (slot : Slot)

/-- One step. -/
def datagramStep (s : DatagramState) : DatagramLabel → Option DatagramState
  | .setSelf conn =>
      some { s with sender :=
        { s.sender with unreliable := { s.sender.unreliable with self := conn } } }
  | .setPeer conn =>
      some { s with sender :=
        { s.sender with unreliable := { s.sender.unreliable with peer := conn } } }
  | .stateChanged maxSendLength =>
      some { s with sender := datagramStateChanged s.sender maxSendLength }
  | .send data env =>
      let r := unreliablePacketSend s.sender data env
      some { s with
        sender := r.2.1
        accepted := fun conn => s.accepted conn ++ datagramsOn conn r.2.2
        sends := s.sends + 1
        sent := if r.1 then s.sent ++ [(s.sender.unreliable.nextSendPacket, data)] else s.sent }
  | .arrive conn buf =>
      if buf ∈ s.accepted conn then
        let r := datagramReceived slot s.receiver buf s.alive
        some { s with
          receiver := r.ctx
          calls := s.calls ++ r.calls
          numbers := s.numbers ++
            (deliveredUnreliably slot r.calls).map fun _ => packetNumber buf }
      else none
  | .release object => some { s with alive := Function.update s.alive object false }

/-- Two contexts at the beginning of a session. -/
def datagramStart (sender receiver : ConnectionContext) (alive : ObjectId → Bool) :
    DatagramState where
  sender := { sender with unreliable := { sender.unreliable with nextSendPacket := 0 } }
  receiver := { receiver with unreliable := { receiver.unreliable with nextRecvPacket := 0 } }
  alive := alive

/-- The datagrams delivered are some of those sent, each at most once and in the order of the calls;
the number of a datagram tells which call sent it. -/
def InOrder (s : DatagramState) : Prop :=
  (s.sent.map (·.1)).Nodup ∧ ∃ datagrams : List (UInt32 × List UInt8), datagrams.Sublist s.sent ∧
    datagrams.map (·.1) = s.numbers ∧ datagrams.map (·.2) = deliveredUnreliably slot s.calls

/-- A datagram newer than all those delivered is delivered when it arrives in an open session. -/
def Unsilenced (s : DatagramState) : DatagramLabel → Prop
  | .arrive conn buf => buf ∈ s.accepted conn → s.Open →
      (∀ n ∈ s.numbers, n < packetNumber buf) →
        buf.drop 4 ∈ deliveredUnreliably slot (datagramReceived slot s.receiver buf s.alive).calls
  | _ => True

/-- A datagram that arrives in an open session has a number at most the count of those delivered: no
datagram before it is missing. -/
def NoGap (s : DatagramState) : DatagramLabel → Prop
  | .arrive conn buf => buf ∈ s.accepted conn → s.Open → (packetNumber buf).toNat ≤ s.numbers.length
  | _ => True

variable {slot}

/-! ## What the two handlers do -/

theorem datagramsOn_sends {conn : Hquic} {conns : List (Hquic × Bool)} {rawBuffer : RawBuffer}
    {calls : List Call} (silent : datagramsOn conn calls = []) {buf : List UInt8}
    (member : buf ∈ datagramsOn conn
      ((conns.map fun t => .datagramSend t.1 rawBuffer t.2) ++ calls)) :
    buf = rawBuffer.bytes ∧ conns.any (·.2) = true := by
  have split : buf ∈ datagramsOn conn (conns.map fun t => .datagramSend t.1 rawBuffer t.2) := by
    unfold datagramsOn at silent member ⊢
    rwa [List.filterMap_append, silent, List.append_nil] at member
  obtain ⟨call, called, read⟩ := List.mem_filterMap.1 split
  obtain ⟨⟨h, accepted⟩, isTarget, rfl⟩ := List.mem_map.1 called
  cases accepted with
  | false => cases read
  | true =>
      dsimp only at read
      split at read
      · exact ⟨(Option.some.inj read).symm, List.any_eq_true.2 ⟨_, isTarget, rfl⟩⟩
      · cases read

/-- **What an unreliable send does.**  It takes at most one number, and every datagram it puts on a
connection is that number and the data; then it returns true. -/
theorem unreliablePacketSend_spec (ctx : ConnectionContext) (data : List UInt8) (env : SendEnv) :
    let r := unreliablePacketSend ctx data env
    (r.1 = false ∧ r.2.1.unreliable.nextSendPacket = ctx.unreliable.nextSendPacket ∨
        r.2.1.unreliable.nextSendPacket = ctx.unreliable.nextSendPacket + 1) ∧
      ∀ conn, ∀ buf ∈ datagramsOn conn r.2.2, r.1 = true ∧
        buf = bigEndian 4 ctx.unreliable.nextSendPacket.toNat ++ data := by
  unfold unreliablePacketSend
  dsimp only
  split
  · exact ⟨.inl ⟨rfl, rfl⟩, fun _ _ member => absurd member List.not_mem_nil⟩
  · rename_i fits
    cases allocated : env.allocated with
    | false =>
        simp only [makeBuffer, Bool.false_eq_true, if_false]
        exact ⟨.inr trivial, fun _ _ member => absurd member List.not_mem_nil⟩
    | true =>
        simp only [makeBuffer, if_true]
        refine ⟨.inr trivial, ?_⟩
        intro conn buf member
        obtain ⟨bytes, accepts⟩ := datagramsOn_sends (by split <;> rfl) member
        refine ⟨accepts, bytes.trans ?_⟩
        have whole : data.length % 2 ^ 16 = data.length := by
          have := ctx.unreliable.maxSendLength.toNat_lt
          exact Nat.mod_eq_of_lt (by omega)
        rw [RawBuffer.bytes, whole, List.take_length]
        exact List.take_of_length_le (by simp)

theorem packetNumber_of_datagram (number : UInt32) (data : List UInt8) :
    packetNumber (bigEndian 4 number.toNat ++ data) = number := by
  have fits : number.toNat < 256 ^ 4 := by simpa using number.toNat_lt
  rw [packetNumber, List.take_left' (by simp), ofBigEndian_bigEndian fits, UInt32.ofNat_toNat]

variable (slot) in
/-- **What the handler does** with a datagram in an open session: it delivers the next one, and drops
any other. -/
theorem datagramReceived_open {ctx : ConnectionContext} {buf : List UInt8} {alive : ObjectId → Bool}
    (isOpen : (lockChannelContext alive ctx.channelContext).isSome) (header : 4 ≤ buf.length) :
    let r := datagramReceived slot ctx buf alive
    r.ctx.channelContext = ctx.channelContext ∧
      (ctx.unreliable.nextRecvPacket = packetNumber buf ∧
          r.ctx.unreliable.nextRecvPacket = ctx.unreliable.nextRecvPacket + 1 ∧
          deliveredUnreliably slot r.calls = [buf.drop 4] ∨
        ctx.unreliable.nextRecvPacket ≠ packetNumber buf ∧
          r.ctx.unreliable.nextRecvPacket = ctx.unreliable.nextRecvPacket ∧
          deliveredUnreliably slot r.calls = []) := by
  obtain ⟨channelCtx, locked⟩ := Option.isSome_iff_exists.1 isOpen
  simp only [datagramReceived, locked, Nat.not_lt.2 header, if_false]
  split
  · rename_i next
    exact ⟨rfl, .inl ⟨next, rfl, by simp [deliveredUnreliably]⟩⟩
  · rename_i other
    exact ⟨rfl, .inr ⟨other, rfl, rfl⟩⟩

variable (slot) in
/-- Once the application has let its object go, the handler resets the context and delivers nothing. -/
theorem datagramReceived_expired {ctx : ConnectionContext} (buf : List UInt8)
    {alive : ObjectId → Bool} (expired : lockChannelContext alive ctx.channelContext = none) :
    let r := datagramReceived slot ctx buf alive
    r.ctx.channelContext = none ∧ deliveredUnreliably slot r.calls = [] := by
  simp only [datagramReceived, expired]
  refine ⟨rfl, List.filterMap_eq_nil_iff.2 ?_⟩
  intro call member
  cases call with
  | onUnreliableReceive s data channelContext =>
      simp [ConnectionContext.resetCalls, releaseStream, releaseConnection] at member
  | _ => rfl

/-! ## At most once and in order -/

/-- In a list with increasing keys, one more key lets in the element that has it. -/
theorem filter_lt_succ {α : Type} {f : α → Nat} {l : List α} {x : α}
    (sorted : l.Pairwise fun a b => f a < f b) (member : x ∈ l) :
    l.filter (fun a => decide (f a < f x + 1)) =
      l.filter (fun a => decide (f a < f x)) ++ [x] := by
  induction l with
  | nil => cases member
  | cons a l ih =>
      obtain ⟨first, rest⟩ := List.pairwise_cons.1 sorted
      rcases List.mem_cons.1 member with rfl | later
      · have none_ : ∀ bound, bound ≤ f x + 1 → l.filter (fun a => decide (f a < bound)) = [] := by
          intro bound le
          refine List.filter_eq_nil_iff.2 fun b inside => ?_
          have := first b inside
          simp
          omega
        rw [List.filter_cons, List.filter_cons, none_ _ le_rfl, none_ _ (Nat.le_succ _)]
        simp
      · have smaller := first x later
        rw [List.filter_cons, List.filter_cons, if_pos (by simp; omega), if_pos (by simp; omega),
          ih rest later, List.cons_append]

/-- What is in flight was sent. -/
def Carried (s : DatagramState) : Prop :=
  ∀ conn, ∀ buf ∈ s.accepted conn, ∃ d ∈ s.sent, buf = bigEndian 4 d.1.toNat ++ d.2

variable (slot) in
/-- The sender's numbers increase, and those below the number the receiver waits for are delivered. -/
structure Numbered (s : DatagramState) : Prop where
  counted : s.sender.unreliable.nextSendPacket.toNat ≤ s.sends
  sorted : s.sent.Pairwise fun d e => d.1.toNat < e.1.toNat
  below : ∀ d ∈ s.sent, d.1.toNat < s.sender.unreliable.nextSendPacket.toNat
  carried : Carried s
  seen : ∃ k, k ≤ s.sender.unreliable.nextSendPacket.toNat ∧
    (s.Open → s.receiver.unreliable.nextRecvPacket.toNat = k) ∧
    (s.sent.filter fun d => decide (d.1.toNat < k)).map (·.1) = s.numbers ∧
    (s.sent.filter fun d => decide (d.1.toNat < k)).map (·.2) = deliveredUnreliably slot s.calls

theorem Numbered.inOrder {s : DatagramState} (numbered : Numbered slot s) : InOrder slot s := by
  obtain ⟨k, -, -, numbers, payloads⟩ := numbered.seen
  refine ⟨List.pairwise_map.2 (numbered.sorted.imp ?_), _, List.filter_sublist, numbers, payloads⟩
  intro d e less same
  rw [same] at less
  exact Nat.lt_irrefl _ less

theorem carried_send {s : DatagramState} (carried : Carried s) {data : List UInt8} {env : SendEnv}
    {t : DatagramState} (taken : datagramStep slot s (.send data env) = some t) : Carried t := by
  obtain rfl := Option.some.inj taken
  intro conn buf member
  rcases List.mem_append.1 member with old | new
  · obtain ⟨d, isSent, bytes⟩ := carried conn buf old
    refine ⟨d, ?_, bytes⟩
    dsimp only
    split
    · exact List.mem_append_left _ isSent
    · exact isSent
  · obtain ⟨accepts, bytes⟩ := (unreliablePacketSend_spec s.sender data env).2 conn buf new
    refine ⟨(s.sender.unreliable.nextSendPacket, data), ?_, bytes⟩
    dsimp only
    rw [if_pos accepts]
    exact List.mem_append_right _ List.mem_cons_self

/-- What is in flight carries the number of its send in its header. -/
theorem Carried.read {s : DatagramState} (carried : Carried s) {conn : Hquic} {buf : List UInt8}
    (member : buf ∈ s.accepted conn) :
    4 ≤ buf.length ∧ (packetNumber buf, buf.drop 4) ∈ s.sent := by
  obtain ⟨d, isSent, rfl⟩ := carried conn buf member
  rw [packetNumber_of_datagram, List.drop_left' (by simp)]
  exact ⟨by simp, isSent⟩

theorem numbered_send {s t : DatagramState} (numbered : Numbered slot s) {data : List UInt8}
    {env : SendEnv} (few : t.sends < 2 ^ 32)
    (taken : datagramStep slot s (.send data env) = some t) : Numbered slot t := by
  have carried := carried_send numbered.carried taken
  obtain ⟨numbers, -⟩ := unreliablePacketSend_spec s.sender data env
  obtain rfl := Option.some.inj taken
  obtain ⟨k, le, next, seenNumbers, payloads⟩ := numbered.seen
  have counted := numbered.counted
  rcases numbers with ⟨refused, same⟩ | advanced
  · refine ⟨?_, ?_, ?_, carried, ?_⟩
    · show (unreliablePacketSend s.sender data env).2.1.unreliable.nextSendPacket.toNat ≤ s.sends + 1
      rw [same]
      omega
    · simpa only [refused, Bool.false_eq_true, if_false] using numbered.sorted
    · simpa only [refused, Bool.false_eq_true, if_false, same] using numbered.below
    · simp only [refused, Bool.false_eq_true, if_false, same]
      exact ⟨k, le, next, seenNumbers, payloads⟩
  · have added : (s.sender.unreliable.nextSendPacket + 1).toNat =
        s.sender.unreliable.nextSendPacket.toNat + 1 := by
      have : s.sends + 1 < 2 ^ 32 := few
      rw [UInt32.toNat_add]
      exact Nat.mod_eq_of_lt (by simp; omega)
    refine ⟨?_, ?_, ?_, carried, k, ?_, next, ?_⟩
    · show (unreliablePacketSend s.sender data env).2.1.unreliable.nextSendPacket.toNat ≤ s.sends + 1
      rw [advanced, added]
      omega
    · dsimp only
      split
      · refine List.pairwise_append.2 ⟨numbered.sorted, List.pairwise_singleton _ _, ?_⟩
        intro d old e new
        obtain rfl := List.mem_singleton.1 new
        exact numbered.below d old
      · exact numbered.sorted
    · dsimp only
      rw [advanced, added]
      intro d member
      split at member
      · rcases List.mem_append.1 member with old | new
        · exact Nat.lt_succ_of_lt (numbered.below d old)
        · obtain rfl := List.mem_singleton.1 new
          exact Nat.lt_succ_self _
      · exact Nat.lt_succ_of_lt (numbered.below d member)
    · show k ≤ (unreliablePacketSend s.sender data env).2.1.unreliable.nextSendPacket.toNat
      rw [advanced, added]
      omega
    · -- the new number is not below the one the receiver waits for
      have unseen : ∀ more : List (UInt32 × List UInt8), more = [] ∨
          more = [(s.sender.unreliable.nextSendPacket, data)] →
          (s.sent ++ more).filter (fun d => decide (d.1.toNat < k)) =
            s.sent.filter fun d => decide (d.1.toNat < k) := by
        rintro more (rfl | rfl)
        · rw [List.append_nil]
        · rw [List.filter_append, List.filter_cons_of_neg (by simpa using le), List.filter_nil,
            List.append_nil]
      dsimp only
      split
      · rw [unseen _ (.inr rfl)]
        exact ⟨seenNumbers, payloads⟩
      · exact ⟨seenNumbers, payloads⟩

theorem deliveredUnreliably_append (calls more : List Call) :
    deliveredUnreliably slot (calls ++ more) =
      deliveredUnreliably slot calls ++ deliveredUnreliably slot more :=
  List.filterMap_append

theorem numbered_arrive {s t : DatagramState} (numbered : Numbered slot s) {conn : Hquic}
    {buf : List UInt8} (few : s.sends < 2 ^ 32)
    (taken : datagramStep slot s (.arrive conn buf) = some t) : Numbered slot t := by
  simp only [datagramStep, Option.ite_none_right_eq_some, Option.some.injEq] at taken
  obtain ⟨member, rfl⟩ := taken
  obtain ⟨header, isSent⟩ := numbered.carried.read member
  obtain ⟨k, le, next, seenNumbers, payloads⟩ := numbered.seen
  refine ⟨numbered.counted, numbered.sorted, numbered.below, numbered.carried, ?_⟩
  dsimp only
  rw [deliveredUnreliably_append]
  by_cases isOpen : s.Open
  · obtain ⟨sameContext, ⟨isNext, advanced, delivers⟩ | ⟨-, same, nothing⟩⟩ :=
      datagramReceived_open slot isOpen header
    · -- the number the receiver waits for is that of a datagram sent, so it does not wrap
      have here : (packetNumber buf).toNat = k := by rw [← isNext, next isOpen]
      have small := numbered.below _ isSent
      have counted := numbered.counted
      have grown := filter_lt_succ (f := fun d : UInt32 × List UInt8 => d.1.toNat) numbered.sorted
        isSent
      rw [here] at grown small
      refine ⟨k + 1, small, ?_, ?_, ?_⟩
      · intro _
        rw [advanced, UInt32.toNat_add, next isOpen]
        exact Nat.mod_eq_of_lt (by simp; omega)
      · rw [grown, List.map_append, seenNumbers, delivers]
        rfl
      · rw [grown, List.map_append, payloads, delivers]
        rfl
    · refine ⟨k, le, ?_, ?_, ?_⟩
      · intro _
        rw [same]
        exact next isOpen
      · rw [nothing, List.map_nil, List.append_nil, seenNumbers]
      · rw [nothing, List.append_nil, payloads]
  · have expired : lockChannelContext s.alive s.receiver.channelContext = none := by
      simpa [DatagramState.Open] using isOpen
    obtain ⟨released, nothing⟩ := datagramReceived_expired slot buf expired
    refine ⟨k, le, ?_, ?_, ?_⟩
    · intro isOpen'
      simp [DatagramState.Open, released, lockChannelContext] at isOpen'
    · rw [nothing, List.map_nil, List.append_nil, seenNumbers]
    · rw [nothing, List.append_nil, payloads]

theorem numbered_start (sender receiver : ConnectionContext) (alive : ObjectId → Bool) :
    Numbered slot (datagramStart sender receiver alive) where
  counted := Nat.le_refl 0
  sorted := List.Pairwise.nil
  below _ member := absurd member List.not_mem_nil
  carried _ _ member := absurd member List.not_mem_nil
  seen := ⟨0, Nat.le_refl 0, fun _ => rfl, rfl, rfl⟩

/-- An object that is alive after one was let go was alive before. -/
theorem open_of_release {s : DatagramState} {object : ObjectId}
    (isOpen : DatagramState.Open { s with alive := Function.update s.alive object false }) :
    s.Open := by
  unfold DatagramState.Open lockChannelContext at isOpen ⊢
  dsimp only at isOpen
  cases held : s.receiver.channelContext with
  | none => simp [held] at isOpen
  | some o =>
      by_cases same : o = object
      · simp [held, same] at isOpen
      · simpa [held, Function.update_of_ne same] using isOpen

/-- **At most once and in order**, in every state reached with fewer than `2 ^ 32` sends. -/
theorem unreliable_in_order (slot : Slot) (sender receiver : ConnectionContext)
    (alive : ObjectId → Bool) (labels : List DatagramLabel) :
    Always (datagramStep slot) (fun s => s.sends < 2 ^ 32 → InOrder slot s)
      (datagramStart sender receiver alive) labels := by
  have always : Always (datagramStep slot) (fun s => s.sends < 2 ^ 32 → Numbered slot s)
      (datagramStart sender receiver alive) labels := by
    refine always_of_keeps ?_ labels fun _ => numbered_start sender receiver alive
    intro s label t numbered taken few
    cases label with
    | setSelf conn =>
        obtain rfl := Option.some.inj taken
        exact ⟨(numbered few).counted, (numbered few).sorted, (numbered few).below,
          (numbered few).carried, (numbered few).seen⟩
    | setPeer conn =>
        obtain rfl := Option.some.inj taken
        exact ⟨(numbered few).counted, (numbered few).sorted, (numbered few).below,
          (numbered few).carried, (numbered few).seen⟩
    | stateChanged maxSendLength =>
        obtain rfl := Option.some.inj taken
        exact ⟨(numbered few).counted, (numbered few).sorted, (numbered few).below,
          (numbered few).carried, (numbered few).seen⟩
    | send data env =>
        have before : s.sends < 2 ^ 32 := by
          obtain rfl := Option.some.inj taken
          exact Nat.lt_of_succ_lt few
        exact numbered_send (numbered before) few taken
    | arrive conn buf =>
        have before : s.sends < 2 ^ 32 := by
          simp only [datagramStep, Option.ite_none_right_eq_some, Option.some.injEq] at taken
          obtain ⟨-, rfl⟩ := taken
          exact few
        exact numbered_arrive (numbered before) before taken
    | release object =>
        obtain rfl := Option.some.inj taken
        obtain ⟨k, le, next, seen⟩ := (numbered few).seen
        exact ⟨(numbered few).counted, (numbered few).sorted, (numbered few).below,
          (numbered few).carried, k, le, fun isOpen => next (open_of_release isOpen), seen⟩
  exact always.mono fun s numbered few => (numbered few).inOrder

/-! ## After a loss -/

/-- What every run keeps: the numbers delivered are the first ones, and an open session waits for the
next. -/
structure Contiguous (s : DatagramState) : Prop where
  carried : Carried s
  waits : s.Open → s.receiver.unreliable.nextRecvPacket = UInt32.ofNat s.numbers.length
  first : s.numbers = (List.range s.numbers.length).map UInt32.ofNat

theorem contiguous_arrive {s t : DatagramState} (contiguous : Contiguous s) {conn : Hquic}
    {buf : List UInt8} (taken : datagramStep slot s (.arrive conn buf) = some t) : Contiguous t := by
  simp only [datagramStep, Option.ite_none_right_eq_some, Option.some.injEq] at taken
  obtain ⟨member, rfl⟩ := taken
  obtain ⟨header, -⟩ := contiguous.carried.read member
  by_cases isOpen : s.Open
  · obtain ⟨sameContext, ⟨isNext, advanced, delivers⟩ | ⟨-, same, nothing⟩⟩ :=
      datagramReceived_open slot isOpen header
    · refine ⟨contiguous.carried, ?_, ?_⟩
      · intro _
        dsimp only
        rw [advanced, contiguous.waits isOpen, delivers, List.length_append]
        exact (UInt32.ofNat_add _ 1).symm
      · dsimp only
        rw [delivers, List.length_append, List.map_singleton, List.length_singleton,
          List.range_succ, List.map_append, ← contiguous.first, ← isNext, contiguous.waits isOpen]
        rfl
    · refine ⟨contiguous.carried, ?_, ?_⟩
      · intro _
        dsimp only
        rw [same, nothing, List.map_nil, List.append_nil]
        exact contiguous.waits isOpen
      · dsimp only
        rw [nothing, List.map_nil, List.append_nil]
        exact contiguous.first
  · have expired : lockChannelContext s.alive s.receiver.channelContext = none := by
      simpa [DatagramState.Open] using isOpen
    obtain ⟨released, nothing⟩ := datagramReceived_expired slot buf expired
    refine ⟨contiguous.carried, ?_, ?_⟩
    · intro isOpen'
      simp [DatagramState.Open, released, lockChannelContext] at isOpen'
    · dsimp only
      rw [nothing, List.map_nil, List.append_nil]
      exact contiguous.first

theorem contiguous_run (slot : Slot) (sender receiver : ConnectionContext)
    (alive : ObjectId → Bool) (labels : List DatagramLabel) :
    Always (datagramStep slot) Contiguous (datagramStart sender receiver alive) labels := by
  refine always_of_keeps ?_ labels ⟨fun _ _ member => absurd member List.not_mem_nil, fun _ => rfl, rfl⟩
  intro s label t contiguous taken
  cases label with
  | arrive conn buf => exact contiguous_arrive contiguous taken
  | send data env =>
      have carried := carried_send contiguous.carried taken
      obtain rfl := Option.some.inj taken
      exact ⟨carried, contiguous.waits, contiguous.first⟩
  | release object =>
      obtain rfl := Option.some.inj taken
      exact ⟨contiguous.carried, fun isOpen => contiguous.waits (open_of_release isOpen),
        contiguous.first⟩
  | _ =>
      obtain rfl := Option.some.inj taken
      exact ⟨contiguous.carried, contiguous.waits, contiguous.first⟩

/-- **The step rule.**  A newer datagram is delivered exactly if no datagram before it is missing. -/
theorem unsilenced_iff_noGap {s : DatagramState} (contiguous : Contiguous s) (label : DatagramLabel) :
    Unsilenced slot s label ↔ NoGap s label := by
  cases label with
  | arrive conn buf =>
      refine forall₂_congr fun member isOpen => ?_
      obtain ⟨header, -⟩ := contiguous.carried.read member
      have small := (packetNumber buf).toNat_lt
      have waits := contiguous.waits isOpen
      have newer_iff : (∀ n ∈ s.numbers, n < packetNumber buf) ↔
          ∀ i < s.numbers.length, i % 2 ^ 32 < (packetNumber buf).toNat := by
        conv_lhs => rw [contiguous.first]
        simp [UInt32.lt_iff_toNat_lt]
      have delivered_iff : buf.drop 4 ∈
            deliveredUnreliably slot (datagramReceived slot s.receiver buf s.alive).calls ↔
          s.numbers.length % 2 ^ 32 = (packetNumber buf).toNat := by
        have same_iff : s.receiver.unreliable.nextRecvPacket = packetNumber buf ↔
            s.numbers.length % 2 ^ 32 = (packetNumber buf).toNat := by
          rw [waits, ← UInt32.toNat_inj, UInt32.toNat_ofNat']
        obtain ⟨-, ⟨isNext, -, delivers⟩ | ⟨other, -, nothing⟩⟩ :=
          datagramReceived_open slot isOpen header
        · rw [delivers, ← same_iff]
          simp [isNext]
        · rw [nothing, ← same_iff]
          simp [other]
      rw [newer_iff, delivered_iff]
      constructor
      · intro delivered
        by_contra gap
        have exact_ := delivered fun i inside => by
          rw [Nat.mod_eq_of_lt (by omega)]
          omega
        rw [Nat.mod_eq_of_lt (by omega)] at exact_
        omega
      · intro le newer
        -- past `2 ^ 32` deliveries every number has been delivered
        by_cases wrapped : s.numbers.length < 2 ^ 32
        · rw [Nat.mod_eq_of_lt wrapped]
          by_contra differ
          have := newer (packetNumber buf).toNat (by omega)
          rw [Nat.mod_eq_of_lt small] at this
          exact Nat.lt_irrefl _ this
        · have := newer (2 ^ 32 - 1) (by omega)
          omega
  | _ => exact Iff.rfl

/-- **The unreliable channel after losses, exactly.**  In a run every datagram that arrives in the open
session and is newer than all those delivered is delivered, if and only if none arrives while one
before it is missing. -/
theorem unreliable_unsilenced (slot : Slot) (sender receiver : ConnectionContext)
    (alive : ObjectId → Bool) (labels : List DatagramLabel) :
    EveryStep (datagramStep slot) (Unsilenced slot) (datagramStart sender receiver alive) labels ↔
      EveryStep (datagramStep slot) NoGap (datagramStart sender receiver alive) labels := by
  have always := contiguous_run slot sender receiver alive labels
  constructor
  · exact everyStep_of_always_of_everyStep
      (fun _ label contiguous => (unsilenced_iff_noGap contiguous label).1) always
  · exact everyStep_of_always_of_everyStep
      (fun _ label contiguous => (unsilenced_iff_noGap contiguous label).2) always

end Machine

/-- Datagram 0 is lost on both connections; datagram 1 arrives and is dropped, though nothing was
delivered before it. -/
theorem lostDatagram_silences :
    ¬ EveryStep (datagramStep 0) (Unsilenced 0)
      (datagramStart { unreliable := { self := some 1, maxSendLength := 100 } }
        { channelContext := some 7 } fun _ => true)
      [.send [1] ⟨true, true, true⟩, .send [2] ⟨true, true, true⟩, .arrive 1 [0, 0, 0, 1, 2]] := by
  intro every
  have dropped := ((every.2 _ rfl).2 _ rfl).1 (by decide) rfl fun _ member =>
    absurd member List.not_mem_nil
  exact absurd dropped (by decide)

end Koisyn.Session
