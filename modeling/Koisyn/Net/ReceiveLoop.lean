/-
# Koisyn.Net.ReceiveLoop — the receive thread of a `UdpHandler`

`RegisterRecvFromCallback` starts a thread that calls `recvfrom` in a loop and hands what was read to a
consumer.  `recvfrom` tells of a datagram that is too long for the buffer in two ways: Windows fails with
`WSAEMSGSIZE` as the thread's last error, the other platforms truncate.  `GetTruncatedLength` levels
the two, by the last error alone.

The last error outlives the call: a successful `recvfrom` leaves it, and the consumer runs on the same
thread.  `receiveLoop_eq_iff`: the loop delivers every datagram with its own length exactly if, on
Windows, none shorter than the buffer arrives while the last error is an old `WSAEMSGSIZE`.
-/
import Koisyn.Session.World

namespace Koisyn.Net

open Koisyn.Channel Koisyn.Session

set_option autoImplicit false

/-! ## The loop -/

inductive Platform where
  | windows
  | other
  deriving DecidableEq, Repr

def wsaEMsgSize : Int := 10040

/-- `BufferLen`, an `int` and the size of an array. -/
structure BufferLen where
  val : Nat
  pos : 0 < val
  isInt : val < 2 ^ 31

/-- A datagram, and what the call of the consumer for it makes of the thread's last error. -/
structure Arrival where
  data : List UInt8
  remote : QuicAddr
  consume : Int → Int := id

/-- What a call of `recvfrom` meets: a datagram, or an error of its own, such as a closed socket. -/
inductive Event where
  | datagram (a : Arrival)
  | failure (error : Int) (isOther : error ≠ wsaEMsgSize)

/-- The variables of the loop, and the last error of its thread. -/
structure RecvThread (N : BufferLen) where
  buf : List UInt8
  size : buf.length = N.val
  remote : QuicAddr
  lastError : Int

variable {N : BufferLen}

/-- A new thread, before its first `recvfrom`. -/
def RecvThread.start (N : BufferLen) : RecvThread N where
  buf := List.replicate N.val 0
  size := List.length_replicate
  remote := {}
  lastError := 0

/-- The buffer is filled from its beginning; what does not fit is discarded. -/
def fill (buf data : List UInt8) : List UInt8 := data.take buf.length ++ buf.drop data.length

theorem fill_length (buf data : List UInt8) : (fill buf data).length = buf.length := by
  rw [fill, List.length_append, List.length_take, List.length_drop]
  omega

/-- `recvfrom`: the length or an error code, and what it writes. -/
def recvfrom (platform : Platform) (s : RecvThread N) : Event → Int × RecvThread N
  | .datagram a =>
      let written : RecvThread N :=
        { s with buf := fill s.buf a.data, size := by rw [fill_length, s.size], remote := a.remote }
      match platform with
      | .windows =>
          if N.val < a.data.length then (-1, { written with lastError := wsaEMsgSize })
          else (a.data.length, written)
      | .other => ((min a.data.length N.val : Nat), written)
  | .failure error _ => (-1, { s with lastError := error })

/-- `GetTruncatedLength`, of the platform's own header. -/
def getTruncatedLength (platform : Platform) (lastError lenOrErrc : Int) (bufferSize : Nat) : Int :=
  match platform with
  | .windows => if lastError = wsaEMsgSize then bufferSize else lenOrErrc
  | .other => lenOrErrc

/-- `UdpSocket::RecvFrom`. -/
def recvFrom (platform : Platform) (s : RecvThread N) (event : Event) : Int × RecvThread N :=
  let (lenOrErrc, s) := recvfrom platform s event
  (getTruncatedLength platform s.lastError lenOrErrc N.val, s)

/-- What the consumer makes of the last error. -/
def Event.consume : Event → Int → Int
  | .datagram a => a.consume
  | .failure _ _ => id

/-- The bytes and the sender that a call of the consumer gets. -/
abbrev Delivery := List UInt8 × QuicAddr

/-- The loop of `RegisterRecvFromCallback`: the calls of the consumer while the events last. -/
def receiveLoop (platform : Platform) (s : RecvThread N) : List Event → List Delivery
  | [] => []
  | event :: events =>
      let (ret, s) := recvFrom platform s event
      if ret < 0 then []
      else if ret = 0 then receiveLoop platform s events
      else (s.buf.take ret.toNat, s.remote) ::
        receiveLoop platform { s with lastError := event.consume s.lastError } events

/-! ## What it should deliver -/

/-- The datagrams that arrive before the socket fails. -/
def arrivals : List Event → List Arrival
  | .datagram a :: events => a :: arrivals events
  | _ => []

/-- The datagrams that are not empty, each cut to the buffer. -/
def ownLengths (N : BufferLen) (l : List Arrival) : List Delivery :=
  (l.filter fun a => a.data ≠ []).map fun a => (a.data.take N.val, a.remote)

/-- The last error after a datagram, from the one before. -/
def Arrival.leaves (N : BufferLen) (lastError : Int) (a : Arrival) : Int :=
  if a.data = [] then lastError
  else a.consume (if N.val < a.data.length then wsaEMsgSize else lastError)

/-- A datagram shorter than the buffer comes while the last error is `WSAEMSGSIZE`: it is not its own. -/
def MeetsOldError (N : BufferLen) (lastError : Int) (l : List Arrival) : Prop :=
  ∃ before a after, l = before ++ a :: after ∧ a.data.length < N.val ∧
    before.foldl (Arrival.leaves N) lastError = wsaEMsgSize

theorem not_meetsOldError_nil (lastError : Int) : ¬ MeetsOldError N lastError [] := by
  rintro ⟨before, a, after, split, _⟩
  exact List.append_ne_nil_of_right_ne_nil before (List.cons_ne_nil a after) split.symm

theorem meetsOldError_cons (lastError : Int) (a : Arrival) (l : List Arrival) :
    MeetsOldError N lastError (a :: l) ↔
      (a.data.length < N.val ∧ lastError = wsaEMsgSize) ∨ MeetsOldError N (a.leaves N lastError) l := by
  constructor
  · rintro ⟨before, b, after, split, short, old⟩
    cases before with
    | nil =>
        obtain ⟨rfl, rfl⟩ := List.cons.inj split
        exact .inl ⟨short, old⟩
    | cons c before =>
        obtain ⟨rfl, rfl⟩ := List.cons.inj split
        exact .inr ⟨before, b, after, rfl, short, old⟩
  · rintro (⟨short, old⟩ | ⟨before, b, after, rfl, short, old⟩)
    · exact ⟨[], a, l, rfl, short, old⟩
    · exact ⟨a :: before, b, after, rfl, short, old⟩

theorem ownLengths_cons (a : Arrival) (l : List Arrival) :
    ownLengths N (a :: l) =
      if a.data = [] then ownLengths N l
      else (a.data.take N.val, a.remote) :: ownLengths N l := by
  by_cases empty : a.data = []
  · rw [if_pos empty, ownLengths, List.filter_cons_of_neg (by simpa using empty)]
    rfl
  · rw [if_neg empty, ownLengths, List.filter_cons_of_pos (by simpa using empty)]
    rfl

/-! ## One datagram -/

/-- As many bytes of the buffer as were written are the datagram, cut to the buffer. -/
theorem take_fill (buf data : List UInt8) :
    (fill buf data).take (min data.length buf.length) = data.take buf.length := by
  by_cases fits : data.length ≤ buf.length
  · rw [Nat.min_eq_left fits, fill, List.take_of_length_le fits, List.take_left]
  · rw [Nat.min_eq_right (by omega), fill, List.take_append_of_le_length (by simp; omega),
      List.take_take, min_self]

/-- The datagram that arrives is delivered with its own length. -/
def Own (platform : Platform) (s : RecvThread N) (a : Arrival) : Prop :=
  platform = .other ∨ ¬ (a.data.length < N.val ∧ s.lastError = wsaEMsgSize)

/-- What `RecvFrom` writes. -/
theorem recvFrom_written (platform : Platform) (s : RecvThread N) (a : Arrival) :
    (recvFrom platform s (.datagram a)).2.buf = fill s.buf a.data ∧
      (recvFrom platform s (.datagram a)).2.remote = a.remote := by
  cases platform with
  | windows => by_cases long : N.val < a.data.length <;> simp [recvFrom, recvfrom, long]
  | other => exact ⟨rfl, rfl⟩

/-- On Windows the last error is that of a datagram too long, or stays. -/
theorem recvFrom_lastError (s : RecvThread N) (a : Arrival) :
    (recvFrom .windows s (.datagram a)).2.lastError =
      if N.val < a.data.length then wsaEMsgSize else s.lastError := by
  by_cases long : N.val < a.data.length <;> simp [recvFrom, recvfrom, long]

theorem recvFrom_own {platform : Platform} {s : RecvThread N} {a : Arrival}
    (own : Own platform s a) :
    (recvFrom platform s (.datagram a)).1 = (min a.data.length N.val : Nat) := by
  cases platform with
  | other => rfl
  | windows =>
      have fresh : ¬ (a.data.length < N.val ∧ s.lastError = wsaEMsgSize) := by
        simpa [Own] using own
      by_cases long : N.val < a.data.length
      · simp only [recvFrom, recvfrom, if_pos long, getTruncatedLength, if_true]
        omega
      · by_cases old : s.lastError = wsaEMsgSize
        · have whole : a.data.length = N.val := by omega
          simp [recvFrom, recvfrom, getTruncatedLength, old, whole]
        · simp only [recvFrom, recvfrom, if_neg long, getTruncatedLength, if_neg old]
          omega

/-- On Windows an old error makes every datagram as long as the buffer. -/
theorem recvFrom_old {s : RecvThread N} {a : Arrival} (short : a.data.length < N.val)
    (old : s.lastError = wsaEMsgSize) : (recvFrom .windows s (.datagram a)).1 = N.val := by
  simp [recvFrom, recvfrom, getTruncatedLength, old, Nat.not_lt_of_lt short]

/-- A failure ends the loop. -/
theorem receiveLoop_failure (platform : Platform) (s : RecvThread N) {error : Int}
    (isOther : error ≠ wsaEMsgSize) (events : List Event) :
    receiveLoop platform s (.failure error isOther :: events) = [] := by
  cases platform <;> simp [receiveLoop, recvFrom, recvfrom, getTruncatedLength, isOther]

/-- A datagram of which nothing is read is passed over. -/
theorem receiveLoop_zero {platform : Platform} {s : RecvThread N} {event : Event}
    (events : List Event) (nothing : (recvFrom platform s event).1 = 0) :
    receiveLoop platform s (event :: events) =
      receiveLoop platform (recvFrom platform s event).2 events := by
  simp [receiveLoop, nothing]

/-- A datagram of which something is read is delivered. -/
theorem receiveLoop_pos {platform : Platform} {s : RecvThread N} {event : Event}
    (events : List Event) {n : Nat} (some_ : 0 < n) (read : (recvFrom platform s event).1 = n) :
    receiveLoop platform s (event :: events) =
      ((recvFrom platform s event).2.buf.take n, (recvFrom platform s event).2.remote) ::
        receiveLoop platform { (recvFrom platform s event).2 with
          lastError := event.consume (recvFrom platform s event).2.lastError } events := by
  have notNegative : ¬ (n : Int) < 0 := by omega
  have notZero : ¬ (n : Int) = 0 := by omega
  rw [receiveLoop]
  simp only [read, if_neg notNegative, if_neg notZero, Int.toNat_natCast]

/-- A datagram that is its own is delivered as it should be, and leaves the last error that it should. -/
theorem receiveLoop_own {platform : Platform} {s : RecvThread N} {a : Arrival}
    (events : List Event) (own : Own platform s a) :
    ∃ s' : RecvThread N, (platform = .windows → s'.lastError = a.leaves N s.lastError) ∧
      receiveLoop platform s (.datagram a :: events) =
        if a.data = [] then receiveLoop platform s' events
        else (a.data.take N.val, a.remote) :: receiveLoop platform s' events := by
  have read := recvFrom_own own
  obtain ⟨written, from_⟩ := recvFrom_written platform s a
  by_cases empty : a.data = []
  · refine ⟨_, ?_, (receiveLoop_zero events (by simp [read, empty])).trans (if_pos empty).symm⟩
    rintro rfl
    rw [recvFrom_lastError, Arrival.leaves, if_pos empty, if_neg (by simp [empty])]
  · have some_ : 0 < min a.data.length N.val := by
      have := List.length_pos_of_ne_nil empty
      have := N.pos
      omega
    have taken : (recvFrom platform s (.datagram a)).2.buf.take (min a.data.length N.val) =
        a.data.take N.val := by
      rw [written, ← s.size, take_fill]
    have loop := receiveLoop_pos events some_ read
    rw [taken, from_] at loop
    refine ⟨_, ?_, loop.trans (if_neg empty).symm⟩
    rintro rfl
    rw [Arrival.leaves, if_neg empty, ← recvFrom_lastError]
    rfl

/-- On Windows a datagram that meets an old error is delivered with as many bytes as the buffer has. -/
theorem receiveLoop_old {s : RecvThread N} {a : Arrival} (events : List Event)
    (short : a.data.length < N.val) (old : s.lastError = wsaEMsgSize) :
    ∃ (s' : RecvThread N) (bytes : List UInt8), bytes.length = N.val ∧
      receiveLoop .windows s (.datagram a :: events) =
        (bytes, a.remote) :: receiveLoop .windows s' events := by
  obtain ⟨written, from_⟩ := recvFrom_written .windows s a
  refine ⟨_, _, ?_, (receiveLoop_pos events N.pos (recvFrom_old short old)).trans
    (by rw [from_])⟩
  rw [written, List.length_take, fill_length, s.size, min_self]

theorem not_own_iff {platform : Platform} {s : RecvThread N} {a : Arrival} :
    ¬ Own platform s a ↔
      platform = .windows ∧ a.data.length < N.val ∧ s.lastError = wsaEMsgSize := by
  cases platform <;> simp [Own]

/-! ## A run of the loop -/

/-- Nothing is left out. -/
theorem ownLengths_length_le (platform : Platform) (events : List Event) (s : RecvThread N) :
    (ownLengths N (arrivals events)).length ≤ (receiveLoop platform s events).length := by
  induction events generalizing s with
  | nil => exact Nat.le_refl 0
  | cons event events ih =>
      cases event with
      | failure error isOther => exact Nat.zero_le _
      | datagram a =>
          rw [arrivals, ownLengths_cons]
          by_cases own : Own platform s a
          · obtain ⟨s', _, loop⟩ := receiveLoop_own events own
            rw [loop]
            split
            · exact ih s'
            · exact Nat.succ_le_succ (ih s')
          · obtain ⟨rfl, short, old⟩ := not_own_iff.1 own
            obtain ⟨s', bytes, _, loop⟩ := receiveLoop_old events short old
            rw [loop]
            split
            · exact Nat.le_succ_of_le (ih s')
            · exact Nat.succ_le_succ (ih s')

/-- From wherever the loop is: it delivers every datagram with its own length exactly if none meets an
old error.  By induction on the events; a datagram that does is longer than it should be, or one too
many. -/
theorem receiveLoop_eq_iff_from (platform : Platform) (events : List Event) (s : RecvThread N) :
    receiveLoop platform s events = ownLengths N (arrivals events) ↔
      platform = .other ∨ ¬ MeetsOldError N s.lastError (arrivals events) := by
  induction events generalizing s with
  | nil => exact iff_of_true rfl (.inr (not_meetsOldError_nil _))
  | cons event events ih =>
      cases event with
      | failure error isOther =>
          exact iff_of_true (receiveLoop_failure platform s isOther events)
            (.inr (not_meetsOldError_nil _))
      | datagram a =>
          rw [arrivals, ownLengths_cons, meetsOldError_cons]
          by_cases own : Own platform s a
          · obtain ⟨s', keeps, loop⟩ := receiveLoop_own events own
            have rest : (platform = .other ∨
                  ¬ ((a.data.length < N.val ∧ s.lastError = wsaEMsgSize) ∨
                    MeetsOldError N (a.leaves N s.lastError) (arrivals events))) ↔
                platform = .other ∨ ¬ MeetsOldError N s'.lastError (arrivals events) := by
              cases platform with
              | other => simp
              | windows =>
                  rw [keeps rfl, or_iff_right (own.resolve_left (by decide))]
            rw [rest, ← ih s', loop]
            split
            · rfl
            · exact List.cons_inj_right _
          · obtain ⟨rfl, short, old⟩ := not_own_iff.1 own
            obtain ⟨s', bytes, size, loop⟩ := receiveLoop_old events short old
            have delivered := ownLengths_length_le .windows events s'
            refine iff_of_false ?_ (by simp [short, old])
            rw [loop]
            split
            · intro same
              have longer := congrArg List.length same
              rw [List.length_cons] at longer
              omega
            · intro same
              have longer := congrArg List.length (Prod.mk.inj (List.cons.inj same).1).1
              rw [size, List.length_take] at longer
              omega

/-- **When the receive loop delivers every datagram with its own length**, for every sequence of
datagrams and everything its consumer does to the last error: off Windows, and where no datagram shorter
than the buffer meets an old `WSAEMSGSIZE`. -/
theorem receiveLoop_eq_iff (platform : Platform) (N : BufferLen) (events : List Event) :
    receiveLoop platform (RecvThread.start N) events = ownLengths N (arrivals events) ↔
      platform = .other ∨ ¬ MeetsOldError N 0 (arrivals events) :=
  receiveLoop_eq_iff_from platform events (RecvThread.start N)

/-! ## The sentinel -/

/-- The buffer of the sentinel's loop. -/
def sentinelBuffer : BufferLen := ⟨16, by decide, by decide⟩

/-- A handshake packet after a datagram that is one byte too long. -/
def oversizedThenHandshake : List Event :=
  [.datagram { data := List.replicate 17 7, remote := {} },
    .datagram { data := [1, 2, 0, 0, 0, 0, 0, 0], remote := {} }]

/-- **A handshake packet of 8 bytes is delivered on Windows as 16**, the last 8 of them left by the
datagram before. -/
theorem handshake_delivered_as_sixteen :
    receiveLoop .windows (RecvThread.start sentinelBuffer) oversizedThenHandshake =
        [(List.replicate 16 7, {}), ([1, 2, 0, 0, 0, 0, 0, 0, 7, 7, 7, 7, 7, 7, 7, 7], {})] ∧
      ownLengths sentinelBuffer (arrivals oversizedThenHandshake) =
        [(List.replicate 16 7, {}), ([1, 2, 0, 0, 0, 0, 0, 0], {})] := by
  decide

/-- Once the last error is `WSAEMSGSIZE`, and while the consumer leaves it, every delivery on Windows is
as long as the buffer. -/
theorem receiveLoop_length_of_old (events : List Event) {s : RecvThread N}
    (old : s.lastError = wsaEMsgSize)
    (keeps : ∀ a ∈ arrivals events, a.consume wsaEMsgSize = wsaEMsgSize) :
    ∀ d ∈ receiveLoop .windows s events, d.1.length = N.val := by
  induction events generalizing s with
  | nil => exact fun d inside => absurd inside List.not_mem_nil
  | cons event events ih =>
      cases event with
      | failure error isOther =>
          rw [receiveLoop_failure]
          exact fun d inside => absurd inside List.not_mem_nil
      | datagram a =>
          have read : (recvFrom .windows s (.datagram a)).1 = N.val := by
            by_cases long : N.val < a.data.length
            · simp [recvFrom, recvfrom, getTruncatedLength, long]
            · simp [recvFrom, recvfrom, getTruncatedLength, long, old]
          have after : (recvFrom .windows s (.datagram a)).2.lastError = wsaEMsgSize := by
            rw [recvFrom_lastError, old, ite_self]
          rw [receiveLoop_pos events N.pos read]
          intro d inside
          rcases List.mem_cons.1 inside with rfl | inside
          · rw [List.length_take, (recvFrom .windows s (.datagram a)).2.size, min_self]
          · refine ih ?_ (fun b member => keeps b (List.mem_cons_of_mem a member)) d inside
            show a.consume _ = _
            rw [after]
            exact keeps a List.mem_cons_self

/-- **Then the sentinel is deaf**: `ConsumeRawUdpData` drops whatever it is given. -/
theorem sentinel_deaf_of_old (events : List Event) {s : RecvThread sentinelBuffer}
    (old : s.lastError = wsaEMsgSize)
    (keeps : ∀ a ∈ arrivals events, a.consume wsaEMsgSize = wsaEMsgSize)
    (L : Listener) (contexts : Slot → ConnectionContext) (busy : Slot → Bool) (remote : Endpoint)
    (sock : Option UInt16) (now : Nat) (env : StartEnv) :
    ∀ d ∈ receiveLoop .windows s events,
      consumeRawUdpData L contexts busy d.1 remote sock now env = none := by
  intro d inside
  have size : d.1.length = 16 := receiveLoop_length_of_old events old keeps d inside
  rw [consumeRawUdpData, if_pos (by omega)]

end Koisyn.Net
