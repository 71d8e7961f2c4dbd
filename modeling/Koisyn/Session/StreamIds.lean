/-
# Koisyn.Session.StreamIds — the array index that a peer's stream ids give

The handlers of `PEER_STREAM_STARTED` and `RECEIVE` shift a stream's id right by two and use the
result as an index of `Reliable` and `OnReliableReceive`, which have four places.  `MakeServerSettings`
sets `PeerBidiStreamCount` to four, but that is the number of streams open at a time: MsQuic grants
another id for every stream it releases, and ids are never used twice.

`PeerStreams` is one connection with MsQuic's account of the peer's streams, and whatever else happens
to the context in between.  `simultaneous_le` is what the account guarantees; `indices_inRange_iff` says
that the indices of a history stay in range exactly if the peer opens four streams at most over the
whole life of the connection.
-/
import Koisyn.Session.Events
import Koisyn.Theory.Run

namespace Koisyn.Session

open Koisyn.Channel
open Koisyn.Theory.Run

set_option autoImplicit false

/-- `PeerBidiStreamCount` of `MakeServerSettings`. -/
def peerBidiStreamCount : Nat := 4

/-- `QUIC_STREAM_TYPE_INFO`, for the streams that the client end may open. -/
structure QuicStreamTypeInfo where
  maxTotalStreamCount : Nat := peerBidiStreamCount
  totalStreamCount : Nat := 0
  maxCurrentStreamCount : Nat := peerBidiStreamCount
  currentStreamCount : Nat := 0
  deriving DecidableEq, Repr

/-- The id of the `n`-th bidirectional stream that the client end opens: the two least significant
bits are zero. -/
def clientBidiStreamId (n : Nat) : Nat := 4 * n

/-- `streamIndex >> 2`. -/
def startedIndex (streamIndex : Nat) : Nat := streamIndex >>> 2

/-- `(int)(id >> 2)`; a negative one is a large natural here. -/
def receiveIndex (id : Nat) : Nat := (id >>> 2) % 2 ^ 32

theorem startedIndex_clientBidiStreamId (n : Nat) : startedIndex (clientBidiStreamId n) = n := by
  rw [startedIndex, clientBidiStreamId, Nat.shiftRight_eq_div_pow]
  omega

/-- The handler of `PEER_STREAM_STARTED` leaves the array exactly when the index does. -/
theorem peerStreamStarted_overruns_iff (slot : Slot) (ctx : ConnectionContext) (strm : Hquic)
    (id : Nat) :
    (peerStreamStarted slot ctx strm id).exit = .overruns ↔ ¬ startedIndex id < 4 := by
  unfold peerStreamStarted startedIndex
  split
  · rename_i inRange
    exact ⟨nofun, fun out => absurd inRange out⟩
  · rename_i out
    exact ⟨fun _ => out, fun _ => rfl⟩

/-! ## One connection -/

/-- The connection a peer opens streams on: MsQuic's account of them, the ids of those that are
open, and the context its handlers work on. -/
structure PeerStreams where
  info : QuicStreamTypeInfo := {}
  opened : List Nat := []
  ctx : ConnectionContext := {}

inductive PeerStreamsLabel where
  /-- the peer opens a stream, and MsQuic raises `PEER_STREAM_STARTED` -/
  | opens (strm : Hquic)
  | receive (id : Nat) (ev : ReceiveEvent) (alive : ObjectId → Bool)
  /-- MsQuic releases a stream that both ends have shut down -/
  | released (id : Nat)
  /-- anything else that changes the context -/
  | elsewhere (ctx : ConnectionContext)

namespace PeerStreams

def step (slot : Slot) (s : PeerStreams) : PeerStreamsLabel → Option PeerStreams
  | .opens strm =>
      if s.info.totalStreamCount < s.info.maxTotalStreamCount then
        let id := clientBidiStreamId s.info.totalStreamCount
        some
          { info :=
              { s.info with
                totalStreamCount := s.info.totalStreamCount + 1
                currentStreamCount := s.info.currentStreamCount + 1 }
            opened := s.opened ++ [id]
            ctx := (peerStreamStarted slot s.ctx strm id).ctx }
      else none
  | .receive id ev alive =>
      if id ∈ s.opened then some { s with ctx := (handleReceive slot alive id ev s.ctx).ctx }
      else none
  | .released id =>
      if id ∈ s.opened then
        -- the peer may open one more
        some { s with
          info :=
            { s.info with
              maxTotalStreamCount := s.info.maxTotalStreamCount + 1
              currentStreamCount := s.info.currentStreamCount - 1 }
          opened := s.opened.erase id }
      else none
  | .elsewhere ctx => some { s with ctx }

/-- What every run keeps of MsQuic's account: the peer may have so many streams open that are not,
and an open one has one of the ids given out. -/
structure Account (s : PeerStreams) : Prop where
  limit : s.info.maxCurrentStreamCount = peerBidiStreamCount
  current : s.info.currentStreamCount = s.opened.length
  credit : s.info.maxTotalStreamCount + s.opened.length =
    s.info.totalStreamCount + s.info.maxCurrentStreamCount
  granted : s.info.totalStreamCount ≤ s.info.maxTotalStreamCount
  given : ∀ id ∈ s.opened, ∃ n < s.info.totalStreamCount, id = clientBidiStreamId n

theorem account_start (ctx : ConnectionContext) : Account { ctx } where
  limit := rfl
  current := rfl
  credit := rfl
  granted := Nat.zero_le _
  given _ member := absurd member List.not_mem_nil

theorem account_step {slot : Slot} {s t : PeerStreams} {l : PeerStreamsLabel} (account : s.Account)
    (taken : s.step slot l = some t) : t.Account := by
  obtain ⟨limit, current, credit, granted, given⟩ := account
  cases l with
  | opens strm =>
      rw [step, Option.ite_none_right_eq_some] at taken
      obtain ⟨less, same⟩ := taken
      cases same
      refine ⟨limit, ?_, ?_, less, ?_⟩
      · simp [current]
      · simp only [List.length_append, List.length_singleton]
        omega
      · intro id member
        rcases List.mem_append.1 member with old | new
        · obtain ⟨n, small, rfl⟩ := given id old
          exact ⟨n, Nat.lt_succ_of_lt small, rfl⟩
        · exact ⟨s.info.totalStreamCount, Nat.lt_succ_self _, List.mem_singleton.1 new⟩
  | receive id ev alive =>
      rw [step, Option.ite_none_right_eq_some] at taken
      obtain ⟨-, same⟩ := taken
      cases same
      exact ⟨limit, current, credit, granted, given⟩
  | released id =>
      rw [step, Option.ite_none_right_eq_some] at taken
      obtain ⟨member, same⟩ := taken
      cases same
      have fewer : (s.opened.erase id).length = s.opened.length - 1 := List.length_erase_of_mem member
      have some_ : 0 < s.opened.length := List.length_pos_of_mem member
      refine ⟨limit, ?_, ?_, Nat.le_succ_of_le granted, ?_⟩
      · show s.info.currentStreamCount - 1 = (s.opened.erase id).length
        rw [current, fewer]
      · show s.info.maxTotalStreamCount + 1 + (s.opened.erase id).length =
          s.info.totalStreamCount + s.info.maxCurrentStreamCount
        omega
      · exact fun other kept => given other (List.mem_of_mem_erase kept)
  | elsewhere ctx =>
      obtain rfl := Option.some.inj taken
      exact ⟨limit, current, credit, granted, given⟩

/-- At most `PeerBidiStreamCount` streams are open at a time. -/
theorem simultaneous_le (slot : Slot) (ctx : ConnectionContext) (labels : List PeerStreamsLabel) :
    Always (step slot) (fun s => s.opened.length ≤ peerBidiStreamCount) { ctx } labels := by
  have account : Always (step slot) Account { ctx } labels :=
    always_of_keeps (fun _ _ _ kept taken => account_step kept taken) labels (account_start ctx)
  apply account.mono
  intro s kept
  have credit := kept.credit
  have granted := kept.granted
  have limit := kept.limit
  omega

/-! ## The indices of a history -/

/-- The index that a handler uses is one of the four. -/
def IndexInRange (s : PeerStreams) : PeerStreamsLabel → Prop
  | .opens _ => startedIndex (clientBidiStreamId s.info.totalStreamCount) < 4
  | .receive id _ _ => receiveIndex id < 4
  | .released _ | .elsewhere _ => True

instance (s : PeerStreams) : (l : PeerStreamsLabel) → Decidable (IndexInRange s l)
  | .opens _ => inferInstanceAs (Decidable (_ < _))
  | .receive _ _ _ => inferInstanceAs (Decidable (_ < _))
  | .released _ | .elsewhere _ => isTrue trivial

/-- How many streams a history opens. -/
def openings (labels : List PeerStreamsLabel) : Nat :=
  labels.countP fun
    | .opens _ => true
    | _ => false

/-- An open stream's index is in range as long as four have been opened at most. -/
theorem receiveIndex_lt {s : PeerStreams} (account : s.Account)
    (few : s.info.totalStreamCount ≤ 4) {id : Nat} (member : id ∈ s.opened) :
    receiveIndex id < 4 := by
  obtain ⟨n, small, rfl⟩ := account.given id member
  have index : receiveIndex (clientBidiStreamId n) = n % 2 ^ 32 :=
    congrArg (· % 2 ^ 32) (startedIndex_clientBidiStreamId n)
  rw [index]
  omega

/-- A step that opens no stream leaves the total. -/
theorem totalStreamCount_step {slot : Slot} {s t : PeerStreams} {l : PeerStreamsLabel}
    (taken : s.step slot l = some t) :
    t.info.totalStreamCount = s.info.totalStreamCount + openings [l] := by
  cases l with
  | opens strm =>
      rw [step, Option.ite_none_right_eq_some] at taken
      obtain ⟨-, same⟩ := taken
      cases same
      rfl
  | receive id ev alive =>
      rw [step, Option.ite_none_right_eq_some] at taken
      obtain ⟨-, same⟩ := taken
      cases same
      rfl
  | released id =>
      rw [step, Option.ite_none_right_eq_some] at taken
      obtain ⟨-, same⟩ := taken
      cases same
      rfl
  | elsewhere ctx =>
      obtain rfl := Option.some.inj taken
      rfl

/-- **One step**: with four streams at most so far, its index is in range exactly if there are four
at most after it. -/
theorem indexInRange_iff {slot : Slot} {s t : PeerStreams} {l : PeerStreamsLabel}
    (account : s.Account) (few : s.info.totalStreamCount ≤ 4) (taken : s.step slot l = some t) :
    IndexInRange s l ↔ t.info.totalStreamCount ≤ 4 := by
  rw [totalStreamCount_step taken]
  cases l with
  | opens strm =>
      show startedIndex (clientBidiStreamId s.info.totalStreamCount) < 4 ↔
        s.info.totalStreamCount + 1 ≤ 4
      rw [startedIndex_clientBidiStreamId]
      exact Nat.lt_iff_add_one_le
  | receive id ev alive =>
      rw [step, Option.ite_none_right_eq_some] at taken
      exact ⟨fun _ => few, fun _ => receiveIndex_lt account few taken.1⟩
  | released id => exact ⟨fun _ => few, fun _ => trivial⟩
  | elsewhere ctx => exact ⟨fun _ => few, fun _ => trivial⟩

theorem openings_cons (l : PeerStreamsLabel) (labels : List PeerStreamsLabel) :
    openings (l :: labels) = openings [l] + openings labels := by
  show openings ([l] ++ labels) = _
  exact List.countP_append

/-- From any state of an account with four streams at most. -/
theorem everyStep_indexInRange_iff {slot : Slot} {labels : List PeerStreamsLabel}
    {s t : PeerStreams} (account : s.Account) (few : s.info.totalStreamCount ≤ 4)
    (run : exec (step slot) s labels = some t) :
    EveryStep (step slot) IndexInRange s labels ↔
      s.info.totalStreamCount + openings labels ≤ 4 := by
  induction labels generalizing s with
  | nil => exact ⟨fun _ => few, fun _ => trivial⟩
  | cons l labels ih =>
      rw [exec_cons, Option.bind_eq_some_iff] at run
      obtain ⟨next, taken, rest⟩ := run
      have kept : next.Account := account_step account taken
      have total := totalStreamCount_step taken
      rw [openings_cons, ← Nat.add_assoc, ← total]
      constructor
      · rintro ⟨inRange, later⟩
        have still : next.info.totalStreamCount ≤ 4 :=
          (indexInRange_iff account few taken).1 inRange
        exact (ih kept still rest).1 (later next taken)
      · intro atMost
        have still : next.info.totalStreamCount ≤ 4 := (Nat.le_add_right _ _).trans atMost
        refine ⟨(indexInRange_iff account few taken).2 still, ?_⟩
        intro other same
        obtain rfl := Option.some.inj (taken.symm.trans same)
        exact (ih kept still rest).2 atMost

/-- **The indices stay in range exactly if the peer opens four streams at most**, however many it
has open at a time. -/
theorem indices_inRange_iff {slot : Slot} {ctx : ConnectionContext}
    {labels : List PeerStreamsLabel} {t : PeerStreams}
    (run : exec (step slot) { ctx } labels = some t) :
    EveryStep (step slot) IndexInRange { ctx } labels ↔ openings labels ≤ 4 := by
  have rule := everyStep_indexInRange_iff (account_start ctx) (Nat.zero_le 4) run
  rwa [Nat.zero_add] at rule

/-- A peer that opens four streams, closes the first and opens another. -/
def reopening : List PeerStreamsLabel :=
  [.opens 1, .opens 2, .opens 3, .opens 4, .released 0, .opens 5]

theorem indices_inRange_four :
    EveryStep (step 0) IndexInRange {} (reopening.take 5) ↔ openings (reopening.take 5) ≤ 4 :=
  by
  apply indices_inRange_iff
  rfl

/-- **The fifth stream of a connection gives the index four**, with four streams open. -/
theorem fifthStream_outOfRange :
    (exec (step 0) {} reopening).map (fun s => (s.opened.length, s.opened.getLast?)) =
        some (4, some 16) ∧
      ¬ EveryStep (step 0) IndexInRange {} reopening ∧
      (peerStreamStarted 0 {} 5 16).exit = .overruns := by
  decide

end PeerStreams

end Koisyn.Session
