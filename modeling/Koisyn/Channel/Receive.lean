/-
# Koisyn.Channel.Receive — the stream RECEIVE handler

`handleReceive` is `Handle_QUIC_STREAM_EVENT_RECEIVE`: it drops the connection when the application
has let its channel context go, skips bytes another stream has already brought, appends the rest to
the channel's buffer and, after each `QUIC_BUFFER`, runs the deframing loop on the buffer.

The deframing loop of the source has no branch for an incomplete frame, so with four bytes or more
of one in the buffer it repeats without end while it holds `RecvMutex`.  The handler's `Exit` tells
such an activation from one that returns:

* `spins`: the deframing loop never ends (`deframe_spins_iff`);
* `corrupt`: the branch for a gap before the received bytes, which resets the context while this
  thread holds the channel's `RecvMutex`, and so locks it twice (`resetBlockedAt`);
* `overruns`: memory outside the vector or the array is used.

`readBuffers_spec` and `handleReceive_spec` say what an activation does to a channel whose buffer
and deliveries account for a prefix of a sequence, on a piece of the same sequence.  `Received` lists
what an activation can do at all.
-/
import Koisyn.Channel.Send
import Koisyn.Theory.WhileLoop
import Mathlib.Logic.Function.Basic

namespace Koisyn.Channel

open Koisyn.Theory
open Koisyn.Theory.Bytes

set_option autoImplicit false

/-- The `QUIC_STATUS` values the handlers return. -/
inductive QuicStatus where
  | success | continue_ | aborted | connectionRefused | failed
  deriving DecidableEq, Repr

/-- How an activation of a handler ends. -/
inductive Exit where
  | returned (status : QuicStatus)
  | spins
  | corrupt
  | overruns
  deriving DecidableEq, Repr

/-! ## The deframing loop -/

structure DeframeLocals where
  vec : List UInt8
  delivered : List (List UInt8) := []
  overran : Bool := false
  deriving DecidableEq, Repr

/-- `while (vec.size() >= 4)`, until memory outside the vector is used. -/
def deframeGoing (s : DeframeLocals) : Bool := !s.overran && decide (4 ≤ s.vec.length)

/-- One pass.  `msglen + 4` wraps at 32 bits in the comparison, and not in the erased range. -/
def deframePass (s : DeframeLocals) : DeframeLocals :=
  let msglen := ofBigEndian (s.vec.take 4)
  if (msglen + 4) % 2 ^ 32 ≤ s.vec.length then
    if 4 + msglen ≤ s.vec.length then
      { s with
        vec := s.vec.drop (4 + msglen)
        delivered := s.delivered ++ [(s.vec.drop 4).take msglen] }
    else { s with overran := true }
  else s

/-- Where the loop stands after as many passes as the buffer has bytes: at its end, or at the state
it repeats. -/
def deframe (vec : List UInt8) : DeframeLocals :=
  WhileLoop.rounds deframeGoing deframePass (vec.length + 1) { vec }

/-- How the activation ends here, unless the loop has ended. -/
def DeframeLocals.exit (s : DeframeLocals) : Option Exit :=
  if s.overran then some .overruns else if 4 ≤ s.vec.length then some .spins else none

/-- What one pass can do: take a frame off the front, leave the vector, or change nothing. -/
theorem deframePass_cases (s : DeframeLocals) (going : deframeGoing s = true) :
    (∃ payload, payload.length < 2 ^ 32 ∧ s.vec = frame payload ++ (deframePass s).vec ∧
      (deframePass s).delivered = s.delivered ++ [payload] ∧
      (deframePass s).overran = s.overran) ∨
    deframePass s = { s with overran := true } ∨ deframePass s = s := by
  simp only [deframeGoing, Bool.and_eq_true, decide_eq_true_eq] at going
  have header : (s.vec.take 4).length = 4 := by
    rw [List.length_take]
    omega
  have small := ofBigEndian_lt (s.vec.take 4)
  have read := bigEndian_ofBigEndian (s.vec.take 4)
  rw [header] at small read
  unfold deframePass
  dsimp only
  generalize ofBigEndian (s.vec.take 4) = msglen at small read
  split
  · split
    · rename_i inside
      have length : ((s.vec.drop 4).take msglen).length = msglen := by
        rw [List.length_take, List.length_drop]
        omega
      refine .inl ⟨(s.vec.drop 4).take msglen, by rwa [length], ?_, rfl, rfl⟩
      rw [frame, length, read, ← List.take_add, List.take_append_drop]
    · exact .inr (.inl rfl)
  · exact .inr (.inr rfl)

def deframeMeasure (s : DeframeLocals) : Nat := s.vec.length + if s.overran then 0 else 1

theorem deframePass_progress (s : DeframeLocals) (going : deframeGoing s = true) :
    deframePass s = s ∨ deframeMeasure (deframePass s) < deframeMeasure s := by
  have running : s.overran = false := by
    simp only [deframeGoing, Bool.and_eq_true, Bool.not_eq_true'] at going
    exact going.1
  rcases deframePass_cases s going with ⟨payload, -, whole, -, same⟩ | left | stuck
  · right
    have length := congrArg List.length whole
    rw [List.length_append, length_frame] at length
    rw [deframeMeasure, deframeMeasure, same]
    omega
  · right
    rw [left, deframeMeasure, deframeMeasure, running]
    simp
  · exact .inl stuck

theorem deframe_settled (vec : List UInt8) :
    deframeGoing (deframe vec) = false ∨ deframePass (deframe vec) = deframe vec :=
  WhileLoop.rounds_settled deframePass_progress (vec.length + 1) { vec } (Nat.le_refl _)

/-- **An activation that the model calls spinning runs a loop that never ends**, and the other way
round. -/
theorem deframe_spins_iff (vec : List UInt8) :
    (deframe vec).exit = some .spins ↔ ¬ WhileLoop.Ends deframeGoing deframePass { vec } := by
  have going_iff : (deframe vec).exit = some .spins ↔ deframeGoing (deframe vec) = true := by
    unfold DeframeLocals.exit deframeGoing
    cases (deframe vec).overran <;> simp
  rw [going_iff]
  constructor
  · intro going
    rcases deframe_settled vec with ended | stuck
    · rw [ended] at going
      cases going
    · exact WhileLoop.not_ends_of_stuck going stuck
  · intro never
    by_contra ended
    exact never ⟨vec.length + 1, Bool.eq_false_of_not_eq_true ended⟩

/-- What the loop keeps: the frames delivered and the rest are the bytes it started with. -/
theorem deframe_spec (vec : List UInt8) :
    framing.frames (deframe vec).delivered ++ (deframe vec).vec = vec ∧
      ∀ payload ∈ (deframe vec).delivered, framing.Valid payload := by
  let I : DeframeLocals → Prop := fun s => framing.frames s.delivered ++ s.vec = vec ∧
    ∀ payload ∈ s.delivered, framing.Valid payload
  have keeps : ∀ s, I s → deframeGoing s = true → I (deframePass s) := by
    rintro s ⟨whole, valid⟩ going
    rcases deframePass_cases s going with ⟨payload, fits, front, delivered, -⟩ | left | stuck
    · refine ⟨?_, ?_⟩
      · rw [delivered, framing.frames_append, framing.frames_cons, framing.frames_nil,
          List.append_nil, List.append_assoc]
        show framing.frames s.delivered ++ (frame payload ++ _) = vec
        rw [← front, whole]
      · intro p member
        rw [delivered] at member
        rcases List.mem_append.1 member with old | new
        · exact valid p old
        · rw [List.mem_singleton.1 new]
          exact fits
    · rw [left]
      exact ⟨whole, valid⟩
    · rw [stuck]
      exact ⟨whole, valid⟩
  exact WhileLoop.rounds_invariant keeps _ ⟨rfl, fun _ member => by cases member⟩

theorem deframe_ended {vec : List UInt8} (ended : (deframe vec).exit = none) :
    (deframe vec).vec.length < 4 := by
  unfold DeframeLocals.exit at ended
  split at ended
  · cases ended
  · split at ended
    · cases ended
    · omega

/-- On bytes that a sender framed, from payloads whose length plus four does not wrap, no pass uses
memory outside the vector. -/
theorem deframe_not_overran {payloads : List (List UInt8)} {vec : List UInt8}
    (fits : ∀ payload ∈ payloads, payload.length + 4 < 2 ^ 32)
    (framed : vec <+: framing.frames payloads) : (deframe vec).overran = false := by
  let I : DeframeLocals → Prop := fun s => s.overran = false ∧
    ∃ rest, (∀ payload ∈ rest, payload.length + 4 < 2 ^ 32) ∧ s.vec <+: framing.frames rest
  have keeps : ∀ s, I s → deframeGoing s = true → I (deframePass s) := by
    rintro s ⟨running, rest, small, isPrefix⟩ going
    have long : 4 ≤ s.vec.length := by
      simp only [deframeGoing, Bool.and_eq_true, decide_eq_true_eq] at going
      exact going.2
    cases rest with
    | nil =>
        rw [framing.frames_nil, List.prefix_nil] at isPrefix
        rw [isPrefix] at long
        cases long
    | cons payload rest =>
        have fitsP := small payload List.mem_cons_self
        obtain ⟨tail, whole⟩ := isPrefix
        rw [framing.frames_cons] at whole
        -- the header read is the sender's
        have header : s.vec.take 4 = bigEndian 4 payload.length := by
          have front := congrArg (List.take 4) whole
          rw [List.take_append_of_le_length long] at front
          rw [front]
          show ((bigEndian 4 payload.length ++ payload) ++ _).take 4 = _
          rw [List.append_assoc]
          exact List.take_left' (by simp)
        have read : ofBigEndian (s.vec.take 4) = payload.length := by
          rw [header, ofBigEndian_bigEndian]
          omega
        have noWrap : (payload.length + 4) % 2 ^ 32 = payload.length + 4 := Nat.mod_eq_of_lt fitsP
        unfold deframePass
        dsimp only
        rw [read, noWrap]
        split
        · rename_i inside
          rw [if_pos (by omega)]
          refine ⟨running, rest, fun p member => small p (List.mem_cons_of_mem _ member), tail, ?_⟩
          have length : (framing.frame payload).length = 4 + payload.length := length_frame payload
          have dropped := congrArg (List.drop (4 + payload.length)) whole
          rwa [List.drop_append_of_le_length (by omega), List.drop_left' length] at dropped
        · exact ⟨running, payload :: rest, small, tail, by rw [framing.frames_cons, whole]⟩
  exact (WhileLoop.rounds_invariant keeps _ ⟨rfl, payloads, fits, framed⟩).1

theorem deframe_exit_ne_corrupt (vec : List UInt8) : (deframe vec).exit ≠ some .corrupt := by
  unfold DeframeLocals.exit
  split
  · simp
  · split <;> simp

/-! ## One activation -/

/-- The `RECEIVE` event: its total length is the sum of its buffers' lengths. -/
structure ReceiveEvent where
  absoluteOffset : Nat
  totalBufferLength : Nat
  buffers : List (List UInt8)
  total : totalBufferLength = buffers.flatten.length

/-- What the loop over the buffers leaves: how the activation ends, the channel and the payloads
handed to the callback. -/
structure ReadResult where
  exit : Exit
  chn : StreamChannel
  delivered : List (List UInt8)
  deriving DecidableEq, Repr

/-- The loop over the `QUIC_BUFFER`s, from the locals `desiredByte` and `nowoff`. -/
def readBuffers (chn : StreamChannel) (desiredByte nowoff : Nat) : List (List UInt8) → ReadResult
  | [] => ⟨.returned .continue_, chn, []⟩
  | buf :: bufs =>
      let bufBeginOffset := nowoff
      let bufEndOffset := nowoff + buf.length
      if desiredByte < bufBeginOffset then ⟨.corrupt, chn, []⟩
      else if bufEndOffset ≤ desiredByte then readBuffers chn desiredByte bufEndOffset bufs
      else
        let s := deframe (chn.buffer ++ buf.drop (desiredByte - bufBeginOffset))
        let chn := { chn with buffer := s.vec, nextRecvByte := bufEndOffset }
        match s.exit with
        | some exit => ⟨exit, chn, s.delivered⟩
        | none =>
            let r := readBuffers chn bufEndOffset bufEndOffset bufs
            { r with delivered := s.delivered ++ r.delivered }

/-- `ConnectionContext::Reset` by a thread that holds the `RecvMutex` of channel `index`: it stops
where it locks that mutex again. -/
def ConnectionContext.resetBlockedAt (ctx : ConnectionContext) (index : Fin 4) :
    ConnectionContext :=
  { ctx with reliable := fun i =>
      if i < index then {}
      else if i = index then { ctx.reliable i with self := none, peer := none }
      else ctx.reliable i }

/-- The calls that `resetBlockedAt` has made by then. -/
def ConnectionContext.resetBlockedCalls (ctx : ConnectionContext) (index : Fin 4) : List Call :=
  ((List.finRange 4).filter (· ≤ index)).flatMap fun i =>
    releaseStream (ctx.reliable i).self ++ releaseStream (ctx.reliable i).peer

/-- What an activation of a handler leaves. -/
structure Handled where
  exit : Exit
  ctx : ConnectionContext
  calls : List Call

/-- `Handle_QUIC_STREAM_EVENT_RECEIVE` on the context in `slot`, for a stream with the given id. -/
def handleReceive (slot : Slot) (alive : ObjectId → Bool) (id : Nat) (ev : ReceiveEvent)
    (ctx : ConnectionContext) : Handled :=
  match lockChannelContext alive ctx.channelContext with
  | none => ⟨.returned .aborted, ctx.reset, ctx.resetCalls slot⟩
  | some channelCtx =>
      if inRange : (id >>> 2) % 2 ^ 32 < 4 then
        let index : Fin 4 := ⟨(id >>> 2) % 2 ^ 32, inRange⟩
        let chn := ctx.reliable index
        -- newer data came from the other stream
        if ev.absoluteOffset + ev.totalBufferLength ≤ chn.nextRecvByte then
          ⟨.returned .continue_, ctx, []⟩
        else
          let r := readBuffers chn chn.nextRecvByte ev.absoluteOffset ev.buffers
          let ctx := { ctx with reliable := Function.update ctx.reliable index r.chn }
          let calls := r.delivered.map fun data => .onReliableReceive slot index data channelCtx
          if r.exit = .corrupt then
            ⟨.corrupt, ctx.resetBlockedAt index, calls ++ ctx.resetBlockedCalls index⟩
          else ⟨r.exit, ctx, calls⟩
      else ⟨.overruns, ctx, []⟩

/-! ## A channel that accounts for a prefix of a sequence -/

/-- The payloads delivered and the bytes buffered are the first `nextRecvByte` bytes of `S`. -/
structure Accounts (S : List UInt8) (chn : StreamChannel) (delivered : List (List UInt8)) : Prop where
  valid : ∀ payload ∈ delivered, framing.Valid payload
  seen : framing.frames delivered ++ chn.buffer = S.take chn.nextRecvByte
  inside : chn.nextRecvByte ≤ S.length

theorem Accounts.front {S : List UInt8} {chn : StreamChannel} {delivered : List (List UInt8)}
    (accounts : Accounts S chn delivered) : framing.frames delivered <+: S :=
  (List.prefix_append _ chn.buffer).trans (accounts.seen ▸ List.take_prefix _ S)

/-- An account of `S` is one of any longer sequence. -/
theorem Accounts.extend {S T : List UInt8} {chn : StreamChannel} {delivered : List (List UInt8)}
    (accounts : Accounts S chn delivered) (longer : S <+: T) : Accounts T chn delivered := by
  obtain ⟨more, rfl⟩ := longer
  refine ⟨accounts.valid, ?_, ?_⟩
  · rw [List.take_append_of_le_length accounts.inside]
    exact accounts.seen
  · rw [List.length_append]
    exact accounts.inside.trans (Nat.le_add_right _ _)

/-- Bytes read past the desired one keep the account. -/
theorem Accounts.append {S : List UInt8} {chn : StreamChannel} {delivered : List (List UInt8)}
    (accounts : Accounts S chn delivered) {begin_ : Nat} {buf : List UInt8}
    (starts : begin_ ≤ chn.nextRecvByte) (newer : chn.nextRecvByte < begin_ + buf.length)
    (isPiece : buf <+: S.drop begin_) :
    let s := deframe (chn.buffer ++ buf.drop (chn.nextRecvByte - begin_))
    Accounts S { chn with buffer := s.vec, nextRecvByte := begin_ + buf.length }
      (delivered ++ s.delivered) := by
  intro s
  obtain ⟨kept, valid⟩ := deframe_spec (chn.buffer ++ buf.drop (chn.nextRecvByte - begin_))
  have longer := isPiece.length_le
  rw [List.length_drop] at longer
  refine ⟨?_, ?_, ?_⟩
  · intro payload member
    rcases List.mem_append.1 member with old | new
    · exact accounts.valid payload old
    · exact valid payload new
  · rw [framing.frames_append, List.append_assoc, kept, ← List.append_assoc, accounts.seen]
    exact take_append_drop_overlap S buf starts newer.le isPiece
  · show begin_ + buf.length ≤ S.length
    have := accounts.inside
    omega

/-- What is left of an account and the bytes read next lie inside the frames not yet delivered, so
the deframing loop stays inside the vector. -/
theorem Accounts.not_overran {payloads : List (List UInt8)} {chn : StreamChannel}
    {delivered : List (List UInt8)} (accounts : Accounts (framing.frames payloads) chn delivered)
    (fits : ∀ payload ∈ payloads, payload.length + 4 < 2 ^ 32) {begin_ : Nat} {buf : List UInt8}
    (starts : begin_ ≤ chn.nextRecvByte) (newer : chn.nextRecvByte < begin_ + buf.length)
    (isPiece : buf <+: (framing.frames payloads).drop begin_) :
    (deframe (chn.buffer ++ buf.drop (chn.nextRecvByte - begin_))).overran = false := by
  have validP : ∀ payload ∈ payloads, framing.Valid payload := by
    intro payload member
    have := fits payload member
    show payload.length < 2 ^ 32
    omega
  obtain ⟨rest, rfl⟩ := framing.prefix_of_frames accounts.valid validP accounts.front
  refine @deframe_not_overran rest _
    (fun payload member => fits payload (List.mem_append_right _ member)) ?_
  have extended : framing.frames delivered ++
      (chn.buffer ++ buf.drop (chn.nextRecvByte - begin_)) <+:
        framing.frames delivered ++ framing.frames rest := by
    rw [← List.append_assoc, accounts.seen, ← framing.frames_append,
      take_append_drop_overlap _ buf starts newer.le isPiece]
    exact List.take_prefix _ _
  exact (List.prefix_append_right_inj _).1 extended

/-- **What the loop over the buffers does** on a piece of `S` that starts inside the part already
seen: no gap is found, the account is kept however the loop ends, and when it returns it has seen
everything up to the piece's end, with less than a frame header left over.  On framed payloads no
memory outside the vector is used. -/
theorem readBuffers_spec {S : List UInt8} {chn : StreamChannel} {delivered : List (List UInt8)}
    (accounts : Accounts S chn delivered) {nowoff : Nat} {bufs : List (List UInt8)}
    (starts : nowoff ≤ chn.nextRecvByte) (isPiece : bufs.flatten <+: S.drop nowoff) :
    let r := readBuffers chn chn.nextRecvByte nowoff bufs
    r.exit ≠ .corrupt ∧ Accounts S r.chn (delivered ++ r.delivered) ∧
      (∀ status, r.exit = .returned status → status = .continue_ ∧
        r.chn.nextRecvByte = max chn.nextRecvByte (nowoff + bufs.flatten.length) ∧
        (chn.buffer.length < 4 → r.chn.buffer.length < 4)) ∧
      (∀ payloads : List (List UInt8), (∀ payload ∈ payloads, payload.length + 4 < 2 ^ 32) →
        S = framing.frames payloads → r.exit ≠ .overruns) := by
  induction bufs generalizing chn delivered nowoff with
  | nil =>
      refine ⟨by simp [readBuffers], by simpa [readBuffers] using accounts, ?_,
        by simp [readBuffers]⟩
      intro status returned
      simp only [readBuffers, Exit.returned.injEq] at returned
      exact ⟨returned.symm, by simpa [readBuffers] using starts, fun short => short⟩
  | cons buf bufs ih =>
      rw [List.flatten_cons] at isPiece
      have bufPiece : buf <+: S.drop nowoff := (List.prefix_append _ _).trans isPiece
      have restPiece : bufs.flatten <+: S.drop (nowoff + buf.length) := by
        obtain ⟨tail, whole⟩ := isPiece
        refine ⟨tail, ?_⟩
        rw [← List.drop_drop, ← whole, List.append_assoc, List.drop_left]
      have noGap : ¬ chn.nextRecvByte < nowoff := by omega
      by_cases stale : nowoff + buf.length ≤ chn.nextRecvByte
      · have rest := ih accounts stale restPiece
        simp only [readBuffers, noGap, if_false, stale, if_true, List.flatten_cons,
          List.length_append, ← Nat.add_assoc] at rest ⊢
        exact rest
      · have kept := accounts.append starts (Nat.lt_of_not_le stale) bufPiece
        simp only [readBuffers, noGap, if_false, stale]
        cases ended : (deframe (chn.buffer ++ buf.drop (chn.nextRecvByte - nowoff))).exit with
        | some exit =>
            refine ⟨?_, kept, ?_, ?_⟩
            · intro corrupt
              exact deframe_exit_ne_corrupt _ (ended.trans (congrArg some corrupt))
            · intro status returned
              simp only at returned
              subst returned
              unfold DeframeLocals.exit at ended
              split at ended
              · simp at ended
              · split at ended <;> simp at ended
            · rintro payloads fits rfl overruns
              have inside := accounts.not_overran fits starts (Nat.lt_of_not_le stale) bufPiece
              simp only at overruns
              simp only [DeframeLocals.exit, inside, overruns, Bool.false_eq_true, if_false] at ended
              split at ended <;> simp at ended
        | none =>
            obtain ⟨noCorrupt, account, returns, noOverrun⟩ := ih kept (Nat.le_refl _) restPiece
            refine ⟨noCorrupt, by simpa [List.append_assoc] using account, ?_, noOverrun⟩
            intro status returned
            obtain ⟨isContinue, reached, short⟩ := returns status returned
            refine ⟨isContinue, ?_, fun _ => short (deframe_ended ended)⟩
            simp only [List.flatten_cons, List.length_append] at reached ⊢
            omega

/-- The loop never goes back, and gets past the desired byte when the buffers do. -/
theorem readBuffers_advances (bufs : List (List UInt8)) {chn : StreamChannel} {nowoff : Nat}
    (starts : nowoff ≤ chn.nextRecvByte) :
    let r := readBuffers chn chn.nextRecvByte nowoff bufs
    r.exit ≠ .corrupt ∧ chn.nextRecvByte ≤ r.chn.nextRecvByte ∧
      (chn.nextRecvByte < nowoff + bufs.flatten.length →
        chn.nextRecvByte < r.chn.nextRecvByte) := by
  induction bufs generalizing chn nowoff with
  | nil =>
      refine ⟨by simp [readBuffers], Nat.le_refl _, ?_⟩
      intro newer
      rw [List.flatten_nil, List.length_nil] at newer
      omega
  | cons buf bufs ih =>
      have noGap : ¬ chn.nextRecvByte < nowoff := by omega
      by_cases stale : nowoff + buf.length ≤ chn.nextRecvByte
      · have rest := ih stale
        simp only [readBuffers, noGap, if_false, stale, if_true, List.flatten_cons,
          List.length_append, ← Nat.add_assoc] at rest ⊢
        exact rest
      · simp only [readBuffers, noGap, if_false, stale]
        cases ended : (deframe (chn.buffer ++ buf.drop (chn.nextRecvByte - nowoff))).exit with
        | some exit =>
            refine ⟨?_, (Nat.lt_of_not_le stale).le, fun _ => Nat.lt_of_not_le stale⟩
            intro corrupt
            exact deframe_exit_ne_corrupt _ (ended.trans (congrArg some corrupt))
        | none =>
            let read : StreamChannel := { chn with
              buffer := (deframe (chn.buffer ++ buf.drop (chn.nextRecvByte - nowoff))).vec
              nextRecvByte := nowoff + buf.length }
            have atEnd : nowoff + buf.length ≤ read.nextRecvByte := Nat.le_refl _
            obtain ⟨noCorrupt, further, -⟩ := ih atEnd
            exact ⟨noCorrupt, (Nat.lt_of_not_le stale).le.trans further,
              fun _ => (Nat.lt_of_not_le stale).trans_le further⟩

/-- A gap before the first buffer is found at once. -/
theorem readBuffers_gap {chn : StreamChannel} {nowoff : Nat} {bufs : List (List UInt8)}
    (gap : chn.nextRecvByte < nowoff) (some_ : bufs ≠ []) :
    readBuffers chn chn.nextRecvByte nowoff bufs = ⟨.corrupt, chn, []⟩ := by
  cases bufs with
  | nil => exact absurd rfl some_
  | cons buf bufs => simp only [readBuffers, gap, if_true]

/-- The payloads that calls hand to `OnReliableReceive[index]` of the context in `slot`. -/
def deliveredTo (slot : Slot) (index : Fin 4) (calls : List Call) : List (List UInt8) :=
  calls.filterMap fun
    | .onReliableReceive s i data _ => if s = slot ∧ i = index then some data else none
    | _ => none

theorem deliveredTo_receives (slot : Slot) (index i : Fin 4) (payloads : List (List UInt8))
    (channelCtx : ObjectId) :
    deliveredTo slot i (payloads.map fun data => .onReliableReceive slot index data channelCtx) =
      if i = index then payloads else [] := by
  unfold deliveredTo
  rw [List.filterMap_map]
  by_cases same : i = index
  · subst same
    simp
  · simp [same, Ne.symm same]

@[simp] theorem deliveredTo_append (slot : Slot) (index : Fin 4) (calls more : List Call) :
    deliveredTo slot index (calls ++ more) =
      deliveredTo slot index calls ++ deliveredTo slot index more :=
  List.filterMap_append

theorem deliveredTo_resetCalls (ctx : ConnectionContext) (slot s : Slot) (index : Fin 4) :
    deliveredTo s index (ctx.resetCalls slot) = [] := by
  have nothing : ∀ calls : List Call, (∀ call ∈ calls, ∀ s i d c, call ≠ .onReliableReceive s i d c) →
      deliveredTo s index calls = [] := by
    intro calls silent
    refine List.filterMap_eq_nil_iff.2 fun call member => ?_
    cases call <;> first | rfl | exact absurd rfl (silent _ member _ _ _ _)
  refine nothing _ ?_
  intro call member
  simp only [ConnectionContext.resetCalls, releaseStream, releaseConnection, List.mem_append,
    List.mem_cons, List.mem_flatMap, List.mem_map] at member
  rintro s i d c rfl
  simp at member

theorem handleReceive_expired {slot : Slot} {alive : ObjectId → Bool} {id : Nat} {ev : ReceiveEvent}
    {ctx : ConnectionContext} (expired : lockChannelContext alive ctx.channelContext = none) :
    handleReceive slot alive id ev ctx = ⟨.returned .aborted, ctx.reset, ctx.resetCalls slot⟩ := by
  rw [handleReceive, expired]

theorem handleReceive_outside {slot : Slot} {alive : ObjectId → Bool} {id : Nat} {ev : ReceiveEvent}
    {ctx : ConnectionContext} {channelCtx : ObjectId}
    (locked : lockChannelContext alive ctx.channelContext = some channelCtx)
    (outside : ¬ (id >>> 2) % 2 ^ 32 < 4) :
    handleReceive slot alive id ev ctx = ⟨.overruns, ctx, []⟩ := by
  rw [handleReceive, locked]
  exact dif_neg outside

/-- **What an activation does** for a live application on a channel that accounts for a prefix of
`S`, on a piece of `S` that starts inside that prefix. -/
theorem handleReceive_spec (slot : Slot) {alive : ObjectId → Bool} {id : Nat} {ev : ReceiveEvent}
    {ctx : ConnectionContext} {index : Fin 4} {channelCtx : ObjectId} {S : List UInt8}
    {delivered : List (List UInt8)}
    (locked : lockChannelContext alive ctx.channelContext = some channelCtx)
    (named : (id >>> 2) % 2 ^ 32 = index)
    (accounts : Accounts S (ctx.reliable index) delivered)
    (starts : ev.absoluteOffset ≤ (ctx.reliable index).nextRecvByte)
    (isPiece : ev.buffers.flatten <+: S.drop ev.absoluteOffset) :
    let r := handleReceive slot alive id ev ctx
    r.exit ≠ .corrupt ∧
      Accounts S (r.ctx.reliable index) (delivered ++ deliveredTo slot index r.calls) ∧
      (∀ i, i ≠ index → r.ctx.reliable i = ctx.reliable i ∧ deliveredTo slot i r.calls = []) ∧
      r.ctx.channelContext = ctx.channelContext ∧
      (∀ status, r.exit = .returned status → status = .continue_ ∧
        (r.ctx.reliable index).nextRecvByte = max (ctx.reliable index).nextRecvByte
          (ev.absoluteOffset + ev.buffers.flatten.length) ∧
        ((ctx.reliable index).buffer.length < 4 → (r.ctx.reliable index).buffer.length < 4)) ∧
      (∀ payloads : List (List UInt8), (∀ payload ∈ payloads, payload.length + 4 < 2 ^ 32) →
        S = framing.frames payloads → r.exit ≠ .overruns) := by
  have inRange : (id >>> 2) % 2 ^ 32 < 4 := named ▸ index.isLt
  have isIndex : (⟨(id >>> 2) % 2 ^ 32, inRange⟩ : Fin 4) = index := Fin.ext named
  obtain ⟨noCorrupt, account, returns, noOverrun⟩ := readBuffers_spec accounts starts isPiece
  simp only [handleReceive, locked, inRange, dite_true, isIndex]
  by_cases stale : ev.absoluteOffset + ev.totalBufferLength ≤ (ctx.reliable index).nextRecvByte
  · rw [if_pos stale]
    rw [ev.total] at stale
    refine ⟨by simp, by simpa [deliveredTo] using accounts, fun i _ => ⟨rfl, rfl⟩, rfl, ?_, by simp⟩
    intro status returned
    exact ⟨(Exit.returned.inj returned).symm, (Nat.max_eq_left stale).symm, fun short => short⟩
  · rw [if_neg stale, if_neg noCorrupt]
    refine ⟨noCorrupt, ?_, fun i other => ⟨?_, ?_⟩, rfl, ?_, noOverrun⟩
    · simpa [deliveredTo_receives] using account
    · exact Function.update_of_ne other _ _
    · rw [deliveredTo_receives, if_neg other]
    · simpa using returns

/-! ## What an activation can do to a context -/

/-- `RECEIVE` changes what a channel has read and nothing of its streams. -/
theorem readBuffers_handles (chn : StreamChannel) (desiredByte nowoff : Nat)
    (bufs : List (List UInt8)) :
    (readBuffers chn desiredByte nowoff bufs).chn.self = chn.self ∧
      (readBuffers chn desiredByte nowoff bufs).chn.peer = chn.peer := by
  induction bufs generalizing chn desiredByte nowoff with
  | nil => exact ⟨rfl, rfl⟩
  | cons buf bufs ih =>
      simp only [readBuffers]
      split
      · exact ⟨rfl, rfl⟩
      · split
        · exact ih chn desiredByte _
        · split
          · exact ⟨rfl, rfl⟩
          · exact ih _ _ _

/-- A context whose channel `index` has read more. -/
def ConnectionContext.reads (ctx : ConnectionContext) (index : Fin 4) (chn : StreamChannel) :
    ConnectionContext :=
  { ctx with reliable := Function.update ctx.reliable index chn }

/-- **What an activation of `RECEIVE` can do** to the context in `slot`: drop it, leave it, or read on
one channel, and then possibly stop inside a `Reset`. -/
inductive Received (slot : Slot) (alive : ObjectId → Bool) (id : Nat) (ctx : ConnectionContext) :
    ConnectionContext → List Call → Prop
  | dropped (expired : lockChannelContext alive ctx.channelContext = none) :
      Received slot alive id ctx ctx.reset (ctx.resetCalls slot)
  | left : Received slot alive id ctx ctx []
  | read (index : Fin 4) (chn : StreamChannel) (payloads : List (List UInt8))
      (channelCtx : ObjectId) (named : (id >>> 2) % 2 ^ 32 = index)
      (self : chn.self = (ctx.reliable index).self) (peer : chn.peer = (ctx.reliable index).peer) :
      Received slot alive id ctx (ctx.reads index chn)
        (payloads.map fun data => .onReliableReceive slot index data channelCtx)
  | blocked (index : Fin 4) (chn : StreamChannel) (payloads : List (List UInt8))
      (channelCtx : ObjectId) (named : (id >>> 2) % 2 ^ 32 = index)
      (self : chn.self = (ctx.reliable index).self) (peer : chn.peer = (ctx.reliable index).peer) :
      Received slot alive id ctx ((ctx.reads index chn).resetBlockedAt index)
        ((payloads.map fun data => .onReliableReceive slot index data channelCtx) ++
          (ctx.reads index chn).resetBlockedCalls index)

theorem handleReceive_received (slot : Slot) (alive : ObjectId → Bool) (id : Nat)
    (ev : ReceiveEvent) (ctx : ConnectionContext) :
    Received slot alive id ctx (handleReceive slot alive id ev ctx).ctx
      (handleReceive slot alive id ev ctx).calls := by
  unfold handleReceive
  split
  · rename_i expired
    exact .dropped expired
  · split
    · dsimp only
      split
      · exact .left
      · obtain ⟨self, peer⟩ := readBuffers_handles _ _ ev.absoluteOffset ev.buffers
        split
        · exact .blocked _ _ _ _ rfl self peer
        · exact .read _ _ _ _ rfl self peer
    · exact .left

section Reads

variable {ctx : ConnectionContext} {index : Fin 4} {chn : StreamChannel}

/-- Reading changes no handle. -/
theorem ConnectionContext.reads_handles (self : chn.self = (ctx.reliable index).self)
    (peer : chn.peer = (ctx.reliable index).peer) (i : Fin 4) :
    ((ctx.reads index chn).reliable i).self = (ctx.reliable i).self ∧
      ((ctx.reads index chn).reliable i).peer = (ctx.reliable i).peer := by
  by_cases here : i = index
  · subst here
    rw [show (ctx.reads i chn).reliable i = chn from Function.update_self _ _ _]
    exact ⟨self, peer⟩
  · rw [show (ctx.reads index chn).reliable i = ctx.reliable i from Function.update_of_ne here _ _]
    exact ⟨rfl, rfl⟩

end Reads

end Koisyn.Channel
