/-
# Koisyn.Channel.Deframing — when the deframing loop ends and stays inside its buffer

The loop looks at the size of a header and makes progress only on a whole frame.

* `deframing_ends_iff`: a run of the loop takes complete frames off the buffer and ends exactly when
  the buffer is complete frames followed by fewer bytes than a header has (`Complete`).  The handler
  returns exactly when this holds at the end of every `QUIC_BUFFER` that brings new bytes: it is the
  cut of the byte stream that decides.
* `lengthField_inBounds_iff`: one pass stays inside the vector unless the length field is so near
  `2 ^ 32` that `msglen + 4` wraps.
-/
import Koisyn.Channel.Receive

namespace Koisyn.Channel

open Koisyn.Theory
open Koisyn.Theory.Bytes

set_option autoImplicit false

/-! ## One pass and the length field -/

/-- The length field: `ntohl` of the first four bytes. -/
def msglen (vec : List UInt8) : Nat := ofBigEndian (vec.take 4)

/-- `vec.size() >= msglen + 4`, the sum at 32 bits. -/
def FrameFits (vec : List UInt8) : Prop := (msglen vec + 4) % 2 ^ 32 ≤ vec.length

instance (vec : List UInt8) : Decidable (FrameFits vec) := inferInstanceAs (Decidable (_ ≤ _))

theorem msglen_lt (vec : List UInt8) : msglen vec < 2 ^ 32 := by
  have read := ofBigEndian_lt (vec.take 4)
  have four : (vec.take 4).length ≤ 4 := List.length_take_le 4 vec
  have power : 256 ^ (vec.take 4).length ≤ 256 ^ 4 := Nat.pow_le_pow_right (by decide) four
  unfold msglen
  omega

/-- Where the branch is taken, the span and the erased range lie inside the vector: the four header
bytes, the payload handed over and what is kept are the whole of it. -/
def InBounds (vec : List UInt8) : Prop :=
  FrameFits vec →
    4 + msglen vec ≤ vec.length ∧ (deframePass { vec }).overran = false ∧
      ∃ payload, payload.length = msglen vec ∧ (deframePass { vec }).delivered = [payload] ∧
        vec = vec.take 4 ++ payload ++ (deframePass { vec }).vec

/-- **The pass stays inside the vector exactly when its sum does not wrap**, or the vector really is
that long. -/
theorem lengthField_inBounds_iff (vec : List UInt8) :
    InBounds vec ↔ msglen vec + 4 < 2 ^ 32 ∨ 4 + msglen vec ≤ vec.length := by
  have small := msglen_lt vec
  constructor
  · intro inside
    by_contra outside
    rw [not_or] at outside
    obtain ⟨wraps, short⟩ := outside
    have sum : (msglen vec + 4) % 2 ^ 32 = msglen vec + 4 - 2 ^ 32 := by omega
    have four : 4 ≤ vec.length := by
      -- a field that near the top has all its four bytes
      by_contra less
      have read := ofBigEndian_lt (vec.take 4)
      have power : 256 ^ (vec.take 4).length ≤ 256 ^ 3 := by
        apply Nat.pow_le_pow_right (by decide)
        rw [List.length_take]
        omega
      unfold msglen at wraps
      omega
    apply short
    exact (inside (by rw [FrameFits, sum]; omega)).1
  · intro condition fits
    have whole : 4 + msglen vec ≤ vec.length := by
      rcases condition with noWrap | whole
      · rw [FrameFits, Nat.mod_eq_of_lt noWrap] at fits
        omega
      · exact whole
    have pass : deframePass { vec } =
        { vec := vec.drop (4 + msglen vec), delivered := [(vec.drop 4).take (msglen vec)] } := by
      unfold FrameFits msglen at fits
      unfold msglen at whole
      simp only [deframePass, fits, whole, if_true, List.nil_append]
      rfl
    rw [pass]
    refine ⟨whole, rfl, _, ?_, rfl, ?_⟩
    · rw [List.length_take, List.length_drop]
      omega
    · rw [← List.take_add, List.take_append_drop]

/-- A header of `2 ^ 32 - 4` and nothing else: the sum is zero, the branch is taken, and the span is
four gigabytes past the vector. -/
theorem lengthField_not_inBounds : ¬ ∀ vec : List UInt8, 4 ≤ vec.length → InBounds vec := by
  intro always
  have wrapped : msglen [0xff, 0xff, 0xff, 0xfc] = 2 ^ 32 - 4 := by decide
  have inside := (always [0xff, 0xff, 0xff, 0xfc] (by decide) (by decide)).1
  rw [wrapped] at inside
  exact absurd inside (by decide)

/-! ## The loop -/

/-- Complete frames, and then fewer bytes than a header has. -/
def Complete (vec : List UInt8) : Prop :=
  ∃ (payloads : List (List UInt8)) (tail : List UInt8),
    (∀ payload ∈ payloads, framing.Valid payload) ∧ vec = framing.frames payloads ++ tail ∧
      tail.length < 4

/-- The loop ends, and every pass on the way removes a complete frame and hands its payload over. -/
def TakesFrames (vec : List UInt8) : Prop :=
  WhileLoop.Ends deframeGoing deframePass { vec } ∧
    ∀ n, let s := WhileLoop.rounds deframeGoing deframePass n { vec }
      deframeGoing s = true → ∃ payload, framing.Valid payload ∧
        s.vec = frame payload ++ (deframePass s).vec ∧
        (deframePass s).delivered = s.delivered ++ [payload]

theorem four_le_of_going {s : DeframeLocals} (going : deframeGoing s = true) : 4 ≤ s.vec.length := by
  simp only [deframeGoing, Bool.and_eq_true, decide_eq_true_eq] at going
  exact going.2

/-- A frame at the front of the vector is what a pass takes. -/
theorem deframePass_frame {s : DeframeLocals} {payload rest : List UInt8}
    (valid : framing.Valid payload) (front : s.vec = frame payload ++ rest) :
    deframePass s = { s with vec := rest, delivered := s.delivered ++ [payload] } := by
  have small : payload.length < 256 ^ 4 := valid
  have header : s.vec.take 4 = bigEndian 4 payload.length := by
    rw [front, frame, List.append_assoc]
    exact List.take_left' (by simp)
  have after : s.vec.drop 4 = payload ++ rest := by
    rw [front, frame, List.append_assoc]
    exact List.drop_left' (by simp)
  have length : s.vec.length = 4 + payload.length + rest.length := by
    rw [front, List.length_append, length_frame]
  have wrapped : (payload.length + 4) % 2 ^ 32 ≤ s.vec.length := by
    have := Nat.mod_le (payload.length + 4) (2 ^ 32)
    omega
  have whole : 4 + payload.length ≤ s.vec.length := by omega
  have kept : s.vec.drop (4 + payload.length) = rest := by
    rw [← List.drop_drop, after, List.drop_left]
  simp only [deframePass, header, ofBigEndian_bigEndian small, wrapped, whole, if_true, after, kept,
    List.take_left]

/-- On a complete vector a pass takes a frame, and leaves a complete vector. -/
theorem deframePass_complete {s : DeframeLocals} (complete : Complete s.vec)
    (going : deframeGoing s = true) :
    ∃ payload, framing.Valid payload ∧ s.vec = frame payload ++ (deframePass s).vec ∧
      (deframePass s).delivered = s.delivered ++ [payload] ∧
      (deframePass s).overran = s.overran ∧ Complete (deframePass s).vec := by
  obtain ⟨payloads, tail, valid, whole, short⟩ := complete
  have long := four_le_of_going going
  cases payloads with
  | nil =>
      rw [framing.frames_nil, List.nil_append] at whole
      rw [whole] at long
      omega
  | cons payload payloads =>
      have first := valid payload List.mem_cons_self
      rw [framing.frames_cons, List.append_assoc] at whole
      have taken := deframePass_frame first whole
      refine ⟨payload, first, ?_, ?_, ?_, payloads, tail, ?_, ?_, short⟩
      · rw [taken]
        exact whole
      · rw [taken]
      · rw [taken]
      · exact fun p member => valid p (List.mem_cons_of_mem _ member)
      · rw [taken]

theorem rounds_complete {vec : List UInt8} (complete : Complete vec) (n : Nat) :
    let s := WhileLoop.rounds deframeGoing deframePass n { vec }
    s.overran = false ∧ Complete s.vec := by
  let I : DeframeLocals → Prop := fun s => s.overran = false ∧ Complete s.vec
  have keeps : ∀ s, I s → deframeGoing s = true → I (deframePass s) := by
    rintro s ⟨running, complete⟩ going
    obtain ⟨-, -, -, -, same, rest⟩ := deframePass_complete complete going
    exact ⟨same.trans running, rest⟩
  exact WhileLoop.rounds_invariant keeps n ⟨rfl, complete⟩

/-- **Where the model's loop stands at its end**, the vector was complete. -/
theorem deframe_exit_none_iff (vec : List UInt8) : (deframe vec).exit = none ↔ Complete vec := by
  constructor
  · intro ended
    obtain ⟨whole, valid⟩ := deframe_spec vec
    exact ⟨_, _, valid, whole.symm, deframe_ended ended⟩
  · intro complete
    obtain ⟨inside, rest⟩ : (deframe vec).overran = false ∧ Complete (deframe vec).vec :=
      rounds_complete complete (vec.length + 1)
    have shorter : ¬ 4 ≤ (deframe vec).vec.length := by
      intro long
      have going : deframeGoing (deframe vec) = true := by
        simp only [deframeGoing, Bool.and_eq_true, Bool.not_eq_true', decide_eq_true_eq]
        exact ⟨inside, long⟩
      rcases deframe_settled vec with ended | stuck
      · rw [ended] at going
        cases going
      · -- a pass that takes a frame does not stand still
        obtain ⟨payload, -, front, -⟩ := deframePass_complete rest going
        have length := congrArg List.length front
        rw [List.length_append, length_frame, stuck] at length
        omega
    rw [DeframeLocals.exit, inside, if_neg (by decide), if_neg shorter]

/-- **The loop takes frames and ends exactly on a complete vector.** -/
theorem takesFrames_iff (vec : List UInt8) : TakesFrames vec ↔ Complete vec := by
  constructor
  · rintro ⟨ends, takes⟩
    have running : ∀ n, (WhileLoop.rounds deframeGoing deframePass n { vec }).overran = false := by
      intro n
      induction n with
      | zero => rfl
      | succ n ih =>
          rw [WhileLoop.rounds_add]
          show (if _ then _ else _ : DeframeLocals).overran = false
          split
          · rename_i going
            obtain ⟨payload, -, front, delivered⟩ := takes n going
            rcases deframePass_cases _ going with ⟨-, -, -, -, same⟩ | left | stuck
            · exact same.trans ih
            · rw [left] at delivered
              simp at delivered
            · rw [stuck] at delivered
              simp at delivered
          · exact ih
    apply (deframe_exit_none_iff vec).1
    have inside : (deframe vec).overran = false := running _
    have notSpins : (deframe vec).exit ≠ some .spins := fun spins => (deframe_spins_iff vec).1 spins ends
    rw [DeframeLocals.exit, inside, if_neg (by decide)] at notSpins ⊢
    split at notSpins
    · exact absurd rfl notSpins
    · rename_i short
      exact if_neg short
  · intro complete
    have exit := (deframe_exit_none_iff vec).2 complete
    refine ⟨?_, ?_⟩
    · by_contra never
      rw [(deframe_spins_iff vec).2 never] at exit
      cases exit
    · intro n s going
      obtain ⟨payload, valid, front, delivered, -, -⟩ :=
        deframePass_complete (rounds_complete complete n).2 going
      exact ⟨payload, valid, front, delivered⟩

/-! ## The handler -/

/-- What follows complete frames decides. -/
theorem complete_frames_append {payloads : List (List UInt8)}
    (valid : ∀ payload ∈ payloads, framing.Valid payload) (rest : List UInt8) :
    Complete (framing.frames payloads ++ rest) ↔ Complete rest := by
  constructor
  · rintro ⟨more, tail, validM, whole, short⟩
    have shorter : ∀ payload : List UInt8, tail.length < (framing.frame payload).length := by
      intro payload
      have : (framing.frame payload).length = 4 + payload.length := length_frame payload
      omega
    obtain ⟨later, rfl⟩ := framing.prefix_of_frames_append valid validM shorter
      (whole ▸ List.prefix_append _ _)
    refine ⟨later, tail, fun p member => validM p (List.mem_append_right _ member), ?_, short⟩
    rw [framing.frames_append, List.append_assoc] at whole
    exact List.append_cancel_left whole
  · rintro ⟨more, tail, validM, rfl, short⟩
    refine ⟨payloads ++ more, tail, ?_, ?_, short⟩
    · intro p member
      rcases List.mem_append.1 member with first | later
      · exact valid p first
      · exact validM p later
    · rw [framing.frames_append, List.append_assoc]

/-- Where a run of the loop has ended, the bytes that come later decide as if it had not run. -/
theorem complete_append_iff {vec : List UInt8} (more : List UInt8) :
    Complete ((deframe vec).vec ++ more) ↔ Complete (vec ++ more) := by
  obtain ⟨whole, valid⟩ := deframe_spec vec
  rw [← complete_frames_append valid, ← List.append_assoc, whole]

theorem deframe_exit_ne_returned (vec : List UInt8) (status : QuicStatus) :
    (deframe vec).exit ≠ some (.returned status) := by
  unfold DeframeLocals.exit
  split
  · simp
  · split <;> simp

/-- **The loop over the buffers returns** exactly when the bytes held are complete at the end of
every buffer that brings new ones. -/
theorem readBuffers_returns_iff (bufs : List (List UInt8)) {chn : StreamChannel} {nowoff : Nat}
    (starts : nowoff ≤ chn.nextRecvByte) :
    (∃ status, (readBuffers chn chn.nextRecvByte nowoff bufs).exit = .returned status) ↔
      ∀ k, chn.nextRecvByte < nowoff + (bufs.take k).flatten.length →
        Complete (chn.buffer ++ (bufs.take k).flatten.drop (chn.nextRecvByte - nowoff)) := by
  induction bufs generalizing chn nowoff with
  | nil =>
      refine ⟨?_, fun _ => ⟨.continue_, rfl⟩⟩
      intro _ k newer
      rw [List.take_nil, List.flatten_nil, List.length_nil] at newer
      omega
  | cons buf bufs ih =>
      have noGap : ¬ chn.nextRecvByte < nowoff := by omega
      have cut : ∀ {P : Nat → Prop}, P 0 → ((∀ k, P k) ↔ ∀ k, P (k + 1)) := by
        intro P zero
        exact ⟨fun all k => all (k + 1), fun later k => by cases k; exacts [zero, later _]⟩
      rw [cut (by simp; omega)]
      simp only [List.take_succ_cons, List.flatten_cons, List.length_append, ← Nat.add_assoc]
      by_cases stale : nowoff + buf.length ≤ chn.nextRecvByte
      · simp only [readBuffers, noGap, if_false, stale, if_true]
        rw [ih stale]
        refine forall₂_congr fun k newer => ?_
        rw [List.drop_append, List.drop_of_length_le (by omega : buf.length ≤ _), List.nil_append,
          Nat.sub_sub]
      · -- this buffer brings new bytes, and the ones after it bring nothing else
        have split_ : ∀ k, chn.buffer ++ (buf ++ (bufs.take k).flatten).drop
              (chn.nextRecvByte - nowoff) =
            chn.buffer ++ buf.drop (chn.nextRecvByte - nowoff) ++ (bufs.take k).flatten := by
          intro k
          rw [List.drop_append_of_le_length (by omega), List.append_assoc]
        have newer : ∀ k, chn.nextRecvByte < nowoff + buf.length + (bufs.take k).flatten.length := by
          intro k
          omega
        simp only [readBuffers, noGap, if_false, stale, split_, newer, forall_const]
        have atEnd := deframe_exit_none_iff (chn.buffer ++ buf.drop (chn.nextRecvByte - nowoff))
        generalize chn.buffer ++ buf.drop (chn.nextRecvByte - nowoff) = vec at atEnd
        cases ended : (deframe vec).exit with
        | some exit =>
            constructor
            · rintro ⟨status, rfl⟩
              exact absurd ended (deframe_exit_ne_returned vec status)
            · intro all
              have complete := all 0
              rw [List.take_zero, List.flatten_nil, List.append_nil, ← atEnd, ended] at complete
              cases complete
        | none =>
            have complete := atEnd.1 ended
            let read : StreamChannel :=
              { chn with buffer := (deframe vec).vec, nextRecvByte := nowoff + buf.length }
            have starts' : nowoff + buf.length ≤ read.nextRecvByte := Nat.le_refl _
            refine (ih starts').trans ?_
            refine forall_congr' fun k => ?_
            rw [Nat.sub_self, List.drop_zero]
            show (_ → Complete ((deframe vec).vec ++ _)) ↔ _
            rw [complete_append_iff]
            constructor
            · intro later
              by_cases empty : (bufs.take k).flatten.length = 0
              · rw [List.length_eq_zero_iff.1 empty, List.append_nil]
                exact complete
              · apply later
                show nowoff + buf.length < nowoff + buf.length + _
                omega
            · exact fun all _ => all

/-- The activation gets to the received bytes: the application's object is alive, the stream's index
is in range, and there is no gap before the bytes. -/
structure Reads (alive : ObjectId → Bool) (id : Nat) (ev : ReceiveEvent) (ctx : ConnectionContext)
    (index : Fin 4) : Prop where
  isOpen : (lockChannelContext alive ctx.channelContext).isSome
  named : (id >>> 2) % 2 ^ 32 = index
  starts : ev.absoluteOffset ≤ (ctx.reliable index).nextRecvByte

/-- **Exactly when the deframing loop ends.**  On any vector it takes complete frames and ends
exactly when the vector is complete; and an activation that gets to its bytes returns exactly when
what the channel holds is complete at the end of every buffer that brings new bytes. -/
theorem deframing_ends_iff (slot : Slot) (alive : ObjectId → Bool) (id : Nat) (ev : ReceiveEvent)
    (ctx : ConnectionContext) :
    (∀ vec, TakesFrames vec ↔ Complete vec) ∧
      ((∀ index, Reads alive id ev ctx index →
          ∃ status, (handleReceive slot alive id ev ctx).exit = .returned status) ↔
        ∀ index, Reads alive id ev ctx index → let chn := ctx.reliable index
          ∀ k, chn.nextRecvByte < ev.absoluteOffset + (ev.buffers.take k).flatten.length →
            Complete (chn.buffer ++
              (ev.buffers.take k).flatten.drop (chn.nextRecvByte - ev.absoluteOffset))) := by
  refine ⟨takesFrames_iff, forall₂_congr fun index reads => ?_⟩
  obtain ⟨channelCtx, locked⟩ := Option.isSome_iff_exists.1 reads.isOpen
  have inRange : (id >>> 2) % 2 ^ 32 < 4 := reads.named ▸ index.isLt
  have isIndex : (⟨(id >>> 2) % 2 ^ 32, inRange⟩ : Fin 4) = index := Fin.ext reads.named
  have noCorrupt := (readBuffers_advances ev.buffers reads.starts).1
  rw [← readBuffers_returns_iff ev.buffers reads.starts]
  simp only [handleReceive, locked, inRange, dite_true, isIndex]
  by_cases stale : ev.absoluteOffset + ev.totalBufferLength ≤ (ctx.reliable index).nextRecvByte
  · -- every buffer is old news, so the loop over them returns as well
    rw [if_pos stale]
    refine ⟨fun _ => (readBuffers_returns_iff ev.buffers reads.starts).2 ?_, fun _ => ⟨_, rfl⟩⟩
    intro k newer
    have whole := congrArg (fun bufs => bufs.flatten.length) (List.take_append_drop k ev.buffers)
    simp only [List.flatten_append, List.length_append] at whole
    rw [ev.total] at stale
    omega
  · rw [if_neg stale, if_neg noCorrupt]

/-- A header that says five and two of the bytes: no pass takes anything, and the handler of the
activation that brings them spins. -/
theorem deframing_spins :
    ¬ TakesFrames [0, 0, 0, 5, 1, 2] ∧
      (handleReceive 0 (fun _ => true) 0 ⟨0, 6, [[0, 0, 0, 5, 1, 2]], rfl⟩
        { channelContext := some 7 }).exit = .spins := by
  have spins : (deframe [0, 0, 0, 5, 1, 2]).exit = some .spins := by decide
  refine ⟨?_, ?_⟩
  · rintro ⟨ends, -⟩
    exact (deframe_spins_iff _).1 spins ends
  · decide

end Koisyn.Channel
