/-
# Koisyn.Theory.Framing — self-delimiting frames, and pieces of one sequence

A `Framing` writes each valid payload as a nonempty string from which, whatever follows, the
payload can be told (`unique`).  `frames` is the concatenation for a list of payloads.

* `prefix_of_frames`: payloads whose frames are a prefix of other payloads' frames are themselves a
  prefix of those payloads.  A receiver that has deframed a prefix of what was written has
  delivered a prefix of what was sent.
* `delivered_iff`: when what is left over holds no whole frame, exactly the payloads whose frames
  lie inside the bytes seen so far have been delivered.
* `take_append_drop_overlap`: a piece of a sequence that starts inside the part already held extends
  that part exactly to the piece's end.
-/
import Mathlib.Data.List.Basic
import Mathlib.Data.List.Infix

namespace Koisyn.Theory

set_option autoImplicit false

universe u v

/-- Payloads written as self-delimiting strings. -/
structure Framing (α : Type u) (β : Type v) where
  frame : α → List β
  Valid : α → Prop
  frame_ne_nil : ∀ a, frame a ≠ []
  unique : ∀ {a b : α} {r s : List β}, Valid a → Valid b → frame a ++ r = frame b ++ s → a = b

namespace Framing

variable {α : Type u} {β : Type v} (F : Framing α β)

/-- The frames of the payloads, one after the other. -/
def frames (payloads : List α) : List β := payloads.flatMap F.frame

@[simp] theorem frames_nil : F.frames [] = [] := rfl

@[simp] theorem frames_cons (a : α) (as : List α) : F.frames (a :: as) = F.frame a ++ F.frames as :=
  rfl

@[simp] theorem frames_append (as bs : List α) : F.frames (as ++ bs) = F.frames as ++ F.frames bs :=
  List.flatMap_append

/-- **Deframing a prefix delivers a prefix.** -/
theorem prefix_of_frames {as bs : List α} (validA : ∀ a ∈ as, F.Valid a)
    (validB : ∀ b ∈ bs, F.Valid b) (written : F.frames as <+: F.frames bs) : as <+: bs := by
  induction as generalizing bs with
  | nil => exact List.nil_prefix
  | cons a as ih =>
      cases bs with
      | nil =>
          have empty := List.prefix_nil.1 written
          simp only [frames_cons, List.append_eq_nil_iff] at empty
          exact absurd empty.1 (F.frame_ne_nil a)
      | cons b bs =>
          obtain ⟨tail, whole⟩ := written
          simp only [frames_cons, List.append_assoc] at whole
          obtain rfl : a = b :=
            F.unique (validA a List.mem_cons_self) (validB b List.mem_cons_self) whole
          rw [List.append_cancel_left_eq] at whole
          have rest := ih (fun x member => validA x (List.mem_cons_of_mem _ member))
            (fun x member => validB x (List.mem_cons_of_mem _ member)) ⟨tail, whole⟩
          exact (List.cons_prefix_cons).2 ⟨rfl, rest⟩

/-- Deframing a prefix delivers a prefix, also when a piece shorter than every frame follows. -/
theorem prefix_of_frames_append {as bs : List α} {tail : List β} (validA : ∀ a ∈ as, F.Valid a)
    (validB : ∀ b ∈ bs, F.Valid b) (short : ∀ a, tail.length < (F.frame a).length)
    (written : F.frames as <+: F.frames bs ++ tail) : as <+: bs := by
  induction as generalizing bs with
  | nil => exact List.nil_prefix
  | cons a as ih =>
      obtain ⟨rest, whole⟩ := written
      simp only [frames_cons, List.append_assoc] at whole
      cases bs with
      | nil =>
          have length := congrArg List.length whole
          have := short a
          simp only [frames_nil, List.nil_append, List.length_append] at length
          omega
      | cons b bs =>
          simp only [frames_cons, List.append_assoc] at whole
          obtain rfl : a = b :=
            F.unique (validA a List.mem_cons_self) (validB b List.mem_cons_self) whole
          rw [List.append_cancel_left_eq] at whole
          apply (List.cons_prefix_cons).2
          exact ⟨rfl, ih (fun x member => validA x (List.mem_cons_of_mem _ member))
            (fun x member => validB x (List.mem_cons_of_mem _ member)) ⟨rest, whole⟩⟩

/-- No payload's frame lies whole at the front of `rest`. -/
def Incomplete (rest : List β) : Prop := ∀ a, F.Valid a → ¬ F.frame a <+: rest

/-- The payloads delivered are those whose frames lie inside the first `n` bytes. -/
theorem delivered_iff {sent delivered : List α} {rest : List β} {n : Nat}
    (validS : ∀ a ∈ sent, F.Valid a) (validD : ∀ a ∈ delivered, F.Valid a)
    (seen : F.frames delivered ++ rest = (F.frames sent).take n) (incomplete : F.Incomplete rest) :
    delivered <+: sent ∧
      ∀ i, i ≤ sent.length → (i ≤ delivered.length ↔ (F.frames (sent.take i)).length ≤ n) := by
  have isPrefix : F.frames delivered <+: F.frames sent :=
    (List.prefix_append _ rest).trans (seen ▸ List.take_prefix n _)
  have front := F.prefix_of_frames validD validS isPrefix
  refine ⟨front, fun i bound => ⟨?_, ?_⟩⟩
  · intro le
    have shorter : sent.take i <+: delivered :=
      List.prefix_of_prefix_length_le (List.take_prefix i sent) front
        (by rw [List.length_take]; omega)
    obtain ⟨more, rfl⟩ := shorter
    have length := congrArg List.length seen
    simp only [frames_append, List.length_append, List.length_take] at length
    omega
  · intro inside
    by_contra short
    obtain ⟨tail, rfl⟩ := front
    cases tail with
    | nil => simp only [List.append_nil] at bound; omega
    | cons a tail =>
        -- the next payload's frame would lie whole at the front of what is left over
        apply incomplete a (validS a (by simp))
        have upTo : delivered ++ [a] <+: (delivered ++ a :: tail).take i :=
          List.prefix_of_prefix_length_le (by simp) (List.take_prefix i _)
            (by simp only [List.length_take, List.length_append, List.length_cons,
                  List.length_nil] at bound ⊢; omega)
        obtain ⟨more, whole⟩ := upTo
        have length := congrArg (fun l => (F.frames l).length) whole
        simp only [frames_append, List.length_append] at length
        have next : F.frames delivered ++ F.frame a <+: F.frames delivered ++ rest := by
          rw [seen]
          refine List.prefix_of_prefix_length_le ?_ (List.take_prefix n _) ?_
          · simp only [frames_append, frames_cons]
            exact (List.prefix_append_right_inj _).2 (List.prefix_append _ _)
          · have : (F.frames (delivered ++ a :: tail)).length ≥
                (F.frames delivered).length + (F.frame a).length := by
              simp only [frames_append, frames_cons, List.length_append]
              omega
            simp only [frames_cons, frames_nil, List.append_nil] at length
            rw [List.length_append, List.length_take]
            omega
        exact (List.prefix_append_right_inj _).1 next

end Framing

/-! ## Pieces of one sequence -/

/-- A piece starting at or before the end of the part held extends it to the piece's end. -/
theorem take_append_drop_overlap {β : Type v} (S : List β) {n begin_ : Nat} (piece : List β)
    (starts : begin_ ≤ n) (reaches : n ≤ begin_ + piece.length)
    (isPiece : piece <+: S.drop begin_) :
    S.take n ++ piece.drop (n - begin_) = S.take (begin_ + piece.length) := by
  obtain ⟨rest, whole⟩ := isPiece
  have tail : S.drop n = piece.drop (n - begin_) ++ rest := by
    rw [show n = begin_ + (n - begin_) by omega, ← List.drop_drop, ← whole,
      List.drop_append_of_le_length (by omega)]
    simp
  have split : S.take (begin_ + piece.length) = S.take n ++ (S.drop n).take
      (begin_ + piece.length - n) := by
    rw [← List.take_add, Nat.add_sub_cancel' reaches]
  rw [split, tail, List.take_left' (by rw [List.length_drop]; omega)]

end Koisyn.Theory
