/-
# Koisyn.Theory.LockTrace — what one thread locks, and what it calls meanwhile

A trace is the list of a thread's lock operations in program order, with the calls it makes to code
that may lock as well.  `held` follows it over the mutexes the thread holds and ends in `none` where the
thread locks one of them again: with non-recursive mutexes it would wait for itself.

`during f` lets every call `a` run the operations `f a`.  `clean_during` is the rule for a whole trace:
when each call is made under known mutexes (`CallsUnder`), and what it runs either returns with those
held or locks one again (`KeepsIff`), the trace with its calls is clean exactly if the trace alone is
and no call locks again.  Nothing in this file names a mutex.
-/
import Mathlib.Data.List.Basic

namespace Koisyn.Theory.LockTrace

set_option autoImplicit false

universe u v

/-- `probe` is a `try_lock` with its unlock: it never waits. -/
inductive Op (μ : Type u) (α : Type v) where
  | lock (m : μ)
  | unlock (m : μ)
  | probe (m : μ)
  | call (a : α)

variable {μ : Type u} {α : Type v} [DecidableEq μ]

set_option linter.unusedSectionVars false

/-- The mutexes held at the end; `none` when one was locked that was held. -/
def held : List μ → List (Op μ α) → Option (List μ)
  | hs, [] => some hs
  | hs, .lock m :: ops => if m ∈ hs then none else held (m :: hs) ops
  | hs, .unlock m :: ops => held (hs.erase m) ops
  | hs, .probe _ :: ops => held hs ops
  | hs, .call _ :: ops => held hs ops

/-- A thread that starts without a mutex never waits for itself. -/
def Clean (ops : List (Op μ α)) : Prop := (held [] ops).isSome = true

instance decidableClean (ops : List (Op μ α)) : Decidable (Clean ops) :=
  inferInstanceAs (Decidable (_ = _))

/-- A `lock_guard` around a block. -/
def guarded (m : μ) (body : List (Op μ α)) : List (Op μ α) := .lock m :: body ++ [.unlock m]

theorem held_append (hs : List μ) (ops more : List (Op μ α)) :
    held hs (ops ++ more) = (held hs ops).bind fun hs => held hs more := by
  induction ops generalizing hs with
  | nil => rfl
  | cons op ops ih =>
      cases op with
      | lock m =>
          by_cases again : m ∈ hs
          · simp [held, again]
          · simp [held, again, ih]
      | _ => simp [held, ih]

theorem held_guarded {hs : List μ} {m : μ} (free : m ∉ hs) (body : List (Op μ α)) :
    held hs (guarded m body) = (held (m :: hs) body).map fun hs => hs.erase m := by
  rw [guarded, List.cons_append, held, if_neg free, held_append]
  cases held (m :: hs) body <;> rfl

/-! ## Operations that return with the mutexes they found -/

/-- The operations return with the mutexes held before where `P` holds, and lock one again where not. -/
def KeepsIff (hs : List μ) (ops : List (Op μ α)) (P : Prop) : Prop :=
  (P → held hs ops = some hs) ∧ (¬ P → held hs ops = none)

theorem keepsIff_nil (hs : List μ) : KeepsIff hs ([] : List (Op μ α)) True :=
  ⟨fun _ => rfl, fun never => absurd trivial never⟩

theorem KeepsIff.congr {hs : List μ} {ops : List (Op μ α)} {P Q : Prop} (keeps : KeepsIff hs ops P)
    (same : P ↔ Q) : KeepsIff hs ops Q :=
  ⟨fun holds => keeps.1 (same.2 holds), fun fails => keeps.2 fun holds => fails (same.1 holds)⟩

theorem KeepsIff.append {hs : List μ} {ops more : List (Op μ α)} {P Q : Prop}
    (first : KeepsIff hs ops P) (second : KeepsIff hs more Q) :
    KeepsIff hs (ops ++ more) (P ∧ Q) := by
  by_cases holds : P
  · refine ⟨?_, ?_⟩
    · rintro ⟨-, later⟩
      rw [held_append, first.1 holds, Option.bind_some, second.1 later]
    · intro fails
      rw [held_append, first.1 holds, Option.bind_some, second.2 fun later => fails ⟨holds, later⟩]
  · refine ⟨fun both => absurd both.1 holds, fun _ => ?_⟩
    rw [held_append, first.2 holds, Option.bind_none]

theorem KeepsIff.guarded {hs : List μ} {m : μ} {body : List (Op μ α)} {P : Prop} (free : m ∉ hs)
    (keeps : KeepsIff (m :: hs) body P) : KeepsIff hs (guarded m body) P := by
  refine ⟨?_, ?_⟩
  · intro holds
    rw [held_guarded free, keeps.1 holds, Option.map_some, List.erase_cons_head]
  · intro fails
    rw [held_guarded free, keeps.2 fails, Option.map_none]

theorem keepsIff_guarded_again {hs : List μ} {m : μ} (again : m ∈ hs) (body : List (Op μ α)) :
    KeepsIff hs (LockTrace.guarded m body) False := by
  refine ⟨False.elim, fun _ => ?_⟩
  rw [LockTrace.guarded, List.cons_append, held, if_pos again]

theorem KeepsIff.flatMap {ι : Type} {hs : List μ} {xs : List ι} {f : ι → List (Op μ α)}
    {P : ι → Prop} (each : ∀ x ∈ xs, KeepsIff hs (f x) (P x)) :
    KeepsIff hs (xs.flatMap f) (∀ x ∈ xs, P x) := by
  induction xs with
  | nil => exact (keepsIff_nil hs).congr (by simp)
  | cons x xs ih =>
      have rest := ih fun y member => each y (List.mem_cons_of_mem x member)
      exact ((each x List.mem_cons_self).append rest).congr List.forall_mem_cons.symm

/-! ## Traces with their calls -/

/-- The calls of a trace. -/
def callsOf (ops : List (Op μ α)) : List α :=
  ops.filterMap fun
    | .call a => some a
    | _ => none

@[simp] theorem callsOf_nil : callsOf ([] : List (Op μ α)) = [] := rfl

@[simp] theorem callsOf_cons_lock (m : μ) (ops : List (Op μ α)) :
    callsOf (.lock m :: ops) = callsOf ops := rfl

@[simp] theorem callsOf_cons_call (a : α) (ops : List (Op μ α)) :
    callsOf (.call a :: ops) = a :: callsOf ops := rfl

@[simp] theorem callsOf_append (ops more : List (Op μ α)) :
    callsOf (ops ++ more) = callsOf ops ++ callsOf more := List.filterMap_append

@[simp] theorem callsOf_guarded (m : μ) (body : List (Op μ α)) :
    callsOf (guarded m body) = callsOf body := by
  simp [guarded, callsOf]

@[simp] theorem callsOf_map_call {ι : Type} (xs : List ι) (f : ι → α) :
    callsOf (xs.map fun x => (.call (f x) : Op μ α)) = xs.map f := by
  induction xs with
  | nil => rfl
  | cons x xs ih => exact congrArg (f x :: ·) ih

@[simp] theorem callsOf_map_probe {ι : Type} (xs : List ι) (f : ι → μ) :
    callsOf (xs.map fun x => (.probe (f x) : Op μ α)) = [] := by
  induction xs with
  | nil => rfl
  | cons x xs ih => exact ih

theorem callsOf_flatMap_nil {ι : Type} (xs : List ι) {f : ι → List (Op μ α)}
    (silent : ∀ x, callsOf (f x) = []) : callsOf (xs.flatMap f) = [] := by
  rw [callsOf, List.filterMap_flatMap]
  exact List.flatMap_eq_nil_iff.2 fun x _ => silent x

/-- Every call is made while exactly the mutexes `under a` are held. -/
def CallsUnder (under : α → List μ) : List μ → List (Op μ α) → Prop
  | _, [] => True
  | hs, .lock m :: ops => CallsUnder under (m :: hs) ops
  | hs, .unlock m :: ops => CallsUnder under (hs.erase m) ops
  | hs, .probe _ :: ops => CallsUnder under hs ops
  | hs, .call a :: ops => under a = hs ∧ CallsUnder under hs ops

/-- A trace without calls makes each of them under any mutexes. -/
theorem callsUnder_of_silent {under : α → List μ} {ops : List (Op μ α)} (silent : callsOf ops = [])
    (hs : List μ) : CallsUnder under hs ops := by
  induction ops generalizing hs with
  | nil => trivial
  | cons op ops ih =>
      cases op with
      | call a => cases silent
      | _ => exact ih silent _

theorem callsUnder_append {under : α → List μ} {hs hs' : List μ} {ops more : List (Op μ α)}
    (first : CallsUnder under hs ops) (reaches : held hs ops = some hs')
    (second : CallsUnder under hs' more) : CallsUnder under hs (ops ++ more) := by
  induction ops generalizing hs with
  | nil =>
      obtain rfl := Option.some.inj reaches
      exact second
  | cons op ops ih =>
      cases op with
      | lock m =>
          simp only [held] at reaches
          split at reaches
          · cases reaches
          · exact ih first reaches
      | unlock m => exact ih first reaches
      | probe m => exact ih first reaches
      | call a => exact ⟨first.1, ih first.2 reaches⟩

theorem callsUnder_append_silent {under : α → List μ} {hs : List μ} {ops more : List (Op μ α)}
    (first : CallsUnder under hs ops) (silent : callsOf more = []) :
    CallsUnder under hs (ops ++ more) := by
  induction ops generalizing hs with
  | nil => exact callsUnder_of_silent silent hs
  | cons op ops ih =>
      cases op with
      | call a => exact ⟨first.1, ih first.2⟩
      | _ => exact ih first

theorem CallsUnder.guarded {under : α → List μ} {hs : List μ} {m : μ} {body : List (Op μ α)}
    (inside : CallsUnder under (m :: hs) body) : CallsUnder under hs (guarded m body) := by
  have locked : CallsUnder under hs (.lock m :: body) := inside
  exact callsUnder_append_silent locked rfl

theorem callsUnder_map_call {ι : Type} {under : α → List μ} {hs : List μ} {xs : List ι} {f : ι → α}
    (same : ∀ x, under (f x) = hs) : CallsUnder under hs (xs.map fun x => .call (f x)) := by
  induction xs with
  | nil => trivial
  | cons x xs ih => exact ⟨same x, ih⟩

theorem held_map_call {ι : Type} (hs : List μ) (xs : List ι) (f : ι → α) :
    held hs (xs.map fun x => (.call (f x) : Op μ α)) = some hs := by
  induction xs with
  | nil => rfl
  | cons x xs ih => exact ih

theorem held_map_probe {ι : Type} (hs : List μ) (xs : List ι) (f : ι → μ) :
    held hs (xs.map fun x => (.probe (f x) : Op μ α)) = some hs := by
  induction xs with
  | nil => rfl
  | cons x xs ih => exact ih

/-- The calls run the operations `f` meanwhile. -/
def during (f : α → List (Op μ α)) (ops : List (Op μ α)) : List (Op μ α) :=
  ops.flatMap fun
    | .call a => .call a :: f a
    | op => [op]

theorem during_append (f : α → List (Op μ α)) (ops more : List (Op μ α)) :
    during f (ops ++ more) = during f ops ++ during f more := List.flatMap_append

theorem during_of_silent {f : α → List (Op μ α)} {ops : List (Op μ α)} (silent : callsOf ops = []) :
    during f ops = ops := by
  induction ops with
  | nil => rfl
  | cons op ops ih =>
      cases op with
      | call a => cases silent
      | _ => exact congrArg (_ :: ·) (ih silent)

theorem held_during_none {f : α → List (Op μ α)} {under : α → List μ} {P : α → Prop}
    (each : ∀ a, KeepsIff (under a) (f a) (P a)) {hs : List μ} {ops : List (Op μ α)}
    (calls : CallsUnder under hs ops) (waits : held hs ops = none) :
    held hs (during f ops) = none := by
  induction ops generalizing hs with
  | nil => cases waits
  | cons op ops ih =>
      cases op with
      | lock m =>
          show held hs (.lock m :: during f ops) = none
          simp only [held] at waits ⊢
          split at waits
          · rw [if_pos ‹_›]
          · rw [if_neg ‹_›, ih calls waits]
      | unlock m => exact ih calls waits
      | probe m => exact ih calls waits
      | call a =>
          obtain ⟨rfl, rest⟩ := calls
          show held (under a) (f a ++ during f ops) = none
          rw [held_append]
          by_cases keeps : P a
          · rw [(each a).1 keeps, Option.bind_some, ih rest waits]
          · rw [(each a).2 keeps, Option.bind_none]

theorem held_during_some {f : α → List (Op μ α)} {under : α → List μ} {P : α → Prop}
    (each : ∀ a, KeepsIff (under a) (f a) (P a)) {hs hs' : List μ} {ops : List (Op μ α)}
    (calls : CallsUnder under hs ops) (reaches : held hs ops = some hs') :
    (held hs (during f ops)).isSome = true ↔ ∀ a ∈ callsOf ops, P a := by
  induction ops generalizing hs with
  | nil => simp [during, held, callsOf]
  | cons op ops ih =>
      cases op with
      | lock m =>
          show (held hs (.lock m :: during f ops)).isSome = true ↔ ∀ a ∈ callsOf ops, P a
          simp only [held] at reaches ⊢
          split at reaches
          · cases reaches
          · rw [if_neg ‹_›]
            exact ih calls reaches
      | unlock m => exact ih calls reaches
      | probe m => exact ih calls reaches
      | call a =>
          obtain ⟨rfl, rest⟩ := calls
          show (held (under a) (f a ++ during f ops)).isSome = true ↔ ∀ b ∈ a :: callsOf ops, P b
          rw [held_append, List.forall_mem_cons]
          by_cases keeps : P a
          · rw [(each a).1 keeps, Option.bind_some, ih rest reaches]
            simp [keeps]
          · rw [(each a).2 keeps]
            simp [keeps]

/-- **The rule for a trace with its calls.** -/
theorem clean_during {f : α → List (Op μ α)} {under : α → List μ} {P : α → Prop}
    (each : ∀ a, KeepsIff (under a) (f a) (P a)) {ops : List (Op μ α)}
    (calls : CallsUnder under [] ops) :
    Clean (during f ops) ↔ Clean ops ∧ ∀ a ∈ callsOf ops, P a := by
  unfold Clean
  cases reaches : held [] ops with
  | none => simp [held_during_none each calls reaches]
  | some hs => simp [held_during_some each calls reaches]

end Koisyn.Theory.LockTrace
