/-
# Koisyn.Theory.Schedule — events that may come in any order

Each of a set of events happens to a machine once, in any order in which none comes before an event that
it needs.  `exec_of_ordered` is the induction for all these orders at once: when an event can be taken as
soon as those it needs have been, and `P` follows which events have been taken, every order runs to its
end and `P` holds there of all its events.
-/
import Koisyn.Theory.Run

namespace Koisyn.Theory.Schedule

open Koisyn.Theory.Run

set_option autoImplicit false

universe u v w

variable {σ : Type u} {ℓ : Type v} {ε : Type w}

/-- After the events that are done, these may come: none is repeated, and each comes after those that
it needs. -/
def Ordered (needs : ε → List ε) : List ε → List ε → Prop
  | _, [] => True
  | done, e :: rest => e ∉ done ∧ needs e ⊆ done ∧ Ordered needs (e :: done) rest

instance decidableOrdered [DecidableEq ε] {needs : ε → List ε} :
    ∀ done order : List ε, Decidable (Ordered needs done order)
  | _, [] => isTrue trivial
  | done, e :: rest =>
      have : Decidable (Ordered needs (e :: done) rest) := decidableOrdered (e :: done) rest
      inferInstanceAs (Decidable (_ ∧ _ ∧ _))

/-- Events that need nothing may come in any order. -/
theorem ordered_of_nodup {done order : List ε} (nodup : order.Nodup) (fresh : ∀ e ∈ order, e ∉ done) :
    Ordered (fun _ => []) done order := by
  induction order generalizing done with
  | nil => trivial
  | cons e rest ih =>
      obtain ⟨unrepeated, nodup⟩ := List.nodup_cons.1 nodup
      refine ⟨fresh e List.mem_cons_self, List.nil_subset _, ih nodup ?_⟩
      intro later member
      rw [List.mem_cons, not_or]
      refine ⟨?_, fresh later (List.mem_cons_of_mem _ member)⟩
      rintro rfl
      exact unrepeated member

variable {step : σ → ℓ → Option σ} {label : ε → ℓ} {needs : ε → List ε} {P : List ε → σ → Prop}

/-- **Every order runs to its end.** -/
theorem exec_of_ordered
    (advances : ∀ done s e, P done s → e ∉ done → needs e ⊆ done →
      ∃ t, step s (label e) = some t ∧ P (e :: done) t)
    {done order : List ε} (ordered : Ordered needs done order) {s : σ} (holds : P done s) :
    ∃ t, exec step s (order.map label) = some t ∧ P (order.reverse ++ done) t := by
  induction order generalizing done s with
  | nil => exact ⟨s, rfl, holds⟩
  | cons e rest ih =>
      obtain ⟨fresh, met, ordered⟩ := ordered
      obtain ⟨middle, taken, advanced⟩ := advances done s e holds fresh met
      obtain ⟨t, run, ends⟩ := ih ordered advanced
      refine ⟨t, ?_, ?_⟩
      · rw [List.map_cons, exec_cons, taken]
        exact run
      · rw [List.reverse_cons, List.append_assoc]
        exact ends

end Koisyn.Theory.Schedule
