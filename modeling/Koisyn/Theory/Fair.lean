/-
# Koisyn.Theory.Fair — executions that never end, and what must happen in them

An execution of a labelled machine is an infinite sequence of states, in which at every time a step is
taken or nothing happens.  What a run keeps it keeps here too (`Execution.stable`).

What must happen needs an assumption about the scheduler: `Execution.Serves helpful blocked` says that
from every state that is not `blocked` on a helpful step comes.  `Execution.eventually` is the rule of a
measure: where no step raises it and the helpful ones lower it, the goal is reached.
`Execution.ofRun` lets a finite run stand still at its end.
Nothing in this file names a machine.
-/
import Koisyn.Theory.Run
import Mathlib.Data.Nat.Init
import Mathlib.Tactic.ByContra

namespace Koisyn.Theory.Fair

open Koisyn.Theory.Run

set_option autoImplicit false

universe u v

variable {σ : Type u} {ℓ : Type v} {step : σ → ℓ → Option σ}

/-- An infinite execution; the label `none` is a time at which nothing happens. -/
structure Execution (step : σ → ℓ → Option σ) (start : σ) where
  state : Nat → σ
  label : Nat → Option ℓ
  starts : state 0 = start
  follows : ∀ n, label n = none ∧ state (n + 1) = state n ∨
    ∃ l, label n = some l ∧ step (state n) l = some (state (n + 1))

namespace Execution

variable {start : σ} (e : Execution step start)

/-- A step that the execution takes is one of the machine's. -/
theorem taken {n : Nat} {l : ℓ} (labelled : e.label n = some l) :
    step (e.state n) l = some (e.state (n + 1)) := by
  rcases e.follows n with ⟨idle, -⟩ | ⟨l', labelled', next⟩
  · rw [labelled] at idle
    cases idle
  · obtain rfl := Option.some.inj (labelled.symm.trans labelled')
    exact next

/-- What every step keeps holds from then on. -/
theorem stable {P : σ → Prop} (keeps : ∀ s l t, P s → step s l = some t → P t) {n m : Nat}
    (later : n ≤ m) (holds : P (e.state n)) : P (e.state m) := by
  induction m, later using Nat.le_induction with
  | base => exact holds
  | succ m later ih =>
      rcases e.follows m with ⟨-, same⟩ | ⟨l, -, next⟩
      · rw [same]
        exact ih
      · exact keeps _ l _ ih next

/-- What the steps that this execution takes keep holds from then on. -/
theorem stable_of_labels {P : σ → Prop} {n : Nat}
    (keeps : ∀ m l, n ≤ m → P (e.state m) → e.label m = some l → P (e.state (m + 1))) {m : Nat}
    (later : n ≤ m) (holds : P (e.state n)) : P (e.state m) := by
  induction m, later using Nat.le_induction with
  | base => exact holds
  | succ m later ih =>
      rcases e.follows m with ⟨-, same⟩ | ⟨l, labelled, -⟩
      · rw [same]
        exact ih
      · exact keeps m l later ih labelled

/-- From every state that is not blocked a helpful step comes. -/
def Serves (helpful : ℓ → Prop) (blocked : σ → Prop) : Prop :=
  ∀ n, ¬ blocked (e.state n) → ∃ m l, n ≤ m ∧ e.label m = some l ∧ helpful l

/-- **The rule of a measure.**  While the goal is not reached no step raises the measure, every helpful
step lowers it, and a helpful step comes: so the goal is reached.  By induction on the measure. -/
theorem eventually {helpful : ℓ → Prop} {blocked : σ → Prop} (serves : e.Serves helpful blocked)
    (measure : σ → Nat) (goal : σ → Prop) {n : Nat}
    (open_ : ∀ m, n ≤ m → ¬ goal (e.state m) → ¬ blocked (e.state m))
    (descends : ∀ m l, n ≤ m → ¬ goal (e.state m) → e.label m = some l → goal (e.state (m + 1)) ∨
      measure (e.state (m + 1)) ≤ measure (e.state m) ∧
        (helpful l → measure (e.state (m + 1)) < measure (e.state m))) :
    ∃ m, n ≤ m ∧ goal (e.state m) := by
  by_contra never
  have away : ∀ m, n ≤ m → ¬ goal (e.state m) := fun m later reached => never ⟨m, later, reached⟩
  have lowers : ∀ m l, n ≤ m → e.label m = some l →
      measure (e.state (m + 1)) ≤ measure (e.state m) ∧
        (helpful l → measure (e.state (m + 1)) < measure (e.state m)) := by
    intro m l later labelled
    exact (descends m l later (away m later) labelled).resolve_left (away _ (by omega))
  have bounded : ∀ m k, n ≤ m → m ≤ k → measure (e.state k) ≤ measure (e.state m) := by
    intro m k from_ later
    refine e.stable_of_labels (P := fun s => measure s ≤ measure (e.state m)) ?_ later (Nat.le_refl _)
    intro k l later below labelled
    exact Nat.le_trans (lowers k l (Nat.le_trans from_ later) labelled).1 below
  have noMeasure : ∀ size m, n ≤ m → measure (e.state m) ≠ size := by
    intro size
    induction size using Nat.strong_induction_on with
    | _ size ih =>
        intro m later isSize
        obtain ⟨k, l, after, labelled, helps⟩ := serves m (open_ m later (away m later))
        have lower := (lowers k l (Nat.le_trans later after) labelled).2 helps
        have above := bounded m k later after
        exact ih (measure (e.state (k + 1))) (by omega) (k + 1) (by omega) rfl
  exact noMeasure _ n (Nat.le_refl n) rfl

/-- A finite run, which stands still at its end. -/
def ofRun (labels : List ℓ) (run : (exec step start labels).isSome = true) :
    Execution step start where
  state n := (exec step start (labels.take n)).getD start
  label n := labels[n]?
  starts := rfl
  follows n := by
    by_cases inside : n < labels.length
    · right
      have whole : labels.take n ++ labels[n] :: labels.drop (n + 1) = labels := by
        rw [← List.drop_eq_getElem_cons inside, List.take_append_drop]
      refine ⟨labels[n], List.getElem?_eq_getElem inside, ?_⟩
      obtain ⟨s, reached⟩ := Option.isSome_iff_exists.1 run
      rw [← whole, exec_append, Option.bind_eq_some_iff] at reached
      obtain ⟨before, reachedBefore, reached⟩ := reached
      rw [exec_cons, Option.bind_eq_some_iff] at reached
      obtain ⟨next, taken, -⟩ := reached
      have after : exec step start (labels.take (n + 1)) = some next := by
        rw [List.take_succ_eq_append_getElem inside, exec_append, reachedBefore, Option.bind_some, exec_cons,
          taken]
        rfl
      rw [reachedBefore, after]
      exact taken
    · left
      refine ⟨List.getElem?_eq_none_iff.2 (Nat.le_of_not_lt inside), ?_⟩
      rw [List.take_of_length_le (by omega), List.take_of_length_le (by omega)]

/-- From its end on it is in its last state. -/
theorem ofRun_settled {labels : List ℓ} {run : (exec step start labels).isSome = true}
    {size n : Nat} (whole : labels.length = size) (after : size ≤ n) :
    (ofRun labels run).state n = (ofRun labels run).state size := by
  change (exec step start (labels.take n)).getD start =
    (exec step start (labels.take size)).getD start
  rw [List.take_of_length_le (by omega), List.take_of_length_le (by omega)]

end Execution

end Koisyn.Theory.Fair
