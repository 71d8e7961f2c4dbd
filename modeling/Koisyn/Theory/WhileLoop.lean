/-
# Koisyn.Theory.WhileLoop — `while` loops by rounds

A loop `while (cond s) { s = body s; }` is followed for a bounded number of rounds.

* `rounds cond body n s` is the state after at most `n` rounds: it is where the loop stands, whether
  or not it has ended.  `Ends` says that some number of rounds ends it.
* `run cond body n s` is for a body that may fail (a read outside an array): `some t` when the loop
  ended in `t` within `n` rounds and no round failed.

`rounds_settled` is for loops whose rounds either make progress or change nothing: after as many
rounds as the measure says the loop has ended or repeats one state for ever (`not_ends_of_stuck`).
`run_total` is total correctness by an invariant and a measure; `run_eq_none` is the other case, an
invariant under which the loop goes on until a round fails.  `Reached` are the states between rounds, for
what must hold while the loop runs.
-/
import Mathlib.Order.Basic

namespace Koisyn.Theory.WhileLoop

set_option autoImplicit false

universe u

variable {σ : Type u}

section Rounds

variable (cond : σ → Bool) (body : σ → σ)

/-- The state after at most `n` rounds. -/
def rounds : Nat → σ → σ
  | 0, s => s
  | n + 1, s => if cond s then rounds n (body s) else s

/-- Some number of rounds ends the loop. -/
def Ends (s : σ) : Prop := ∃ n, cond (rounds cond body n s) = false

variable {cond body}

theorem rounds_of_done {s : σ} (done : cond s = false) (n : Nat) : rounds cond body n s = s := by
  cases n <;> simp [rounds, done]

theorem rounds_of_stuck {s : σ} (stuck : body s = s) (n : Nat) : rounds cond body n s = s := by
  induction n with
  | zero => rfl
  | succ n ih => simp [rounds, stuck, ih]

theorem rounds_add (m n : Nat) (s : σ) :
    rounds cond body (m + n) s = rounds cond body n (rounds cond body m s) := by
  induction m generalizing s with
  | zero => simp [rounds]
  | succ m ih =>
      rw [Nat.succ_add]
      cases going : cond s with
      | true => simp only [rounds, going, if_true, ih]
      | false => simp [rounds, going, rounds_of_done going]

/-- What every round keeps, any number of rounds keeps. -/
theorem rounds_invariant {I : σ → Prop} (keeps : ∀ s, I s → cond s = true → I (body s)) (n : Nat)
    {s : σ} (start : I s) : I (rounds cond body n s) := by
  induction n generalizing s with
  | zero => exact start
  | succ n ih =>
      simp only [rounds]
      split
      · rename_i going
        exact ih (keeps s start going)
      · exact start

/-- A loop whose rounds lower `μ` or change nothing has ended, or stands still, after `μ s`
rounds. -/
theorem rounds_settled {μ : σ → Nat}
    (progress : ∀ s, cond s = true → body s = s ∨ μ (body s) < μ s) :
    ∀ (n : Nat) (s : σ), μ s ≤ n →
      cond (rounds cond body n s) = false ∨ body (rounds cond body n s) = rounds cond body n s
  | 0, s, bound => by
      cases going : cond s with
      | false => exact .inl going
      | true =>
          rcases progress s going with stuck | lower
          · exact .inr stuck
          · omega
  | n + 1, s, bound => by
      simp only [rounds]
      split
      · rename_i going
        rcases progress s going with stuck | lower
        · rw [stuck, rounds_of_stuck stuck]
          exact .inr stuck
        · exact rounds_settled progress n (body s) (by omega)
      · rename_i done
        exact .inl (by simpa using done)

/-- A loop that stands still with its condition true never ends. -/
theorem not_ends_of_stuck {s : σ} {m : Nat} (going : cond (rounds cond body m s) = true)
    (stuck : body (rounds cond body m s) = rounds cond body m s) : ¬ Ends cond body s := by
  rintro ⟨n, ended⟩
  have later : rounds cond body (m + n) s = rounds cond body m s := by
    rw [rounds_add, rounds_of_stuck stuck]
  have same : rounds cond body (n + m) s = rounds cond body n s := by
    rw [rounds_add, rounds_of_done ended]
  rw [Nat.add_comm n m, later] at same
  rw [same, ended] at going
  cases going

end Rounds

section Failing

variable (cond : σ → Bool) (body : σ → Option σ)

/-- The state the loop ends in, when it ends within `n` rounds and no round fails. -/
def run : Nat → σ → Option σ
  | 0, s => if cond s then none else some s
  | n + 1, s => if cond s then (body s).bind (run n) else some s

variable {cond body}

theorem run_of_done {s : σ} (done : cond s = false) (n : Nat) : run cond body n s = some s := by
  cases n <;> simp [run, done]

/-- **Total correctness.**  An invariant under which every round succeeds, is kept and lowers the
measure gives an end state with the invariant and the condition false. -/
theorem run_total {I : σ → Prop} {μ : σ → Nat}
    (round : ∀ s, I s → cond s = true → ∃ t, body s = some t ∧ I t ∧ μ t < μ s) :
    ∀ (n : Nat) (s : σ), I s → μ s ≤ n →
      ∃ t, run cond body n s = some t ∧ I t ∧ cond t = false
  | n, s, start, bound => by
      cases going : cond s with
      | false => exact ⟨s, run_of_done going n, start, going⟩
      | true =>
          obtain ⟨t, taken, kept, lower⟩ := round s start going
          cases n with
          | zero => omega
          | succ n =>
              obtain ⟨e, ended, holds, done⟩ := run_total round n t kept (by omega)
              exact ⟨e, by simp [run, going, taken, ended], holds, done⟩

/-- A loop that an invariant keeps going never ends in a state. -/
theorem run_eq_none {I : σ → Prop} (going : ∀ s, I s → cond s = true)
    (keeps : ∀ s t, I s → body s = some t → I t) (n : Nat) {s : σ} (start : I s) :
    run cond body n s = none := by
  induction n generalizing s with
  | zero => simp [run, going s start]
  | succ n ih =>
      simp only [run, going s start, if_true]
      exact Option.bind_eq_none_iff.2 fun t taken => ih (keeps s t start taken)

/-- The states in which the loop stands between two rounds. -/
inductive Reached (cond : σ → Bool) (body : σ → Option σ) (s : σ) : σ → Prop
  | start : Reached cond body s s
  | round {t u : σ} (before : Reached cond body s t) (going : cond t = true)
      (taken : body t = some u) : Reached cond body s u

/-- What every round keeps holds between any two. -/
theorem Reached.invariant {I : σ → Prop}
    (keeps : ∀ s t, I s → cond s = true → body s = some t → I t) {s t : σ}
    (reached : Reached cond body s t) (start : I s) : I t := by
  induction reached with
  | start => exact start
  | round before going taken ih => exact keeps _ _ ih going taken

end Failing

end Koisyn.Theory.WhileLoop
