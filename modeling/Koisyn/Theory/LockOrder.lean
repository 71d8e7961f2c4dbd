/-
# Koisyn.Theory.LockOrder — many threads that lock in one order

Several threads work through their lock traces; a mutex has at most one owner, and a thread whose next
operation locks an owned mutex has no step.  Any interleaving is a run of `step`, whose labels say which
thread moves.

`Ordered rank hs ops hs'`: from the mutexes `hs` the operations lead to `hs'`, and each lock is of a mutex
that ranks above all those held.  When the trace of every thread is ordered and leaves nothing held, no
reachable state is stuck (`progress`), and every run is the beginning of one in which all threads reach
their ends (`completes`), after exactly as many steps as there were operations (`exec_pending`).

`crossed_of_traces` is the other side: two threads each of which gets as far as a mutex the other holds
can wait for each other for good (`Crossed.always`).  Nothing in this file names a mutex.
-/
import Koisyn.Theory.LockTrace
import Koisyn.Theory.Run
import Mathlib.Algebra.BigOperators.Group.Finset.Basic
import Mathlib.Logic.Function.Basic
import Mathlib.Order.WellFounded

namespace Koisyn.Theory.LockOrder

open Koisyn.Theory.LockTrace
open Koisyn.Theory.Run

set_option autoImplicit false

universe u v w x

variable {ι : Type w} {μ : Type u} {α : Type v} [DecidableEq ι] [DecidableEq μ]

set_option linter.unusedSectionVars false

/-! ## Threads -/

/-- What each thread has yet to do, and who holds each mutex. -/
@[ext] structure Threads (ι : Type w) (μ : Type u) (α : Type v) where
  rest : ι → List (Op μ α)
  owner : μ → Option ι

/-- The threads before any of them has moved. -/
def Threads.start (traces : ι → List (Op μ α)) : Threads ι μ α := ⟨traces, fun _ => none⟩

/-- The thread takes its next operation: `none` when it has none, or waits for the mutex. -/
def step (s : Threads ι μ α) (i : ι) : Option (Threads ι μ α) :=
  match s.rest i with
  | [] => none
  | .lock m :: ops =>
      if s.owner m = none then
        some ⟨Function.update s.rest i ops, Function.update s.owner m (some i)⟩
      else none
  | .unlock m :: ops =>
      some ⟨Function.update s.rest i ops,
        if s.owner m = some i then Function.update s.owner m none else s.owner⟩
  | .probe _ :: ops => some ⟨Function.update s.rest i ops, s.owner⟩
  | .call _ :: ops => some ⟨Function.update s.rest i ops, s.owner⟩

/-- The thread has something left to do and cannot go on. -/
def Waits (s : Threads ι μ α) (i : ι) : Prop := s.rest i ≠ [] ∧ step s i = none

/-- A thread waits exactly when its next operation locks a mutex that is owned. -/
theorem waits_iff {s : Threads ι μ α} {i : ι} :
    Waits s i ↔ ∃ m ops j, s.rest i = .lock m :: ops ∧ s.owner m = some j := by
  unfold Waits step
  cases rest : s.rest i with
  | nil => simp
  | cons op ops =>
      cases op with
      | lock m =>
          cases owned : s.owner m with
          | none => simp [owned]
          | some j => simp [owned]
      | _ => simp

/-- What a thread holds after an operation. -/
def next (hs : List μ) : Op μ α → List μ
  | .lock m => m :: hs
  | .unlock m => hs.erase m
  | .probe _ | .call _ => hs

/-- A step is the thread's first operation, which locks only what is free. -/
theorem step_cases {s t : Threads ι μ α} {i : ι} (taken : step s i = some t) :
    ∃ op ops, s.rest i = op :: ops ∧ t.rest = Function.update s.rest i ops ∧
      (∀ m, op = .lock m → s.owner m = none) ∧
      (∀ j, j ≠ i → ∀ m, t.owner m = some j ↔ s.owner m = some j) ∧
      ∀ hs : List μ, hs.Nodup → (∀ m, s.owner m = some i ↔ m ∈ hs) →
        (next hs op).Nodup ∧ ∀ m, t.owner m = some i ↔ m ∈ next hs op := by
  unfold step at taken
  split at taken
  · cases taken
  · rename_i m ops rest
    split at taken
    · rename_i free
      cases taken
      refine ⟨_, ops, rest, rfl, ?_, ?_, ?_⟩
      · rintro n ⟨⟩
        exact free
      · intro j other n
        by_cases its : n = m
        · subst its
          simp [free, Ne.symm other]
        · simp [Function.update_of_ne its]
      · intro hs nodup owns
        have fresh : m ∉ hs := by
          intro again
          have owned := (owns m).2 again
          rw [free] at owned
          cases owned
        refine ⟨List.nodup_cons.2 ⟨fresh, nodup⟩, fun n => ?_⟩
        by_cases its : n = m
        · subst its
          simp [next]
        · simpa [next, Function.update_of_ne its, its] using owns n
    · cases taken
  · rename_i m ops rest
    cases taken
    refine ⟨_, ops, rest, rfl, by simp, ?_, ?_⟩
    · intro j other n
      dsimp only
      split
      · rename_i mine
        by_cases its : n = m
        · subst its
          simp [mine, Ne.symm other]
        · rw [Function.update_of_ne its]
      · exact Iff.rfl
    · intro hs nodup owns
      refine ⟨nodup.erase m, fun n => ?_⟩
      rw [next, nodup.mem_erase_iff, ← owns n]
      by_cases mine : s.owner m = some i <;> by_cases its : n = m <;> simp_all
  all_goals
    rename_i ops rest
    cases taken
    exact ⟨_, ops, rest, rfl, by simp, fun j _ m => Iff.rfl, fun hs nodup owns => ⟨nodup, owns⟩⟩

/-- An operation that locks nothing owned is a step. -/
theorem step_of_free {s : Threads ι μ α} {i : ι} {op : Op μ α} {ops : List (Op μ α)}
    (rest : s.rest i = op :: ops) (free : ∀ m, op = .lock m → s.owner m = none) :
    ∃ t, step s i = some t := by
  cases op with
  | lock m => exact ⟨_, by simp only [step, rest, if_pos (free m rfl)]; rfl⟩
  | _ => exact ⟨_, by simp only [step, rest]; rfl⟩

/-! ## Ordered traces -/

section Order

variable {ρ : Type x} [Preorder ρ] (rank : μ → ρ)

/-- The operations lead from `hs` to `hs'`, and lock only above what is held. -/
def Ordered : List μ → List (Op μ α) → List μ → Prop
  | hs, [], hs' => hs = hs'
  | hs, .lock m :: ops, hs' => (∀ h ∈ hs, rank h < rank m) ∧ Ordered (m :: hs) ops hs'
  | hs, .unlock m :: ops, hs' => Ordered (hs.erase m) ops hs'
  | hs, .probe _ :: ops, hs' => Ordered hs ops hs'
  | hs, .call _ :: ops, hs' => Ordered hs ops hs'

variable {rank}

theorem Ordered.append {hs mid hs' : List μ} {ops more : List (Op μ α)}
    (first : Ordered rank hs ops mid) (second : Ordered rank mid more hs') :
    Ordered rank hs (ops ++ more) hs' := by
  induction ops generalizing hs with
  | nil =>
      have same : hs = mid := first
      exact same ▸ second
  | cons op ops ih =>
      cases op with
      | lock m => exact ⟨first.1, ih first.2⟩
      | _ => exact ih first

/-- Operations that end with what they found can follow each other. -/
theorem Ordered.followed {hs : List μ} {ops more : List (Op μ α)} (first : Ordered rank hs ops hs)
    (second : Ordered rank hs more hs) : Ordered rank hs (ops ++ more) hs := first.append second

theorem Ordered.guarded {hs : List μ} {m : μ} {body : List (Op μ α)}
    (above : ∀ h ∈ hs, rank h < rank m) (inside : Ordered rank (m :: hs) body (m :: hs)) :
    Ordered rank hs (guarded m body) hs := by
  have locked : Ordered rank hs (.lock m :: body) (m :: hs) := ⟨above, inside⟩
  have unlocked : Ordered rank (m :: hs) [(.unlock m : Op μ α)] hs :=
    List.erase_cons_head m hs
  exact locked.append unlocked

theorem ordered_flatMap {β : Type} {hs : List μ} {xs : List β} {f : β → List (Op μ α)}
    (each : ∀ x ∈ xs, Ordered rank hs (f x) hs) : Ordered rank hs (xs.flatMap f) hs := by
  induction xs with
  | nil => rfl
  | cons x xs ih =>
      refine (each x List.mem_cons_self).append (ih ?_)
      exact fun y member => each y (List.mem_cons_of_mem x member)

theorem ordered_map_call {β : Type} (hs : List μ) (xs : List β) (f : β → α) :
    Ordered rank hs (xs.map fun x => (.call (f x) : Op μ α)) hs := by
  induction xs with
  | nil => rfl
  | cons x xs ih => exact ih

theorem ordered_map_probe {β : Type} (hs : List μ) (xs : List β) (f : β → μ) :
    Ordered rank hs (xs.map fun x => (.probe (f x) : Op μ α)) hs := by
  induction xs with
  | nil => rfl
  | cons x xs ih => exact ih

/-- **The rule for a trace with its calls**: what each runs is ordered above the mutexes it runs under. -/
theorem Ordered.during {f : α → List (Op μ α)} {under : α → List μ} {hs hs' : List μ}
    {ops : List (Op μ α)} (ordered : Ordered rank hs ops hs') (calls : CallsUnder under hs ops)
    (each : ∀ a ∈ callsOf ops, Ordered rank (under a) (f a) (under a)) :
    Ordered rank hs (during f ops) hs' := by
  induction ops generalizing hs with
  | nil => exact ordered
  | cons op ops ih =>
      cases op with
      | lock m => exact ⟨ordered.1, ih ordered.2 calls each⟩
      | unlock m => exact ih ordered calls each
      | probe m => exact ih ordered calls each
      | call a =>
          obtain ⟨rfl, later⟩ := calls
          have now : Ordered rank (under a) (f a) (under a) := each a List.mem_cons_self
          have rest : Ordered rank (under a) (LockTrace.during f ops) hs' :=
            ih ordered later fun b member => each b (List.mem_cons_of_mem a member)
          exact now.append rest

theorem ordered_next {hs hs' : List μ} {op : Op μ α} {ops : List (Op μ α)}
    (ordered : Ordered rank hs (op :: ops) hs') : Ordered rank (next hs op) ops hs' := by
  cases op with
  | lock m => exact ordered.2
  | _ => exact ordered

/-- An ordered trace locks no mutex again. -/
theorem Ordered.held {hs hs' : List μ} {ops : List (Op μ α)} (ordered : Ordered rank hs ops hs') :
    held hs ops = some hs' := by
  induction ops generalizing hs with
  | nil => exact congrArg some ordered
  | cons op ops ih =>
      cases op with
      | lock m =>
          have free : m ∉ hs := fun again => lt_irrefl _ (ordered.1 m again)
          rw [LockTrace.held, if_neg free]
          exact ih ordered.2
      | _ => exact ih ordered

/-! ## The invariant of the threads -/

/-- What a thread holds, of what it has yet to do: it owns just that, and goes on in order to nothing. -/
structure OnTrack (rank : μ → ρ) (s : Threads ι μ α) (i : ι) (hs : List μ) : Prop where
  nodup : hs.Nodup
  owns : ∀ m, s.owner m = some i ↔ m ∈ hs
  ordered : Ordered rank hs (s.rest i) []

/-- Every thread is on its way to an end in which it holds nothing. -/
def AllOrdered (rank : μ → ρ) (s : Threads ι μ α) : Prop := ∀ i, ∃ hs, OnTrack rank s i hs

theorem allOrdered_start {traces : ι → List (Op μ α)} (each : ∀ i, Ordered rank [] (traces i) []) :
    AllOrdered rank (Threads.start traces) := by
  intro i
  refine ⟨[], List.nodup_nil, ?_, each i⟩
  intro m
  simp [Threads.start]

/-- One step keeps every thread on its way. -/
theorem allOrdered_step {s t : Threads ι μ α} {i : ι} (all : AllOrdered rank s)
    (taken : step s i = some t) : AllOrdered rank t := by
  obtain ⟨op, ops, rest, left, -, others, own⟩ := step_cases taken
  intro j
  obtain ⟨hs, track⟩ := all j
  by_cases same : j = i
  · subst same
    obtain ⟨nodup, owns⟩ := own hs track.nodup track.owns
    refine ⟨next hs op, nodup, owns, ?_⟩
    rw [left, Function.update_self]
    exact ordered_next (rest ▸ track.ordered)
  · refine ⟨hs, track.nodup, fun m => (others j same m).trans (track.owns m), ?_⟩
    rw [left, Function.update_of_ne same]
    exact track.ordered

theorem allOrdered_exec {s t : Threads ι μ α} {is : List ι} (all : AllOrdered rank s)
    (run : exec step s is = some t) : AllOrdered rank t :=
  (always_of_keeps (fun _ _ _ kept taken => allOrdered_step kept taken) is all).last run

/-- What is waited for is owned by a thread that has something left to do. -/
theorem unfinished_of_owner {s : Threads ι μ α} {m : μ} {j : ι} (all : AllOrdered rank s)
    (owned : s.owner m = some j) : s.rest j ≠ [] := by
  obtain ⟨hs, track⟩ := all j
  intro done
  have last := track.ordered
  rw [done] at last
  have empty : hs = [] := last
  have member := (track.owns m).1 owned
  rw [empty] at member
  exact absurd member List.not_mem_nil

/-- A thread that waits while it holds a mutex waits for one above it. -/
theorem above_of_waits {s : Threads ι μ α} {m n : μ} {j : ι} {ops : List (Op μ α)}
    (all : AllOrdered rank s) (owned : s.owner m = some j) (next : s.rest j = .lock n :: ops) :
    rank m < rank n := by
  obtain ⟨hs, track⟩ := all j
  have ordered := track.ordered
  rw [next] at ordered
  exact ordered.1 m ((track.owns m).1 owned)

/-- **Progress.**  While a thread has something left to do, some thread can move. -/
theorem progress [WellFoundedGT ρ] {s : Threads ι μ α} (all : AllOrdered rank s) {i : ι}
    (unfinished : s.rest i ≠ []) : ∃ j, (step s j).isSome = true := by
  by_contra stuck
  have waits : ∀ j, s.rest j ≠ [] → Waits s j := by
    intro j left
    refine ⟨left, ?_⟩
    by_contra moves
    exact stuck ⟨j, Option.isSome_iff_ne_none.2 moves⟩
  -- the owner of what is waited for waits for something above it, and so on for ever
  have never : ∀ (r : ρ) (j : ι) (m : μ), rank m = r → s.owner m = some j → False := by
    intro r
    induction r using WellFoundedGT.induction with
    | ind r ih =>
        intro j m same owned
        obtain ⟨n, ops, k, next, owner⟩ := waits_iff.1 (waits j (unfinished_of_owner all owned))
        exact ih (rank n) (same ▸ above_of_waits all owned next) k n rfl owner
  obtain ⟨m, ops, j, -, owned⟩ := waits_iff.1 (waits i unfinished)
  exact never (rank m) j m rfl owned

end Order

/-! ## How long a run is -/

section Pending

variable [Fintype ι]

/-- The operations that the threads have yet to do. -/
def pending (s : Threads ι μ α) : Nat := ∑ i, (s.rest i).length

/-- A step is one operation. -/
theorem pending_step {s t : Threads ι μ α} {i : ι} (taken : step s i = some t) :
    pending t + 1 = pending s := by
  obtain ⟨op, ops, rest, left, -⟩ := step_cases taken
  have others : ∑ j ∈ Finset.univ.erase i, (t.rest j).length =
      ∑ j ∈ Finset.univ.erase i, (s.rest j).length := by
    apply Finset.sum_congr rfl
    intro j member
    rw [left, Function.update_of_ne (Finset.ne_of_mem_erase member)]
  have here : (t.rest i).length + 1 = (s.rest i).length := by
    rw [left, Function.update_self, rest, List.length_cons]
  unfold pending
  rw [← Finset.add_sum_erase _ _ (Finset.mem_univ i), ← Finset.add_sum_erase _ (fun j =>
    (s.rest j).length) (Finset.mem_univ i), others]
  omega

theorem exec_pending {s t : Threads ι μ α} {is : List ι} (run : exec step s is = some t) :
    is.length + pending t = pending s := by
  induction is generalizing s with
  | nil =>
      obtain rfl := Option.some.inj run
      exact Nat.zero_add _
  | cons i is ih =>
      obtain ⟨u, taken, rest⟩ := Option.bind_eq_some_iff.1 run
      have here := pending_step taken
      have later := ih rest
      simp only [List.length_cons]
      omega

/-- **Completion.**  However far the threads have got, they can all go on to their ends. -/
theorem completes {ρ : Type x} [Preorder ρ] [WellFoundedGT ρ] {rank : μ → ρ} {s : Threads ι μ α}
    (all : AllOrdered rank s) : ∃ is t, exec step s is = some t ∧ ∀ i, t.rest i = [] := by
  induction left : pending s using Nat.strong_induction_on generalizing s with
  | _ n ih =>
      by_cases done : ∀ i, s.rest i = []
      · exact ⟨[], s, rfl, done⟩
      · obtain ⟨i, unfinished⟩ := not_forall.1 done
        obtain ⟨j, moves⟩ := progress all unfinished
        obtain ⟨t, taken⟩ := Option.isSome_iff_exists.1 moves
        have fewer := pending_step taken
        obtain ⟨is, u, run, ends⟩ := ih (pending t) (by omega) (allOrdered_step all taken) rfl
        refine ⟨j :: is, u, ?_, ends⟩
        rw [exec_cons, taken]
        exact run

end Pending

/-! ## Two threads that wait for each other -/

/-- If the thread tries a mutex next, it finds it free. -/
def TriesFree (s : Threads ι μ α) (i : ι) : Prop :=
  ∀ m ops, s.rest i = .probe m :: ops → s.owner m = none

/-- A mutex stays free in a step that does not lock it. -/
theorem free_of_step {s t : Threads ι μ α} {i : ι} {hs : List μ} {op : Op μ α} {m : μ}
    (others : ∀ j, j ≠ i → ∀ m, t.owner m = some j ↔ s.owner m = some j)
    (before : ∀ m, s.owner m = some i ↔ m ∈ hs) (after : ∀ m, t.owner m = some i ↔ m ∈ next hs op)
    (free : s.owner m = none) (unlocked : op ≠ .lock m) : t.owner m = none := by
  have notHeld : m ∉ hs := by
    intro member
    have owned := (before m).2 member
    rw [free] at owned
    cases owned
  have notNext : m ∉ next hs op := by
    cases op with
    | lock n =>
        rintro (_ | ⟨_, member⟩)
        · exact unlocked rfl
        · exact notHeld member
    | unlock n => exact fun member => notHeld (List.mem_of_mem_erase member)
    | _ => exact notHeld
  rw [Option.eq_none_iff_forall_ne_some]
  intro j owned
  by_cases its : j = i
  · exact notNext ((after m).1 (its ▸ owned))
  · have still := (others j its m).1 owned
    rw [free] at still
    cases still

/-- A thread gets through operations that lock nothing owned by another; what it tries it finds free if
nobody owns it and it does not lock it itself. -/
theorem exec_alone {s : Threads ι μ α} {i : ι} {hs hs' : List μ} {ops more : List (Op μ α)}
    (rest : s.rest i = ops ++ more) (owns : ∀ m, s.owner m = some i ↔ m ∈ hs) (nodup : hs.Nodup)
    (reaches : held hs ops = some hs')
    (free : ∀ m, .lock m ∈ ops → ∀ j, s.owner m = some j → j = i)
    (tries : ∀ m, .probe m ∈ ops → s.owner m = none ∧ .lock m ∉ ops) :
    (∃ t, exec step s (List.replicate ops.length i) = some t ∧
      t.rest = Function.update s.rest i more ∧ (∀ m, t.owner m = some i ↔ m ∈ hs') ∧
      ∀ j, j ≠ i → ∀ m, t.owner m = some j ↔ s.owner m = some j) ∧
    EveryStep step TriesFree s (List.replicate ops.length i) := by
  induction ops generalizing s hs with
  | nil =>
      obtain rfl := Option.some.inj reaches
      rw [List.nil_append] at rest
      exact ⟨⟨s, rfl, by rw [← rest, Function.update_eq_self], owns, fun j _ m => Iff.rfl⟩, trivial⟩
  | cons op ops ih =>
      have unowned : ∀ m, op = .lock m → s.owner m = none := by
        rintro m rfl
        cases owned : s.owner m with
        | none => rfl
        | some j =>
            obtain rfl := free m List.mem_cons_self j owned
            rw [held, if_pos ((owns m).1 owned)] at reaches
            cases reaches
      obtain ⟨u, taken⟩ := step_of_free rest unowned
      obtain ⟨op', ops', rest', left, -, others, own⟩ := step_cases taken
      obtain ⟨rfl, rfl⟩ : op = op' ∧ ops ++ more = ops' := List.cons.inj (rest.symm.trans rest')
      obtain ⟨distinct, mine⟩ := own hs nodup owns
      have later : held (next hs op) ops = some hs' := by
        cases op with
        | lock m =>
            rw [held] at reaches
            split at reaches
            · cases reaches
            · exact reaches
        | _ => exact reaches
      obtain ⟨⟨t, run, left', owned, kept⟩, tried⟩ := ih (by rw [left, Function.update_self]) mine
        distinct later
        (by
          intro m member j owned
          by_contra other
          exact other (free m (List.mem_cons_of_mem op member) j ((others j other m).1 owned)))
        (by
          intro m member
          obtain ⟨idle, unlocked⟩ := tries m (List.mem_cons_of_mem op member)
          refine ⟨free_of_step others owns mine idle ?_, ?_⟩
          · rintro rfl
            exact unlocked List.mem_cons_self
          · exact fun locks => unlocked (List.mem_cons_of_mem op locks))
      refine ⟨⟨t, ?_, ?_, owned, fun j other m => (kept j other m).trans (others j other m)⟩, ?_, ?_⟩
      · rw [List.length_cons, List.replicate_succ, exec_cons, taken]
        exact run
      · rw [left', left, Function.update_idem]
      · intro m after first
        obtain ⟨rfl, -⟩ := List.cons.inj (rest.symm.trans first)
        exact (tries m List.mem_cons_self).1
      · intro v taken'
        obtain rfl : u = v := Option.some.inj (taken.symm.trans taken')
        exact tried

/-- Each of the two threads is about to lock what the other owns. -/
def Crossed (s : Threads ι μ α) (i j : ι) : Prop :=
  ∃ m n more more', (s.rest i = .lock n :: more ∧ s.owner n = some j) ∧
    s.rest j = .lock m :: more' ∧ s.owner m = some i

/-- Two threads that have crossed wait. -/
theorem Crossed.waits {s : Threads ι μ α} {i j : ι} (crossed : Crossed s i j) :
    Waits s i ∧ Waits s j := by
  obtain ⟨m, n, more, more', ⟨first, owned⟩, second, owned'⟩ := crossed
  exact ⟨waits_iff.2 ⟨n, more, j, first, owned⟩, waits_iff.2 ⟨m, more', i, second, owned'⟩⟩

/-- A step of another thread does not help them. -/
theorem Crossed.step {s t : Threads ι μ α} {i j k : ι} (crossed : Crossed s i j)
    (taken : step s k = some t) : Crossed t i j := by
  have stays : ∀ {l}, Waits s l → l ≠ k := by
    rintro l waits rfl
    rw [waits.2] at taken
    cases taken
  have apart := stays crossed.waits.1
  have apart' := stays crossed.waits.2
  obtain ⟨op, ops, -, left, -, others, -⟩ := step_cases taken
  obtain ⟨m, n, more, more', ⟨first, owned⟩, second, owned'⟩ := crossed
  refine ⟨m, n, more, more', ⟨?_, (others j apart' n).2 owned⟩, ?_, (others i apart m).2 owned'⟩
  · rw [left, Function.update_of_ne apart, first]
  · rw [left, Function.update_of_ne apart', second]

/-- **Two threads cross.**  The first gets as far as locking what the second holds by then, the second as
far as locking what the first holds, and on its way neither locks nor tries what the first holds. -/
theorem crossed_of_traces {traces : ι → List (Op μ α)} {i j : ι} (two : i ≠ j) {m n : μ}
    {hs hs' : List μ} {ops ops' more more' : List (Op μ α)} (first : traces i = ops ++ .lock n :: more)
    (second : traces j = ops' ++ .lock m :: more') (reaches : held [] ops = some hs)
    (reaches' : held [] ops' = some hs') (holds : m ∈ hs) (holds' : n ∈ hs')
    (apart : ∀ a, .lock a ∈ ops' → a ∉ hs) (tries : ∀ a, .probe a ∈ ops → .lock a ∉ ops)
    (tries' : ∀ a, .probe a ∈ ops' → a ∉ hs ∧ .lock a ∉ ops') :
    ∃ is t, exec LockOrder.step (Threads.start traces) is = some t ∧ Crossed t i j ∧
      EveryStep LockOrder.step TriesFree (Threads.start traces) is := by
  have idle : ∀ k a, (Threads.start traces).owner a = some k ↔ a ∈ ([] : List μ) := by
    simp [Threads.start]
  obtain ⟨⟨s, run, left, owns, others⟩, tried⟩ :=
    exec_alone first (idle i) List.nodup_nil reaches (fun a _ k owned => absurd owned nofun)
      fun a member => ⟨rfl, tries a member⟩
  have unowned : ∀ a k, s.owner a = some k → k = i := by
    intro a k owned
    by_contra other
    exact absurd ((idle k a).1 ((others k other a).1 owned)) List.not_mem_nil
  have second' : s.rest j = ops' ++ .lock m :: more' := by
    rw [left, Function.update_of_ne two.symm]
    exact second
  have idle' : ∀ a, s.owner a = some j ↔ a ∈ ([] : List μ) := by
    intro a
    refine iff_of_false ?_ List.not_mem_nil
    exact fun owned => two.symm (unowned a j owned)
  obtain ⟨⟨t, run', left', owns', others'⟩, tried'⟩ := exec_alone second' idle' List.nodup_nil reaches'
    (by
      intro a member k owned
      obtain rfl := unowned a k owned
      exact absurd ((owns a).1 owned) (apart a member))
    (by
      intro a member
      obtain ⟨notHeld, unlocked⟩ := tries' a member
      refine ⟨Option.eq_none_iff_forall_ne_some.2 fun k owned => notHeld ?_, unlocked⟩
      obtain rfl := unowned a k owned
      exact (owns a).1 owned)
  refine ⟨_, t, by rw [exec_append, run]; exact run', ⟨m, n, more, more', ⟨?_, (owns' n).2 holds'⟩, ?_,
    (others' i two m).2 ((owns m).2 holds)⟩, ?_⟩
  · rw [left', Function.update_of_ne two, left, Function.update_self]
  · rw [left', Function.update_self]
  · refine tried.append ?_
    intro u run''
    obtain rfl : s = u := Option.some.inj (run.symm.trans run'')
    exact tried'

/-- Threads that have crossed wait for ever. -/
theorem Crossed.always {s : Threads ι μ α} {i j : ι} (crossed : Crossed s i j) (is : List ι) :
    Always LockOrder.step (fun t => Waits t i ∧ Waits t j) s is :=
  (always_of_keeps (fun _ _ _ kept taken => Crossed.step kept taken) is crossed).mono
    fun _ kept => kept.waits

end Koisyn.Theory.LockOrder
