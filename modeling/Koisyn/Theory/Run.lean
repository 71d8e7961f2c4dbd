/-
# Koisyn.Theory.Run — runs of a labelled machine, and what every step of one keeps

A machine is a partial step function `step : σ → ℓ → Option σ`: `none` says that the label cannot
happen in that state.  `exec` follows a list of labels.  Two predicates speak about a whole run:

* `Always step P s ls`: `P` holds in every state the run visits, the first included;
* `EveryStep step C s ls`: `C` holds of every state and label the run takes a step from.

`always_of_everyStep` is the induction of every safety proof here, packaged once: an invariant that
steps meeting `C` keep holds in every state of every run all of whose steps meet `C`.
`always_iff_everyStep` is its exact form, for a condition that is also needed, and `last_iff_everyStep`
that for a property which is never regained.
Nothing in this file names a machine.
-/
namespace Koisyn.Theory.Run

set_option autoImplicit false

universe u v

variable {σ : Type u} {ℓ : Type v} (step : σ → ℓ → Option σ)

/-- Follow the labels in order; `none` when one of them cannot happen. -/
def exec : σ → List ℓ → Option σ
  | s, [] => some s
  | s, l :: ls => (step s l).bind fun t => exec t ls

/-- `P` holds in every state the run visits. -/
def Always (P : σ → Prop) : σ → List ℓ → Prop
  | s, [] => P s
  | s, l :: ls => P s ∧ ∀ t, step s l = some t → Always P t ls

/-- `C` holds of every state and label the run takes a step from. -/
def EveryStep (C : σ → ℓ → Prop) : σ → List ℓ → Prop
  | _, [] => True
  | s, l :: ls => C s l ∧ ∀ t, step s l = some t → EveryStep C t ls

variable {step}

@[simp] theorem exec_nil (s : σ) : exec step s [] = some s := rfl

@[simp] theorem exec_cons (s : σ) (l : ℓ) (ls : List ℓ) :
    exec step s (l :: ls) = (step s l).bind fun t => exec step t ls := rfl

theorem exec_append (s : σ) (ls rest : List ℓ) :
    exec step s (ls ++ rest) = (exec step s ls).bind fun t => exec step t rest := by
  induction ls generalizing s with
  | nil => rfl
  | cons l ls ih =>
      simp only [List.cons_append, exec_cons, ih]
      cases step s l <;> rfl

instance decidableAlways {P : σ → Prop} [∀ s, Decidable (P s)] :
    ∀ (s : σ) (ls : List ℓ), Decidable (Always step P s ls)
  | s, [] => inferInstanceAs (Decidable (P s))
  | s, l :: ls =>
      have := fun t => decidableAlways (P := P) t ls
      inferInstanceAs (Decidable (P s ∧ ∀ t ∈ step s l, Always step P t ls))

instance decidableEveryStep {C : σ → ℓ → Prop} [∀ s l, Decidable (C s l)] :
    ∀ (s : σ) (ls : List ℓ), Decidable (EveryStep step C s ls)
  | _, [] => isTrue trivial
  | s, l :: ls =>
      have := fun t => decidableEveryStep (C := C) t ls
      inferInstanceAs (Decidable (C s l ∧ ∀ t ∈ step s l, EveryStep step C t ls))

theorem Always.head {P : σ → Prop} {s : σ} {ls : List ℓ} (always : Always step P s ls) : P s := by
  cases ls with
  | nil => exact always
  | cons l ls => exact always.1

theorem Always.mono {P Q : σ → Prop} (weaker : ∀ s, P s → Q s) {s : σ} {ls : List ℓ}
    (always : Always step P s ls) : Always step Q s ls := by
  induction ls generalizing s with
  | nil => exact weaker s always
  | cons l ls ih => exact ⟨weaker s always.1, fun t taken => ih (always.2 t taken)⟩

theorem Always.and {P Q : σ → Prop} {s : σ} {ls : List ℓ} (first : Always step P s ls)
    (second : Always step Q s ls) : Always step (fun s => P s ∧ Q s) s ls := by
  induction ls generalizing s with
  | nil => exact ⟨first, second⟩
  | cons l ls ih =>
      exact ⟨⟨first.1, second.1⟩, fun t taken => ih (first.2 t taken) (second.2 t taken)⟩

/-- A run visits its last state. -/
theorem Always.last {P : σ → Prop} {s t : σ} {ls : List ℓ} (always : Always step P s ls)
    (run : exec step s ls = some t) : P t := by
  induction ls generalizing s with
  | nil =>
      simp only [exec_nil, Option.some.injEq] at run
      exact run ▸ always
  | cons l ls ih =>
      simp only [exec_cons, Option.bind_eq_some_iff] at run
      obtain ⟨middle, taken, rest⟩ := run
      exact ih (always.2 middle taken) rest

theorem EveryStep.mono {C D : σ → ℓ → Prop} (weaker : ∀ s l, C s l → D s l) {s : σ} {ls : List ℓ}
    (every : EveryStep step C s ls) : EveryStep step D s ls := by
  induction ls generalizing s with
  | nil => trivial
  | cons l ls ih => exact ⟨weaker s l every.1, fun t taken => ih (every.2 t taken)⟩

theorem EveryStep.append {C : σ → ℓ → Prop} {s : σ} {ls rest : List ℓ}
    (first : EveryStep step C s ls)
    (second : ∀ t, exec step s ls = some t → EveryStep step C t rest) :
    EveryStep step C s (ls ++ rest) := by
  induction ls generalizing s with
  | nil => exact second s rfl
  | cons l ls ih =>
      refine ⟨first.1, fun t taken => ih (first.2 t taken) ?_⟩
      intro u run
      refine second u ?_
      rw [exec_cons, taken]
      exact run

/-- A run takes a step from each state it visits on the way. -/
theorem EveryStep.visit {C : σ → ℓ → Prop} {s t : σ} (ls rest : List ℓ) {l : ℓ}
    (every : EveryStep step C s (ls ++ l :: rest)) (run : exec step s ls = some t) : C t l := by
  induction ls generalizing s with
  | nil =>
      simp only [exec_nil, Option.some.injEq] at run
      exact run ▸ every.1
  | cons first ls ih =>
      simp only [exec_cons, Option.bind_eq_some_iff] at run
      obtain ⟨middle, taken, reached⟩ := run
      exact ih (every.2 middle taken) reached

/-- **The run rule.**  An invariant kept by the steps that meet `C` holds in every state of a run
all of whose steps meet `C`. -/
theorem always_of_everyStep {I : σ → Prop} {C : σ → ℓ → Prop}
    (keeps : ∀ s l t, I s → C s l → step s l = some t → I t)
    {s : σ} {ls : List ℓ} (start : I s) (every : EveryStep step C s ls) : Always step I s ls := by
  induction ls generalizing s with
  | nil => exact start
  | cons l ls ih =>
      refine ⟨start, fun t taken => ih (keeps s l t start every.1 taken) (every.2 t taken)⟩

/-- The unconditional run rule. -/
theorem always_of_keeps {I : σ → Prop} (keeps : ∀ s l t, I s → step s l = some t → I t)
    {s : σ} (ls : List ℓ) (start : I s) : Always step I s ls := by
  induction ls generalizing s with
  | nil => exact start
  | cons l ls ih => exact ⟨start, fun t taken => ih (keeps s l t start taken)⟩

/-- A condition that every state allows holds of every step of a run. -/
theorem everyStep_of_always {I : σ → Prop} {C : σ → ℓ → Prop} (allows : ∀ s l, I s → C s l)
    {s : σ} {ls : List ℓ} (always : Always step I s ls) : EveryStep step C s ls := by
  induction ls generalizing s with
  | nil => trivial
  | cons l ls ih => exact ⟨allows s l always.1, fun t taken => ih (always.2 t taken)⟩

/-- What every state allows of a step that meets `C` holds of every step of a run that meets it. -/
theorem everyStep_of_always_of_everyStep {I : σ → Prop} {C D : σ → ℓ → Prop}
    (allows : ∀ s l, I s → C s l → D s l) {s : σ} {ls : List ℓ} (always : Always step I s ls)
    (every : EveryStep step C s ls) : EveryStep step D s ls := by
  induction ls generalizing s with
  | nil => trivial
  | cons l ls ih =>
      exact ⟨allows s l always.1 every.1, fun t taken => ih (always.2 t taken) (every.2 t taken)⟩

/-- **The exact run rule.**  When a step from an invariant state keeps the invariant exactly if it
meets `C` (or cannot be taken), a run keeps it in every state exactly if every step meets `C`. -/
theorem always_iff_everyStep {I : σ → Prop} {C : σ → ℓ → Prop}
    (exact_ : ∀ s l, I s → (C s l ↔ ∀ t, step s l = some t → I t))
    {s : σ} (ls : List ℓ) (start : I s) : Always step I s ls ↔ EveryStep step C s ls := by
  induction ls generalizing s with
  | nil => simp [Always, EveryStep, start]
  | cons l ls ih =>
      constructor
      · rintro ⟨-, rest⟩
        refine ⟨(exact_ s l start).2 fun t taken => (rest t taken).head, fun t taken => ?_⟩
        exact (ih (rest t taken).head).1 (rest t taken)
      · rintro ⟨meets, rest⟩
        refine ⟨start, ?_⟩
        intro t taken
        exact (ih ((exact_ s l start).1 meets t taken)).2 (rest t taken)

/-- The exact run rule for runs that can be followed to their end. -/
theorem always_iff_everyStep_of_run {I : σ → Prop} {C : σ → ℓ → Prop}
    (exact_ : ∀ s l t, I s → step s l = some t → (C s l ↔ I t))
    {s t : σ} {ls : List ℓ} (run : exec step s ls = some t) (start : I s) :
    Always step I s ls ↔ EveryStep step C s ls := by
  induction ls generalizing s with
  | nil => simp [Always, EveryStep, start]
  | cons l ls ih =>
      rw [exec_cons, Option.bind_eq_some_iff] at run
      obtain ⟨next, taken, reached⟩ := run
      have only : ∀ t, step s l = some t → t = next :=
        fun t other => Option.some.inj (other.symm.trans taken)
      constructor
      · rintro ⟨-, rest⟩
        have kept : I next := (rest next taken).head
        refine ⟨(exact_ s l next start taken).2 kept, fun t other => ?_⟩
        rw [only t other]
        exact (ih reached kept).1 (rest next taken)
      · rintro ⟨meets, rest⟩
        have kept : I next := (exact_ s l next start taken).1 meets
        refine ⟨start, fun t other => ?_⟩
        rw [only t other]
        exact (ih reached kept).2 (rest next taken)

/-- What no step regains holds before a run if it holds afterwards. -/
theorem of_last {P : σ → Prop} (lost : ∀ s l t, step s l = some t → P t → P s) {s t : σ}
    {ls : List ℓ} (run : exec step s ls = some t) (holds : P t) : P s := by
  induction ls generalizing s with
  | nil =>
      simp only [exec_nil, Option.some.injEq] at run
      exact run ▸ holds
  | cons l ls ih =>
      obtain ⟨middle, taken, reached⟩ := Option.bind_eq_some_iff.1 run
      exact lost s l middle taken (ih reached)

/-- **The exact run rule for what is never regained.**  When a step from an invariant state keeps `P`
exactly if it meets `C`, and no step regains `P`, it holds after a run exactly if every step meets `C`. -/
theorem last_iff_everyStep {I P : σ → Prop} {C : σ → ℓ → Prop}
    (keeps : ∀ s l t, I s → step s l = some t → I t)
    (exact_ : ∀ s l t, I s → P s → step s l = some t → (C s l ↔ P t))
    (lost : ∀ s l t, step s l = some t → P t → P s) {s t : σ} {ls : List ℓ}
    (run : exec step s ls = some t) (start : I s) (holds : P s) : P t ↔ EveryStep step C s ls := by
  induction ls generalizing s with
  | nil =>
      simp only [exec_nil, Option.some.injEq] at run
      exact iff_of_true (run ▸ holds) trivial
  | cons l ls ih =>
      obtain ⟨middle, taken, reached⟩ := Option.bind_eq_some_iff.1 run
      have only : ∀ u, step s l = some u → u = middle :=
        fun u other => Option.some.inj (other.symm.trans taken)
      have rest := fun kept => ih reached (keeps s l middle start taken) kept
      constructor
      · intro last
        have kept := of_last lost reached last
        refine ⟨(exact_ s l middle start holds taken).2 kept, ?_⟩
        intro u other
        rw [only u other]
        exact (rest kept).1 last
      · rintro ⟨meets, every⟩
        exact (rest ((exact_ s l middle start holds taken).1 meets)).2 (every middle taken)

/-! ## Recording a run -/

section Recording

universe w

variable {ρ : Type w} (step) (note : σ → ℓ → ρ → ρ)

/-- The machine with a record of its steps beside it. -/
def recording (s : σ × ρ) (l : ℓ) : Option (σ × ρ) := (step s.1 l).map fun t => (t, note s.1 l s.2)

variable {step note}

theorem recording_some {s t : σ × ρ} {l : ℓ} :
    recording step note s l = some t ↔ step s.1 l = some t.1 ∧ t.2 = note s.1 l s.2 := by
  obtain ⟨t, r⟩ := t
  rw [recording, Option.map_eq_some_iff]
  constructor
  · rintro ⟨u, taken, same⟩
    cases same
    exact ⟨taken, rfl⟩
  · rintro ⟨taken, rfl⟩
    exact ⟨t, taken, rfl⟩

end Recording

end Koisyn.Theory.Run
