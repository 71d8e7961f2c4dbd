/-
# Koisyn.Theory.Holding — who holds which name

Holders that hold at most one name each are a function `h : ι → Option ν`.  It is `Exclusive` if no two
of them hold one name.  A holder lets its name go (`Function.update h i none`), gets a name that nobody
holds, or the names go round among the holders (`h ∘ σ` for a permutation `σ`): each keeps `Exclusive`,
and `held_drop`, `held_give` and `held_comp` say which names are held afterwards.  A name that is handed
over goes round: to a holder of nothing (`handed_eq`), or to one that lets its own go (`replaced_eq`).
Nothing in this file names a resource.
-/
import Mathlib.Logic.Equiv.Basic
import Mathlib.Logic.Function.Basic

namespace Koisyn.Theory.Holding

set_option autoImplicit false

universe u v

variable {ι : Type u} {ν : Type v}

/-- No name is held twice. -/
def Exclusive (h : ι → Option ν) : Prop := ∀ i j d, h i = some d → h j = some d → i = j

/-- Somebody holds the name. -/
def Held (h : ι → Option ν) (d : ν) : Prop := ∃ i, h i = some d

section Permutations

variable {h : ι → Option ν} (σ : Equiv.Perm ι)

theorem Exclusive.comp (exclusive : Exclusive h) : Exclusive (h ∘ σ) := by
  intro i j d first second
  exact σ.injective (exclusive (σ i) (σ j) d first second)

theorem held_comp {d : ν} : Held (h ∘ σ) d ↔ Held h d := by
  constructor
  · rintro ⟨i, holds⟩
    exact ⟨σ i, holds⟩
  · rintro ⟨i, holds⟩
    exact ⟨σ.symm i, (congrArg h (σ.apply_symm_apply i)).trans holds⟩

end Permutations

section Updates

variable [DecidableEq ι] {h : ι → Option ν} {i : ι} {d e : ν}

/-- Whoever holds a name after a drop is another and held it before. -/
theorem of_drop {j : ι} (holds : Function.update h i none j = some d) : j ≠ i ∧ h j = some d := by
  by_cases same : j = i
  · subst same
    rw [Function.update_self] at holds
    cases holds
  · exact ⟨same, (Function.update_of_ne same none h).symm.trans holds⟩

theorem Exclusive.drop (exclusive : Exclusive h) : Exclusive (Function.update h i none) := by
  intro j k d first second
  exact exclusive j k d (of_drop first).2 (of_drop second).2

theorem held_drop (exclusive : Exclusive h) :
    Held (Function.update h i none) d ↔ Held h d ∧ h i ≠ some d := by
  constructor
  · rintro ⟨j, holds⟩
    obtain ⟨other, held⟩ := of_drop holds
    refine ⟨⟨j, held⟩, ?_⟩
    intro its
    exact other (exclusive j i d held its)
  · rintro ⟨⟨j, holds⟩, notIts⟩
    have other : j ≠ i := by
      rintro rfl
      exact notIts holds
    exact ⟨j, (Function.update_of_ne other none h).trans holds⟩

/-- Whoever holds a name after a gift is the one who got it, or another who held it before. -/
theorem of_give {j : ι} (holds : Function.update h i (some d) j = some e) :
    j = i ∧ e = d ∨ j ≠ i ∧ h j = some e := by
  by_cases same : j = i
  · subst same
    rw [Function.update_self] at holds
    exact .inl ⟨rfl, (Option.some.inj holds).symm⟩
  · exact .inr ⟨same, (Function.update_of_ne same _ h).symm.trans holds⟩

theorem Exclusive.give (exclusive : Exclusive h) (new : ¬ Held h d) :
    Exclusive (Function.update h i (some d)) := by
  intro j k e first second
  rcases of_give first with ⟨rfl, rfl⟩ | ⟨-, before⟩ <;>
    rcases of_give second with ⟨rfl, same⟩ | ⟨-, before'⟩
  · rfl
  · exact absurd ⟨k, before'⟩ new
  · exact absurd ⟨j, same ▸ before⟩ new
  · exact exclusive j k e before before'

theorem held_give (free : h i = none) :
    Held (Function.update h i (some d)) e ↔ e = d ∨ Held h e := by
  constructor
  · rintro ⟨j, holds⟩
    rcases of_give holds with ⟨-, same⟩ | ⟨-, before⟩
    · exact .inl same
    · exact .inr ⟨j, before⟩
  · rintro (rfl | ⟨j, holds⟩)
    · exact ⟨i, Function.update_self i _ h⟩
    · have other : j ≠ i := by
        rintro rfl
        rw [free] at holds
        cases holds
      exact ⟨j, (Function.update_of_ne other _ h).trans holds⟩

/-- Handing a name to a holder of nothing swaps the two. -/
theorem handed_eq {j : ι} (free : h i = none) :
    Function.update (Function.update h j none) i (h j) = h ∘ Equiv.swap i j := by
  rw [Equiv.comp_swap_eq_update, free]

/-- Handing a name to a holder that lets its own go is that, and then a swap. -/
theorem replaced_eq {j : ι} (other : j ≠ i) :
    Function.update (Function.update h i (h j)) j none =
      Function.update h i none ∘ Equiv.swap i j := by
  rw [Equiv.comp_swap_eq_update, Function.update_self, Function.update_of_ne other,
    Function.update_comm other, Function.update_idem]

end Updates

end Koisyn.Theory.Holding
