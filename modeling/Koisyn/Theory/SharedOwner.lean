/-
# Koisyn.Theory.SharedOwner — a handle that many may own and that is let go once

The account of one handle under counted ownership: whether it has been made, how many owners it has and
how often its deleter has run.  `Settled` says that the deleter has run once if the handle has been made
and has no owner left, and has not run otherwise.  A copy, a drop and an exchange of places keep it, if
the last owner that goes is the one that runs the deleter.  Nothing in this file names a resource.
-/
import Mathlib.Logic.Basic
import Mathlib.Tactic.ByContra

namespace Koisyn.Theory.SharedOwner

set_option autoImplicit false

/-- The deleter has run once when the last owner has gone, and not before. -/
structure Settled (made : Prop) (owners deleted : Nat) : Prop where
  known : 0 < owners → made
  atMost : deleted ≤ 1
  gone : deleted = 1 ↔ made ∧ owners = 0

variable {made : Prop} {owners deleted : Nat}

theorem settled_unmade (unmade : ¬ made) : Settled made 0 0 where
  known positive := absurd positive (Nat.lt_irrefl 0)
  atMost := Nat.zero_le 1
  gone := iff_of_false Nat.zero_ne_one fun isMade => unmade isMade.1

/-- A handle with an owner has not been let go. -/
theorem Settled.unspent (settled : Settled made owners deleted) (owned : 0 < owners) :
    deleted = 0 := by
  have atMost := settled.atMost
  have notGone : deleted ≠ 1 := fun gone => Nat.ne_of_gt owned (settled.gone.1 gone).2
  omega

/-- Owners make further owners. -/
theorem Settled.copy (settled : Settled made owners deleted) (owned : 0 < owners) (more : Nat) :
    Settled made (owners + more) deleted where
  known _ := settled.known owned
  atMost := settled.atMost
  gone := by
    have unspent := settled.unspent owned
    exact iff_of_false (by omega) fun left => by omega

/-- An owner goes, and runs the deleter if it is the last. -/
theorem Settled.drop (settled : Settled made (owners + 1) deleted) :
    Settled made owners (deleted + if owners = 0 then 1 else 0) := by
  have isMade := settled.known (Nat.succ_pos owners)
  have unspent := settled.unspent (Nat.succ_pos owners)
  split
  · rename_i last
    exact ⟨fun _ => isMade, by omega, iff_of_true (by omega) ⟨isMade, last⟩⟩
  · rename_i more
    exact ⟨fun _ => isMade, by omega, iff_of_false (by omega) fun left => more left.2⟩

/-- **The exchange rule.**  Of the places that owned the handle, or got it new, some keep it and the
others drop it; what they drop runs the deleter when there is no owner elsewhere. -/
theorem Settled.exchange {made' : Prop} {places opened kept dropped elsewhere : Nat}
    (settled : Settled made (places + elsewhere) deleted)
    (balance : places + opened = kept + dropped) (single : places + opened ≤ 1)
    (grows : made' ↔ made ∨ 0 < opened) (isNew : 0 < opened → ¬ made) :
    Settled made' (kept + elsewhere) (deleted + if elsewhere = 0 then dropped else 0) := by
  rcases Nat.eq_zero_or_pos (places + elsewhere) with unowned | owned
  · rcases Nat.eq_zero_or_pos opened with none_ | some_
    · have same : made' ↔ made := by
        rw [grows, none_]
        simp
      have nothing : (if elsewhere = 0 then dropped else 0) = 0 := by
        split <;> omega
      have still : kept + elsewhere = places + elsewhere := by omega
      rw [nothing, still]
      refine ⟨fun positive => same.2 (settled.known positive), settled.atMost, ?_⟩
      rw [same]
      exact settled.gone
    · have isMade : made' := grows.2 (.inr some_)
      have unspent : deleted = 0 := by
        have atMost := settled.atMost
        have notGone : deleted ≠ 1 := fun gone => isNew some_ (settled.gone.1 gone).1
        omega
      rw [if_pos (by omega)]
      refine ⟨fun _ => isMade, by omega, ?_⟩
      constructor
      · intro once
        exact ⟨isMade, by omega⟩
      · rintro ⟨-, left⟩
        omega
  · have isMade : made' := grows.2 (.inl (settled.known owned))
    have unspent := settled.unspent owned
    have old : opened = 0 := by
      by_contra some_
      exact isNew (Nat.pos_of_ne_zero some_) (settled.known owned)
    refine ⟨fun _ => isMade, by split <;> omega, ?_⟩
    constructor
    · intro once
      refine ⟨isMade, ?_⟩
      split at once <;> omega
    · rintro ⟨-, left⟩
      rw [if_pos (by omega)]
      omega

end Koisyn.Theory.SharedOwner
