import Mathlib.Data.Int.Notation
import Mathlib.Logic.Function.Basic
import Mathlib.Order.Basic

/-!
# Counted references

An object is created with one reference, and is deleted when its last reference is released.
The counts are balanced when every object has as many references as it has owners, and the
objects without an owner are those that are deleted.
-/

namespace RefCounting

variable {π : Type*}

/-- The counts of the objects that exist against the numbers of owners. -/
def Balanced (refs : π → Option ℤ) (owners : π → ℕ) : Prop :=
  ∀ p, refs p = if owners p = 0 then none else some (owners p : ℤ)

/-- The count after a reference is released; none when the object is deleted. -/
def release (count : ℤ) : Option ℤ := if count - 1 ≤ 0 then none else some (count - 1)

variable {refs refs' : π → Option ℤ} {owners owners' : π → ℕ} {p : π} {count : ℤ}

theorem Balanced.exists_iff (h : Balanced refs owners) :
    (∃ count, refs p = some count) ↔ 0 < owners p := by
  rw [h p]
  split <;> simp <;> omega

theorem Balanced.count_eq (h : Balanced refs owners) (hp : refs p = some count) :
    count = owners p ∧ 0 < owners p := by
  rw [h p] at hp
  split at hp
  · cases hp
  · rename_i hne
    exact ⟨(Option.some.inj hp).symm, Nat.pos_of_ne_zero hne⟩

variable [DecidableEq π]

/-- One count and the number of owners of one object change together. -/
theorem Balanced.update {entry : Option ℤ} (h : Balanced refs owners)
    (hrefs : refs' = Function.update refs p entry)
    (hentry : entry = if owners' p = 0 then none else some (owners' p : ℤ))
    (hothers : ∀ q, q ≠ p → owners' q = owners q) : Balanced refs' owners' := by
  intro q
  by_cases hq : q = p
  · subst hq
    rw [hrefs, Function.update_self, hentry]
  · rw [hrefs, Function.update_of_ne hq, hothers q hq, h q]

theorem Balanced.create (h : Balanced refs owners) (hrefs : refs' = Function.update refs p (some 1))
    (howners : owners' p = 1) (hothers : ∀ q, q ≠ p → owners' q = owners q) :
    Balanced refs' owners' := by
  refine h.update hrefs ?_ hothers
  rw [howners]
  rfl

theorem Balanced.addRef (h : Balanced refs owners) (hp : refs p = some count)
    (hrefs : refs' = Function.update refs p (some (count + 1)))
    (howners : owners' p = owners p + 1) (hothers : ∀ q, q ≠ p → owners' q = owners q) :
    Balanced refs' owners' := by
  refine h.update hrefs ?_ hothers
  rw [howners, (h.count_eq hp).1, if_neg (Nat.succ_ne_zero _)]
  rfl

theorem Balanced.release (h : Balanced refs owners) (hp : refs p = some count)
    (hrefs : refs' = Function.update refs p (release count))
    (howners : owners' p + 1 = owners p) (hothers : ∀ q, q ≠ p → owners' q = owners q) :
    Balanced refs' owners' := by
  refine h.update hrefs ?_ hothers
  have hcount := (h.count_eq hp).1
  rw [RefCounting.release]
  by_cases hlast : owners' p = 0
  · rw [if_pos (by omega), if_pos hlast]
  · rw [if_neg (by omega), if_neg hlast]
    congr 1
    omega

end RefCounting
