import Mathlib.Logic.Function.Basic

/-!
# Maps in which every value has one key

A partial map is one-to-one if no value stands under two keys. A value can be put
under a key as long as it stands under no other; then the only value that can
be lost is the one that stood there.
-/

namespace PartialMap

variable {κ ν : Type*} {m : κ → Option ν} {i j : κ} {v w : ν}

/-- No value stands under two keys. -/
def OneToOne (m : κ → Option ν) : Prop := ∀ ⦃i j v⦄, m i = some v → m j = some v → i = j

/-- The value can be put under the key. -/
def Admits (m : κ → Option ν) (i : κ) (v : ν) : Prop := ∀ j, m j = some v → j = i

variable [DecidableEq κ]

theorem update_eq_some_iff :
    Function.update m i (some v) j = some w ↔ j = i ∧ v = w ∨ j ≠ i ∧ m j = some w := by
  by_cases hj : j = i
  · subst hj
    simp
  · simp [hj]

theorem OneToOne.update (h : OneToOne m) (hadmits : Admits m i v) :
    OneToOne (Function.update m i (some v)) := by
  intro j k w hj hk
  rw [update_eq_some_iff] at hj hk
  obtain ⟨rfl, rfl⟩ | ⟨hj', hj⟩ := hj
  · obtain ⟨rfl, -⟩ | ⟨hk', hk⟩ := hk
    · rfl
    · exact absurd (hadmits k hk) hk'
  · obtain ⟨rfl, rfl⟩ | ⟨hk', hk⟩ := hk
    · exact absurd (hadmits j hj) hj'
    · exact h hj hk

/-- A value that did not stand under the key keeps its own. -/
theorem update_of_ne (hj : m j = some w) (hlost : m i = some w → w = v) :
    ∃ j, Function.update m i (some v) j = some w := by
  by_cases hji : j = i
  · subst hji
    exact ⟨j, by rw [Function.update_self, hlost hj]⟩
  · exact ⟨j, by rw [Function.update_of_ne hji, hj]⟩

end PartialMap
