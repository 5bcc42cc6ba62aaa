import Mathlib.Data.List.Induction
import OpenZWave.Lib.Transition

/-!
# Values that change on two agreeing readings

A reading that differs from the stored value is kept aside. It is stored when the
next reading agrees with it, and dropped when the next one agrees with the
stored value. Any other reading takes its place.
-/

namespace Confirmation

open Transition

variable {α : Type*}

inductive State (α : Type*)
  | settled (value : α)
  | checking (value reading : α)

def State.value : State α → α
  | .settled value => value
  | .checking value _ => value

variable (agrees : α → α → Bool)

def step : State α → α → State α
  | .settled value, reading =>
      if agrees value reading then .settled value else .checking value reading
  | .checking value kept, reading =>
      if agrees kept reading then .settled reading
      else if agrees value reading then .settled value
      else .checking value reading

/-- The reading kept aside is the last one, and differs from the stored value. -/
def Follows (past : List α) : State α → Prop
  | .settled _ => True
  | .checking value kept => past.getLast? = some kept ∧ agrees value kept = false

theorem follows_step (past : List α) (s : State α) (reading : α) :
    Follows agrees (past ++ [reading]) (step agrees s reading) := by
  cases s with
  | settled value =>
      rw [step]
      split
      · trivial
      · rename_i hdiffers
        exact ⟨List.getLast?_concat, Bool.eq_false_iff.mpr hdiffers⟩
  | checking value kept =>
      rw [step]
      split
      · trivial
      · split
        · trivial
        · rename_i hdiffers
          exact ⟨List.getLast?_concat, Bool.eq_false_iff.mpr hdiffers⟩

variable {agrees}

/-- A value changes to a reading that agrees with the one before. -/
theorem step_value {past : List α} {s : State α} (hfollows : Follows agrees past s)
    (reading : α) :
    (step agrees s reading).value = s.value ∨
      (step agrees s reading).value = reading ∧
        ∃ before, past.getLast? = some before ∧ agrees before reading ∧
          agrees s.value before = false := by
  cases s with
  | settled value =>
      left
      rw [step]
      split <;> rfl
  | checking value kept =>
      obtain ⟨hlast, hdiffers⟩ := hfollows
      by_cases hagrees : agrees kept reading
      · right
        constructor
        · rw [step, if_pos hagrees]
          rfl
        · exact ⟨kept, hlast, hagrees, hdiffers⟩
      · left
        rw [step, if_neg hagrees]
        split <;> rfl

/-! ## The same reading again -/

end Confirmation
