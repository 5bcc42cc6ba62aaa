import OpenZWave.Lib.Transition

/-!
# Answers in several reports

The answer to a request for a key may come in several reports, the last of
which completes it. The items of all reports, whatever their key, are collected
in one buffer, and a completion takes what the buffer holds. A log of what
happened, newest first, tells what a completion should have taken: the items
reported for its own key since the key was last requested.
-/

namespace Assembly

open Transition

inductive Entry (γ μ : Type*)
  | requested (key : γ)
  | reported (key : γ) (items : List μ)
  | completed (key : γ) (items : List μ)

variable {γ μ : Type*}

/-- What the buffer holds. -/
def buffered : List (Entry γ μ) → List μ
  | [] => []
  | .requested _ :: past => buffered past
  | .reported _ items :: past => buffered past ++ items
  | .completed _ _ :: _ => []

variable [DecidableEq γ]

/-- The items reported for a key since its last request. -/
def own (key : γ) : List (Entry γ μ) → List μ
  | [] => []
  | .requested key' :: past => if key' = key then [] else own key past
  | .reported key' items :: past => if key' = key then own key past ++ items else own key past
  | .completed _ _ :: past => own key past

/-- A completion takes the items of its own key. -/
def TakesOwn : Entry γ μ → List (Entry γ μ) → Prop
  | .completed key items, past => items = own key past
  | _, _ => True

instance decidableTakesOwn [DecidableEq μ] :
    (entry : Entry γ μ) → (past : List (Entry γ μ)) → Decidable (TakesOwn entry past)
  | .requested _, _ => isTrue trivial
  | .reported _ _, _ => isTrue trivial
  | .completed key items, past => inferInstanceAs (Decidable (items = own key past))

/-- Every completion took the items of its own key. -/
def Assembled (log : List (Entry γ μ)) : Prop := Ordered TakesOwn log

instance [DecidableEq μ] (log : List (Entry γ μ)) : Decidable (Assembled log) :=
  inferInstanceAs (Decidable (Ordered TakesOwn log))

/-- The reports of a key stand apart from all others: since the last completion
only they brought items, and since the last request for the key nothing was
collected before that request or taken by an earlier completion. -/
def Apart (key : γ) : List (Entry γ μ) → Prop
  | [] => True
  | .requested key' :: past => if key' = key then buffered past = [] else Apart key past
  | .reported key' items :: past => (key' ≠ key → items = []) ∧ Apart key past
  | .completed _ _ :: past => own key past = []

instance decidableApart [DecidableEq μ] (key : γ) :
    (log : List (Entry γ μ)) → Decidable (Apart key log)
  | [] => isTrue trivial
  | .requested key' :: past =>
      have := decidableApart key past
      inferInstanceAs (Decidable (if key' = key then buffered past = [] else Apart key past))
  | .reported key' items :: past =>
      have := decidableApart key past
      inferInstanceAs (Decidable ((key' ≠ key → items = []) ∧ Apart key past))
  | .completed _ _ :: past => inferInstanceAs (Decidable (own key past = []))

theorem buffered_eq_own {key : γ} {log : List (Entry γ μ)} (h : Apart key log) :
    buffered log = own key log := by
  induction log with
  | nil => rfl
  | cons entry past ih =>
      cases entry with
      | requested key' =>
          rw [Apart] at h
          rw [buffered, own]
          split at h
          · rename_i hkey
            rw [if_pos hkey, h]
          · rename_i hkey
            rw [if_neg hkey, ih h]
      | reported key' items =>
          obtain ⟨hother, hpast⟩ := h
          rw [buffered, own, ih hpast]
          by_cases hkey : key' = key
          · rw [if_pos hkey]
          · rw [if_neg hkey, hother hkey, List.append_nil]
      | completed key' items =>
          exact h.symm

end Assembly
