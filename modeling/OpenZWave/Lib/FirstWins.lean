import Mathlib.Data.List.Basic
import Mathlib.Logic.Function.Basic

/-!
# Keys that keep their first value

Values are entered for keys one after another. A key that keeps its value has the first one
that was entered, any other the last one. A store that puts some entries and drops the others
has these values exactly if it drops and puts the right ones.
-/

namespace FirstWins

variable {κ ν : Type*} [DecidableEq κ] (keeps : κ → Prop) [DecidablePred keeps]
  (initial : κ → Option ν)

/-- The values that were entered for a key, in their order. -/
def valuesOf (log : List (κ × ν)) (k : κ) : List ν :=
  log.filterMap fun entry => if entry.1 = k then some entry.2 else none

/-- What stands under a key. The initial value is for keys that do not keep their first. -/
def content (log : List (κ × ν)) (k : κ) : Option ν :=
  if keeps k then (valuesOf log k).head? else (valuesOf log k).getLast?.or (initial k)

/-- The entry is dropped or put as it should be. -/
def Due (store : κ → Option ν) (k : κ) (v : ν) (put : Prop) : Prop :=
  (put → keeps k → store k = none ∨ store k = some v) ∧
    (¬ put → if keeps k then store k ≠ none else store k = some v)

theorem content_nil :
    content keeps initial [] = fun k => if keeps k then none else initial k := rfl

theorem valuesOf_concat_self (log : List (κ × ν)) (k : κ) (v : ν) :
    valuesOf (log ++ [(k, v)]) k = valuesOf log k ++ [v] := by
  simp [valuesOf]

theorem valuesOf_concat_of_ne {k k' : κ} (h : k' ≠ k) (log : List (κ × ν)) (v : ν) :
    valuesOf (log ++ [(k, v)]) k' = valuesOf log k' := by
  simp [valuesOf, h.symm]

theorem content_concat (log : List (κ × ν)) (k : κ) (v : ν) :
    content keeps initial (log ++ [(k, v)]) =
      Function.update (content keeps initial log) k
        (if keeps k then (content keeps initial log k).or (some v) else some v) := by
  funext k'
  by_cases hk : k' = k
  · subst hk
    rw [Function.update_self, content, content, valuesOf_concat_self]
    by_cases hkeeps : keeps k'
    · simp only [if_pos hkeeps, List.head?_append, List.head?_cons]
    · simp only [if_neg hkeeps, List.getLast?_append, List.getLast?_singleton, Option.some_or]
  · rw [Function.update_of_ne hk, content, content, valuesOf_concat_of_ne hk]

variable {keeps initial}

/-- A store with the right values still has them after an entry exactly if it did what is due. -/
theorem put_eq_content_iff {store : κ → Option ν} {log : List (κ × ν)}
    (h : store = content keeps initial log) (k : κ) (v : ν) (put : Prop) [Decidable put] :
    (if put then Function.update store k (some v) else store) =
        content keeps initial (log ++ [(k, v)]) ↔
      Due keeps store k v put := by
  rw [content_concat, ← h, Due]
  by_cases hput : put
  · rw [if_pos hput, (Function.update_injective store k).eq_iff]
    simp only [hput, true_imp_iff, not_true, false_imp_iff, and_true]
    by_cases hkeeps : keeps k
    · rw [if_pos hkeeps]
      cases store k with
      | none => simp [hkeeps]
      | some w => simp [hkeeps, eq_comm]
    · simp [hkeeps]
  · rw [if_neg hput, eq_comm, Function.update_eq_self_iff]
    simp only [hput, false_imp_iff, true_and, not_false_iff, true_imp_iff]
    by_cases hkeeps : keeps k
    · rw [if_pos hkeeps, if_pos hkeeps]
      cases store k with
      | none => simp
      | some w => simp
    · rw [if_neg hkeeps, if_neg hkeeps, eq_comm]

end FirstWins
