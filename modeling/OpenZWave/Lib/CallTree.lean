import Mathlib.Data.List.Basic
import Mathlib.Logic.Relation

/-!
# Handlers that call handlers

`next a` are the calls that the handling of `a` makes, in order. When every
call is smaller than its caller, the calls of a whole run are the calls that
can be reached, and a larger bound on the depth changes nothing.
-/

namespace CallTree

variable {α : Type*} (next : α → List α)

/-- All calls of a run, each before the calls it makes. -/
def calls : Nat → α → List α
  | 0, a => [a]
  | depth + 1, a => a :: (next a).flatMap (calls depth)

variable {next} {size : α → Nat}

/-- A depth of the size of the first call is enough. -/
theorem calls_eq (hsize : ∀ a b, b ∈ next a → size b < size a) {depth depth' : Nat} {a : α}
    (h : size a ≤ depth) (h' : size a ≤ depth') : calls next depth a = calls next depth' a := by
  induction depth generalizing depth' a with
  | zero =>
      have hnone : next a = [] := by
        apply List.eq_nil_iff_forall_not_mem.mpr
        intro b hb
        have hlt := hsize a b hb
        omega
      cases depth' with
      | zero => rfl
      | succ depth' => rw [calls, calls, hnone, List.flatMap_nil]
  | succ depth ih =>
      cases depth' with
      | zero =>
          have hnone : next a = [] := by
            apply List.eq_nil_iff_forall_not_mem.mpr
            intro b hb
            have hlt := hsize a b hb
            omega
          rw [calls, calls, hnone, List.flatMap_nil]
      | succ depth' =>
          rw [calls, calls]
          congr 1
          apply List.flatMap_congr
          intro b hb
          have hlt := hsize a b hb
          exact ih (by omega) (by omega)

end CallTree
