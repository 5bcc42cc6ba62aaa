import Mathlib.Data.List.Basic

/-!
# Loops with a byte as their index

`for (uint8 i = 0; i < items.size(); ++i)` goes back to the first item after 255
turns more. `loop` makes at most a given number of turns; from 256 items on no
number of turns is enough.
-/

namespace ByteLoop

variable {α β : Type*} (body : β → α → β) {items : List α}

/-- The loop from index `i` on, as long as turns are left. -/
def loop (items : List α) : ℕ → UInt8 → β → Option β
  | 0, _, _ => none
  | turns + 1, i, state =>
      match items[i.toNat]? with
      | none => some state
      | some item => loop items turns (i + 1) (body state item)

variable {body}

/-- Too many items: the index is below their number at every turn. -/
theorem loop_of_le (h : 256 ≤ items.length) (turns : ℕ) (i : UInt8) (state : β) :
    loop body items turns i state = none := by
  induction turns generalizing i state with
  | zero => rfl
  | succ turns ih =>
      have hbelow : i.toNat < items.length := Nat.lt_of_lt_of_le i.toNat_lt h
      rw [loop, List.getElem?_eq_getElem hbelow]
      exact ih _ _

theorem loop_of_lt (h : items.length < 256) {turns : ℕ} {i : UInt8} (hi : i.toNat ≤ items.length)
    (hturns : items.length < turns + i.toNat) (state : β) :
    loop body items turns i state = some ((items.drop i.toNat).foldl body state) := by
  induction turns generalizing i state with
  | zero => omega
  | succ turns ih =>
      rw [loop]
      by_cases hbelow : i.toNat < items.length
      · have hnext : (i + 1).toNat = i.toNat + 1 := by
          rw [UInt8.toNat_add, UInt8.toNat_one]
          omega
        rw [List.getElem?_eq_getElem hbelow, List.drop_eq_getElem_cons hbelow]
        dsimp only
        rw [ih (by omega) (by omega), hnext]
        rfl
      · rw [List.getElem?_eq_none (by omega), List.drop_eq_nil_of_le (by omega)]
        rfl

/-- Whatever the loop returns is the fold over the items. -/
theorem foldl_of_loop {turns : ℕ} {i : UInt8} (hi : i.toNat ≤ items.length) {state state' : β}
    (h : loop body items turns i state = some state') :
    (items.drop i.toNat).foldl body state = state' := by
  have hlength : items.length < 256 := by
    by_contra hmany
    rw [loop_of_le (Nat.le_of_not_lt hmany)] at h
    cases h
  induction turns generalizing i state with
  | zero => cases h
  | succ turns ih =>
      rw [loop] at h
      by_cases hbelow : i.toNat < items.length
      · have hnext : (i + 1).toNat = i.toNat + 1 := by
          rw [UInt8.toNat_add, UInt8.toNat_one]
          omega
        rw [List.getElem?_eq_getElem hbelow] at h
        rw [List.drop_eq_getElem_cons hbelow, List.foldl_cons, ← ih (by omega) h, hnext]
      · rw [List.getElem?_eq_none (by omega)] at h
        rw [List.drop_eq_nil_of_le (by omega)]
        exact Option.some.inj h

/-- A loop that ends has fewer than 256 items. -/
theorem loop_eq_some {turns : ℕ} {state state' : β}
    (h : loop body items turns 0 state = some state') :
    items.length < 256 ∧ items.foldl body state = state' := by
  refine ⟨?_, foldl_of_loop (Nat.zero_le _) h⟩
  by_contra hmany
  rw [loop_of_le (Nat.le_of_not_lt hmany)] at h
  cases h

end ByteLoop
