import Mathlib.Data.List.Basic
import Mathlib.Data.List.GetD

/-!
# Fixed-size byte memory

A C array of bytes is a `Vector UInt8 n`. A read outside the array gives zero
and a write outside it is dropped, so every operation below is total; a caller
that has to know whether an index was inside states that bound itself.
-/

namespace ByteBuffer

variable {n : Nat}

/-- Read one cell. -/
def peek (b : Vector UInt8 n) (i : Nat) : UInt8 := b.toList.getD i 0

/-- Write one cell. -/
def poke (b : Vector UInt8 n) (i : Nat) (v : UInt8) : Vector UInt8 n :=
  b.setIfInBounds i v

/-- Write at a signed offset: a negative offset lies before the array. -/
def pokeInt (b : Vector UInt8 n) (i : Int) (v : UInt8) : Vector UInt8 n :=
  if 0 ≤ i then poke b i.toNat v else b

theorem peek_poke (b : Vector UInt8 n) (i j : Nat) (v : UInt8) :
    peek (poke b i v) j = if i = j ∧ i < n then v else peek b j := by
  simp only [peek, poke, Vector.toList_setIfInBounds, List.getD_eq_getElem?_getD,
    List.getElem?_set, Vector.length_toList]
  by_cases hij : i = j
  · subst hij
    by_cases hin : i < n
    · simp [hin]
    · simp [hin]
  · simp [hij]

@[simp] theorem peek_poke_self {b : Vector UInt8 n} {i : Nat} {v : UInt8} (h : i < n) :
    peek (poke b i v) i = v := by
  simp [peek_poke, h]

@[simp] theorem peek_poke_ne {b : Vector UInt8 n} {i j : Nat} {v : UInt8} (h : i ≠ j) :
    peek (poke b i v) j = peek b j := by
  simp [peek_poke, h]

theorem pokeInt_of_nonneg (b : Vector UInt8 n) {i : Int} (h : 0 ≤ i) (v : UInt8) :
    pokeInt b i v = poke b i.toNat v := if_pos h

/-- Write a list of bytes to consecutive cells. -/
def pokeAll (b : Vector UInt8 n) (start : Nat) : List UInt8 → Vector UInt8 n
  | [] => b
  | v :: l => pokeAll (poke b start v) (start + 1) l

theorem peek_pokeAll (b : Vector UInt8 n) (start : Nat) (l : List UInt8)
    (hfit : start + l.length ≤ n) (j : Nat) :
    peek (pokeAll b start l) j =
      if start ≤ j ∧ j < start + l.length then l.getD (j - start) 0 else peek b j := by
  induction l generalizing b start with
  | nil =>
      have hno : ¬ (start ≤ j ∧ j < start + ([] : List UInt8).length) := by
        simp only [List.length_nil]
        omega
      rw [if_neg hno, pokeAll]
  | cons v l ih =>
      rw [List.length_cons] at hfit
      rw [pokeAll, ih _ _ (by omega), List.length_cons]
      by_cases hj : start + 1 ≤ j ∧ j < start + 1 + l.length
      · have hsub : j - start = (j - (start + 1)) + 1 := by omega
        rw [if_pos hj, if_pos (by omega), hsub, List.getD_cons_succ]
      · rw [if_neg hj]
        by_cases hself : start = j
        · subst hself
          rw [peek_poke_self (by omega), if_pos (by omega), Nat.sub_self, List.getD_cons_zero]
        · rw [peek_poke_ne hself, if_neg (by omega)]

/-- The first `k` cells, in order. -/
def first (b : Vector UInt8 n) (k : Nat) : List UInt8 := b.toList.take k

theorem length_first (b : Vector UInt8 n) {k : Nat} (h : k ≤ n) : (first b k).length = k := by
  simp [first, h]

theorem getD_first (b : Vector UInt8 n) {i k : Nat} (h : i < k) :
    (first b k).getD i 0 = peek b i := by
  simp [first, peek, List.getD_eq_getElem?_getD, h]

/-- A block written at the start is followed by what stood behind it. -/
theorem first_pokeAll (b : Vector UInt8 n) (l : List UInt8) (k : Nat) (hfit : l.length + k ≤ n) :
    first (pokeAll b 0 l) (l.length + k) = l ++ (b.toList.drop l.length).take k := by
  apply List.ext_getElem
  · rw [length_first _ hfit, List.length_append, List.length_take, List.length_drop,
      Vector.length_toList]
    omega
  · intro i hlength hi'
    have hi : i < l.length + k := by rwa [length_first _ hfit] at hlength
    have hcell := peek_pokeAll b 0 l (by omega) i
    rw [← getD_first _ hi, List.getD_eq_getElem _ _ hlength, Nat.sub_zero] at hcell
    rw [hcell]
    by_cases hin : i < l.length
    · rw [if_pos (by omega), List.getElem_append_left hin, List.getD_eq_getElem _ _ hin]
    · rw [if_neg (by omega), List.getElem_append_right (by omega), List.getElem_take,
        List.getElem_drop, peek, List.getD_eq_getElem _ _ (by rw [Vector.length_toList]; omega)]
      congr 1
      omega

/-- A list is a segment of memory when it agrees with it cell by cell. -/
theorem take_drop_first_eq (b : Vector UInt8 n) {k start : Nat} {l : List UInt8}
    (hk : k ≤ n) (hl : start + l.length ≤ k)
    (h : ∀ i, i < l.length → peek b (start + i) = l.getD i 0) :
    ((first b k).drop start).take l.length = l := by
  apply List.ext_getElem
  · simp only [List.length_take, List.length_drop, length_first b hk]
    omega
  · intro i hi hi'
    have hcell := h i hi'
    rw [← getD_first b (k := k) (by omega)] at hcell
    rw [List.getElem_take, List.getElem_drop]
    rw [List.getD_eq_getElem _ _ hi', List.getD_eq_getElem _ _ (by
      rw [length_first b hk]; omega)] at hcell
    exact hcell

/-- The loop `for (i = stop - 1; i >= start; --i) b[i + by] = b[i]`. -/
def shiftUp (start offset : Nat) : Nat → Vector UInt8 n → Vector UInt8 n
  | 0, b => b
  | i + 1, b =>
      if start ≤ i then shiftUp start offset i (poke b (i + offset) (peek b i)) else b

/-- The descending copy moves `[start, stop)` up and leaves the cells below
`start + offset` and above the moved block as they were. -/
theorem peek_shiftUp (start offset : Nat) (hoff : 0 < offset) (stop : Nat)
    (b : Vector UInt8 n) (hfit : stop + offset ≤ n) (j : Nat) :
    peek (shiftUp start offset stop b) j =
      if start + offset ≤ j ∧ j < stop + offset then peek b (j - offset) else peek b j := by
  induction stop generalizing b with
  | zero =>
      have hno : ¬ (start + offset ≤ j ∧ j < 0 + offset) := by omega
      rw [if_neg hno, shiftUp]
  | succ i ih =>
      rw [shiftUp]
      by_cases hs : start ≤ i
      · rw [if_pos hs, ih _ (by omega)]
        by_cases hin : start + offset ≤ j ∧ j < i + offset
        · rw [if_pos hin, if_pos (by omega), peek_poke_ne (by omega)]
        · rw [if_neg hin]
          by_cases hj : i + offset = j
          · subst hj
            rw [if_pos (by omega), peek_poke_self (by omega), Nat.add_sub_cancel]
          · rw [peek_poke_ne hj, if_neg (by omega)]
      · rw [if_neg hs, if_neg (by omega)]

/-- The exclusive-or loop `for (i = 1; i < stop; ++i) sum ^= b[i]`. -/
def xorFrom (sum : UInt8) (cell : Nat → UInt8) (stop : Nat) : UInt8 :=
  (List.range' 1 (stop - 1)).foldl (fun acc i => acc ^^^ cell i) sum

/-- The loop reads only the cells from 1 up to its bound. -/
theorem xorFrom_congr {sum : UInt8} {f g : Nat → UInt8} {stop : Nat}
    (h : ∀ i, 1 ≤ i → i < stop → f i = g i) : xorFrom sum f stop = xorFrom sum g stop := by
  unfold xorFrom
  apply List.foldl_ext
  intro acc i hi
  rw [List.mem_range'_1] at hi
  rw [h i hi.1 (by omega)]

end ByteBuffer
