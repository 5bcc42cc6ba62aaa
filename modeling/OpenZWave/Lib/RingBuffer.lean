import Mathlib.Data.List.Rotate

/-!
# Ring buffers

A queue is kept in a list of cells from a place `tail` on; it goes on at the front of
the list where the list ends. A block that is written behind the queue, in two parts if
it goes past the end, is appended to it, and a block read from its front is taken off it.
-/

namespace RingBuffer

variable {α : Type*}

/-- The queue of a length that begins at a place. -/
def contents (cells : List α) (tail length : ℕ) : List α := (cells.rotate tail).take length

/-- The cells after a block has been written over those from a place on. -/
def overwrite (cells : List α) (start : ℕ) (block : List α) : List α :=
  cells.take start ++ block ++ cells.drop (start + block.length)

/-- The place behind a block. It may be the end of the cells, so there are two places at
which a queue can begin with the first cell. -/
def advance (capacity place size : ℕ) : ℕ :=
  if capacity < place + size then place + size - capacity else place + size

variable {capacity place size size' : ℕ} {cells : List α} {tail length head start : ℕ}
  {block : List α}

theorem advance_le (hplace : place ≤ capacity) (hsize : size ≤ capacity) :
    advance capacity place size ≤ capacity := by
  unfold advance
  split <;> omega

@[simp] theorem advance_zero (hplace : place ≤ capacity) : advance capacity place 0 = place :=
  if_neg (Nat.not_lt.mpr hplace)

/-- Two blocks, one behind the other. -/
theorem advance_advance (hplace : place ≤ capacity) (hsize : size + size' ≤ capacity) :
    advance capacity (advance capacity place size) size' = advance capacity place (size + size') := by
  unfold advance
  split <;> split <;> split <;> omega

@[simp] theorem contents_zero (cells : List α) (tail : ℕ) : contents cells tail 0 = [] :=
  List.take_zero

theorem length_contents (h : length ≤ cells.length) :
    (contents cells tail length).length = length := by
  rw [contents, List.length_take, List.length_rotate, Nat.min_eq_left h]

theorem length_overwrite (h : start + block.length ≤ cells.length) :
    (overwrite cells start block).length = cells.length := by
  simp only [overwrite, List.length_append, List.length_take, List.length_drop]
  omega

theorem rotate_advance (other : List α) (hother : other.length = capacity) :
    other.rotate (advance capacity place size) = (other.rotate place).rotate size := by
  rw [List.rotate_rotate, advance]
  split
  · rename_i hpast
    calc other.rotate (place + size - capacity)
        = (other.rotate other.length).rotate (place + size - capacity) := by
          rw [List.rotate_length]
      _ = other.rotate (place + size) := by
          rw [List.rotate_rotate, hother, Nat.add_sub_cancel' hpast.le]
  · rfl

/-! ## Reading -/

/-- A block that does not go past the end is the front of the queue. -/
theorem contents_eq_window (h : tail + length ≤ cells.length) :
    contents cells tail length = (cells.drop tail).take length := by
  have htail : tail ≤ cells.length := Nat.le_of_add_right_le h
  rw [contents, List.rotate_eq_drop_append_take htail, List.take_append_of_le_length]
  rw [List.length_drop]
  exact Nat.le_sub_of_add_le' h

/-- A block that goes past the end is the end of the cells and the front of them. -/
theorem contents_eq_blocks (htail : tail ≤ cells.length) (hpast : cells.length ≤ tail + length)
    (hlength : length ≤ cells.length) :
    contents cells tail length =
      cells.drop tail ++ cells.take (length - (cells.length - tail)) := by
  have hrest : (cells.drop tail).length ≤ length := by
    rw [List.length_drop]
    omega
  rw [contents, List.rotate_eq_drop_append_take htail, List.take_append,
    List.take_of_length_le hrest, List.length_drop, List.take_take]
  congr 2
  omega

/-- What is left of the queue begins where the block ends. -/
theorem contents_drop (hsize : size ≤ length) (hlength : length ≤ cells.length) :
    contents cells (advance cells.length tail size) (length - size) =
      (contents cells tail length).drop size := by
  have hround : size ≤ (cells.rotate tail).length := by
    rw [List.length_rotate]
    exact Nat.le_trans hsize hlength
  rw [contents, contents, rotate_advance cells rfl, List.rotate_eq_drop_append_take hround,
    List.drop_take, List.take_append_of_le_length]
  rw [List.length_drop, List.length_rotate]
  omega

theorem contents_take (hsize : size ≤ length) :
    (contents cells tail length).take size = contents cells tail size := by
  rw [contents, contents, List.take_take, Nat.min_eq_left hsize]

/-! ## Writing -/

theorem rotate_append_of_length {front rest : List α} (h : front.length = start) :
    (front ++ rest).rotate start = rest ++ front := by
  subst h
  exact List.rotate_append_length_eq front rest

/-- Seen from its place, a block that is written stands in front. -/
theorem rotate_overwrite (h : head + block.length ≤ cells.length) :
    (overwrite cells head block).rotate head = block ++ (cells.rotate head).drop block.length := by
  have hhead : head ≤ cells.length := Nat.le_of_add_right_le h
  have hfront : (cells.take head).length = head := List.length_take_of_le hhead
  have hlong : block.length ≤ (cells.drop head).length := by
    rw [List.length_drop]
    omega
  rw [overwrite, List.append_assoc, rotate_append_of_length hfront,
    List.rotate_eq_drop_append_take hhead, List.drop_append_of_le_length hlong, List.drop_drop,
    List.append_assoc]

/-- So does a block that is written in two parts, to the end and at the front. -/
theorem rotate_overwrite_blocks {first second : List α} (hfirst : head + first.length = cells.length)
    (hsecond : second.length ≤ head) :
    (overwrite (overwrite cells head first) 0 second).rotate head =
      first ++ second ++ (cells.rotate head).drop (first ++ second).length := by
  have hhead : head ≤ cells.length := Nat.le_of_add_right_le hfirst.le
  have hfront : (cells.take head).length = head := List.length_take_of_le hhead
  have hinner : overwrite cells head first = cells.take head ++ first := by
    rw [overwrite, hfirst, List.drop_length, List.append_nil]
  have houter : overwrite (cells.take head ++ first) 0 second =
      (second ++ (cells.take head).drop second.length) ++ first := by
    rw [overwrite, List.take_zero, List.nil_append, Nat.zero_add,
      List.drop_append_of_le_length (hfront.symm ▸ hsecond), List.append_assoc]
  have hlength : (second ++ (cells.take head).drop second.length).length = head := by
    rw [List.length_append, List.length_drop, hfront]
    omega
  have hend : (cells.drop head).length = first.length := by
    rw [List.length_drop]
    omega
  rw [hinner, houter, rotate_append_of_length hlength, List.rotate_eq_drop_append_take hhead,
    List.length_append, ← hend, ← List.drop_drop, List.drop_left, List.append_assoc]

/-- A block that is written behind the queue, where there is room, is appended to it. -/
theorem contents_append {other : List α} (hroom : length + block.length ≤ cells.length)
    (hother : other.length = cells.length)
    (hwritten : other.rotate (advance cells.length tail length) =
      block ++ (cells.rotate (advance cells.length tail length)).drop block.length) :
    contents other tail (length + block.length) = contents cells tail length ++ block := by
  have hlength : length ≤ (cells.rotate tail).length := by
    rw [List.length_rotate]
    exact Nat.le_of_add_right_le hroom
  have hcontents : (contents cells tail length).length = length :=
    length_contents (Nat.le_of_add_right_le hroom)
  have hlong : block.length ≤ ((cells.rotate tail).drop length).length := by
    rw [List.length_drop, List.length_rotate]
    omega
  rw [rotate_advance other hother, rotate_advance cells rfl,
    List.rotate_eq_drop_append_take hlength, List.drop_append_of_le_length hlong, List.drop_drop]
    at hwritten
  have hall : other.rotate tail =
      contents cells tail length ++ (block ++ (cells.rotate tail).drop (length + block.length)) := by
    apply List.rotate_injective length
    calc (other.rotate tail).rotate length
        = block ++ ((cells.rotate tail).drop (length + block.length) ++ contents cells tail length) :=
          hwritten
      _ = (contents cells tail length ++
            (block ++ (cells.rotate tail).drop (length + block.length))).rotate length := by
          rw [rotate_append_of_length hcontents, List.append_assoc]
  rw [contents, hall, ← List.append_assoc]
  exact List.take_left' (by rw [List.length_append, hcontents])

end RingBuffer
