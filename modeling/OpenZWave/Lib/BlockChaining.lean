import Mathlib.Data.List.GetD
import Mathlib.Data.List.Induction

/-!
# Chaining over blocks

A chained code absorbs the blocks of a message one after the other; the last one is filled
with zeros. An implementation may take the bytes one by one, and absorb a block when it is
full and at the end. Both give the same code.
-/

namespace BlockChaining

variable {α β : Type*} {n : ℕ} (zero : α) (absorb : β → Vector α n → β)

/-- A block of a message. -/
def blockAt (message : List α) (i : ℕ) : Vector α n :=
  Vector.ofFn fun j => message.getD (n * i + j) zero

/-- What is absorbed with some blocks. -/
def chainAt (init : β) (message : List α) : ℕ → β
  | 0 => init
  | i + 1 => absorb (chainAt init message i) (blockAt zero message i)

/-- The blocks that the message takes. -/
def blockCount (n : ℕ) (message : List α) : ℕ := (message.length + n - 1) / n

/-- The code over all blocks. -/
def chain (init : β) (message : List α) : β :=
  chainAt zero absorb init message (blockCount n message)

/-! ## Byte by byte -/

/-- What is absorbed, the block that is filled, and how far it is. -/
structure State (α β : Type*) (n : ℕ) where
  value : β
  pending : Vector α n
  fill : ℕ

def start (init : β) : State α β n where
  value := init
  pending := Vector.replicate n zero
  fill := 0

def step (s : State α β n) (a : α) : State α β n :=
  let pending := s.pending.setIfInBounds s.fill a
  if s.fill + 1 = n then
    { value := absorb s.value pending, pending := Vector.replicate n zero, fill := 0 }
  else { s with pending := pending, fill := s.fill + 1 }

/-- The block that is left over is absorbed. -/
def finish (s : State α β n) : β :=
  if 0 < s.fill then absorb s.value s.pending else s.value

variable {zero absorb} {message : List α}

/-! ## One byte more -/

theorem blockAt_append {i : ℕ} (h : n * (i + 1) ≤ message.length) (rest : List α) :
    (blockAt zero (message ++ rest) i : Vector α n) = blockAt zero message i := by
  ext j hj
  have hlt : n * i + j < message.length := by
    rw [Nat.mul_succ] at h
    omega
  simp only [blockAt, Vector.getElem_ofFn]
  exact List.getD_append _ _ _ _ hlt

/-- Behind the message there are zeros. -/
theorem blockAt_of_le {i : ℕ} (h : message.length ≤ n * i) :
    (blockAt zero message i : Vector α n) = Vector.replicate n zero := by
  ext j hj
  simp only [blockAt, Vector.getElem_ofFn, Vector.getElem_replicate]
  exact List.getD_eq_default _ _ (by omega)

/-- The next byte goes into the block that is filled. -/
theorem setIfInBounds_blockAt {i fill : ℕ} (h : message.length = n * i + fill) (a : α) :
    (blockAt zero message i : Vector α n).setIfInBounds fill a =
      blockAt zero (message ++ [a]) i := by
  ext j hj
  rw [Vector.getElem_setIfInBounds hj]
  simp only [blockAt, Vector.getElem_ofFn]
  split
  · rename_i hfill
    rw [List.getD_append_right _ _ _ _ (by omega), h, hfill, Nat.sub_self, List.getD_cons_zero]
  · rename_i hfill
    rcases Nat.lt_or_ge (n * i + j) message.length with hlt | hge
    · exact (List.getD_append _ _ _ _ hlt).symm
    · rw [List.getD_eq_default _ _ hge, List.getD_eq_default _ _ (by simp; omega)]

theorem chainAt_append {init : β} {count : ℕ} (h : n * count ≤ message.length) (rest : List α) :
    chainAt zero absorb init (message ++ rest) count =
      chainAt zero absorb init message count := by
  induction count with
  | zero => rfl
  | succ count ih =>
      rw [chainAt, chainAt, blockAt_append h, ih (by rw [Nat.mul_succ] at h; omega)]

/-! ## The whole message -/

/-- After some bytes the full blocks are absorbed, and the next one is filled. -/
theorem foldl_step (hn : 0 < n) (init : β) (message : List α) :
    message.foldl (step zero absorb) (start zero init) =
      { value := chainAt zero absorb init message (message.length / n)
        pending := blockAt zero message (message.length / n)
        fill := message.length % n } := by
  induction message using List.reverseRecOn with
  | nil =>
      rw [List.length_nil, Nat.zero_div, Nat.zero_mod]
      exact congrArg (State.mk init · 0) (blockAt_of_le (Nat.zero_le _)).symm
  | append_singleton message a ih =>
      have hlength := (Nat.div_add_mod message.length n).symm
      have hfill := Nat.mod_lt message.length hn
      generalize message.length / n = count at ih hlength
      generalize message.length % n = fill at ih hlength hfill
      have hcount : n * count ≤ (message ++ [a]).length := by
        rw [List.length_append]
        omega
      rw [List.foldl_append, ih, List.foldl_cons, List.foldl_nil, step]
      dsimp only
      have hbefore : n * count ≤ message.length := by omega
      rw [setIfInBounds_blockAt hlength, ← chainAt_append hbefore [a]]
      have hnext : (message ++ [a]).length = n * count + (fill + 1) := by
        rw [List.length_append, hlength]
        rfl
      by_cases hfull : fill + 1 = n
      · have hblocks : (message ++ [a]).length = n * (count + 1) := by
          rw [hnext, hfull, Nat.mul_succ]
        rw [if_pos hfull, hblocks, Nat.mul_div_cancel_left _ hn, Nat.mul_mod_right, chainAt,
          blockAt_of_le (Nat.le_of_eq hblocks)]
      · have hlt : fill + 1 < n := by omega
        rw [if_neg hfull, hnext, Nat.mul_add_div hn, Nat.div_eq_of_lt hlt,
          Nat.mul_add_mod, Nat.mod_eq_of_lt hlt]
        rfl

theorem blockCount_eq (hn : 0 < n) (message : List α) :
    blockCount n message = message.length / n + if 0 < message.length % n then 1 else 0 := by
  have hlength := (Nat.div_add_mod message.length n).symm
  have hfill := Nat.mod_lt message.length hn
  rw [blockCount]
  generalize message.length / n = count at hlength ⊢
  generalize message.length % n = fill at hlength hfill ⊢
  rw [hlength]
  split
  · have hsum : n * count + fill + n - 1 = n * (count + 1) + (fill - 1) := by
      rw [Nat.mul_succ]
      omega
    rw [hsum, Nat.mul_add_div hn, Nat.div_eq_of_lt (by omega), Nat.add_zero]
  · have hsum : n * count + fill + n - 1 = n * count + (n - 1) := by omega
    rw [hsum, Nat.mul_add_div hn, Nat.div_eq_of_lt (by omega)]

/-- The bytes one by one give the code over the blocks. -/
theorem finish_foldl_step (hn : 0 < n) (init : β) (message : List α) :
    finish absorb (message.foldl (step zero absorb) (start zero init)) =
      chain zero absorb init message := by
  rw [foldl_step hn, finish, chain, blockCount_eq hn]
  split
  · rfl
  · rfl

end BlockChaining
