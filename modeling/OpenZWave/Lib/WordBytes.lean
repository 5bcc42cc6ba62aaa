import Mathlib.Data.UInt
import Mathlib.Tactic.FinCases

/-!
# Words of four bytes

A 32-bit word is its four bytes, the lowest first: a byte of an exclusive or is
the exclusive or of the bytes, and a word is determined by its bytes.
-/

namespace WordBytes

/-- The rows and columns 0 to 3. -/
scoped instance instNeZeroFour : NeZero 4 := ⟨by decide⟩

/-- A property of all bytes, from the 256 cases. -/
theorem forall_byte {P : UInt8 → Prop} (h : ∀ n < 256, P (UInt8.ofNat n)) (b : UInt8) : P b := by
  have hb := h b.toNat b.toNat_lt
  rwa [UInt8.ofNat_toNat] at hb

/-- Byte `i` of a word. -/
def byte (w : UInt32) (i : Fin 4) : UInt8 := (w >>> (8 * UInt32.ofNat i.val)).toUInt8

/-- The word of four bytes, given as words. -/
def pack (b0 b1 b2 b3 : UInt32) : UInt32 := (b3 <<< 24) ||| (b2 <<< 16) ||| (b1 <<< 8) ||| b0

theorem getLsbD_byte (w : UInt32) (i : Fin 4) {j : Nat} (hj : j < 8) :
    (byte w i).toBitVec.getLsbD j = w.toBitVec.getLsbD (8 * i.val + j) := by
  fin_cases i <;> simp [byte, hj]

theorem byte_xor (v w : UInt32) (i : Fin 4) : byte (v ^^^ w) i = byte v i ^^^ byte w i := by
  apply UInt8.eq_of_toBitVec_eq
  apply BitVec.eq_of_getLsbD_eq
  intro j hj
  simp [getLsbD_byte _ _ hj]

theorem ext {v w : UInt32} (h : ∀ i, byte v i = byte w i) : v = w := by
  apply UInt32.eq_of_toBitVec_eq
  apply BitVec.eq_of_getLsbD_eq
  intro j hj
  have hbit := congrArg (fun b : UInt8 => b.toBitVec.getLsbD (j % 8)) (h ⟨j / 8, by omega⟩)
  simp only [getLsbD_byte _ _ (Nat.mod_lt j (by omega : 8 > 0)), Nat.div_add_mod] at hbit
  exact hbit

theorem byte_pack (b : Fin 4 → UInt8) (i : Fin 4) :
    byte (pack (b 0).toUInt32 (b 1).toUInt32 (b 2).toUInt32 (b 3).toUInt32) i = b i := by
  apply UInt8.eq_of_toBitVec_eq
  apply BitVec.eq_of_getLsbD_eq
  intro j hj
  rw [getLsbD_byte _ _ hj]
  have hzero : ∀ k l, 8 ≤ l → (b k).toBitVec.getLsbD l = false := fun k l hl =>
    BitVec.getLsbD_of_ge _ _ hl
  fin_cases i
  · have h32 : j < 32 := by omega
    have h24 : j < 24 := by omega
    have h16 : j < 16 := by omega
    simp [pack, hj, h32, h24, h16]
  · have h32 : 8 + j < 32 := by omega
    have h24 : 8 + j < 24 := by omega
    have h16 : 8 + j < 16 := by omega
    simp [pack, hj, h32, h24, h16]
  · have h32 : 16 + j < 32 := by omega
    have h24 : 16 + j < 24 := by omega
    simp [pack, hj, h32, h24, hzero 1 (16 + j - 8) (by omega), hzero 0 (16 + j) (by omega)]
  · have h32 : 24 + j < 32 := by omega
    simp [pack, hj, h32, hzero 2 (24 + j - 16) (by omega), hzero 1 (24 + j - 8) (by omega),
      hzero 0 (24 + j) (by omega)]

/-- A word is packed from its bytes. -/
theorem pack_byte (w : UInt32) :
    pack (byte w 0).toUInt32 (byte w 1).toUInt32 (byte w 2).toUInt32 (byte w 3).toUInt32 = w :=
  ext (byte_pack (byte w))

end WordBytes
