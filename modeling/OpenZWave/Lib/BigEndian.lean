import Mathlib.Algebra.Order.Ring.Int
import Mathlib.Data.List.Basic
import Mathlib.Tactic.Ring

/-!
# Big-endian numbers

A list of bytes, the highest first, as a natural number and as an integer in two's
complement of its own width.
-/

namespace BigEndian

/-- The number of some bytes. -/
def unsigned (bytes : List UInt8) : ℕ := bytes.foldl (fun n byte => 256 * n + byte.toNat) 0

/-- The integer of some bytes, in two's complement. -/
def twosComplement (bytes : List UInt8) : ℤ := (unsigned bytes : ℤ).bmod (256 ^ bytes.length)

/-- The lowest bytes of a number. -/
def toBytes : ℕ → ℕ → List UInt8
  | 0, _ => []
  | size + 1, n => UInt8.ofNat (n / 256 ^ size) :: toBytes size n

theorem foldl_eq (bytes : List UInt8) (n : ℕ) :
    bytes.foldl (fun n byte => 256 * n + byte.toNat) n =
      256 ^ bytes.length * n + unsigned bytes := by
  induction bytes generalizing n with
  | nil => simp [unsigned]
  | cons byte bytes ih =>
      rw [unsigned, List.foldl_cons, List.foldl_cons, ih, ih (256 * 0 + byte.toNat),
        List.length_cons]
      ring

theorem unsigned_cons (byte : UInt8) (bytes : List UInt8) :
    unsigned (byte :: bytes) = 256 ^ bytes.length * byte.toNat + unsigned bytes := by
  rw [unsigned, List.foldl_cons, foldl_eq, Nat.mul_zero, Nat.zero_add]

theorem unsigned_lt (bytes : List UInt8) : unsigned bytes < 256 ^ bytes.length := by
  induction bytes with
  | nil => exact Nat.zero_lt_one
  | cons byte bytes ih =>
      have hbyte : byte.toNat + 1 ≤ 256 := byte.toNat_lt
      calc unsigned (byte :: bytes)
          = 256 ^ bytes.length * byte.toNat + unsigned bytes := unsigned_cons byte bytes
        _ < 256 ^ bytes.length * (byte.toNat + 1) := by rw [Nat.mul_succ]; omega
        _ ≤ 256 ^ bytes.length * 256 := Nat.mul_le_mul_left _ hbyte
        _ = 256 ^ (byte :: bytes).length := (pow_succ 256 bytes.length).symm

/-- A number is short exactly if the bytes before the last ones are zero. -/
theorem unsigned_lt_iff (bytes : List UInt8) (k : ℕ) :
    unsigned bytes < 256 ^ k ↔ ∀ byte ∈ bytes.take (bytes.length - k), byte = 0 := by
  induction bytes with
  | nil =>
      rw [List.take_nil]
      exact iff_of_true (Nat.pow_pos (by omega)) (List.forall_mem_nil _)
  | cons byte bytes ih =>
      rcases Nat.lt_or_ge bytes.length k with hshort | hlong
      · have hle : (byte :: bytes).length ≤ k := hshort
        rw [Nat.sub_eq_zero_of_le hle]
        exact iff_of_true ((unsigned_lt _).trans_le (Nat.pow_le_pow_right (by omega) hle))
          (List.forall_mem_nil _)
      · have hwidth : 256 ^ k ≤ 256 ^ bytes.length := Nat.pow_le_pow_right (by omega) hlong
        rw [List.length_cons, Nat.succ_sub hlong, List.take_succ_cons, List.forall_mem_cons, ← ih,
          unsigned_cons]
        constructor
        · intro hlt
          have hzero : byte.toNat = 0 := by
            by_contra hbyte
            have hle := Nat.mul_le_mul_left (256 ^ bytes.length) (Nat.pos_of_ne_zero hbyte)
            omega
          rw [hzero, Nat.mul_zero, Nat.zero_add] at hlt
          exact ⟨UInt8.toNat_inj.mp hzero, hlt⟩
        · rintro ⟨rfl, hlt⟩
          simpa using hlt

theorem length_toBytes (size n : ℕ) : (toBytes size n).length = size := by
  induction size with
  | zero => rfl
  | succ size ih => exact congrArg Nat.succ ih

theorem unsigned_toBytes (size n : ℕ) : unsigned (toBytes size n) = n % 256 ^ size := by
  induction size with
  | zero => exact (Nat.mod_one n).symm
  | succ size ih =>
      have hbyte : (UInt8.ofNat (n / 256 ^ size)).toNat = n / 256 ^ size % 256 := UInt8.toNat_ofNat'
      rw [toBytes, unsigned_cons, length_toBytes, ih, hbyte, Nat.pow_succ, Nat.mod_mul]
      exact Nat.add_comm _ _

theorem twosComplement_toBytes (size n : ℕ) :
    twosComplement (toBytes size n) = (n : ℤ).bmod (256 ^ size) := by
  rw [twosComplement, unsigned_toBytes, length_toBytes, Int.natCast_mod, Int.emod_bmod]

/-- The sign bit of the first byte is that of the integer. -/
theorem twosComplement_cons (byte : UInt8) (bytes : List UInt8) :
    twosComplement (byte :: bytes) =
      if byte.toNat < 128 then (unsigned (byte :: bytes) : ℤ)
      else unsigned (byte :: bytes) - 256 ^ (byte :: bytes).length := by
  have hlt := unsigned_lt (byte :: bytes)
  have hrest := unsigned_lt bytes
  have hvalue := unsigned_cons byte bytes
  have hwidth : 256 ^ (byte :: bytes).length = 2 * (128 * 256 ^ bytes.length) := by
    rw [List.length_cons, pow_succ]
    ring
  have hhalf : ((256 ^ (byte :: bytes).length : ℕ) : ℤ) = 256 ^ (byte :: bytes).length := by
    push_cast
    rfl
  rw [twosComplement]
  split
  · rename_i hsmall
    have hbelow : unsigned (byte :: bytes) < 128 * 256 ^ bytes.length := by
      have hle : 256 ^ bytes.length * (byte.toNat + 1) ≤ 256 ^ bytes.length * 128 :=
        Nat.mul_le_mul_left _ hsmall
      rw [Nat.mul_succ] at hle
      omega
    rw [Int.bmod_eq_of_le] <;> omega
  · rename_i hlarge
    have habove : 128 * 256 ^ bytes.length ≤ unsigned (byte :: bytes) := by
      have hle : 256 ^ bytes.length * 128 ≤ 256 ^ bytes.length * byte.toNat :=
        Nat.mul_le_mul_left _ (Nat.le_of_not_lt hlarge)
      omega
    rw [← hhalf]
    have hsub := Int.bmod_eq_of_le (n := (unsigned (byte :: bytes) : ℤ) -
      (256 ^ (byte :: bytes).length : ℕ)) (m := 256 ^ (byte :: bytes).length) (by omega) (by omega)
    rw [← hsub, Int.sub_bmod_right]

end BigEndian
