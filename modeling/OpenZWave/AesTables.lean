import Mathlib.Data.Fin.VecNotation
import OpenZWave.Lib.Rijndael

/-!
# The tables of the block cipher

`aestab.c` with fixed tables and `aesopt.h` for a little-endian machine. The macros
compute with words; `p` is a byte of the substitution box as such a word. A table
is the function that its macro gives for each index.
-/

namespace OpenZWave.Aes

open WordBytes Rijndael

/-! ## Words and bytes -/

def bytes2word (b0 b1 b2 b3 : UInt32) : UInt32 := pack b0 b1 b2 b3

def bval (x : UInt32) (n : Fin 4) : UInt8 := byte x n

/-! ## Multiplication by constants -/

def wpoly : UInt32 := 0x011b

def f2 (x : UInt32) : UInt32 := (x <<< 1) ^^^ ((x >>> 7 &&& (1 : UInt32)) * wpoly)

def f4 (x : UInt32) : UInt32 :=
  (x <<< 2) ^^^ ((x >>> 6 &&& (1 : UInt32)) * wpoly) ^^^ ((x >>> 6 &&& (2 : UInt32)) * wpoly)

def f8 (x : UInt32) : UInt32 :=
  (x <<< 3) ^^^ ((x >>> 5 &&& (1 : UInt32)) * wpoly) ^^^ ((x >>> 5 &&& (2 : UInt32)) * wpoly) ^^^
    ((x >>> 5 &&& (4 : UInt32)) * wpoly)

def f3 (x : UInt32) : UInt32 := f2 x ^^^ x

def f9 (x : UInt32) : UInt32 := f8 x ^^^ x

def fb (x : UInt32) : UInt32 := f8 x ^^^ f2 x ^^^ x

def fd (x : UInt32) : UInt32 := f8 x ^^^ f4 x ^^^ x

def fe (x : UInt32) : UInt32 := f8 x ^^^ f4 x ^^^ f2 x

/-! ## Tables -/

def sbData : List (List Nat) := [
  [0x63, 0x7c, 0x77, 0x7b, 0xf2, 0x6b, 0x6f, 0xc5],
  [0x30, 0x01, 0x67, 0x2b, 0xfe, 0xd7, 0xab, 0x76],
  [0xca, 0x82, 0xc9, 0x7d, 0xfa, 0x59, 0x47, 0xf0],
  [0xad, 0xd4, 0xa2, 0xaf, 0x9c, 0xa4, 0x72, 0xc0],
  [0xb7, 0xfd, 0x93, 0x26, 0x36, 0x3f, 0xf7, 0xcc],
  [0x34, 0xa5, 0xe5, 0xf1, 0x71, 0xd8, 0x31, 0x15],
  [0x04, 0xc7, 0x23, 0xc3, 0x18, 0x96, 0x05, 0x9a],
  [0x07, 0x12, 0x80, 0xe2, 0xeb, 0x27, 0xb2, 0x75],
  [0x09, 0x83, 0x2c, 0x1a, 0x1b, 0x6e, 0x5a, 0xa0],
  [0x52, 0x3b, 0xd6, 0xb3, 0x29, 0xe3, 0x2f, 0x84],
  [0x53, 0xd1, 0x00, 0xed, 0x20, 0xfc, 0xb1, 0x5b],
  [0x6a, 0xcb, 0xbe, 0x39, 0x4a, 0x4c, 0x58, 0xcf],
  [0xd0, 0xef, 0xaa, 0xfb, 0x43, 0x4d, 0x33, 0x85],
  [0x45, 0xf9, 0x02, 0x7f, 0x50, 0x3c, 0x9f, 0xa8],
  [0x51, 0xa3, 0x40, 0x8f, 0x92, 0x9d, 0x38, 0xf5],
  [0xbc, 0xb6, 0xda, 0x21, 0x10, 0xff, 0xf3, 0xd2],
  [0xcd, 0x0c, 0x13, 0xec, 0x5f, 0x97, 0x44, 0x17],
  [0xc4, 0xa7, 0x7e, 0x3d, 0x64, 0x5d, 0x19, 0x73],
  [0x60, 0x81, 0x4f, 0xdc, 0x22, 0x2a, 0x90, 0x88],
  [0x46, 0xee, 0xb8, 0x14, 0xde, 0x5e, 0x0b, 0xdb],
  [0xe0, 0x32, 0x3a, 0x0a, 0x49, 0x06, 0x24, 0x5c],
  [0xc2, 0xd3, 0xac, 0x62, 0x91, 0x95, 0xe4, 0x79],
  [0xe7, 0xc8, 0x37, 0x6d, 0x8d, 0xd5, 0x4e, 0xa9],
  [0x6c, 0x56, 0xf4, 0xea, 0x65, 0x7a, 0xae, 0x08],
  [0xba, 0x78, 0x25, 0x2e, 0x1c, 0xa6, 0xb4, 0xc6],
  [0xe8, 0xdd, 0x74, 0x1f, 0x4b, 0xbd, 0x8b, 0x8a],
  [0x70, 0x3e, 0xb5, 0x66, 0x48, 0x03, 0xf6, 0x0e],
  [0x61, 0x35, 0x57, 0xb9, 0x86, 0xc1, 0x1d, 0x9e],
  [0xe1, 0xf8, 0x98, 0x11, 0x69, 0xd9, 0x8e, 0x94],
  [0x9b, 0x1e, 0x87, 0xe9, 0xce, 0x55, 0x28, 0xdf],
  [0x8c, 0xa1, 0x89, 0x0d, 0xbf, 0xe6, 0x42, 0x68],
  [0x41, 0x99, 0x2d, 0x0f, 0xb0, 0x54, 0xbb, 0x16]]

def isbData : List (List Nat) := [
  [0x52, 0x09, 0x6a, 0xd5, 0x30, 0x36, 0xa5, 0x38],
  [0xbf, 0x40, 0xa3, 0x9e, 0x81, 0xf3, 0xd7, 0xfb],
  [0x7c, 0xe3, 0x39, 0x82, 0x9b, 0x2f, 0xff, 0x87],
  [0x34, 0x8e, 0x43, 0x44, 0xc4, 0xde, 0xe9, 0xcb],
  [0x54, 0x7b, 0x94, 0x32, 0xa6, 0xc2, 0x23, 0x3d],
  [0xee, 0x4c, 0x95, 0x0b, 0x42, 0xfa, 0xc3, 0x4e],
  [0x08, 0x2e, 0xa1, 0x66, 0x28, 0xd9, 0x24, 0xb2],
  [0x76, 0x5b, 0xa2, 0x49, 0x6d, 0x8b, 0xd1, 0x25],
  [0x72, 0xf8, 0xf6, 0x64, 0x86, 0x68, 0x98, 0x16],
  [0xd4, 0xa4, 0x5c, 0xcc, 0x5d, 0x65, 0xb6, 0x92],
  [0x6c, 0x70, 0x48, 0x50, 0xfd, 0xed, 0xb9, 0xda],
  [0x5e, 0x15, 0x46, 0x57, 0xa7, 0x8d, 0x9d, 0x84],
  [0x90, 0xd8, 0xab, 0x00, 0x8c, 0xbc, 0xd3, 0x0a],
  [0xf7, 0xe4, 0x58, 0x05, 0xb8, 0xb3, 0x45, 0x06],
  [0xd0, 0x2c, 0x1e, 0x8f, 0xca, 0x3f, 0x0f, 0x02],
  [0xc1, 0xaf, 0xbd, 0x03, 0x01, 0x13, 0x8a, 0x6b],
  [0x3a, 0x91, 0x11, 0x41, 0x4f, 0x67, 0xdc, 0xea],
  [0x97, 0xf2, 0xcf, 0xce, 0xf0, 0xb4, 0xe6, 0x73],
  [0x96, 0xac, 0x74, 0x22, 0xe7, 0xad, 0x35, 0x85],
  [0xe2, 0xf9, 0x37, 0xe8, 0x1c, 0x75, 0xdf, 0x6e],
  [0x47, 0xf1, 0x1a, 0x71, 0x1d, 0x29, 0xc5, 0x89],
  [0x6f, 0xb7, 0x62, 0x0e, 0xaa, 0x18, 0xbe, 0x1b],
  [0xfc, 0x56, 0x3e, 0x4b, 0xc6, 0xd2, 0x79, 0x20],
  [0x9a, 0xdb, 0xc0, 0xfe, 0x78, 0xcd, 0x5a, 0xf4],
  [0x1f, 0xdd, 0xa8, 0x33, 0x88, 0x07, 0xc7, 0x31],
  [0xb1, 0x12, 0x10, 0x59, 0x27, 0x80, 0xec, 0x5f],
  [0x60, 0x51, 0x7f, 0xa9, 0x19, 0xb5, 0x4a, 0x0d],
  [0x2d, 0xe5, 0x7a, 0x9f, 0x93, 0xc9, 0x9c, 0xef],
  [0xa0, 0xe0, 0x3b, 0x4d, 0xae, 0x2a, 0xf5, 0xb0],
  [0xc8, 0xeb, 0xbb, 0x3c, 0x83, 0x53, 0x99, 0x61],
  [0x17, 0x2b, 0x04, 0x7e, 0xba, 0x77, 0xd6, 0x26],
  [0xe1, 0x69, 0x14, 0x63, 0x55, 0x21, 0x0c, 0x7d]]

def rcData : Vector UInt32 10 := #v[0x01, 0x02, 0x04, 0x08, 0x10, 0x20, 0x40, 0x80, 0x1b, 0x36]

/-- Entry `n` of a table of bytes, which stands in rows of eight. -/
def boxEntry (box : List (List Nat)) (n : Nat) : Nat := (box.getD (n / 8) []).getD (n % 8) 0

def boxed (box : List (List Nat)) (b : UInt8) : UInt8 := UInt8.ofNat (boxEntry box b.toNat)

def w0 (p : UInt32) : UInt32 := bytes2word p 0 0 0

def w1 (p : UInt32) : UInt32 := bytes2word 0 p 0 0

def w2 (p : UInt32) : UInt32 := bytes2word 0 0 p 0

def w3 (p : UInt32) : UInt32 := bytes2word 0 0 0 p

def u0 (p : UInt32) : UInt32 := bytes2word (f2 p) p p (f3 p)

def u1 (p : UInt32) : UInt32 := bytes2word (f3 p) (f2 p) p p

def u2 (p : UInt32) : UInt32 := bytes2word p (f3 p) (f2 p) p

def u3 (p : UInt32) : UInt32 := bytes2word p p (f3 p) (f2 p)

def v0 (p : UInt32) : UInt32 := bytes2word (fe p) (f9 p) (fd p) (fb p)

def v1 (p : UInt32) : UInt32 := bytes2word (fb p) (fe p) (f9 p) (fd p)

def v2 (p : UInt32) : UInt32 := bytes2word (fd p) (fb p) (fe p) (f9 p)

def v3 (p : UInt32) : UInt32 := bytes2word (f9 p) (fd p) (fb p) (fe p)

/-- Four tables of words, `d_4`: the macro of each applied to the bytes of `data`. -/
structure FourTables where
  data : UInt8 → UInt8
  entry : Fin 4 → UInt32 → UInt32

/-- `t_use(f,n)`: the normal rounds. -/
def tFn : FourTables := ⟨boxed sbData, ![u0, u1, u2, u3]⟩

/-- `t_use(f,l)`: the last round. -/
def tFl : FourTables := ⟨boxed sbData, ![w0, w1, w2, w3]⟩

/-- `t_use(i,n)`: the normal inverse rounds. -/
def tIn : FourTables := ⟨boxed isbData, ![v0, v1, v2, v3]⟩

/-- `t_use(i,l)`: the last inverse round. -/
def tIl : FourTables := ⟨boxed isbData, ![w0, w1, w2, w3]⟩

/-- `t_use(i,m)`: `mm_data` lists the bytes themselves. -/
def tIm : FourTables := ⟨fun b => b, ![v0, v1, v2, v3]⟩

def FourTables.at (t : FourTables) (i : Fin 4) (b : UInt8) : UInt32 :=
  t.entry i (t.data b).toUInt32

/-- `four_tables`, for the bytes that the macros `vf` and `rf` select. -/
def fourTables (tab : FourTables) (b : Fin 4 → UInt8) : UInt32 :=
  tab.at 0 (b 0) ^^^ tab.at 1 (b 1) ^^^ tab.at 2 (b 2) ^^^ tab.at 3 (b 3)

/-! ## Their bytes -/

set_option maxRecDepth 4000 in
/-- The macros that multiply by a power of two. -/
theorem powers_eq (p : UInt8) : f2 p.toUInt32 = (xtime p).toUInt32 ∧
    f4 p.toUInt32 = (xtime (xtime p)).toUInt32 ∧
      f8 p.toUInt32 = (xtime (xtime (xtime p))).toUInt32 := by
  revert p
  exact forall_byte (by decide)

theorem f2_eq (p : UInt8) : f2 p.toUInt32 = (xtime p).toUInt32 := (powers_eq p).1

theorem f4_eq (p : UInt8) : f4 p.toUInt32 = (xtime (xtime p)).toUInt32 := (powers_eq p).2.1

theorem f8_eq (p : UInt8) : f8 p.toUInt32 = (xtime (xtime (xtime p))).toUInt32 :=
  (powers_eq p).2.2

theorem f3_eq (p : UInt8) : f3 p.toUInt32 = (mul3 p).toUInt32 := by
  rw [f3, f2_eq, mul3, UInt8.toUInt32_xor]

theorem f9_eq (p : UInt8) : f9 p.toUInt32 = (mul9 p).toUInt32 := by
  rw [f9, f8_eq, mul9, UInt8.toUInt32_xor]

theorem fb_eq (p : UInt8) : fb p.toUInt32 = (mulB p).toUInt32 := by
  rw [fb, f8_eq, f2_eq, mulB, UInt8.toUInt32_xor, UInt8.toUInt32_xor]

theorem fd_eq (p : UInt8) : fd p.toUInt32 = (mulD p).toUInt32 := by
  rw [fd, f8_eq, f4_eq, mulD, UInt8.toUInt32_xor, UInt8.toUInt32_xor]

theorem fe_eq (p : UInt8) : fe p.toUInt32 = (mulE p).toUInt32 := by
  rw [fe, f8_eq, f4_eq, f2_eq, mulE, UInt8.toUInt32_xor, UInt8.toUInt32_xor]

set_option maxRecDepth 4000 in
theorem boxEntry_sbData :
    ∀ n < 256, boxEntry isbData (boxEntry sbData n) = n ∧ boxEntry sbData n < 256 := by
  decide

/-- The substitution and its inverse. -/
theorem isbData_sbData (b : UInt8) : boxed isbData (boxed sbData b) = b := by
  obtain ⟨hinverse, hlt⟩ := boxEntry_sbData b.toNat b.toNat_lt
  rw [boxed, boxed, UInt8.toNat_ofNat_of_lt' hlt, hinverse, UInt8.ofNat_toNat]

theorem bval_xor (x y : UInt32) (n : Fin 4) : bval (x ^^^ y) n = bval x n ^^^ bval y n :=
  byte_xor x y n

theorem bval_bytes2word (b : Fin 4 → UInt8) (n : Fin 4) :
    bval (bytes2word (b 0).toUInt32 (b 1).toUInt32 (b 2).toUInt32 (b 3).toUInt32) n = b n :=
  byte_pack b n

/-- The tables turn one column of a circulant matrix: `coef` gives its multiplications. -/
def FourTables.Turns (t : FourTables) (coef : Fin 4 → UInt8 → UInt8) : Prop :=
  ∀ i n p, bval (t.entry i p.toUInt32) n = coef (n - i) p

theorem bval_fourTables {t : FourTables} {coef : Fin 4 → UInt8 → UInt8} (h : t.Turns coef)
    (b : Fin 4 → UInt8) (n : Fin 4) :
    bval (fourTables t b) n =
      coef 0 (t.data (b n)) ^^^ coef 3 (t.data (b (n + 1))) ^^^ coef 2 (t.data (b (n + 2))) ^^^
        coef 1 (t.data (b (n + 3))) := by
  have hcases : n = 0 ∨ n = 1 ∨ n = 2 ∨ n = 3 := by omega
  have hentry : ∀ i p, bval (t.entry i p.toUInt32) n = coef (n - i) p := fun i p => h i n p
  simp only [fourTables, bval_xor, FourTables.at, hentry]
  rcases hcases with rfl | rfl | rfl | rfl <;> simp only [Fin.reduceAdd, Fin.reduceSub] <;> ac_rfl

def fwdCoef : Fin 4 → UInt8 → UInt8 := ![xtime, id, id, mul3]

def invCoef : Fin 4 → UInt8 → UInt8 := ![mulE, mul9, mulD, mulB]

/-- The last rounds do not mix. -/
def lastCoef : Fin 4 → UInt8 → UInt8 := ![id, fun _ => 0, fun _ => 0, fun _ => 0]

theorem tFn_turns : tFn.Turns fwdCoef := by
  intro i n p
  fin_cases i
  · show bval (u0 p.toUInt32) n = _
    rw [u0, f2_eq, f3_eq]
    exact bval_bytes2word (fun j => fwdCoef (j - 0) p) n
  · show bval (u1 p.toUInt32) n = _
    rw [u1, f2_eq, f3_eq]
    exact bval_bytes2word (fun j => fwdCoef (j - 1) p) n
  · show bval (u2 p.toUInt32) n = _
    rw [u2, f2_eq, f3_eq]
    exact bval_bytes2word (fun j => fwdCoef (j - 2) p) n
  · show bval (u3 p.toUInt32) n = _
    rw [u3, f2_eq, f3_eq]
    exact bval_bytes2word (fun j => fwdCoef (j - 3) p) n

/-- The words `v0` to `v3`, of which both tables with the inverse column consist. -/
theorem turns_v (data : UInt8 → UInt8) :
    (FourTables.mk data ![v0, v1, v2, v3]).Turns invCoef := by
  intro i n p
  fin_cases i
  · show bval (v0 p.toUInt32) n = _
    rw [v0, f9_eq, fb_eq, fd_eq, fe_eq]
    exact bval_bytes2word (fun j => invCoef (j - 0) p) n
  · show bval (v1 p.toUInt32) n = _
    rw [v1, f9_eq, fb_eq, fd_eq, fe_eq]
    exact bval_bytes2word (fun j => invCoef (j - 1) p) n
  · show bval (v2 p.toUInt32) n = _
    rw [v2, f9_eq, fb_eq, fd_eq, fe_eq]
    exact bval_bytes2word (fun j => invCoef (j - 2) p) n
  · show bval (v3 p.toUInt32) n = _
    rw [v3, f9_eq, fb_eq, fd_eq, fe_eq]
    exact bval_bytes2word (fun j => invCoef (j - 3) p) n

theorem turns_w (data : UInt8 → UInt8) :
    (FourTables.mk data ![w0, w1, w2, w3]).Turns lastCoef := by
  intro i n p
  fin_cases i
  · exact bval_bytes2word (fun j => lastCoef (j - 0) p) n
  · exact bval_bytes2word (fun j => lastCoef (j - 1) p) n
  · exact bval_bytes2word (fun j => lastCoef (j - 2) p) n
  · exact bval_bytes2word (fun j => lastCoef (j - 3) p) n

end OpenZWave.Aes
