import Mathlib.Tactic.FinCases
import OpenZWave.Lib.RoundCipher
import OpenZWave.Lib.WordBytes

/-!
# The layers of Rijndael

The state has four rows and four columns of bytes. Bytes are multiplied in the
field of 256 elements; the multiplications that the columns need are composed of
`xtime`, the multiplication by two, which is additive. The substitution box is a
parameter.
-/

namespace Rijndael

/-- The bytes by row and column. -/
abbrev State := Fin 4 → Fin 4 → UInt8

/-- Multiplication by two: what leaves the byte comes back as `0x1b`. -/
def xtime (x : UInt8) : UInt8 := (x <<< 1) ^^^ (if x.toBitVec.msb then 0x1b else 0)

theorem xtime_xor (x y : UInt8) : xtime (x ^^^ y) = xtime x ^^^ xtime y := by
  have hshift : (x ^^^ y) <<< 1 = (x <<< 1) ^^^ (y <<< 1) := by
    apply UInt8.eq_of_toBitVec_eq
    simp [BitVec.shiftLeft_xor_distrib]
  have hmsb : (x ^^^ y).toBitVec.msb = (x.toBitVec.msb ^^ y.toBitVec.msb) := by
    rw [UInt8.toBitVec_xor, BitVec.msb_xor]
  have hreduce : (if (x.toBitVec.msb ^^ y.toBitVec.msb) = true then (0x1b : UInt8) else 0) =
      (if x.toBitVec.msb then 0x1b else 0) ^^^ (if y.toBitVec.msb then 0x1b else 0) := by
    cases x.toBitVec.msb <;> cases y.toBitVec.msb <;> rfl
  rw [xtime, xtime, xtime, hshift, hmsb, hreduce]
  ac_rfl

def mul3 (x : UInt8) : UInt8 := xtime x ^^^ x

def mul9 (x : UInt8) : UInt8 := xtime (xtime (xtime x)) ^^^ x

def mulB (x : UInt8) : UInt8 := xtime (xtime (xtime x)) ^^^ xtime x ^^^ x

def mulD (x : UInt8) : UInt8 := xtime (xtime (xtime x)) ^^^ xtime (xtime x) ^^^ x

def mulE (x : UInt8) : UInt8 := xtime (xtime (xtime x)) ^^^ xtime (xtime x) ^^^ xtime x

def addRoundKey (s key : State) : State := fun r c => s r c ^^^ key r c

def subBytes (box : UInt8 → UInt8) (s : State) : State := fun r c => box (s r c)

/-- Row `r` moves `r` columns to the left. -/
def shiftRows (s : State) : State := fun r c => s r (c + r)

def invShiftRows (s : State) : State := fun r c => s r (c - r)

def mixColumns (s : State) : State := fun r c =>
  xtime (s r c) ^^^ mul3 (s (r + 1) c) ^^^ s (r + 2) c ^^^ s (r + 3) c

def invMixColumns (s : State) : State := fun r c =>
  mulE (s r c) ^^^ mulB (s (r + 1) c) ^^^ mulD (s (r + 2) c) ^^^ mul9 (s (r + 3) c)

theorem mul9_xor (x y : UInt8) : mul9 (x ^^^ y) = mul9 x ^^^ mul9 y := by
  simp only [mul9, xtime_xor]
  ac_rfl

theorem mulB_xor (x y : UInt8) : mulB (x ^^^ y) = mulB x ^^^ mulB y := by
  simp only [mulB, xtime_xor]
  ac_rfl

theorem mulD_xor (x y : UInt8) : mulD (x ^^^ y) = mulD x ^^^ mulD y := by
  simp only [mulD, xtime_xor]
  ac_rfl

theorem mulE_xor (x y : UInt8) : mulE (x ^^^ y) = mulE x ^^^ mulE y := by
  simp only [mulE, xtime_xor]
  ac_rfl

theorem invMixColumns_add (s key : State) :
    invMixColumns (addRoundKey s key) = addRoundKey (invMixColumns s) (invMixColumns key) := by
  funext r c
  simp only [invMixColumns, addRoundKey, mulE_xor, mulB_xor, mulD_xor, mul9_xor]
  ac_rfl

theorem xor_left_comm (x y z : UInt8) : x ^^^ (y ^^^ z) = y ^^^ (x ^^^ z) := by
  ac_rfl

theorem xor_xor_cancel (x y : UInt8) : x ^^^ (x ^^^ y) = y := by
  rw [← UInt8.xor_assoc, UInt8.xor_self, UInt8.zero_xor]

/-- The products of the two column matrices, as polynomials in `xtime`. -/
theorem column_products (x : UInt8) :
    mulE (xtime x) ^^^ mulB x ^^^ mulD x ^^^ mul9 (mul3 x) = x ∧
      mulE (mul3 x) ^^^ mulB (xtime x) ^^^ mulD x ^^^ mul9 x = 0 ∧
        mulE x ^^^ mulB (mul3 x) ^^^ mulD (xtime x) ^^^ mul9 x = 0 ∧
          mulE x ^^^ mulB x ^^^ mulD (mul3 x) ^^^ mul9 (xtime x) = 0 := by
  refine ⟨?_, ?_, ?_, ?_⟩ <;>
    simp only [mulE, mulB, mulD, mul9, mul3, xtime_xor, UInt8.xor_assoc, xor_left_comm,
      UInt8.xor_comm, xor_xor_cancel, UInt8.xor_self, UInt8.xor_zero]

theorem invMixColumns_mixColumns (s : State) : invMixColumns (mixColumns s) = s := by
  funext r c
  have h1 : r + 1 + 1 = r + 2 := by fin_cases r <;> rfl
  have h2 : r + 1 + 2 = r + 3 := by fin_cases r <;> rfl
  have h3 : r + 1 + 3 = r := by fin_cases r <;> rfl
  have h4 : r + 2 + 1 = r + 3 := by fin_cases r <;> rfl
  have h5 : r + 2 + 2 = r := by fin_cases r <;> rfl
  have h6 : r + 2 + 3 = r + 1 := by fin_cases r <;> rfl
  have h7 : r + 3 + 1 = r := by fin_cases r <;> rfl
  have h8 : r + 3 + 2 = r + 1 := by fin_cases r <;> rfl
  have h9 : r + 3 + 3 = r + 2 := by fin_cases r <;> rfl
  simp only [invMixColumns, mixColumns, mulE_xor, mulB_xor, mulD_xor, mul9_xor, h1, h2, h3, h4, h5,
    h6, h7, h8, h9]
  calc _ = (mulE (xtime (s r c)) ^^^ mulB (s r c) ^^^ mulD (s r c) ^^^ mul9 (mul3 (s r c))) ^^^
        (mulE (mul3 (s (r + 1) c)) ^^^ mulB (xtime (s (r + 1) c)) ^^^ mulD (s (r + 1) c) ^^^
          mul9 (s (r + 1) c)) ^^^
        (mulE (s (r + 2) c) ^^^ mulB (mul3 (s (r + 2) c)) ^^^ mulD (xtime (s (r + 2) c)) ^^^
          mul9 (s (r + 2) c)) ^^^
        (mulE (s (r + 3) c) ^^^ mulB (s (r + 3) c) ^^^ mulD (mul3 (s (r + 3) c)) ^^^
          mul9 (xtime (s (r + 3) c))) := by ac_rfl
    _ = s r c := by
      obtain ⟨hown, -⟩ := column_products (s r c)
      obtain ⟨-, hone, -⟩ := column_products (s (r + 1) c)
      obtain ⟨-, -, htwo, -⟩ := column_products (s (r + 2) c)
      obtain ⟨-, -, -, hthree⟩ := column_products (s (r + 3) c)
      rw [hown, hone, htwo, hthree, UInt8.xor_zero, UInt8.xor_zero, UInt8.xor_zero]

theorem invShiftRows_shiftRows (s : State) : invShiftRows (shiftRows s) = s := by
  funext r c
  rw [invShiftRows, shiftRows]
  congr 1
  fin_cases r <;> fin_cases c <;> rfl

/-- The rounds over a substitution box and its inverse. -/
def cipher (box invBox : UInt8 → UInt8) (hbox : ∀ b, invBox (box b) = b) : RoundCipher State where
  add := addRoundKey
  sub s := shiftRows (subBytes box s)
  unsub s := subBytes invBox (invShiftRows s)
  mix := mixColumns
  unmix := invMixColumns
  add_add s key := by
    funext r c
    rw [addRoundKey, addRoundKey, UInt8.xor_assoc, UInt8.xor_self, UInt8.xor_zero]
  unsub_sub s := by
    rw [invShiftRows_shiftRows]
    funext r c
    exact hbox (s r c)
  unmix_mix := invMixColumns_mixColumns
  unmix_add := invMixColumns_add

/-! ## The key schedule -/

/-- A column of the state or of a key. -/
abbrev Word := Fin 4 → UInt8

def addWord (v w : Word) : Word := fun r => v r ^^^ w r

instance : Std.Associative addWord :=
  ⟨fun _ _ _ => funext fun _ => UInt8.xor_assoc _ _ _⟩

instance : Std.Commutative addWord := ⟨fun _ _ => funext fun _ => UInt8.xor_comm _ _⟩

theorem addWord_cancel (v w : Word) : addWord (addWord v w) w = v := by
  funext r
  rw [addWord, addWord, UInt8.xor_assoc, UInt8.xor_self, UInt8.xor_zero]

/-- One column of `invMixColumns`. -/
def unmixWord (w : Word) : Word := fun r =>
  mulE (w r) ^^^ mulB (w (r + 1)) ^^^ mulD (w (r + 2)) ^^^ mul9 (w (r + 3))

theorem unmixWord_add (v w : Word) :
    unmixWord (addWord v w) = addWord (unmixWord v) (unmixWord w) := by
  funext r
  simp only [unmixWord, addWord, mulE_xor, mulB_xor, mulD_xor, mul9_xor]
  ac_rfl

def subWord (box : UInt8 → UInt8) (w : Word) : Word := fun r => box (w r)

def rotWord (w : Word) : Word := fun r => w (r + 1)

/-- The round constants: powers of two in the first byte. -/
def rcon : Nat → UInt8
  | 0 => 1
  | i + 1 => xtime (rcon i)

/-- What is added to the word `nk` places before word `i`: `w` is the word before it. -/
def keyTemp (box : UInt8 → UInt8) (nk i : Nat) (w : Word) : Word :=
  if i % nk = 0 then
    addWord (subWord box (rotWord w)) fun r => if r = 0 then rcon (i / nk - 1) else 0
  else if 6 < nk ∧ i % nk = 4 then subWord box w
  else w

/-- Word `i` of the expansion of a key of `nk` words. -/
def keyWord (box : UInt8 → UInt8) (nk : Nat) (key : Nat → Word) (i : Nat) : Word :=
  if h : i < nk ∨ nk = 0 then key i
  else addWord (keyWord box nk key (i - nk)) (keyTemp box nk i (keyWord box nk key (i - 1)))
termination_by i
decreasing_by all_goals omega

variable {box : UInt8 → UInt8} {nk : Nat} {key : Nat → Word}

theorem keyWord_of_lt {i : Nat} (h : i < nk) : keyWord box nk key i = key i := by
  rw [keyWord, dif_pos (Or.inl h)]

theorem keyWord_add (hnk : 0 < nk) (i : Nat) :
    keyWord box nk key (i + nk) =
      addWord (keyWord box nk key i) (keyTemp box nk (i + nk) (keyWord box nk key (i + nk - 1))) := by
  rw [keyWord, dif_neg (by omega), Nat.add_sub_cancel]

/-- The four words of a round key. -/
def roundKey (w : Nat → Word) (n : Nat) : State := fun r c => w (4 * n + c) r

end Rijndael
