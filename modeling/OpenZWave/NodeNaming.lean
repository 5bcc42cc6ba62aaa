import OpenZWave.CommandFrame
import OpenZWave.Lib.Utf16
import OpenZWave.SendDataRequests
import Mathlib.Data.Bool.AllAny
import Mathlib.Data.List.Chain

/-!
# Names and locations of nodes

`ExtractString` with its accesses to the report and to the buffer of 32 bytes, and with
the high surrogate that `ConvertUFT16ToUTF8` keeps in a static variable from one call to
the next.
-/

namespace OpenZWave

open Checked Utf16

namespace NodeNaming

def classId : UInt8 := 0x77
def cmdSet : UInt8 := 0x01
def cmdReport : UInt8 := 0x03
def cmdLocationSet : UInt8 := 0x04
def cmdLocationReport : UInt8 := 0x06

def ascii : UInt8 := 0
def extendedASCII : UInt8 := 1
def utf16 : UInt8 := 2

/-- `c_extendedAsciiToUnicode`, from 0x80 on. -/
def c_extendedAsciiToUnicode : List UInt16 :=
  [0x20ac, 0x0081, 0x201a, 0x0192, 0x201e, 0x2026, 0x2020, 0x2021,
    0x02c6, 0x2030, 0x0160, 0x2039, 0x0152, 0x008d, 0x017d, 0x008f,
    0x0090, 0x2018, 0x2019, 0x201c, 0x201d, 0x2022, 0x2013, 0x2014,
    0x02dc, 0x2122, 0x0161, 0x203a, 0x0153, 0x009d, 0x017e, 0x0178,
    0x00a0, 0x00a1, 0x00a2, 0x00a3, 0x00a4, 0x00a5, 0x00a6, 0x00a7,
    0x00a8, 0x00a9, 0x00aa, 0x00ab, 0x00ac, 0x00ad, 0x00ae, 0x00af,
    0x00b0, 0x00b1, 0x00b2, 0x00b3, 0x00b4, 0x00b5, 0x00b6, 0x00b7,
    0x00b8, 0x00b9, 0x00ba, 0x00bb, 0x00bc, 0x00bd, 0x00be, 0x00bf,
    0x00c0, 0x00c1, 0x00c2, 0x00c3, 0x00c4, 0x00c5, 0x00c6, 0x00c7,
    0x00c8, 0x00c9, 0x00ca, 0x00cb, 0x00cc, 0x00cd, 0x00ce, 0x00cf,
    0x00d0, 0x00d1, 0x00d2, 0x00d3, 0x00d4, 0x00d5, 0x00d6, 0x00d7,
    0x00d8, 0x00d9, 0x00da, 0x00db, 0x00dc, 0x00dd, 0x00de, 0x00df,
    0x00e0, 0x00e1, 0x00e2, 0x00e3, 0x00e4, 0x00e5, 0x00e6, 0x00e7,
    0x00e8, 0x00e9, 0x00ea, 0x00eb, 0x00ec, 0x00ed, 0x00ee, 0x00ef,
    0x00f0, 0x00f1, 0x00f2, 0x00f3, 0x00f4, 0x00f5, 0x00f6, 0x00f7,
    0x00f8, 0x00f9, 0x00fa, 0x00fb, 0x00fc, 0x00fd, 0x00fe, 0x00ff]

/-- The bytes for a pair of surrogates. -/
def fourBytes (surrogate utf16 : UInt16) : List UInt8 :=
  let first : UInt16 := ((surrogate >>> 7) &&& 0x0007) ||| 0x00f0
  let second : UInt16 :=
    ((surrogate >>> 1) &&& (0x0020 : UInt16)) ||| ((surrogate >>> 2) &&& (0x000f : UInt16)) |||
      0x0090
  let third : UInt16 :=
    ((utf16 >>> 6) &&& (0x000f : UInt16)) ||| ((surrogate <<< 4) &&& (0x0030 : UInt16)) ||| 0x0080
  let fourth : UInt16 := (utf16 &&& 0x003f) ||| 0x0080
  [first.toUInt8, second.toUInt8, third.toUInt8, fourth.toUInt8]

def threeBytes (utf16 : UInt16) : List UInt8 :=
  let first : UInt16 := (utf16 >>> 12) ||| 0x00e0
  let second : UInt16 := ((utf16 >>> 6) &&& 0x003f) ||| 0x0080
  let third : UInt16 := (utf16 &&& 0x003f) ||| 0x0080
  [first.toUInt8, second.toUInt8, third.toUInt8]

def twoBytes (utf16 : UInt16) : List UInt8 :=
  let first : UInt16 := (utf16 >>> 6) ||| 0x00c0
  let second : UInt16 := (utf16 &&& 0x003f) ||| 0x0080
  [first.toUInt8, second.toUInt8]

/-- `ConvertUFT16ToUTF8`: the bytes it writes, and the surrogate it keeps. -/
def convertUFT16ToUTF8 (surrogate utf16 : UInt16) : List UInt8 × UInt16 :=
  if surrogate ≠ 0 ∧ utf16 &&& 0xdc00 = 0xdc00 then (fourBytes surrogate utf16, surrogate)
  else if utf16 &&& 0xff80 ≠ 0 then
    if utf16 &&& 0xf800 ≠ 0 then
      if utf16 &&& 0xd800 = 0xd800 then ([], utf16) else (threeBytes utf16, 0)
    else (twoBytes utf16, 0)
  else ([utf16.toUInt8], 0)

/-- Bytes are written to `str[32]`. -/
def put (str bytes : List UInt8) : Except FrameFault (List UInt8) := append 33 .overrun str bytes

/-- The characters are copied as they are. -/
def extractASCII (f : CommandFrame) (numBytes : ℕ) : Except FrameFault (List UInt8) :=
  (List.range numBytes).foldlM (fun str i => do put str [← f.read (2 + i)]) []

/-- One character of extended ASCII. -/
def putExtended (state : List UInt8 × UInt16) (ch : UInt8) :
    Except FrameFault (List UInt8 × UInt16) := do
  if ch ≥ 0x80 then
    let utf16 ← readAt c_extendedAsciiToUnicode (ch - 0x80).toNat .table
    let converted := convertUFT16ToUTF8 state.2 utf16
    return (← put state.1 converted.1, converted.2)
  else return (← put state.1 [ch], state.2)

def extractExtendedASCII (surrogate : UInt16) (f : CommandFrame) (numBytes : ℕ) :
    Except FrameFault (List UInt8 × UInt16) :=
  (List.range numBytes).foldlM (fun state i => do putExtended state (← f.read (2 + i)))
    ([], surrogate)

/-- One unit of UTF-16. -/
def putUnit (state : List UInt8 × UInt16) (utf16 : UInt16) :
    Except FrameFault (List UInt8 × UInt16) := do
  let converted := convertUFT16ToUTF8 state.2 utf16
  return (← put state.1 converted.1, converted.2)

def readUnit (f : CommandFrame) (i : ℕ) : Except FrameFault UInt16 := do
  let high ← f.read (2 * i + 2)
  let low ← f.read (2 * i + 3)
  return (high.toUInt16 <<< 8) ||| low.toUInt16

/-- The loop goes on by two bytes as long as one is left. -/
def extractUTF16 (surrogate : UInt16) (f : CommandFrame) (numBytes : ℕ) :
    Except FrameFault (List UInt8 × UInt16) :=
  (List.range ((numBytes + 1) / 2)).foldlM (fun state i => do putUnit state (← readUnit f i))
    ([], surrogate)

/-- `string(str)`: the bytes in front of the first zero. -/
def cString (str : List UInt8) : List UInt8 := str.takeWhile (· ≠ 0)

/-- The switch over the encodings: what is written to `str`. -/
def writeText (surrogate : UInt16) (f : CommandFrame) (encoding : UInt8) (numBytes : ℕ) :
    Except FrameFault (List UInt8 × UInt16) :=
  if encoding = ascii then do return (← extractASCII f numBytes, surrogate)
  else if encoding = extendedASCII then extractExtendedASCII surrogate f numBytes
  else if encoding = utf16 then extractUTF16 surrogate f numBytes
  else return ([], surrogate)

/-- `ExtractString`: the string, and the surrogate that is kept. -/
def extractString (surrogate : UInt16) (f : CommandFrame) :
    Except FrameFault (List UInt8 × UInt16) := do
  let encoding := (← f.read 1) &&& 0x07
  if f.length ≥ 3 then
    let numBytes := (f.length - 3).toUInt8
    let numBytes := if numBytes > 16 then 16 else numBytes
    let written ← writeText surrogate f encoding numBytes.toNat
    check (written.1.length < 32) .overrun
    return (cString written.1, written.2)
  else return ([], surrogate)

/-- `SetName` and `SetLocation`, which differ in the command. -/
def setString (sender : Sender) (id : ℕ) (command : UInt8) (name : List UInt8) : SendData :=
  let length := if name.length > 16 then 16 else name.length
  sender.request (sender.set id) (UInt8.ofNat (length + 3))
    (classId :: command :: ascii :: name.take length)

/-- `SetName`. -/
def setName (sender : Sender) (id : ℕ) (name : List UInt8) : SendData :=
  setString sender id cmdSet name

/-- `SetLocation`. -/
def setLocation (sender : Sender) (id : ℕ) (location : List UInt8) : SendData :=
  setString sender id cmdLocationSet location

/-! ## The masks -/

theorem and_mul_two_pow (a b k : ℕ) : a &&& b * 2 ^ k = (a / 2 ^ k &&& b) * 2 ^ k := by
  rw [← Nat.shiftLeft_eq, ← Nat.shiftLeft_eq, ← Nat.shiftRight_eq_div_pow]
  apply Nat.eq_of_testBit_eq
  intro i
  rw [Nat.testBit_and, Nat.testBit_shiftLeft, Nat.testBit_shiftLeft, Nat.testBit_and,
    Nat.testBit_shiftRight]
  by_cases h : k ≤ i
  · simp [h, Nat.add_sub_cancel' h]
  · simp [h]

variable {u : UInt16}

/-- A mask on the bits from `k` on is one on what these bits make. -/
theorem and_eq_iff {m e : UInt16} {b c k : ℕ} (hm : m.toNat = b * 2 ^ k)
    (he : e.toNat = c * 2 ^ k) :
    u &&& m = e ↔ u.toNat / 2 ^ k &&& b = c := by
  rw [← UInt16.toNat_inj, UInt16.toNat_and, hm, he, and_mul_two_pow]
  exact Nat.mul_left_inj (Nat.ne_of_gt (Nat.two_pow_pos k))

theorem and_dc00 : u &&& 0xdc00 = 0xdc00 ↔ IsLow u ∨ 0xFC00 ≤ u.toNat := by
  have hu := u.toNat_lt
  have hfield : ∀ y < 64, y &&& 55 = 55 ↔ y = 55 ∨ y = 63 := by decide
  have hmask : (0xdc00 : UInt16).toNat = 55 * 2 ^ 10 := rfl
  rw [and_eq_iff hmask hmask, hfield _ (by omega), IsLow]
  omega

theorem and_d800 : u &&& 0xd800 = 0xd800 ↔ IsHigh u ∨ IsLow u ∨ 0xF800 ≤ u.toNat := by
  have hu := u.toNat_lt
  have hfield : ∀ y < 32, y &&& 27 = 27 ↔ y = 27 ∨ y = 31 := by decide
  have hmask : (0xd800 : UInt16).toNat = 27 * 2 ^ 11 := rfl
  rw [and_eq_iff hmask hmask, hfield _ (by omega), IsHigh, IsLow]
  omega

/-- The bits from `k` on are zero. -/
theorem and_eq_zero_iff {m : UInt16} {j k : ℕ} (hm : m.toNat = (2 ^ j - 1) * 2 ^ k)
    (hwidth : 2 ^ j * 2 ^ k = 2 ^ 16) : u &&& m = 0 ↔ u.toNat < 2 ^ k := by
  have hfield : u.toNat / 2 ^ k < 2 ^ j := by
    rw [Nat.div_lt_iff_lt_mul (Nat.two_pow_pos k), hwidth]
    exact u.toNat_lt
  rw [and_eq_iff hm (show (0 : UInt16).toNat = 0 * 2 ^ k by rw [Nat.zero_mul]; rfl),
    Nat.and_two_pow_sub_one_eq_mod, Nat.mod_eq_of_lt hfield,
    Nat.div_eq_zero_iff_lt (Nat.two_pow_pos k)]

theorem and_f800 : u &&& 0xf800 = 0 ↔ u.toNat < 0x800 :=
  and_eq_zero_iff (show _ = (2 ^ 5 - 1) * 2 ^ 11 from rfl) rfl

theorem and_ff80 : u &&& 0xff80 = 0 ↔ u.toNat < 0x80 :=
  and_eq_zero_iff (show _ = (2 ^ 9 - 1) * 2 ^ 7 from rfl) rfl

/-! ## The bytes -/

/-- Low bits of a field with constant bits above them. -/
theorem toUInt8_eq_ofNat {x : UInt16} {n : ℕ} (h : x.toNat = n) : x.toUInt8 = UInt8.ofNat n := by
  rw [← h]
  rfl

theorem field_or {x m : UInt16} {k n : ℕ} (b : ℕ) (hm : m.toNat = 2 ^ k * b) (hx : x.toNat = n)
    (hn : n < 2 ^ k) : (x ||| m).toNat = n + 2 ^ k * b := by
  rw [UInt16.toNat_or, hx, hm, Nat.or_comm, ← Nat.two_pow_add_eq_or_of_lt hn, Nat.add_comm]

theorem toNat_and_mask {x m : UInt16} {k : ℕ} (hm : m.toNat = 2 ^ k - 1) :
    (x &&& m).toNat = x.toNat % 2 ^ k := by
  rw [UInt16.toNat_and, hm, Nat.and_two_pow_sub_one_eq_mod]

theorem toNat_shift {x s : UInt16} {k : ℕ} (hs : s.toNat = k) (hk : k < 16) :
    (x >>> s).toNat = x.toNat / 2 ^ k := by
  rw [UInt16.toNat_shiftRight, hs, Nat.mod_eq_of_lt hk, Nat.shiftRight_eq_div_pow]

theorem toNat_shift_six (u : UInt16) : (u >>> 6).toNat = u.toNat / 64 :=
  toNat_shift (k := 6) rfl (by decide)

/-- The last byte of a character. -/
theorem toNat_last (u : UInt16) : ((u &&& 0x003f) ||| 0x0080).toNat = u.toNat % 64 + 0x80 :=
  field_or (k := 6) 2 rfl (toNat_and_mask (k := 6) rfl) (Nat.mod_lt _ (by decide))

theorem twoBytes_eq (h : u.toNat < 0x800) :
    twoBytes u = [UInt8.ofNat (u.toNat / 64 % 32 + 0xc0), UInt8.ofNat (u.toNat % 64 + 0x80)] := by
  have hfield : u.toNat / 64 = u.toNat / 64 % 32 := by omega
  have hfirst : ((u >>> 6) ||| 0x00c0).toNat = u.toNat / 64 % 32 + 0xc0 :=
    field_or (k := 6) 3 rfl ((toNat_shift_six u).trans hfield) (by omega)
  rw [twoBytes, toUInt8_eq_ofNat hfirst, toUInt8_eq_ofNat (toNat_last u)]

theorem threeBytes_eq (u : UInt16) :
    threeBytes u = [UInt8.ofNat (u.toNat / 4096 % 16 + 0xe0),
      UInt8.ofNat (u.toNat / 64 % 64 + 0x80), UInt8.ofNat (u.toNat % 64 + 0x80)] := by
  have hu := u.toNat_lt
  have hfield : u.toNat / 4096 = u.toNat / 4096 % 16 := by omega
  have htwelve : (u >>> 12).toNat = u.toNat / 4096 := toNat_shift (k := 12) rfl (by decide)
  have hfirst : ((u >>> 12) ||| 0x00e0).toNat = u.toNat / 4096 % 16 + 0xe0 :=
    field_or (k := 5) 7 rfl (htwelve.trans hfield) (by omega)
  have hsix : ((u >>> 6) &&& 0x003f).toNat = u.toNat / 64 % 64 := by
    rw [toNat_and_mask (k := 6) rfl, toNat_shift_six]
    rfl
  have hsecond : (((u >>> 6) &&& 0x003f) ||| 0x0080).toNat = u.toNat / 64 % 64 + 0x80 :=
    field_or (k := 6) 2 rfl hsix (Nat.mod_lt _ (by decide))
  rw [threeBytes, toUInt8_eq_ofNat hfirst, toUInt8_eq_ofNat hsecond,
    toUInt8_eq_ofNat (toNat_last u)]

/-- The bytes for a pair, from the bits they are made of. -/
theorem fourBytes_eq (s u : UInt16) :
    fourBytes s u = [UInt8.ofNat (s.toNat / 128 % 8 + 0xf0),
      UInt8.ofNat (s.toNat / 64 % 2 * 32 + s.toNat / 4 % 16 + 0x90),
      UInt8.ofNat (u.toNat / 64 % 16 + s.toNat % 4 * 16 + 0x80),
      UInt8.ofNat (u.toNat % 64 + 0x80)] := by
  have hfirst : (((s >>> 7) &&& 0x0007) ||| 0x00f0).toNat = s.toNat / 128 % 8 + 0xf0 := by
    have hseven : ((s >>> 7) &&& 0x0007).toNat = s.toNat / 128 % 8 := by
      rw [toNat_and_mask (k := 3) rfl, toNat_shift (k := 7) rfl (by decide)]
      rfl
    exact field_or (k := 4) 15 rfl hseven (by omega)
  have hsecond : (((s >>> 1) &&& (0x0020 : UInt16)) ||| ((s >>> 2) &&& (0x000f : UInt16)) |||
      0x0090).toNat = s.toNat / 64 % 2 * 32 + s.toNat / 4 % 16 + 0x90 := by
    have hone : ((s >>> 1) &&& 0x0020).toNat = s.toNat / 64 % 2 * 32 := by
      rw [UInt16.toNat_and, toNat_shift (k := 1) rfl (by decide)]
      change s.toNat / 2 ^ 1 &&& 1 * 2 ^ 5 = _
      rw [and_mul_two_pow, Nat.and_one_is_mod]
      omega
    have htwo : ((s >>> 2) &&& 0x000f).toNat = s.toNat / 4 % 16 := by
      rw [toNat_and_mask (k := 4) rfl, toNat_shift (k := 2) rfl (by decide)]
      rfl
    have hdisjoint : ∀ x < 2, ∀ y < 16, x * 32 ||| y ||| 0x90 = x * 32 + y + 0x90 := by decide
    rw [UInt16.toNat_or, UInt16.toNat_or, hone, htwo]
    exact hdisjoint _ (by omega) _ (by omega)
  have hthird : (((u >>> 6) &&& (0x000f : UInt16)) ||| ((s <<< 4) &&& (0x0030 : UInt16)) |||
      0x0080).toNat = u.toNat / 64 % 16 + s.toNat % 4 * 16 + 0x80 := by
    have hsix : ((u >>> 6) &&& 0x000f).toNat = u.toNat / 64 % 16 := by
      rw [toNat_and_mask (k := 4) rfl, toNat_shift_six]
      rfl
    have hfour : ((s <<< 4) &&& 0x0030).toNat = s.toNat % 4 * 16 := by
      rw [UInt16.toNat_and, UInt16.toNat_shiftLeft, Nat.shiftLeft_eq]
      change s.toNat * 2 ^ 4 % 2 ^ 16 &&& 3 * 2 ^ 4 = _
      rw [and_mul_two_pow, Nat.and_two_pow_sub_one_eq_mod _ 2]
      omega
    have hdisjoint : ∀ x < 16, ∀ y < 4, x ||| y * 16 ||| 0x80 = x + y * 16 + 0x80 := by decide
    rw [UInt16.toNat_or, UInt16.toNat_or, hsix, hfour]
    exact hdisjoint _ (by omega) _ (by omega)
  rw [fourBytes, toUInt8_eq_ofNat hfirst, toUInt8_eq_ofNat hsecond, toUInt8_eq_ofNat hthird,
    toUInt8_eq_ofNat (toNat_last u)]

theorem ofNat_inj {a b : ℕ} (ha : a < 256) (hb : b < 256) :
    UInt8.ofNat a = UInt8.ofNat b ↔ a = b := by
  rw [← UInt8.toNat_inj, UInt8.toNat_ofNat', UInt8.toNat_ofNat', Nat.mod_eq_of_lt ha,
    Nat.mod_eq_of_lt hb]

/-- The bits of a pair of surrogates: `h` of the first and `l` of the second. -/
theorem pair_bits {h l : ℕ} (hh : h < 1024) (hl : l < 1024) :
    (0x10000 + h * 0x400 + l) / 262144 % 8 = (h + 64) / 256 ∧
      (0x10000 + h * 0x400 + l) / 4096 % 64 = (h + 64) / 4 % 64 ∧
      (0x10000 + h * 0x400 + l) / 64 % 64 = l / 64 + h % 4 * 16 ∧
      (0x10000 + h * 0x400 + l) % 64 = l % 64 := by
  refine ⟨?_, ?_, ?_, ?_⟩ <;> omega

theorem surrogate_bits {h l : ℕ} (hh : h < 1024) (hl : l < 1024) :
    (0xD800 + h) / 128 % 8 = h / 128 ∧ (0xD800 + h) / 64 % 2 = h / 64 % 2 ∧
      (0xD800 + h) / 4 % 16 = h / 4 % 16 ∧ (0xD800 + h) % 4 = h % 4 ∧
      (0xDC00 + l) / 64 % 16 = l / 64 ∧ (0xDC00 + l) % 64 = l % 64 := by
  refine ⟨?_, ?_, ?_, ?_, ?_, ?_⟩ <;> omega

/-- The bytes are those of the pair exactly for the first 64 high surrogates. -/
theorem fourBytes_eq_iff {v : UInt16} (hhigh : IsHigh v) (hlow : IsLow u) :
    fourBytes v u = String.utf8EncodeChar (pair v u) ↔ v.toNat < 0xD840 := by
  have hchar := toNat_pair hhigh hlow
  obtain ⟨hv, hv'⟩ := hhigh
  obtain ⟨hu, hu'⟩ := hlow
  obtain ⟨h, hh⟩ := Nat.exists_eq_add_of_le hv
  obtain ⟨l, hl⟩ := Nat.exists_eq_add_of_le hu
  have hh' : h < 1024 := by omega
  have hl' : l < 1024 := by omega
  obtain ⟨hone, htwo, hthree, hfour⟩ := pair_bits hh' hl'
  obtain ⟨hfirst, hsixth, hmiddle, hlast, hlow, hlowest⟩ := surrogate_bits hh' hl'
  rw [hh, hl, Nat.add_sub_cancel_left, Nat.add_sub_cancel_left] at hchar
  rw [encode_four hchar (by omega), fourBytes_eq, hh, hl, hone, htwo, hthree, hfour, hfirst, hsixth,
    hmiddle, hlast, hlow, hlowest, List.cons.injEq, List.cons.injEq, List.cons.injEq,
    ofNat_inj (by omega) (by omega), ofNat_inj (by omega) (by omega)]
  constructor
  · rintro ⟨htop, hnext, -⟩
    omega
  · intro hless
    refine ⟨by omega, by omega, rfl, rfl⟩

/-! ## One unit -/

theorem convert_low {s : UInt16} (hs : s ≠ 0) (hlow : IsLow u) :
    convertUFT16ToUTF8 s u = (fourBytes s u, s) := by
  rw [convertUFT16ToUTF8, if_pos ⟨hs, and_dc00.mpr (Or.inl hlow)⟩]

/-- A unit that is kept as a high surrogate. -/
theorem convert_kept {s : UInt16} (hs : s = 0 ∨ ¬ (IsLow u ∨ 0xFC00 ≤ u.toNat))
    (hu : IsHigh u ∨ IsLow u ∨ 0xF800 ≤ u.toNat) : convertUFT16ToUTF8 s u = ([], u) := by
  have hfirst : ¬ (s ≠ 0 ∧ u &&& 0xdc00 = 0xdc00) := by
    rintro ⟨hne, hmask⟩
    rcases hs with rfl | hs
    · exact hne rfl
    · exact hs (and_dc00.mp hmask)
  have hbig : 0x800 ≤ u.toNat := by
    rw [IsHigh, IsLow] at hu
    omega
  rw [convertUFT16ToUTF8, if_neg hfirst, if_pos (mt and_ff80.mp (by omega)),
    if_pos (mt and_f800.mp (by omega)), if_pos (and_d800.mpr hu)]

/-- A unit that is a character of its own. -/
theorem convert_single (s : UInt16) (hhigh : ¬ IsHigh u) (hlow : ¬ IsLow u)
    (htop : u.toNat < 0xF800) :
    convertUFT16ToUTF8 s u = (String.utf8EncodeChar (Char.ofNat u.toNat), 0) := by
  have hchar := toNat_single hhigh hlow
  have hfirst : ¬ (s ≠ 0 ∧ u &&& 0xdc00 = 0xdc00) := by
    rintro ⟨-, hmask⟩
    rcases and_dc00.mp hmask with h | h
    · exact hlow h
    · omega
  have hkept : ¬ (u &&& 0xd800 = 0xd800) := by
    rw [and_d800]
    rintro (h | h | h)
    · exact hhigh h
    · exact hlow h
    · omega
  rw [convertUFT16ToUTF8, if_neg hfirst]
  by_cases hone : u.toNat < 0x80
  · rw [if_neg (not_not.mpr (and_ff80.mpr hone)), encode_one hchar hone]
    rfl
  by_cases htwo : u.toNat < 0x800
  · rw [if_pos (mt and_ff80.mp hone), if_neg (not_not.mpr (and_f800.mpr htwo)), twoBytes_eq htwo,
      encode_two hchar (by omega) htwo]
  · rw [if_pos (mt and_ff80.mp hone), if_pos (mt and_f800.mp htwo), if_neg hkept, threeBytes_eq,
      encode_three hchar (by omega) (by omega)]

/-! ## A text -/

/-- The bytes that are written for the units, and the surrogate that is kept. -/
def convertAll (s : UInt16) : List UInt16 → List UInt8 × UInt16
  | [] => ([], s)
  | u :: us =>
      let converted := convertUFT16ToUTF8 s u
      let others := convertAll converted.2 us
      (converted.1 ++ others.1, others.2)

/-- The first byte of a character of three bytes, or of four. -/
def isLead3 (b : UInt8) : Bool := 0xE0 ≤ b.toNat && b.toNat < 0xF0

def isLead4 (b : UInt8) : Bool := 0xF0 ≤ b.toNat

theorem lead_ofNat {n : ℕ} (h : n < 256) :
    isLead3 (UInt8.ofNat n) = (decide (0xE0 ≤ n) && decide (n < 0xF0)) ∧
      isLead4 (UInt8.ofNat n) = decide (0xF0 ≤ n) := by
  rw [isLead3, isLead4, UInt8.toNat_ofNat', Nat.mod_eq_of_lt h]
  exact ⟨rfl, rfl⟩

/-- A byte behind the first of a character, and the first of a shorter one. -/
theorem no_lead {n : ℕ} (h : n < 0xE0) :
    isLead3 (UInt8.ofNat n) = false ∧ isLead4 (UInt8.ofNat n) = false := by
  obtain ⟨hthree, hfour⟩ := lead_ofNat (show n < 256 by omega)
  rw [hthree, hfour, decide_eq_false (show ¬ 0xE0 ≤ n by omega),
    decide_eq_false (show ¬ 0xF0 ≤ n by omega)]
  exact ⟨rfl, rfl⟩

theorem lead_three {n : ℕ} (hle : 0xE0 ≤ n) (hlt : n < 0xF0) :
    isLead3 (UInt8.ofNat n) = true ∧ isLead4 (UInt8.ofNat n) = false := by
  obtain ⟨hthree, hfour⟩ := lead_ofNat (show n < 256 by omega)
  rw [hthree, hfour, decide_eq_true hle, decide_eq_true hlt,
    decide_eq_false (show ¬ 0xF0 ≤ n by omega)]
  exact ⟨rfl, rfl⟩

theorem lead_four {n : ℕ} (hle : 0xF0 ≤ n) (hlt : n < 256) :
    isLead3 (UInt8.ofNat n) = false ∧ isLead4 (UInt8.ofNat n) = true := by
  obtain ⟨hthree, hfour⟩ := lead_ofNat hlt
  rw [hthree, hfour, decide_eq_true hle, decide_eq_false (show ¬ n < 0xF0 by omega),
    Bool.and_false]
  exact ⟨rfl, rfl⟩

theorem countP_fourBytes (s u : UInt16) :
    (fourBytes s u).countP isLead3 = 0 ∧ (fourBytes s u).countP isLead4 = 1 := by
  have hfirst := lead_four (show 0xF0 ≤ s.toNat / 128 % 8 + 0xf0 by omega) (by omega)
  have hsecond := no_lead (show s.toNat / 64 % 2 * 32 + s.toNat / 4 % 16 + 0x90 < 0xE0 by omega)
  have hthird := no_lead (show u.toNat / 64 % 16 + s.toNat % 4 * 16 + 0x80 < 0xE0 by omega)
  have hfourth := no_lead (show u.toNat % 64 + 0x80 < 0xE0 by omega)
  rw [fourBytes_eq]
  simp only [List.countP_cons, List.countP_nil, hfirst, hsecond, hthird, hfourth]
  exact ⟨rfl, rfl⟩

/-- The first bytes of a character. -/
theorem countP_encode (c : Char) :
    (String.utf8EncodeChar c).countP isLead3 =
        (if 0x800 ≤ c.toNat ∧ c.toNat < 0x10000 then 1 else 0) ∧
      (String.utf8EncodeChar c).countP isLead4 = if 0x10000 ≤ c.toNat then 1 else 0 := by
  have hmax : c.toNat ≤ 0x10ffff := by
    have hvalid : c.toNat.isValidChar := c.valid
    rw [Nat.isValidChar] at hvalid
    omega
  have hlast := no_lead (show c.toNat % 64 + 0x80 < 0xE0 by omega)
  have hnext := no_lead (show c.toNat / 64 % 64 + 0x80 < 0xE0 by omega)
  by_cases hone : c.toNat < 0x80
  · rw [encode_one rfl hone, if_neg (by omega), if_neg (by omega)]
    simp only [List.countP_cons, List.countP_nil, no_lead (show c.toNat < 0xE0 by omega)]
    exact ⟨rfl, rfl⟩
  by_cases htwo : c.toNat < 0x800
  · rw [encode_two rfl (by omega) htwo, if_neg (by omega), if_neg (by omega)]
    simp only [List.countP_cons, List.countP_nil, hlast,
      no_lead (show c.toNat / 64 % 32 + 0xc0 < 0xE0 by omega)]
    exact ⟨rfl, rfl⟩
  by_cases hthree : c.toNat < 0x10000
  · rw [encode_three rfl (by omega) hthree, if_pos (by omega), if_neg (by omega)]
    simp only [List.countP_cons, List.countP_nil, hlast, hnext,
      lead_three (show 0xE0 ≤ c.toNat / 4096 % 16 + 0xe0 by omega) (by omega)]
    exact ⟨rfl, rfl⟩
  · rw [encode_four rfl (by omega), if_neg (by omega), if_pos (by omega)]
    simp only [List.countP_cons, List.countP_nil, hlast, hnext,
      no_lead (show c.toNat / 4096 % 64 + 0x80 < 0xE0 by omega),
      lead_four (show 0xF0 ≤ c.toNat / 262144 % 8 + 0xf0 by omega) (by omega)]
    exact ⟨rfl, rfl⟩

theorem countP_single (hhigh : ¬ IsHigh u) (hlow : ¬ IsLow u) :
    (String.utf8EncodeChar (Char.ofNat u.toNat)).countP isLead3 =
        (if 0x800 ≤ u.toNat then 1 else 0) ∧
      (String.utf8EncodeChar (Char.ofNat u.toNat)).countP isLead4 = 0 := by
  have hu := u.toNat_lt
  obtain ⟨hthree, hfour⟩ := countP_encode (Char.ofNat u.toNat)
  rw [toNat_single hhigh hlow] at hthree hfour
  rw [hthree, hfour, if_neg (show ¬ 0x10000 ≤ u.toNat by omega)]
  simp only [hu, and_true]

theorem countP_pair {v : UInt16} (hhigh : IsHigh v) (hlow : IsLow u) :
    (String.utf8EncodeChar (pair v u)).countP isLead3 = 0 ∧
      (String.utf8EncodeChar (pair v u)).countP isLead4 = 1 := by
  obtain ⟨hthree, hfour⟩ := countP_encode (pair v u)
  rw [toNat_pair hhigh hlow] at hthree hfour
  rw [hthree, hfour, if_neg (by omega), if_pos (by omega)]
  exact ⟨rfl, rfl⟩

/-- A unit is a character of three bytes. -/
def IsThree (u : UInt16) : Prop := 0x800 ≤ u.toNat ∧ ¬ IsHigh u ∧ ¬ IsLow u

instance (u : UInt16) : Decidable (IsThree u) := inferInstanceAs (Decidable (_ ∧ _))

/-- It is written as one if it is below 0xF800. -/
theorem countP_lead3_convert (s u : UInt16) :
    (convertUFT16ToUTF8 s u).1.countP isLead3 =
      if IsThree u ∧ u.toNat < 0xF800 then 1 else 0 := by
  by_cases hkept : IsHigh u ∨ IsLow u ∨ 0xF800 ≤ u.toNat
  · have hnot : ¬ (IsThree u ∧ u.toNat < 0xF800) := by
      rintro ⟨⟨-, hhigh, hlow⟩, htop⟩
      rcases hkept with h | h | h
      · exact hhigh h
      · exact hlow h
      · omega
    rw [if_neg hnot]
    by_cases hs : s = 0 ∨ ¬ (IsLow u ∨ 0xFC00 ≤ u.toNat)
    · rw [convert_kept hs hkept]
      rfl
    · rw [not_or, not_not] at hs
      rw [convertUFT16ToUTF8, if_pos ⟨hs.1, and_dc00.mpr hs.2⟩]
      exact (countP_fourBytes s u).1
  · rw [not_or, not_or, Nat.not_le] at hkept
    obtain ⟨hhigh, hlow, htop⟩ := hkept
    rw [convert_single s hhigh hlow htop, (countP_single hhigh hlow).1]
    simp only [IsThree, hhigh, hlow, htop, not_false_eq_true, and_true]

/-- The characters that a unit adds behind another one. -/
theorem decodeAfter_step (v u : UInt16) : ∃ text,
    (∀ us, decodeAfter v (u :: us) = text ++ decodeAfter u us) ∧
      (utf8 text).countP isLead3 = if IsThree u then 1 else 0 := by
  by_cases hpair : IsHigh v ∧ IsLow u
  · refine ⟨[pair v u], fun us => decodeAfter_pair hpair.1 hpair.2, ?_⟩
    rw [if_neg fun h => h.2.2 hpair.2, utf8_cons, utf8_nil, List.append_nil]
    exact (countP_pair hpair.1 hpair.2).1
  · refine ⟨_, fun us => decodeAfter_cons hpair, ?_⟩
    by_cases hsurrogate : IsHigh u ∨ IsLow u
    · have hnone : (if IsHigh u then [] else single u) = [] := by
        rw [single, if_pos hsurrogate, ite_self]
      rw [hnone, if_neg fun h => not_or.mpr h.2 hsurrogate]
      rfl
    · obtain ⟨hhigh, hlow⟩ := not_or.mp hsurrogate
      rw [if_neg hhigh, single, if_neg hsurrogate, utf8_cons, utf8_nil, List.append_nil,
        (countP_single hhigh hlow).1]
      simp only [IsThree, hhigh, hlow, not_false_eq_true, and_true]

/-- The units from 0xF800 on are the characters of three bytes that are not written. -/
theorem countP_lead3_add (s v : UInt16) (us : List UInt16) :
    (convertAll s us).1.countP isLead3 + us.countP (fun u => 0xF800 ≤ u.toNat) =
      (utf8 (decodeAfter v us)).countP isLead3 := by
  induction us generalizing s v with
  | nil =>
      rw [decodeAfter_nil]
      rfl
  | cons u us ih =>
      obtain ⟨text, htext, hcount⟩ := decodeAfter_step v u
      have hrest := ih (convertUFT16ToUTF8 s u).2 u
      have htop : 0xF800 ≤ u.toNat → IsThree u := by
        intro h
        refine ⟨by omega, fun hhigh => ?_, fun hlow => ?_⟩
        · have := hhigh.2
          omega
        · have := hlow.2
          omega
      rw [convertAll, List.countP_append, List.countP_cons, htext, utf8_append, List.countP_append,
        hcount, ← hrest, countP_lead3_convert]
      by_cases hthree : IsThree u
      · by_cases hhigh : 0xF800 ≤ u.toNat
        · rw [if_neg fun h => absurd h.2 (Nat.not_lt.mpr hhigh), if_pos (decide_eq_true hhigh),
            if_pos hthree]
          omega
        · rw [if_pos ⟨hthree, Nat.not_le.mp hhigh⟩, if_neg (mt of_decide_eq_true hhigh),
            if_pos hthree]
          omega
      · rw [if_neg fun h => hthree h.1, if_neg (mt of_decide_eq_true (mt htop hthree)),
          if_neg hthree]
        omega

/-- What is kept behind the unit `v`. -/
structure Behind (v s : UInt16) : Prop where
  high : IsHigh v → s = v
  low : IsLow v → s ≠ 0
  single : ¬ IsHigh v → ¬ IsLow v → s = 0

/-- What a unit below 0xF800 does behind the unit `v`: what is written and kept, and the
characters it adds. -/
inductive Conversion (v s u : UInt16) : List UInt8 × UInt16 → List Char → Prop
  | single : ¬ IsHigh u → ¬ IsLow u →
      Conversion v s u (String.utf8EncodeChar (Char.ofNat u.toNat), 0) [Char.ofNat u.toNat]
  | kept : IsHigh u ∨ IsLow u → (IsLow u → ¬ IsHigh v ∧ ¬ IsLow v) → Conversion v s u ([], u) []
  | pair : IsHigh v → IsLow u → Conversion v s u (fourBytes v u, v) [pair v u]
  | repeated : IsLow v → IsLow u → Conversion v s u (fourBytes s u, s) []

theorem ne_zero_of_surrogate (h : IsHigh u ∨ IsLow u) : u ≠ 0 := by
  rintro rfl
  rcases h with h | h <;> exact absurd h.1 (by decide)

theorem conversion {v s : UInt16} (h : Behind v s) (hu : u.toNat < 0xF800) :
    ∃ text, Conversion v s u (convertUFT16ToUTF8 s u) text ∧
      (∀ us, decodeAfter v (u :: us) = text ++ decodeAfter u us) ∧
      Behind u (convertUFT16ToUTF8 s u).2 := by
  by_cases hhigh : IsHigh u
  · have hconvert : convertUFT16ToUTF8 s u = ([], u) := by
      refine convert_kept (Or.inr ?_) (Or.inl hhigh)
      rintro (hlow | htop)
      · exact hhigh.not_low hlow
      · omega
    have hlow := hhigh.not_low
    rw [hconvert]
    refine ⟨[], .kept (Or.inl hhigh) fun h => absurd h hlow, fun us => ?_, fun _ => rfl,
      fun h => absurd h hlow, fun h => absurd hhigh h⟩
    rw [decodeAfter_cons fun h => hlow h.2, if_pos hhigh]
  by_cases hlow : IsLow u
  · have hne := ne_zero_of_surrogate (Or.inr hlow)
    by_cases hvhigh : IsHigh v
    · have hs := h.high hvhigh
      have hvne := ne_zero_of_surrogate (Or.inl hvhigh)
      rw [hs, convert_low hvne hlow]
      exact ⟨_, .pair hvhigh hlow, fun us => decodeAfter_pair hvhigh hlow,
        fun h => absurd h hhigh, fun _ => hvne, fun _ h => absurd hlow h⟩
    have hadds : ∀ us, decodeAfter v (u :: us) = [] ++ decodeAfter u us := by
      intro us
      rw [decodeAfter_cons fun h => hvhigh h.1, if_neg hhigh, single, if_pos (Or.inr hlow)]
    by_cases hvlow : IsLow v
    · rw [convert_low (h.low hvlow) hlow]
      exact ⟨_, .repeated hvlow hlow, hadds, fun h => absurd h hhigh, fun _ => h.low hvlow,
        fun _ h => absurd hlow h⟩
    · rw [convert_kept (Or.inl (h.single hvhigh hvlow)) (Or.inr (Or.inl hlow))]
      exact ⟨_, .kept (Or.inr hlow) fun _ => ⟨hvhigh, hvlow⟩, hadds, fun _ => rfl, fun _ => hne,
        fun _ h => absurd hlow h⟩
  · rw [convert_single s hhigh hlow hu]
    refine ⟨_, .single hhigh hlow, fun us => ?_, fun h => absurd h hhigh, fun h => absurd h hlow,
      fun _ _ => rfl⟩
    rw [decodeAfter_cons fun h => hlow h.2, if_neg hhigh, single, if_neg (not_or.mpr ⟨hhigh, hlow⟩)]

/-- Two units in a row that are converted as they should be. -/
def Proper (v u : UInt16) : Prop := IsLow u → ¬ IsLow v ∧ (IsHigh v → v.toNat < 0xD840)

instance (v u : UInt16) : Decidable (Proper v u) := inferInstanceAs (Decidable (_ → _))

/-- Every pair is written, and a low surrogate behind another one as well. -/
theorem countP_lead4_le {v s : UInt16} (h : Behind v s) {us : List UInt16}
    (hus : ∀ u ∈ us, u.toNat < 0xF800) :
    (utf8 (decodeAfter v us)).countP isLead4 ≤ (convertAll s us).1.countP isLead4 := by
  induction us generalizing v s with
  | nil =>
      rw [decodeAfter_nil]
      exact Nat.zero_le _
  | cons u us ih =>
      obtain ⟨hu, hus⟩ := List.forall_mem_cons.mp hus
      obtain ⟨text, hconversion, htext, hbehind⟩ := conversion h hu
      have hrest := ih hbehind hus
      rw [htext, utf8_append, convertAll, List.countP_append, List.countP_append]
      refine Nat.add_le_add ?_ hrest
      generalize convertUFT16ToUTF8 s u = converted at hconversion
      cases hconversion with
      | single hhigh hlow =>
          rw [utf8_cons, utf8_nil, List.append_nil]
      | kept _ _ => exact Nat.zero_le _
      | pair hhigh hlow =>
          rw [utf8_cons, utf8_nil, List.append_nil, (countP_pair hhigh hlow).2,
            (countP_fourBytes v u).2]
      | repeated _ _ => exact Nat.zero_le _

/-- The bytes are those of the text exactly if every two units in a row are proper. -/
theorem convertAll_eq_iff {v s : UInt16} (h : Behind v s) {us : List UInt16}
    (hus : ∀ u ∈ us, u.toNat < 0xF800) :
    (convertAll s us).1 = utf8 (decodeAfter v us) ↔ List.IsChain Proper (v :: us) := by
  induction us generalizing v s with
  | nil =>
      rw [decodeAfter_nil]
      exact iff_of_true rfl (List.IsChain.singleton v)
  | cons u us ih =>
      obtain ⟨hu, hus⟩ := List.forall_mem_cons.mp hus
      obtain ⟨text, hconversion, htext, hbehind⟩ := conversion h hu
      have hrest := ih hbehind hus
      have hcount := countP_lead4_le hbehind hus
      rw [htext, utf8_append, convertAll, List.isChain_cons_cons, ← hrest]
      generalize convertUFT16ToUTF8 s u = converted at hconversion hcount
      cases hconversion with
      | single hhigh hlow =>
          rw [utf8_cons, utf8_nil, List.append_nil, List.append_cancel_left_eq]
          exact (and_iff_right fun h => absurd h hlow).symm
      | kept _ hkept =>
          exact (and_iff_right fun hlow => ⟨(hkept hlow).2, fun h => absurd h (hkept hlow).1⟩).symm
      | pair hhigh hlow =>
          have hproper : Proper v u ↔ fourBytes v u = String.utf8EncodeChar (pair v u) := by
            rw [fourBytes_eq_iff hhigh hlow]
            exact ⟨fun h => (h hlow).2 hhigh, fun h _ => ⟨hhigh.not_low, fun _ => h⟩⟩
          have hlength : (fourBytes v u).length = (String.utf8EncodeChar (pair v u)).length := by
            rw [fourBytes_eq, encode_four (toNat_pair hhigh hlow) (by omega), List.length_cons,
              List.length_cons, List.length_cons, List.length_singleton, List.length_cons,
              List.length_cons, List.length_cons, List.length_singleton]
          rw [utf8_cons, utf8_nil, List.append_nil, hproper]
          exact ⟨fun h => List.append_inj h hlength, fun h => by rw [h.1, h.2]⟩
      | repeated hvlow hlow =>
          refine iff_of_false (fun heq => ?_) fun h => (h.1 hlow).1 hvlow
          have hequal := congrArg (List.countP isLead4) heq
          rw [List.countP_append, List.countP_append, (countP_fourBytes s u).2] at hequal
          change _ = 0 + _ at hequal
          omega

/-! ## Zeros -/

theorem ofNat_ne_zero {n : ℕ} (hpos : 0 < n) (hlt : n < 256) : (0 : UInt8) ≠ UInt8.ofNat n := by
  intro h
  have hzero := (ofNat_inj (a := 0) (by decide) hlt).mp h
  omega

theorem zero_notMem_fourBytes (s u : UInt16) : 0 ∉ fourBytes s u := by
  rw [fourBytes_eq]
  simp only [List.mem_cons, List.not_mem_nil, or_false, not_or]
  refine ⟨?_, ?_, ?_, ?_⟩ <;> exact ofNat_ne_zero (by omega) (by omega)

theorem zero_mem_encode_iff (c : Char) : 0 ∈ String.utf8EncodeChar c ↔ c.toNat = 0 := by
  have hmax : c.toNat ≤ 0x10ffff := by
    have hvalid : c.toNat.isValidChar := c.valid
    rw [Nat.isValidChar] at hvalid
    omega
  by_cases hone : c.toNat < 0x80
  · rw [encode_one rfl hone, List.mem_singleton]
    exact (ofNat_inj (a := 0) (by decide) (by omega)).trans eq_comm
  refine iff_of_false ?_ (by omega)
  by_cases htwo : c.toNat < 0x800
  · rw [encode_two rfl (by omega) htwo]
    simp only [List.mem_cons, List.not_mem_nil, or_false, not_or]
    refine ⟨?_, ?_⟩ <;> exact ofNat_ne_zero (by omega) (by omega)
  by_cases hthree : c.toNat < 0x10000
  · rw [encode_three rfl (by omega) hthree]
    simp only [List.mem_cons, List.not_mem_nil, or_false, not_or]
    refine ⟨?_, ?_, ?_⟩ <;> exact ofNat_ne_zero (by omega) (by omega)
  · rw [encode_four rfl (by omega)]
    simp only [List.mem_cons, List.not_mem_nil, or_false, not_or]
    refine ⟨?_, ?_, ?_, ?_⟩ <;> exact ofNat_ne_zero (by omega) (by omega)

theorem zero_notMem_convert (s : UInt16) (hu : u ≠ 0) : 0 ∉ (convertUFT16ToUTF8 s u).1 := by
  by_cases hkept : IsHigh u ∨ IsLow u ∨ 0xF800 ≤ u.toNat
  · by_cases hs : s = 0 ∨ ¬ (IsLow u ∨ 0xFC00 ≤ u.toNat)
    · rw [convert_kept hs hkept]
      exact List.not_mem_nil
    · rw [not_or, not_not] at hs
      rw [convertUFT16ToUTF8, if_pos ⟨hs.1, and_dc00.mpr hs.2⟩]
      exact zero_notMem_fourBytes s u
  · rw [not_or, not_or, Nat.not_le] at hkept
    obtain ⟨hhigh, hlow, htop⟩ := hkept
    rw [convert_single s hhigh hlow htop, zero_mem_encode_iff, toNat_single hhigh hlow]
    exact fun h => hu (UInt16.toNat_inj.mp h)

theorem zero_notMem_convertAll (s : UInt16) {us : List UInt16} (h : 0 ∉ us) :
    0 ∉ (convertAll s us).1 := by
  induction us generalizing s with
  | nil => exact List.not_mem_nil
  | cons u us ih =>
      rw [List.mem_cons, not_or] at h
      rw [convertAll, List.mem_append, not_or]
      exact ⟨zero_notMem_convert s (Ne.symm h.1), ih _ h.2⟩

/-- A unit that is zero is a byte that is zero. -/
theorem zero_mem_utf8 (v : UInt16) {us : List UInt16} (h : 0 ∈ us) :
    0 ∈ utf8 (decodeAfter v us) := by
  induction us generalizing v with
  | nil => exact absurd h List.not_mem_nil
  | cons u us ih =>
      rcases List.mem_cons.mp h with rfl | hrest
      · have hchar : utf8 (single 0) = [0] := by decide
        rw [decodeAfter_cons (fun h => absurd h.2.1 (by decide)),
          if_neg (fun h => absurd h.1 (by decide)), utf8_append, hchar]
        exact List.mem_cons_self
      · obtain ⟨text, htext, -⟩ := decodeAfter_step v u
        rw [htext, utf8_append]
        exact List.mem_append_right _ (ih u hrest)

theorem cString_of_notMem {str : List UInt8} (h : 0 ∉ str) : cString str = str := by
  rw [cString, List.takeWhile_eq_self_iff]
  intro b hb
  exact decide_eq_true fun hzero => h (hzero ▸ hb)

theorem zero_notMem_cString (str : List UInt8) : 0 ∉ cString str := by
  intro h
  have hzero := List.mem_takeWhile_imp h
  exact of_decide_eq_true hzero rfl

/-! ## Lengths -/

theorem length_utf8_single (u : UInt16) : (utf8 (single u)).length ≤ 3 := by
  have hu := u.toNat_lt
  rw [single]
  split
  · exact Nat.zero_le _
  · rename_i hsurrogate
    have hchar := toNat_single (not_or.mp hsurrogate).1 (not_or.mp hsurrogate).2
    rw [utf8_cons, utf8_nil, List.append_nil]
    by_cases hone : u.toNat < 0x80
    · rw [encode_one hchar hone]
      exact Nat.le_add_left 1 2
    by_cases htwo : u.toNat < 0x800
    · rw [encode_two hchar (by omega) htwo]
      exact Nat.le_succ 2
    · rw [encode_three hchar (by omega) hu]
      exact Nat.le_refl 3

theorem length_utf8_le (v : UInt16) (us : List UInt16) :
    (utf8 (decodeAfter v us)).length ≤ 3 * us.length + if IsHigh v then 1 else 0 := by
  induction us generalizing v with
  | nil =>
      rw [decodeAfter_nil]
      exact Nat.zero_le _
  | cons u us ih =>
      have hrest := ih u
      rw [List.length_cons]
      by_cases hpair : IsHigh v ∧ IsLow u
      · have hfour : (String.utf8EncodeChar (pair v u)).length = 4 := by
          rw [encode_four (toNat_pair hpair.1 hpair.2) (by omega)]
          exact List.length_cons
        rw [if_neg fun h => h.not_low hpair.2] at hrest
        rw [decodeAfter_pair hpair.1 hpair.2, utf8_cons, List.length_append, hfour, if_pos hpair.1]
        omega
      by_cases hhigh : IsHigh u
      · rw [if_pos hhigh] at hrest
        rw [decodeAfter_cons hpair, if_pos hhigh, List.nil_append]
        omega
      · have hsingle := length_utf8_single u
        rw [if_neg hhigh] at hrest
        rw [decodeAfter_cons hpair, if_neg hhigh, utf8_append, List.length_append]
        omega

theorem length_convertAll_le (s : UInt16) (us : List UInt16) :
    (convertAll s us).1.length ≤ 4 * us.length := by
  induction us generalizing s with
  | nil => exact Nat.zero_le _
  | cons u us ih =>
      have hrest := ih (convertUFT16ToUTF8 s u).2
      have hunit : (convertUFT16ToUTF8 s u).1.length ≤ 4 := by
        rw [convertUFT16ToUTF8]
        repeat' split
        all_goals exact Nat.le_of_ble_eq_true rfl
      rw [convertAll, List.length_append, List.length_cons]
      omega

/-! ## What is asked of `ExtractString` -/

section Report

variable (f : CommandFrame)

def encoding : UInt8 := f.data.getD 1 0 &&& 0x07

/-- The first 16 bytes behind the encoding. -/
def textBytes : List UInt8 := (f.data.drop 2).take 16

/-- Two bytes make a unit of UTF-16, the high one first. -/
def unitAt (i : ℕ) : UInt16 :=
  ((f.data.getD (2 * i + 2) 0).toUInt16 <<< 8) ||| (f.data.getD (2 * i + 3) 0).toUInt16

/-- The units that the text has. -/
def units : List UInt16 := (List.range ((textBytes f).length / 2)).map (unitAt f)

/-- The bytes of a character of extended ASCII. -/
def extendedBytes (ch : UInt8) : List UInt8 :=
  if ch ≥ 0x80 then
    String.utf8EncodeChar (Char.ofNat (c_extendedAsciiToUnicode.getD (ch - 0x80).toNat 0).toNat)
  else [ch]

/-- The surrogate that is kept after some calls. -/
def run (past : List CommandFrame) : Except FrameFault UInt16 :=
  past.foldlM (fun s f => do
    let extracted ← extractString s f
    return extracted.2) 0

/-- Whatever was extracted before, the same text is read from the report alone, and it is
the text that the report holds in UTF-16. -/
def Faithful : Prop :=
  ∃ text, (∀ past s, run past = .ok s → Yields (extractString s f) fun r => r.1 = text) ∧
    (encoding f = utf16 → text = utf8 (decode (units f)))

/-- The report has an encoding; a text in extended ASCII fits into the buffer; a text in
UTF-16 is one of whole units, without zeros and units from 0xF800 on, where a low
surrogate is neither the first unit nor behind another one, and the high one before it is
one of the first 64. -/
def Extractable : Prop :=
  2 ≤ f.data.length ∧
    (encoding f = extendedASCII → ((textBytes f).flatMap extendedBytes).length < 32) ∧
    (encoding f = utf16 → 2 ∣ (textBytes f).length ∧ (∀ u ∈ units f, u ≠ 0 ∧ u.toNat < 0xF800) ∧
      (∀ u ∈ (units f).head?, ¬ IsLow u) ∧ List.IsChain Proper (units f))

end Report

/-! ## The loops -/

variable {f : CommandFrame}

theorem put_eq_ok {str bytes str' : List UInt8} :
    put str bytes = .ok str' ↔ str.length + bytes.length < 33 ∧ str ++ bytes = str' :=
  append_eq_ok

theorem length_textBytes : (textBytes f).length = min 16 (f.data.length - 2) := by
  rw [textBytes, List.length_take, List.length_drop]

/-- `numBytes`: a received frame has at most 255 bytes. -/
theorem numBytes_eq (hlength : 2 ≤ f.data.length) (hframe : f.data.length < 255) :
    (if (f.length - 3).toUInt8 > 16 then 16 else (f.length - 3).toUInt8).toNat =
      (textBytes f).length := by
  have hthree : (3 : UInt32) ≤ f.length := f.le_length_iff.mpr (Nat.succ_le_succ hlength)
  have hbyte : (f.length - 3).toUInt8.toNat = f.data.length - 2 := by
    rw [UInt32.toNat_toUInt8, f.toNat_length_sub hthree]
    exact Nat.mod_eq_of_lt (by omega)
  rw [length_textBytes]
  split
  · rename_i hmore
    rw [gt_iff_lt, UInt8.lt_iff_toNat_lt, hbyte] at hmore
    exact (Nat.min_eq_left (Nat.le_of_lt hmore)).symm
  · rename_i hless
    rw [gt_iff_lt, UInt8.lt_iff_toNat_lt, hbyte, Nat.not_lt] at hless
    rw [hbyte]
    exact (Nat.min_eq_right hless).symm

theorem take_textBytes : (f.data.drop 2).take (textBytes f).length = textBytes f := by
  rw [length_textBytes, textBytes, List.take_eq_take_iff, List.length_drop]
  omega

theorem inside_textBytes (hlength : 2 ≤ f.data.length) :
    2 + (textBytes f).length ≤ f.data.length := by
  rw [length_textBytes]
  omega

theorem extractASCII_eq (hlength : 2 ≤ f.data.length) :
    extractASCII f (textBytes f).length = .ok (textBytes f) := by
  have hsingletons : (textBytes f).flatMap (fun b => [b]) = textBytes f := by
    rw [← List.map_eq_flatMap, List.map_id']
  have hlength16 : (textBytes f).length ≤ 16 := by
    rw [length_textBytes]
    exact Nat.min_le_left _ _
  refine (foldlM_readAt_eq_ok hlength).mpr ⟨inside_textBytes hlength, ?_⟩
  rw [take_textBytes]
  refine (foldlM_append_eq_ok (by decide)).mpr ?_
  rw [hsingletons]
  exact ⟨show (textBytes f).length < 33 by omega, rfl⟩

theorem getD_table {i : ℕ} : (c_extendedAsciiToUnicode.getD i 0).toNat < 0xD800 := by
  have htable : ∀ w ∈ c_extendedAsciiToUnicode, w.toNat < 0xD800 :=
    List.all_iff_forall_prop.mp (by decide)
  rw [List.getD_eq_getElem?_getD]
  cases hcell : c_extendedAsciiToUnicode[i]? with
  | none => decide
  | some w => exact htable w (List.mem_of_getElem? hcell)

/-- A character of extended ASCII is written in the same way whatever was kept. -/
theorem putExtended_eq (str : List UInt8) (s : UInt16) (ch : UInt8) :
    putExtended (str, s) ch =
      (put str (extendedBytes ch)).map fun str' => (str', if ch ≥ 0x80 then 0 else s) := by
  rw [putExtended, extendedBytes]
  split
  · rename_i hhigh
    have hindex : (ch - 0x80).toNat < c_extendedAsciiToUnicode.length := by
      have hch := ch.toNat_lt
      rw [UInt8.toNat_sub_of_le _ _ hhigh]
      change ch.toNat - 128 < 128
      omega
    have hplain := getD_table (i := (ch - 0x80).toNat)
    rw [readAt_bind hindex 0, convert_single s (fun h => absurd h.1 (by omega))
      (fun h => absurd h.1 (by omega)) (by omega)]
    dsimp only
    generalize put str _ = written
    cases written <;> rfl
  · generalize put str _ = written
    cases written <;> rfl

theorem foldlM_putExtended (bytes str : List UInt8) (s : UInt16) :
    (bytes.foldlM putExtended (str, s)).map Prod.fst =
      bytes.foldlM (fun str ch => put str (extendedBytes ch)) str := by
  induction bytes generalizing str s with
  | nil => rfl
  | cons ch bytes ih =>
      rw [List.foldlM_cons, List.foldlM_cons, putExtended_eq]
      cases put str (extendedBytes ch) with
      | error e => rfl
      | ok str' => exact ih str' _

theorem map_fst_eq_ok {x : Except FrameFault (List UInt8 × UInt16)} {str : List UInt8} :
    x.map Prod.fst = .ok str ↔ ∃ s, x = .ok (str, s) := by
  cases x with
  | error e => exact iff_of_false nofun nofun
  | ok r =>
      constructor
      · intro h
        cases h
        exact ⟨r.2, rfl⟩
      · rintro ⟨s, h⟩
        cases h
        rfl

/-- The text fits into the buffer, and nothing else decides what is written. -/
theorem extractExtendedASCII_eq_ok (hlength : 2 ≤ f.data.length) (s : UInt16) {str : List UInt8} :
    (∃ s', extractExtendedASCII s f (textBytes f).length = .ok (str, s')) ↔
      ((textBytes f).flatMap extendedBytes).length < 33 ∧
        (textBytes f).flatMap extendedBytes = str := by
  have hloop : ∀ s', extractExtendedASCII s f (textBytes f).length = .ok (str, s') ↔
      (textBytes f).foldlM putExtended ([], s) = .ok (str, s') := by
    intro s'
    refine (foldlM_readAt_eq_ok hlength).trans ?_
    rw [and_iff_right (inside_textBytes hlength), take_textBytes]
  simp only [hloop]
  rw [← map_fst_eq_ok, foldlM_putExtended]
  exact foldlM_append_eq_ok (by decide)

/-- One unit after the other is written. -/
theorem foldlM_putUnit {us : List UInt16} {str : List UInt8} {s : UInt16}
    (h : (str ++ (convertAll s us).1).length < 33) :
    us.foldlM putUnit (str, s) = .ok (str ++ (convertAll s us).1, (convertAll s us).2) := by
  induction us generalizing str s with
  | nil =>
      rw [convertAll, List.append_nil]
      rfl
  | cons u us ih =>
      rw [convertAll, ← List.append_assoc] at h
      have hfirst : (str ++ (convertUFT16ToUTF8 s u).1).length < 33 := by
        rw [List.length_append] at h
        omega
      have hput : put str (convertUFT16ToUTF8 s u).1 = .ok (str ++ (convertUFT16ToUTF8 s u).1) := by
        rw [put_eq_ok, ← List.length_append]
        exact ⟨hfirst, rfl⟩
      rw [List.foldlM_cons, putUnit, hput]
      exact (ih h).trans (by rw [convertAll, List.append_assoc])

/-- Whole units are read and written. -/
theorem extractUTF16_of_even (hlength : 2 ≤ f.data.length) (heven : 2 ∣ (textBytes f).length)
    (s : UInt16) :
    extractUTF16 s f (textBytes f).length = .ok (convertAll s (units f)) := by
  obtain ⟨n, hn⟩ := heven
  have hinside := inside_textBytes hlength
  have hmax : (textBytes f).length ≤ 16 := by
    rw [length_textBytes]
    exact Nat.min_le_left _ _
  have hunits : units f = (List.range n).map (unitAt f) := by
    rw [units, hn, Nat.mul_div_cancel_left n Nat.zero_lt_two]
  have hbytes := length_convertAll_le s (units f)
  rw [hunits, List.length_map, List.length_range] at hbytes
  have hread : ∀ i ∈ List.range n, ∀ state,
      (do putUnit state (← readUnit f i)) = putUnit state (unitAt f i) := by
    intro i hi state
    have hless := List.mem_range.mp hi
    rw [readUnit, bind_assoc, CommandFrame.read_bind (by omega), bind_assoc,
      CommandFrame.read_bind (by omega), pure_bind]
    rfl
  rw [extractUTF16, hn, show (2 * n + 1) / 2 = n by omega, foldlM_congr hread, ← List.foldlM_map,
    ← hunits, foldlM_putUnit (by rw [hunits, List.nil_append]; omega)]
  rfl

/-- Half a unit is read from behind the report. -/
theorem even_of_extractUTF16 (hlength : 2 ≤ f.data.length) {s : UInt16}
    (h : Safe (extractUTF16 s f (textBytes f).length)) : 2 ∣ (textBytes f).length := by
  by_contra hodd
  have hshort : (textBytes f).length = f.data.length - 2 := by
    rw [length_textBytes] at hodd ⊢
    omega
  obtain ⟨n, hn⟩ : ∃ n, (textBytes f).length = 2 * n + 1 :=
    ⟨(textBytes f).length / 2, by omega⟩
  rw [extractUTF16, hn, show (2 * n + 1 + 1) / 2 = n + 1 by omega, List.range_succ,
    List.foldlM_append, safe_bind] at h
  obtain ⟨state, -, result, hlast⟩ := h
  simp only [List.foldlM_cons, List.foldlM_nil, bind_pure] at hlast
  obtain ⟨u, hu, -⟩ := bind_eq_ok.mp hlast
  obtain ⟨-, hlow⟩ := CommandFrame.read_bind_eq_ok.mp hu
  obtain ⟨hinside, -⟩ := CommandFrame.read_bind_eq_ok.mp hlow
  omega

/-! ## The whole function -/

/-- What is written for the text of a report. -/
def written (s : UInt16) (f : CommandFrame) : Except FrameFault (List UInt8 × UInt16) :=
  writeText s f (encoding f) (textBytes f).length

variable (hlength : 2 ≤ f.data.length) (hframe : f.data.length < 255)

include hlength hframe in
theorem extractString_eq_ok {s s' : UInt16} {text : List UInt8} :
    extractString s f = .ok (text, s') ↔
      ∃ str, written s f = .ok (str, s') ∧ str.length < 32 ∧ cString str = text := by
  have hthree : f.length ≥ 3 := f.le_length_iff.mpr (Nat.succ_le_succ hlength)
  have hwritten : extractString s f = do
      let r ← written s f
      check (r.1.length < 32) .overrun
      return (cString r.1, r.2) := by
    rw [extractString, CommandFrame.read_bind (by omega), if_pos hthree]
    dsimp only
    rw [numBytes_eq hlength hframe]
    rfl
  rw [hwritten, bind_eq_ok]
  constructor
  · rintro ⟨r, hr, h⟩
    obtain ⟨hroom, h⟩ := check_bind_eq_ok.mp h
    cases h
    exact ⟨r.1, hr, hroom, rfl⟩
  · rintro ⟨str, hstr, hroom, rfl⟩
    exact ⟨(str, s'), hstr, check_bind hroom _ _⟩

include hlength hframe in
theorem yields_extractString_iff {s : UInt16} {text : List UInt8} :
    (Yields (extractString s f) fun r => r.1 = text) ↔
      ∃ str s', written s f = .ok (str, s') ∧ str.length < 32 ∧ cString str = text := by
  constructor
  · rintro ⟨r, hr, rfl⟩
    obtain ⟨str, h⟩ := (extractString_eq_ok hlength hframe).mp hr
    exact ⟨str, r.2, h⟩
  · rintro ⟨str, s', h⟩
    exact ⟨_, (extractString_eq_ok hlength hframe).mpr ⟨str, h⟩, rfl⟩

/-- A high surrogate at the end of a name is kept. -/
theorem run_high : run [⟨[0x03, 0x02, 0xD8, 0x00], by decide⟩] = .ok 0xD800 := by
  rfl

theorem written_ascii (hlength : 2 ≤ f.data.length) (henc : encoding f = ascii) (s : UInt16) :
    written s f = .ok (textBytes f, s) := by
  rw [written, writeText, if_pos henc, extractASCII_eq hlength]
  rfl

theorem written_other (hascii : encoding f ≠ ascii) (hextended : encoding f ≠ extendedASCII)
    (hutf16 : encoding f ≠ utf16) (s : UInt16) : written s f = .ok ([], s) := by
  rw [written, writeText, if_neg hascii, if_neg hextended, if_neg hutf16]
  rfl

include hlength hframe in
/-- A text in extended ASCII. -/
theorem faithful_extended_iff (henc : encoding f = extendedASCII) :
    Faithful f ↔ ((textBytes f).flatMap extendedBytes).length < 32 := by
  have hother : encoding f ≠ utf16 := by rw [henc]; decide
  have hwritten : ∀ s, written s f = extractExtendedASCII s f (textBytes f).length := by
    intro s
    rw [written, writeText, if_neg (by rw [henc]; decide), if_pos henc]
  constructor
  · rintro ⟨text, hcalls, -⟩
    obtain ⟨str, s', hstr, hroom, -⟩ :=
      (yields_extractString_iff hlength hframe).mp (hcalls [] 0 rfl)
    rw [hwritten] at hstr
    obtain ⟨-, rfl⟩ := (extractExtendedASCII_eq_ok hlength 0).mp ⟨s', hstr⟩
    exact hroom
  · intro hroom
    refine ⟨cString ((textBytes f).flatMap extendedBytes),
      fun past s _ => (yields_extractString_iff hlength hframe).mpr ?_, fun h => absurd h hother⟩
    obtain ⟨s', hstr⟩ := (extractExtendedASCII_eq_ok hlength s).mpr ⟨Nat.lt_succ_of_lt hroom, rfl⟩
    exact ⟨_, s', (hwritten s).trans hstr, hroom, rfl⟩

/-- The text of units without zeros, whatever was kept, if no low surrogate is first. -/
theorem convertAll_eq_utf8 {us : List UInt16} (hus : ∀ u ∈ us, u.toNat < 0xF800)
    (hhead : ∀ u ∈ us.head?, ¬ IsLow u) (hchain : List.IsChain Proper us) (s : UInt16) :
    (convertAll s us).1 = utf8 (decode us) := by
  have hfirst : ∀ v, List.IsChain Proper (v :: us) := fun v =>
    List.isChain_cons.mpr ⟨fun u hu hlow => absurd hlow (hhead u hu), hchain⟩
  rcases eq_or_ne s 0 with rfl | hs
  · have hbehind : Behind 0x20 0 := by
      refine ⟨fun h => absurd h (by decide), fun h => absurd h (by decide), fun _ _ => rfl⟩
    exact (convertAll_eq_iff hbehind hus).mpr (hfirst 0x20)
  · have hbehind : Behind 0xDC00 s := by
      refine ⟨fun h => absurd h (by decide), fun _ => hs, fun _ h => absurd (by decide) h⟩
    exact (convertAll_eq_iff hbehind hus).mpr (hfirst 0xDC00)

include hlength hframe in
/-- A text in UTF-16. -/
theorem faithful_utf16_iff (henc : encoding f = utf16) :
    Faithful f ↔ 2 ∣ (textBytes f).length ∧ (∀ u ∈ units f, u ≠ 0 ∧ u.toNat < 0xF800) ∧
      (∀ u ∈ (units f).head?, ¬ IsLow u) ∧ List.IsChain Proper (units f) := by
  have hwritten : ∀ s, written s f = extractUTF16 s f (textBytes f).length := by
    intro s
    rw [written, writeText, if_neg (by rw [henc]; decide), if_neg (by rw [henc]; decide),
      if_pos henc]
  constructor
  · rintro ⟨text, hcalls, htext⟩
    obtain ⟨str, s', hstr, hroom, hstring⟩ :=
      (yields_extractString_iff hlength hframe).mp (hcalls _ _ run_high)
    rw [hwritten] at hstr
    have heven := even_of_extractUTF16 hlength ⟨_, hstr⟩
    rw [extractUTF16_of_even hlength heven, Except.ok.injEq] at hstr
    have hbytes : cString (convertAll 0xD800 (units f)).1 = utf8 (decode (units f)) := by
      rw [hstr, hstring]
      exact htext henc
    have hzero : 0 ∉ units f := fun h =>
      zero_notMem_cString _ (hbytes ▸ zero_mem_utf8 0xDC00 h)
    rw [cString_of_notMem (zero_notMem_convertAll 0xD800 hzero)] at hbytes
    have hcount := countP_lead3_add 0xD800 0xDC00 (units f)
    change _ = (utf8 (decode (units f))).countP isLead3 at hcount
    rw [hbytes, Nat.add_eq_left, List.countP_eq_zero] at hcount
    have htop : ∀ u ∈ units f, u.toNat < 0xF800 := fun u hu =>
      Nat.not_le.mp fun h => hcount u hu (decide_eq_true h)
    have hbehind : Behind 0xDC00 0xD800 := by
      refine ⟨fun h => absurd h (by decide), fun _ => by decide, fun _ h => absurd (by decide) h⟩
    have hchain := List.isChain_cons.mp ((convertAll_eq_iff hbehind htop).mp hbytes)
    refine ⟨heven, fun u hu => ⟨fun h => hzero (h ▸ hu), htop u hu⟩, fun u hu hlow => ?_, hchain.2⟩
    exact (hchain.1 u hu hlow).1 (by decide)
  · rintro ⟨heven, hunits, hhead, hchain⟩
    have hzero : 0 ∉ units f := fun h => (hunits 0 h).1 rfl
    have hequal := convertAll_eq_utf8 (fun u hu => (hunits u hu).2) hhead hchain
    refine ⟨utf8 (decode (units f)),
      fun past s _ => (yields_extractString_iff hlength hframe).mpr ?_, fun _ => rfl⟩
    refine ⟨_, _, (hwritten s).trans (extractUTF16_of_even hlength heven s), ?_, ?_⟩
    · have hbytes := length_utf8_le 0x20 (units f)
      have hmax : (textBytes f).length ≤ 16 := by
        rw [length_textBytes]
        exact Nat.min_le_left _ _
      rw [if_neg (by decide), units, List.length_map, List.length_range] at hbytes
      rw [hequal]
      change (utf8 (decode (units f))).length ≤ _ at hbytes
      omega
    · rw [cString_of_notMem (zero_notMem_convertAll s hzero), hequal]

theorem extractString_faithful_iff (hframe : f.data.length < 255) :
    Faithful f ↔ Extractable f := by
  rcases Nat.lt_or_ge f.data.length 2 with hshort | hlength
  · refine iff_of_false ?_ fun h => absurd h.1 (Nat.not_le.mpr hshort)
    rintro ⟨text, hcalls, -⟩
    obtain ⟨r, hr, -⟩ := hcalls [] 0 rfl
    obtain ⟨hread, -⟩ := CommandFrame.read_bind_eq_ok.mp hr
    omega
  rw [Extractable, and_iff_right hlength]
  by_cases hextended : encoding f = extendedASCII
  · have hother : encoding f ≠ utf16 := by rw [hextended]; decide
    rw [faithful_extended_iff hlength hframe hextended, forall_prop_of_true hextended,
      and_iff_left fun h => absurd h hother]
  by_cases hutf16 : encoding f = utf16
  · rw [faithful_utf16_iff hlength hframe hutf16, forall_prop_of_true hutf16,
      and_iff_right fun h => absurd h hextended]
  refine iff_of_true ?_ ⟨fun h => absurd h hextended, fun h => absurd h hutf16⟩
  by_cases hascii : encoding f = ascii
  · refine ⟨cString (textBytes f),
      fun past s _ => (yields_extractString_iff hlength hframe).mpr ?_, fun h => absurd h hutf16⟩
    refine ⟨_, _, written_ascii hlength hascii s, ?_, rfl⟩
    rw [length_textBytes]
    omega
  · refine ⟨[], fun past s _ => (yields_extractString_iff hlength hframe).mpr ?_,
      fun h => absurd h hutf16⟩
    exact ⟨_, _, written_other hascii hextended hutf16 s, by decide, rfl⟩

/-- The report of what has been set has the encoding and the characters of the request. -/
theorem roundTrip_iff (sender : Sender) (id : ℕ) (command report : UInt8) {name : List UInt8}
    (hname : name.length ≤ 16)
    (hdata : f.data = report :: (setString sender id command name).command.drop 2) (s : UInt16) :
    (Yields (extractString s f) fun r => r.1 = name) ↔ 0 ∉ name := by
  have hall : (if name.length > 16 then 16 else name.length) = name.length :=
    if_neg (Nat.not_lt.mpr hname)
  have hreport : f.data = report :: ascii :: name := by
    rw [hdata, setString, hall, List.take_length]
    rfl
  have hcount : f.data.length = name.length + 2 := by rw [hreport]; rfl
  have henc : encoding f = ascii := by
    rw [encoding, hreport]
    exact show ascii &&& 0x07 = ascii by decide
  have htext : textBytes f = name := by
    rw [textBytes, hreport]
    exact List.take_of_length_le hname
  have hlength : 2 ≤ f.data.length := by omega
  rw [yields_extractString_iff hlength (by omega), written_ascii hlength henc, htext]
  constructor
  · rintro ⟨str, s', hstr, -, hstring⟩
    cases hstr
    exact hstring ▸ zero_notMem_cString name
  · intro hzero
    exact ⟨name, s, rfl, by omega, cString_of_notMem hzero⟩

/-- For every report of a name or location, whatever came before it; and, when it is the
report of a name or location that was set, for that text. -/
theorem names_decoded_iff (f : CommandFrame) (hframe : f.data.length < 255) :
    (Faithful f ↔ Extractable f) ∧
      ∀ (sender : Sender) (id : ℕ) (name : List UInt8) (s : UInt16), name.length ≤ 16 →
        f.data = cmdReport :: (setName sender id name).command.drop 2 ∨
          f.data = cmdLocationReport :: (setLocation sender id name).command.drop 2 →
        ((Yields (extractString s f) fun r => r.1 = name) ↔ 0 ∉ name) := by
  refine ⟨extractString_faithful_iff hframe, fun sender id name s hname hdata => ?_⟩
  rcases hdata with hdata | hdata
  · exact roundTrip_iff sender id cmdSet cmdReport hname hdata s
  · exact roundTrip_iff sender id cmdLocationSet cmdLocationReport hname hdata s

/-- `Hall` in UTF-16 and, set as a name, in ASCII. -/
theorem names_decoded_hall :
    Faithful ⟨[0x03, 0x02, 0x00, 0x48, 0x00, 0x61, 0x00, 0x6C, 0x00, 0x6C], by decide⟩ ∧
      Yields (extractString 0xD800 ⟨[0x03, 0x00, 0x48, 0x61, 0x6C, 0x6C], by decide⟩) fun r =>
        r.1 = [0x48, 0x61, 0x6C, 0x6C] := by
  constructor
  · refine (names_decoded_iff _ (by decide)).1.mpr ⟨by decide, by decide, fun _ => ?_⟩
    have hunits : units ⟨[0x03, 0x02, 0x00, 0x48, 0x00, 0x61, 0x00, 0x6C, 0x00, 0x6C], by decide⟩ =
      [0x48, 0x61, 0x6C, 0x6C] := by decide
    rw [hunits]
    exact ⟨by decide, List.all_iff_forall_prop.mp (by decide),
      fun u hu => by cases hu; decide, by decide⟩
  · exact ((names_decoded_iff _ (by decide)).2 ⟨5, 0x25, CommandClass.new, none⟩ 1
      [0x48, 0x61, 0x6C, 0x6C] 0xD800 (by decide) (Or.inl rfl)).mpr (by decide)

/-- U+20000 is not decoded. -/
theorem names_not_decoded : ¬ ∀ f : CommandFrame, f.data.length < 255 → Faithful f := by
  intro h
  let f : CommandFrame := ⟨[0x03, 0x02, 0xD8, 0x40, 0xDC, 0x00], by decide⟩
  have hframe : f.data.length < 255 := by decide
  have hunits : units f = [0xD840, 0xDC00] := by decide
  obtain ⟨-, -, hutf16⟩ := (extractString_faithful_iff hframe).mp (h f hframe)
  obtain ⟨-, -, -, hchain⟩ := hutf16 (by decide)
  rw [hunits] at hchain
  have hproper : Proper 0xD840 0xDC00 := (List.isChain_cons_cons.mp hchain).1
  exact absurd ((hproper (by decide)).2 (by decide)) (by decide)

end NodeNaming

end OpenZWave
