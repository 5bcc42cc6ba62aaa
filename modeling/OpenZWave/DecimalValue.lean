import Mathlib.Algebra.Order.Ring.Int
import Mathlib.Data.Nat.Bitwise
import OpenZWave.CommandClass
import OpenZWave.Lib.BigEndian
import OpenZWave.Lib.BitField
import OpenZWave.Lib.DecimalText

/-!
# Decimal values on the wire

A value is a header byte with precision, scale and size, and a signed integer of that
many bytes. `ExtractValue` makes it a decimal numeral, without floating point
numbers; `AppendValue` makes bytes of a numeral. The texts are lists of characters.
-/

namespace OpenZWave

open NumberText DecimalText BigEndian

/-- `localeconv`: the decimal point is neither a digit nor a sign. -/
structure Lconv where
  decimalPoint : Char
  notDigit : decimalPoint.isDigit = false
  notSign : decimalPoint ≠ '-'

namespace CommandClass

/-! ## The fields of the header -/

def sizeMask : UInt8 := 0x07
def scaleMask : UInt8 := 0x18
def scaleShift : UInt8 := 0x03
def precisionMask : UInt8 := 0xe0
def precisionShift : UInt8 := 0x05

def headerSize (header : UInt8) : UInt8 := header &&& sizeMask
def headerScale (header : UInt8) : UInt8 := (header &&& scaleMask) >>> scaleShift
def headerPrecision (header : UInt8) : UInt8 := (header &&& precisionMask) >>> precisionShift

/-! ## `ExtractValue` -/

/-- The bytes of a value, which start at an offset. -/
def valueBytes (data : List UInt8) (valueOffset size : ℕ) : List UInt8 :=
  (List.range size).map fun i => data.getD (i + valueOffset) 0

/-- The loop over the bytes: they are shifted into 32 bits. -/
def shiftIn (bytes : List UInt8) : UInt32 :=
  bytes.foldl (fun value byte => (value <<< 8) ||| byte.toUInt32) 0

/-- The sign bit of the first byte is extended, for sizes one and two. -/
def extendSign (size : UInt8) (value : UInt32) : UInt32 :=
  if size = 1 then value ||| 0xffffff00
  else if size = 2 then value ||| 0xffff0000
  else value

/-- The decimal point is inserted into eleven characters: those before it move down
over the first one, and the numeral starts at the first digit that is not zero, or
right before the point. -/
def insertPoint (point : Char) (decimal : ℕ) (numBuf : List Char) : List Char :=
  let shifted := (numBuf.drop 1).take decimal
  let start :=
    match shifted.findIdx? (· ≠ '0') with
    | some start => start
    | none => decimal - 1
  (shifted ++ point :: numBuf.drop (decimal + 1)).drop start

/-- The number that the bytes of a value stand for. -/
def extractedNumber (size first : UInt8) (bytes : List UInt8) : ℤ :=
  (if first &&& 0x80 ≠ 0 then extendSign size (shiftIn bytes) else shiftIn bytes).toInt32.toInt

/-- Without decimal places the number is printed as it is; otherwise its minus sign
has been written before. -/
def printValue (locale : Lconv) (precision first : UInt8) (number : ℤ) : List Char :=
  if precision = 0 then printInt number
  else
    minus (decide (first &&& 0x80 ≠ 0)) ++
      insertPoint locale.decimalPoint (10 - precision.toNat) (printIntPadded 11 number)

structure ExtractedValue where
  text : List Char
  scale : UInt8
  precision : UInt8

/-- `ExtractValue`. -/
def extractValue (locale : Lconv) (data : List UInt8) (valueOffset : ℕ := 1) : ExtractedValue :=
  let header := data.getD 0 0
  let bytes := valueBytes data valueOffset (headerSize header).toNat
  let first := data.getD valueOffset 0
  { text :=
      printValue locale (headerPrecision header) first
        (extractedNumber (headerSize header) first bytes)
    scale := headerScale header
    precision := headerPrecision header }

/-! ## `AppendValue` -/

/-- The loop of `ValueToInteger` over an overridden precision. -/
def overridePrecision (override precision : UInt8) (val : Int32) : UInt8 × Int32 :=
  if precision < override then overridePrecision override (precision + 1) (val * 10)
  else (precision, val)
  termination_by override.toNat - precision.toNat
  decreasing_by
    rename_i hless
    have := UInt8.lt_iff_toNat_lt.mp hless
    have := override.toNat_lt
    rw [UInt8.toNat_add]
    change _ - (precision.toNat + 1) % 256 < _
    omega

/-- The number of bytes that `ValueToInteger` finds for an integer. -/
def sizeFor (val : Int32) : UInt8 :=
  let bits := val.toUInt32
  if val < 0 then
    if bits &&& 0xffffff80 = 0xffffff80 then 1
    else if bits &&& 0xffff8000 = 0xffff8000 then 2
    else 4
  else if bits &&& 0xffffff00 = 0 then 1
  else if bits &&& 0xffff0000 = 0 then 2
  else 4

/-- The place of the decimal point: a point, or else a comma. -/
def pointPosition (value : List Char) : Option ℕ :=
  match value.findIdx? (· = '.') with
  | some pos => some pos
  | none => value.findIdx? (· = ',')

structure IntegerValue where
  val : Int32
  precision : UInt8
  size : UInt8

/-- `ValueToInteger`; `override` is the flag `COMPAT_FLAG_OVERRIDEPRECISION`. -/
def valueToInteger (override : UInt8) (value : List Char) : IntegerValue :=
  let read : UInt8 × Int32 :=
    match pointPosition value with
    | none => (0, atoi value)
    | some pos => (UInt8.ofNat (value.length - pos - 1), atoi (value.take pos ++ value.drop (pos + 1)))
  let result := if override > 0 then overridePrecision override read.1 read.2 else read
  { val := result.2, precision := result.1, size := sizeFor result.2 }

/-- `AppendValue`: the bytes that are appended. -/
def appendValue (override : UInt8) (value : List Char) (scale : UInt8) : List UInt8 :=
  let i := valueToInteger override value
  ((i.precision <<< precisionShift) ||| (scale <<< scaleShift) ||| i.size) ::
    (List.range i.size.toNat).map fun k =>
      (i.val.toUInt32 >>> UInt32.ofNat ((i.size.toNat - 1 - k) * 8)).toUInt8

/-- `GetAppendValueSize`. -/
def getAppendValueSize (override : UInt8) (value : List Char) : UInt8 :=
  (valueToInteger override value).size

/-! ## Header fields -/

theorem toNat_headerSize (header : UInt8) : (headerSize header).toNat = header.toNat % 8 := by
  rw [headerSize, UInt8.toNat_and]
  exact Nat.and_two_pow_sub_one_eq_mod _ 3

theorem toNat_headerScale (header : UInt8) : (headerScale header).toNat = header.toNat / 8 % 4 := by
  have hmask : header.toNat &&& 24 = header.toNat / 8 % 4 * 8 := BitField.natAnd_mask _ 3 2
  rw [headerScale, UInt8.toNat_shiftRight, UInt8.toNat_and]
  change (header.toNat &&& 24) >>> 3 = _
  rw [hmask, Nat.shiftRight_eq_div_pow]
  omega

theorem toNat_headerPrecision (header : UInt8) :
    (headerPrecision header).toNat = header.toNat / 32 := by
  have hbyte := header.toNat_lt
  have hmask : header.toNat &&& 224 = header.toNat / 32 % 8 * 32 := BitField.natAnd_mask _ 5 3
  rw [headerPrecision, UInt8.toNat_shiftRight, UInt8.toNat_and]
  change (header.toNat &&& 224) >>> 5 = _
  rw [hmask, Nat.shiftRight_eq_div_pow]
  omega

/-! ## Signed values -/

theorem toNat_shiftIn (bytes : List UInt8) : (shiftIn bytes).toNat = unsigned bytes % 2 ^ 32 := by
  have hstep : ∀ (value : UInt32) (byte : UInt8),
      ((value <<< 8) ||| byte.toUInt32).toNat = (256 * value.toNat + byte.toNat) % 2 ^ 32 := by
    intro value byte
    have hbyte := byte.toNat_lt
    have hor := Nat.two_pow_add_eq_or_of_lt hbyte (value.toNat % 2 ^ 24)
    rw [UInt32.toNat_or, UInt32.toNat_shiftLeft, UInt8.toNat_toUInt32, Nat.shiftLeft_eq]
    change value.toNat * 2 ^ 8 % 2 ^ 32 ||| byte.toNat = _
    rw [show value.toNat * 2 ^ 8 % 2 ^ 32 = 2 ^ 8 * (value.toNat % 2 ^ 24) by omega, ← hor]
    omega
  have hloop : ∀ (bytes : List UInt8) (value : UInt32) (n : ℕ), value.toNat = n % 2 ^ 32 →
      (bytes.foldl (fun (value : UInt32) byte => (value <<< 8) ||| byte.toUInt32) value).toNat =
        bytes.foldl (fun n byte => 256 * n + byte.toNat) n % 2 ^ 32 := by
    intro bytes
    induction bytes with
    | nil => exact fun _ _ h => h
    | cons byte bytes ih =>
        intro value n hvalue
        refine ih _ (256 * n + byte.toNat) ?_
        rw [hstep, hvalue]
        omega
  exact hloop bytes 0 0 rfl

theorem toInt_toInt32 (value : UInt32) :
    value.toInt32.toInt =
      if value.toNat < 2147483648 then (value.toNat : ℤ) else value.toNat - 4294967296 := by
  have hcond := BitVec.toInt_eq_toNat_cond value.toBitVec
  change value.toInt32.toInt = if 2 * value.toNat < 2 * 2147483648 then _ else _ at hcond
  rw [hcond]
  exact if_congr (Nat.mul_lt_mul_left Nat.two_pos) rfl rfl

theorem and_signBit (byte : UInt8) : byte &&& 0x80 ≠ 0 ↔ 128 ≤ byte.toNat := by
  have hbyte := byte.toNat_lt
  have hbit : byte.toNat &&& 128 = byte.toNat / 128 % 2 * 128 := BitField.natAnd_mask _ 7 1
  rw [ne_eq, ← UInt8.toNat_inj, UInt8.toNat_and]
  change ¬ byte.toNat &&& 128 = 0 ↔ _
  omega

/-- Bytes are read in two's complement, in the sizes whose sign is extended; a value of
three bytes is read without. -/
theorem extractedNumber_eq {size byte : UInt8} {bytes : List UInt8}
    (hlength : (byte :: bytes).length = size.toNat)
    (hsize : size = 1 ∨ size = 2 ∨ size = 4 ∨ size = 3 ∧ byte.toNat < 128) :
    extractedNumber size byte (byte :: bytes) = twosComplement (byte :: bytes) := by
  have hlt := unsigned_lt (byte :: bytes)
  have hvalue := toNat_shiftIn (byte :: bytes)
  have hnegative := twosComplement_cons byte bytes
  rw [hlength] at hlt hnegative
  simp only [extractedNumber, and_signBit]
  by_cases hsign : 128 ≤ byte.toNat
  · rw [if_pos hsign, hnegative, if_neg (Nat.not_lt.mpr hsign), toInt_toInt32]
    rcases hsize with rfl | rfl | rfl | ⟨-, hpositive⟩
    · change unsigned (byte :: bytes) < 256 at hlt
      have hor := Nat.two_pow_add_eq_or_of_lt (show unsigned (byte :: bytes) < 2 ^ 8 from hlt) 0xffffff
      have hextended : (extendSign 1 (shiftIn (byte :: bytes))).toNat =
          2 ^ 8 * 0xffffff + unsigned (byte :: bytes) := by
        change ((shiftIn (byte :: bytes)) ||| 0xffffff00).toNat = _
        rw [UInt32.toNat_or, hvalue, Nat.mod_eq_of_lt (by omega), Nat.lor_comm, hor]
        rfl
      rw [hextended, if_neg (by omega)]
      change _ = (unsigned (byte :: bytes) : ℤ) - 256
      omega
    · change unsigned (byte :: bytes) < 65536 at hlt
      have hor := Nat.two_pow_add_eq_or_of_lt (show unsigned (byte :: bytes) < 2 ^ 16 from hlt) 0xffff
      have hextended : (extendSign 2 (shiftIn (byte :: bytes))).toNat =
          2 ^ 16 * 0xffff + unsigned (byte :: bytes) := by
        change ((shiftIn (byte :: bytes)) ||| 0xffff0000).toNat = _
        rw [UInt32.toNat_or, hvalue, Nat.mod_eq_of_lt (by omega), Nat.lor_comm, hor]
        rfl
      rw [hextended, if_neg (by omega)]
      change _ = (unsigned (byte :: bytes) : ℤ) - 65536
      omega
    · change unsigned (byte :: bytes) < 4294967296 at hlt
      have hextended : (extendSign 4 (shiftIn (byte :: bytes))).toNat = unsigned (byte :: bytes) :=
        hvalue.trans (Nat.mod_eq_of_lt hlt)
      have hhalf : 2147483648 ≤ unsigned (byte :: bytes) := by
        have hcons := unsigned_cons byte bytes
        have hthree : bytes.length = 3 := Nat.succ.inj hlength
        rw [hthree] at hcons
        omega
      rw [hextended, if_neg (Nat.not_lt.mpr hhalf)]
      rfl
    · exact absurd hsign (Nat.not_le.mpr hpositive)
  · rw [if_neg hsign, hnegative, if_pos (Nat.not_le.mp hsign), toInt_toInt32, hvalue]
    have hhalf : unsigned (byte :: bytes) < 2147483648 := by
      have hcons := unsigned_cons byte bytes
      have hrest := unsigned_lt bytes
      rcases hsize with rfl | rfl | rfl | ⟨rfl, -⟩
      · rw [Nat.succ.inj hlength] at hcons hrest
        omega
      · rw [show bytes.length = 1 from Nat.succ.inj hlength] at hcons hrest
        omega
      · rw [show bytes.length = 3 from Nat.succ.inj hlength] at hcons hrest
        omega
      · rw [show bytes.length = 2 from Nat.succ.inj hlength] at hcons hrest
        omega
    rw [Nat.mod_eq_of_lt (hhalf.trans (by omega)), if_pos hhalf]

/-! ## The numeral -/

theorem drop_printIntPadded {i : ℤ} (hi : i.natAbs < 10 ^ 10) :
    (printIntPadded 11 i).drop 1 = pad 10 (Nat.toDigits 10 i.natAbs) := by
  cases i with
  | ofNat n =>
      have hlength : (Nat.toDigits 10 n).length ≤ 10 :=
        (Nat.length_toDigits_le_iff (by omega) (by omega)).mpr hi
      change (pad 11 (Nat.toDigits 10 n)).drop 1 = pad 10 (Nat.toDigits 10 n)
      rw [pad, pad, Nat.succ_sub hlength]
      rfl
  | negSucc n => rfl

/-- What is left of ten digits when the point is inserted: the digits from the first one
that counts on, at least one of them before the point. -/
theorem insertPoint_eq (point : Char) (decimal : ℕ) {numBuf digits : List Char}
    (hdigits : numBuf.drop 1 = digits) (hlength : digits.length = 10) (hpos : 0 < decimal)
    (hdecimal : decimal ≤ 10) :
    ∃ start, start < decimal ∧ (∀ c ∈ digits.take start, c = '0') ∧
      insertPoint point decimal numBuf =
        (digits.take decimal).drop start ++ point :: digits.drop decimal := by
  have hrest : numBuf.drop (decimal + 1) = digits.drop decimal := by
    rw [← hdigits, List.drop_drop, Nat.add_comm]
  have htake : (digits.take decimal).length = decimal := by
    rw [List.length_take, hlength, Nat.min_eq_left hdecimal]
  have hcut : ∀ start, start < decimal →
      (digits.take decimal ++ point :: digits.drop decimal).drop start =
        (digits.take decimal).drop start ++ point :: digits.drop decimal := by
    intro start hstart
    rw [List.drop_append_of_le_length (by rw [htake]; exact hstart.le)]
  have hzeros : ∀ start, start ≤ decimal →
      (∀ i, (hi : i < (digits.take decimal).length) → i < start → (digits.take decimal)[i] = '0') →
        ∀ c ∈ digits.take start, c = '0' := by
    intro start hstart hbefore c hc
    obtain ⟨i, hi, rfl⟩ := List.mem_iff_getElem.mp hc
    rw [List.length_take] at hi
    have hvalue := hbefore i (by rw [htake]; omega) (by omega)
    rw [List.getElem_take] at hvalue ⊢
    exact hvalue
  rw [insertPoint, hdigits, hrest]
  cases hfirst : (digits.take decimal).findIdx? (· ≠ '0') with
  | some start =>
      obtain ⟨hstart, -, hbefore⟩ := List.findIdx?_eq_some_iff_getElem.mp hfirst
      rw [htake] at hstart
      refine ⟨start, hstart, hzeros start hstart.le fun i hi hless => ?_, hcut start hstart⟩
      simpa using hbefore i hless
  | none =>
      have hnone := List.findIdx?_eq_none_iff.mp hfirst
      refine ⟨decimal - 1, by omega, hzeros _ (Nat.sub_le _ _) fun i hi _ => ?_,
        hcut (decimal - 1) (by omega)⟩
      simpa using hnone _ (List.getElem_mem hi)

/-- The numeral with a point denotes the number, and has its sign in front only. -/
theorem readDecimal_insertPoint (locale : Lconv) (negative : Bool) {i : ℤ} {precision : ℕ}
    (hi : i.natAbs < 10 ^ 10) (hprecision : precision < 10) :
    readDecimal (· = locale.decimalPoint)
        (minus negative ++
          insertPoint locale.decimalPoint (10 - precision) (printIntPadded 11 i)) =
      some (signed negative i.natAbs, precision) ∧
    (insertPoint locale.decimalPoint (10 - precision) (printIntPadded 11 i)).count '-' = 0 := by
  have hlength : (pad 10 (Nat.toDigits 10 i.natAbs)).length = 10 :=
    length_pad ((Nat.length_toDigits_le_iff (by omega) (by omega)).mpr hi)
  have hdigit : ∀ c ∈ pad 10 (Nat.toDigits 10 i.natAbs), c.isDigit = true := isDigit_of_mem_pad
  obtain ⟨start, hstart, hzeros, heq⟩ := insertPoint_eq locale.decimalPoint (10 - precision)
    (drop_printIntPadded hi) hlength (by omega) (by omega)
  have hwhole : ∀ c ∈ ((pad 10 (Nat.toDigits 10 i.natAbs)).take (10 - precision)).drop start,
      c.isDigit = true := fun c hc => hdigit c (List.mem_of_mem_take (List.mem_of_mem_drop hc))
  have hfraction : ∀ c ∈ (pad 10 (Nat.toDigits 10 i.natAbs)).drop (10 - precision),
      c.isDigit = true := fun c hc => hdigit c (List.mem_of_mem_drop hc)
  have hall : ((pad 10 (Nat.toDigits 10 i.natAbs)).take (10 - precision)).drop start ++
      (pad 10 (Nat.toDigits 10 i.natAbs)).drop (10 - precision) =
        (pad 10 (Nat.toDigits 10 i.natAbs)).drop start := by
    rw [← List.drop_append_of_le_length, List.take_append_drop]
    rw [List.length_take, hlength]
    omega
  constructor
  · rw [heq, readDecimal_point negative (decide_eq_true rfl) locale.notDigit _ hwhole hfraction,
      hall, ofDigitChars_drop_zeros hzeros, ofDigitChars_pad, List.length_drop, hlength]
    · rw [Nat.sub_sub_self (by omega)]
    · apply List.ne_nil_of_length_pos
      rw [List.length_drop, List.length_take, hlength]
      omega
  · rw [heq, List.count_eq_zero]
    intro hminus
    rcases List.mem_append.mp hminus with hmem | hmem
    · exact absurd (hwhole _ hmem) (by decide)
    · rcases List.mem_cons.mp hmem with hpoint | hmem
      · exact locale.notSign hpoint.symm
      · exact absurd (hfraction _ hmem) (by decide)

theorem readDecimal_printValue (locale : Lconv) {precision : UInt8} (first : UInt8) {number : ℤ}
    (hnumber : number.natAbs < 10 ^ 10) (hprecision : precision.toNat < 10)
    (hpoint : precision ≠ 0) :
    readDecimal (· = locale.decimalPoint) (printValue locale precision first number) =
        some (signed (decide (first &&& 0x80 ≠ 0)) number.natAbs, precision.toNat) ∧
      (printValue locale precision first number).count '-' =
        if first &&& 0x80 ≠ 0 then 1 else 0 := by
  obtain ⟨hread, hcount⟩ := readDecimal_insertPoint locale (decide (first &&& 0x80 ≠ 0)) hnumber
    hprecision
  rw [printValue, if_neg hpoint]
  refine ⟨hread, ?_⟩
  rw [List.count_append, hcount]
  by_cases hfirst : first &&& 0x80 = 0 <;> simp [hfirst, minus]

/-! ## Exact decoding -/

/-- The text denotes a number with decimal places, with a minus sign if it is
negative. -/
structure Denotes (locale : Lconv) (text : List Char) (number : ℤ) (precision : ℕ) : Prop where
  value : readDecimal (· = locale.decimalPoint) text = some (number, precision)
  minus : text.count '-' = if number < 0 then 1 else 0

theorem denotes_printInt (locale : Lconv) (number : ℤ) : Denotes locale (printInt number) number 0 := by
  refine ⟨readDecimal_printInt _ number, ?_⟩
  have hdigits : (Nat.toDigits 10 number.natAbs).count '-' = 0 := by
    rw [List.count_eq_zero]
    intro hminus
    exact absurd (Nat.isDigit_of_mem_toDigits (by decide) (by decide) hminus) (by decide)
  rw [printInt_eq, List.count_append, hdigits]
  by_cases hnumber : number < 0 <;> simp [hnumber, DecimalText.minus]

end CommandClass

end OpenZWave
