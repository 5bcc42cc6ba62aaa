import OpenZWave.DecimalValue

/-!
# Exact decoding of decimal values

`ExtractValue` decodes values of one, two and four bytes exactly. It does not extend
the sign of three bytes, it shifts bytes out of longer values, and without any byte
it takes a sign from the byte that follows.
-/

namespace OpenZWave

open NumberText DecimalText BigEndian

namespace CommandClass

section

variable (data : List UInt8) (valueOffset : ℕ)

/-- The bytes of the value, as the header counts them. -/
def declaredBytes : List UInt8 :=
  valueBytes data valueOffset (headerSize (data.getD 0 0)).toNat

/-- What is asked of `ExtractValue`: values of one to four bytes are decoded exactly;
of other sizes no byte is shifted out, and a sign is not taken from elsewhere. -/
structure ExtractsExactly (locale : Lconv) : Prop where
  exact : 1 ≤ (headerSize (data.getD 0 0)).toNat → (headerSize (data.getD 0 0)).toNat ≤ 4 →
    Denotes locale (extractValue locale data valueOffset).text
      (twosComplement (declaredBytes data valueOffset))
      (headerPrecision (data.getD 0 0)).toNat
  complete : 4 < (headerSize (data.getD 0 0)).toNat →
    (shiftIn (declaredBytes data valueOffset)).toNat = unsigned (declaredBytes data valueOffset)
  unsigned : headerSize (data.getD 0 0) = 0 →
    (extractValue locale data valueOffset).text.count '-' = 0

/-- When it does: a value of three bytes is positive, or it is the least one and has
decimal places; the bytes of a longer value before its last four are zero; and
without any byte there are no decimal places, or what follows has no sign bit. -/
structure ExactInput : Prop where
  three : headerSize (data.getD 0 0) = 3 → (data.getD valueOffset 0).toNat < 128 ∨
    headerPrecision (data.getD 0 0) ≠ 0 ∧ declaredBytes data valueOffset = [0x80, 0, 0]
  long : 4 < (headerSize (data.getD 0 0)).toNat →
    ∀ byte ∈ (declaredBytes data valueOffset).take ((headerSize (data.getD 0 0)).toNat - 4),
      byte = 0
  empty : headerSize (data.getD 0 0) = 0 → headerPrecision (data.getD 0 0) = 0 ∨
    (data.getD valueOffset 0).toNat < 128

variable {data valueOffset}

theorem length_valueBytes (size : ℕ) : (valueBytes data valueOffset size).length = size := by
  rw [valueBytes, List.length_map, List.length_range]

theorem valueBytes_succ (size : ℕ) :
    ∃ rest, valueBytes data valueOffset (size + 1) = data.getD valueOffset 0 :: rest := by
  rw [valueBytes, List.range_succ_eq_map, List.map_cons, Nat.zero_add]
  exact ⟨_, rfl⟩

theorem headerPrecision_lt (header : UInt8) : (headerPrecision header).toNat < 10 := by
  have hbyte := header.toNat_lt
  rw [toNat_headerPrecision]
  omega

theorem natAbs_toInt_lt (value : UInt32) : value.toInt32.toInt.natAbs < 10 ^ 10 := by
  have hvalue := value.toNat_lt
  rw [toInt_toInt32]
  split <;> omega

/-! ## One, two and four bytes, and three positive ones -/

/-- The text of a number that the bytes stand for, with the sign bit of the number. -/
theorem denotes_printValue (locale : Lconv) {precision first : UInt8} {number : ℤ}
    (hnumber : number.natAbs < 10 ^ 10) (hprecision : precision.toNat < 10)
    (hsign : 128 ≤ first.toNat ↔ number < 0) :
    Denotes locale (printValue locale precision first number) number precision.toNat := by
  rcases eq_or_ne precision 0 with rfl | hpoint
  · rw [printValue, if_pos rfl]
    exact denotes_printInt locale number
  · obtain ⟨hread, hcount⟩ := readDecimal_printValue locale first hnumber hprecision hpoint
    have hbit : first &&& 0x80 ≠ 0 ↔ number < 0 := (and_signBit first).trans hsign
    simp only [hbit] at hread hcount
    rw [signed_natAbs] at hread
    exact ⟨hread, hcount⟩

theorem sign_iff_twosComplement (byte : UInt8) (bytes : List UInt8) :
    128 ≤ byte.toNat ↔ twosComplement (byte :: bytes) < 0 := by
  have hlt := unsigned_lt (byte :: bytes)
  have hwidth : ((256 ^ (byte :: bytes).length : ℕ) : ℤ) = 256 ^ (byte :: bytes).length := by
    push_cast
    rfl
  rw [twosComplement_cons, ← hwidth]
  split <;> omega

theorem natAbs_extractedNumber (size first : UInt8) (bytes : List UInt8) :
    (extractedNumber size first bytes).natAbs < 10 ^ 10 :=
  natAbs_toInt_lt _

theorem denotes_exact (locale : Lconv) {size precision first : UInt8} {rest : List UInt8}
    (hprecision : precision.toNat < 10) (hlength : (first :: rest).length = size.toNat)
    (hsize : size = 1 ∨ size = 2 ∨ size = 4 ∨ size = 3 ∧ first.toNat < 128) :
    Denotes locale (printValue locale precision first (extractedNumber size first (first :: rest)))
      (twosComplement (first :: rest)) precision.toNat := by
  have hnumber := natAbs_extractedNumber size first (first :: rest)
  rw [extractedNumber_eq hlength hsize] at hnumber ⊢
  exact denotes_printValue locale hnumber hprecision (sign_iff_twosComplement first rest)

/-! ## Three bytes with the sign bit -/

theorem extractedNumber_three {first : UInt8} {rest : List UInt8}
    (hlength : (first :: rest).length = 3) :
    extractedNumber 3 first (first :: rest) = unsigned (first :: rest) := by
  have hlt := unsigned_lt (first :: rest)
  rw [hlength] at hlt
  have hvalue : (shiftIn (first :: rest)).toNat = unsigned (first :: rest) :=
    (toNat_shiftIn _).trans (Nat.mod_eq_of_lt (hlt.trans (by decide)))
  have hsame : (if first &&& 0x80 ≠ 0 then extendSign 3 (shiftIn (first :: rest))
      else shiftIn (first :: rest)) = shiftIn (first :: rest) := by
    split <;> rfl
  rw [extractedNumber, hsame, toInt_toInt32, hvalue, if_pos (hlt.trans (by decide))]

/-- The least value of three bytes is its own negative. -/
theorem unsigned_three {first : UInt8} {rest : List UInt8} (hlength : (first :: rest).length = 3) :
    unsigned (first :: rest) = 0x800000 ↔ first :: rest = [0x80, 0, 0] := by
  constructor
  · intro hvalue
    match rest, hlength with
    | [second, third], _ =>
        have hfirst := first.toNat_lt
        have hsecond := second.toNat_lt
        have hthird := third.toNat_lt
        have hsum : unsigned [first, second, third] =
            256 ^ 2 * first.toNat + (256 ^ 1 * second.toNat + (256 ^ 0 * third.toNat + 0)) := by
          simp only [unsigned_cons, List.length_cons, List.length_nil]
          rfl
        have hbytes : first.toNat = 0x80 ∧ second.toNat = 0 ∧ third.toNat = 0 := by omega
        rw [show first = 0x80 from UInt8.toNat_inj.mp hbytes.1,
          show second = 0 from UInt8.toNat_inj.mp hbytes.2.1,
          show third = 0 from UInt8.toNat_inj.mp hbytes.2.2]
  · intro hbytes
    rw [hbytes]
    rfl

theorem denotes_three (locale : Lconv) {precision first : UInt8} {rest : List UInt8}
    (hprecision : precision.toNat < 10) (hlength : (first :: rest).length = 3)
    (hsign : 128 ≤ first.toNat) :
    Denotes locale (printValue locale precision first (extractedNumber 3 first (first :: rest)))
        (twosComplement (first :: rest)) precision.toNat ↔
      precision ≠ 0 ∧ first :: rest = [0x80, 0, 0] := by
  have hlt := unsigned_lt (first :: rest)
  have hnegative : twosComplement (first :: rest) = (unsigned (first :: rest) : ℤ) - 0x1000000 := by
    rw [twosComplement_cons, if_neg (Nat.not_lt.mpr hsign), hlength]
    rfl
  have hnumber := natAbs_extractedNumber 3 first (first :: rest)
  rw [hlength] at hlt
  rw [extractedNumber_three hlength] at hnumber ⊢
  rw [hnegative, ← unsigned_three hlength]
  rcases eq_or_ne precision 0 with rfl | hpoint
  · refine iff_of_false (fun hdenotes => ?_) (fun hleast => hleast.1 rfl)
    have hread := hdenotes.value
    rw [printValue, if_pos rfl, readDecimal_printInt] at hread
    obtain ⟨heq, -⟩ := Prod.mk.inj (Option.some.inj hread)
    omega
  · obtain ⟨hread, hcount⟩ := readDecimal_printValue locale first hnumber hprecision hpoint
    rw [decide_eq_true ((and_signBit first).mpr hsign)] at hread
    rw [if_pos ((and_signBit first).mpr hsign)] at hcount
    constructor
    · intro hdenotes
      obtain ⟨heq, -⟩ := Prod.mk.inj (Option.some.inj (hread.symm.trans hdenotes.value))
      change -((unsigned (first :: rest) : ℤ).natAbs : ℤ) = _ at heq
      exact ⟨hpoint, by omega⟩
    · rintro ⟨-, hleast⟩
      refine ⟨hread.trans ?_, ?_⟩
      · rw [hleast]
        rfl
      · rw [hcount, hleast]
        rfl

theorem denotes_iff (locale : Lconv) {size precision first : UInt8} {rest : List UInt8}
    (hprecision : precision.toNat < 10) (hlength : (first :: rest).length = size.toNat)
    (hsize : size.toNat ≤ 4) :
    Denotes locale (printValue locale precision first (extractedNumber size first (first :: rest)))
        (twosComplement (first :: rest)) precision.toNat ↔
      (size = 3 → first.toNat < 128 ∨ precision ≠ 0 ∧ first :: rest = [0x80, 0, 0]) := by
  rcases eq_or_ne size 3 with rfl | hthree
  · rcases Nat.lt_or_ge first.toNat 128 with hpositive | hsign
    · refine iff_of_true ?_ (fun _ => Or.inl hpositive)
      exact denotes_exact locale hprecision hlength (by simp [hpositive])
    · rw [denotes_three locale hprecision hlength hsign]
      simp [Nat.not_lt.mpr hsign]
  · refine iff_of_true ?_ (fun h => absurd h hthree)
    apply denotes_exact locale hprecision hlength
    have hpos : 0 < size.toNat := hlength ▸ Nat.succ_pos _
    have hne : size.toNat ≠ 3 := fun h => hthree (UInt8.toNat_inj.mp h)
    have hcases : size.toNat = 1 ∨ size.toNat = 2 ∨ size.toNat = 4 := by omega
    rcases hcases with h | h | h
    · exact Or.inl (UInt8.toNat_inj.mp h)
    · exact Or.inr (Or.inl (UInt8.toNat_inj.mp h))
    · exact Or.inr (Or.inr (Or.inl (UInt8.toNat_inj.mp h)))

/-! ## Other sizes -/

theorem shiftIn_complete_iff (bytes : List UInt8) :
    (shiftIn bytes).toNat = unsigned bytes ↔
      ∀ byte ∈ bytes.take (bytes.length - 4), byte = 0 := by
  rw [← unsigned_lt_iff, toNat_shiftIn]
  exact Nat.mod_eq_iff_lt (by decide)

theorem count_empty (locale : Lconv) {precision first : UInt8} (hprecision : precision.toNat < 10) :
    (printValue locale precision first (extractedNumber 0 first [])).count '-' = 0 ↔
      precision = 0 ∨ first.toNat < 128 := by
  have hzero : extractedNumber 0 first [] = 0 := by
    rw [extractedNumber]
    split <;> rfl
  rw [hzero]
  rcases eq_or_ne precision 0 with rfl | hpoint
  · exact iff_of_true rfl (Or.inl rfl)
  · have hsmall : (0 : ℤ).natAbs < 10 ^ 10 := by decide
    obtain ⟨-, hcount⟩ := readDecimal_printValue locale first hsmall hprecision hpoint
    rw [hcount]
    simp only [and_signBit, hpoint, false_or]
    split <;> omega

/-- The decoder is exact on the inputs above, and on no other. -/
theorem extractsExactly_iff (locale : Lconv) (data : List UInt8) (valueOffset : ℕ) :
    ExtractsExactly data valueOffset locale ↔ ExactInput data valueOffset := by
  have hprecision := headerPrecision_lt (data.getD 0 0)
  have hlength : (declaredBytes data valueOffset).length = (headerSize (data.getD 0 0)).toNat :=
    length_valueBytes _
  have hexact : 1 ≤ (headerSize (data.getD 0 0)).toNat → (headerSize (data.getD 0 0)).toNat ≤ 4 →
      (Denotes locale (extractValue locale data valueOffset).text
          (twosComplement (declaredBytes data valueOffset)) (headerPrecision (data.getD 0 0)).toNat ↔
        (headerSize (data.getD 0 0) = 3 → (data.getD valueOffset 0).toNat < 128 ∨
          headerPrecision (data.getD 0 0) ≠ 0 ∧ declaredBytes data valueOffset = [0x80, 0, 0])) := by
    intro hpos hfour
    obtain ⟨size, hsize⟩ := Nat.exists_eq_add_of_le' hpos
    obtain ⟨rest, hrest⟩ := @valueBytes_succ data valueOffset size
    have hbytes : declaredBytes data valueOffset = data.getD valueOffset 0 :: rest := by
      rw [declaredBytes, hsize, hrest]
    change Denotes locale (printValue locale _ _
      (extractedNumber _ _ (declaredBytes data valueOffset))) _ _ ↔ _
    rw [hbytes] at hlength ⊢
    exact denotes_iff locale hprecision hlength hfour
  have hcomplete := shiftIn_complete_iff (declaredBytes data valueOffset)
  rw [hlength] at hcomplete
  have hempty : headerSize (data.getD 0 0) = 0 →
      ((extractValue locale data valueOffset).text.count '-' = 0 ↔
        headerPrecision (data.getD 0 0) = 0 ∨ (data.getD valueOffset 0).toNat < 128) := by
    intro hsize
    have hnone : declaredBytes data valueOffset = [] := by
      rw [declaredBytes, hsize]
      rfl
    change (printValue locale _ _
      (extractedNumber _ _ (declaredBytes data valueOffset))).count '-' = 0 ↔ _
    rw [hnone, hsize]
    exact count_empty locale hprecision
  constructor
  · rintro ⟨hdenotes, hall, hsign⟩
    refine ⟨fun hthree => ?_, fun hlong => hcomplete.mp (hall hlong),
      fun hzero => (hempty hzero).mp (hsign hzero)⟩
    have hsize : (headerSize (data.getD 0 0)).toNat = 3 := congrArg UInt8.toNat hthree
    exact (hexact (by omega) (by omega)).mp (hdenotes (by omega) (by omega)) hthree
  · rintro ⟨hthree, hlong, hzero⟩
    exact ⟨fun hpos hfour => (hexact hpos hfour).mpr hthree, fun h => hcomplete.mpr (hlong h),
      fun h => (hempty h).mpr (hzero h)⟩

/-- The C locale. -/
def cLocale : Lconv where
  decimalPoint := '.'
  notDigit := rfl
  notSign := by decide

/-- The three bytes of minus one are read as 16777215. -/
theorem not_extractsExactly_three : ¬ ExtractsExactly [0x03, 0xff, 0xff, 0xff] 1 cLocale := by
  intro hexact
  rcases ((extractsExactly_iff cLocale [0x03, 0xff, 0xff, 0xff] 1).mp hexact).three rfl with
    hpositive | ⟨hpoint, -⟩
  · exact absurd hpositive (by decide)
  · exact hpoint rfl

end

end CommandClass

end OpenZWave
