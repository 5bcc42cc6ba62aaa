import OpenZWave.ExtractValue

/-!
# Decimal values there and back

`ValueToInteger` chooses the size by the magnitude of a positive number, and
`ExtractValue` reads the highest bit of that size as a sign. What comes back is the
number, except where that bit is set.
-/

namespace OpenZWave

open NumberText DecimalText BigEndian

namespace CommandClass

/-- A numeral may have a point or a comma. -/
def isPoint (c : Char) : Bool := c = '.' ∨ c = ','

/-- The decimal places with an overridden precision. -/
def sentPlaces (override : UInt8) (places : ℕ) : ℕ := max places override.toNat

/-- The scaled number with these decimal places. -/
def sentNumber (override : UInt8) (number : ℤ) (places : ℕ) : ℤ :=
  number * 10 ^ (sentPlaces override places - places)

section

variable (locale : Lconv) (override scale : UInt8) (text : List Char)

/-- What is asked of a value that is sent and read again. -/
structure RoundTrips (number : ℤ) (places : ℕ) : Prop where
  value : readDecimal (· = locale.decimalPoint)
    (extractValue locale (appendValue override text scale)).text = some (number, places)
  samePrecision : (extractValue locale (appendValue override text scale)).precision.toNat = places
  sameScale : (extractValue locale (appendValue override text scale)).scale = scale
  size : (appendValue override text scale).tail.length = (getAppendValueSize override text).toNat
  header : headerSize ((appendValue override text scale).getD 0 0) =
    getAppendValueSize override text

/-- The header has room for scale and precision, and the number has the sign that its
bytes have. -/
structure FitsWire (number : ℤ) (places : ℕ) : Prop where
  scale : scale.toNat < 4
  precision : places < 8
  low : -2 ^ 31 ≤ number
  high : number < 2 ^ 31
  oneByte : ¬ (128 ≤ number ∧ number < 256)
  twoBytes : ¬ (32768 ≤ number ∧ number < 65536)

end

/-! ## The size -/

theorem sizeFor_cases (val : Int32) : sizeFor val = 1 ∨ sizeFor val = 2 ∨ sizeFor val = 4 := by
  simp only [sizeFor]
  repeat' split
  all_goals simp

theorem lt_zero_ofInt {n : ℤ} (hlow : -2 ^ 31 ≤ n) (hhigh : n < 2 ^ 31) :
    Int32.ofInt n < 0 ↔ n < 0 := by
  rw [Int32.lt_iff_toInt_lt, Int32.toInt_ofInt_of_le hlow hhigh]
  rfl

/-- The size of a number within 32 bits: its sign bit counts if it is negative. -/
theorem sizeFor_ofInt {n : ℤ} (hlow : -2 ^ 31 ≤ n) (hhigh : n < 2 ^ 31) :
    sizeFor (Int32.ofInt n) =
      if -128 ≤ n ∧ n < 256 then 1 else if -32768 ≤ n ∧ n < 65536 then 2 else 4 := by
  have hbits := toNat_toUInt32_ofInt n
  have hmask : ∀ mask : UInt32, (Int32.ofInt n).toUInt32 &&& mask = mask ↔
      (Int32.ofInt n).toUInt32.toNat &&& mask.toNat = mask.toNat := fun mask => by
    rw [← UInt32.toNat_inj, UInt32.toNat_and]
  have hclear : ∀ mask : UInt32, (Int32.ofInt n).toUInt32 &&& mask = 0 ↔
      (Int32.ofInt n).toUInt32.toNat &&& mask.toNat = 0 := fun mask => by
    rw [← UInt32.toNat_inj, UInt32.toNat_and]
    rfl
  simp only [sizeFor, lt_zero_ofInt hlow hhigh, hmask, hclear]
  generalize (Int32.ofInt n).toUInt32.toNat = bits at hbits ⊢
  have hone : bits &&& 0xffffff80 = bits / 2 ^ 7 % 2 ^ 25 * 2 ^ 7 := BitField.natAnd_mask _ 7 25
  have htwo : bits &&& 0xffff8000 = bits / 2 ^ 15 % 2 ^ 17 * 2 ^ 15 := BitField.natAnd_mask _ 15 17
  have hbyte : bits &&& 0xffffff00 = bits / 2 ^ 8 % 2 ^ 24 * 2 ^ 8 := BitField.natAnd_mask _ 8 24
  have hword : bits &&& 0xffff0000 = bits / 2 ^ 16 % 2 ^ 16 * 2 ^ 16 := BitField.natAnd_mask _ 16 16
  change (if n < 0 then if bits &&& 0xffffff80 = 0xffffff80 then 1
      else if bits &&& 0xffff8000 = 0xffff8000 then 2 else 4
    else if bits &&& 0xffffff00 = 0 then 1 else if bits &&& 0xffff0000 = 0 then 2 else 4) = _
  rw [hone, htwo, hbyte, hword]
  split
  · refine if_congr (by omega) rfl (if_congr (by omega) rfl rfl)
  · refine if_congr (by omega) rfl (if_congr (by omega) rfl rfl)

/-! ## The number -/

/-- The loop multiplies once for each decimal place that is missing. -/
theorem overridePrecision_eq (override precision : UInt8) (n : ℤ) :
    overridePrecision override precision (Int32.ofInt n) =
      (UInt8.ofNat (sentPlaces override precision.toNat),
        Int32.ofInt (sentNumber override n precision.toNat)) := by
  generalize hval : Int32.ofInt n = val
  induction precision, val using overridePrecision.induct override generalizing n with
  | case1 precision val hless ih =>
      have hstep : Int32.ofInt (n * 10) = val * 10 := hval ▸ Int32.ofInt_mul n 10
      have hlt := UInt8.lt_iff_toNat_lt.mp hless
      have hbyte := override.toNat_lt
      have hnext : (precision + 1).toNat = precision.toNat + 1 := by
        rw [UInt8.toNat_add]
        exact Nat.mod_eq_of_lt (by change _ + 1 < _; omega)
      have hplaces : sentPlaces override (precision.toNat + 1) =
          sentPlaces override precision.toNat := by
        simp only [sentPlaces]
        omega
      have hnumber : sentNumber override (n * 10) (precision.toNat + 1) =
          sentNumber override n precision.toNat := by
        have hpos : sentPlaces override precision.toNat - precision.toNat =
            sentPlaces override precision.toNat - (precision.toNat + 1) + 1 := by
          simp only [sentPlaces]
          omega
        rw [sentNumber, sentNumber, hplaces, hpos, pow_succ]
        ring
      rw [overridePrecision, if_pos hless, ih (n * 10) hstep, hnext, hplaces, hnumber]
  | case2 precision val hge =>
      have hle : override.toNat ≤ precision.toNat := by
        rw [UInt8.lt_iff_toNat_lt] at hge
        omega
      have hplaces : sentPlaces override precision.toNat = precision.toNat := max_eq_left hle
      rw [overridePrecision, if_neg hge, sentNumber, hplaces, Nat.sub_self, pow_zero, mul_one, hval,
        UInt8.ofNat_toNat]

theorem not_isPoint_of_isDigit {c : Char} (h : c.isDigit = true) : isPoint c = false := by
  by_contra hpoint
  rcases of_decide_eq_true (Bool.eq_true_of_not_eq_false hpoint) with rfl | rfl
  · exact absurd h (by decide)
  · exact absurd h (by decide)

theorem pointPosition_none {value : List Char} (h : ∀ c ∈ value, isPoint c = false) :
    pointPosition value = none := by
  have hpoint : ∀ c ∈ value, c ≠ '.' ∧ c ≠ ',' := fun c hc =>
    not_or.mp (of_decide_eq_false (h c hc))
  have hdot : value.findIdx? (· = '.') = none :=
    List.findIdx?_eq_none_iff.mpr fun c hc => decide_eq_false (hpoint c hc).1
  rw [pointPosition, hdot]
  exact List.findIdx?_eq_none_iff.mpr fun c hc => decide_eq_false (hpoint c hc).2

theorem pointPosition_some {front back : List Char} {point : Char}
    (hfront : ∀ c ∈ front, isPoint c = false) (hback : ∀ c ∈ back, isPoint c = false)
    (hpoint : isPoint point = true) :
    pointPosition (front ++ point :: back) = some front.length := by
  have hnone : ∀ c ∈ front ++ back, c ≠ '.' ∧ c ≠ ',' := fun c hc =>
    not_or.mp (of_decide_eq_false ((List.mem_append.mp hc).elim (hfront c) (hback c)))
  have hfound : ∀ p : Char → Bool, (∀ c ∈ front, p c = false) → p point = true →
      (front ++ point :: back).findIdx? p = some front.length := by
    intro p hbefore hhere
    rw [List.findIdx?_append, List.findIdx?_eq_none_iff.mpr hbefore, List.findIdx?_cons, hhere]
    simp
  rcases of_decide_eq_true hpoint with rfl | rfl
  · rw [pointPosition, hfound]
    · exact fun c hc => decide_eq_false (hnone c (List.mem_append_left _ hc)).1
    · rfl
  · have hdot : (front ++ ',' :: back).findIdx? (· = '.') = none := by
      rw [List.findIdx?_eq_none_iff]
      intro c hc
      rcases List.mem_append.mp hc with hmem | hmem
      · exact decide_eq_false (hnone c (List.mem_append_left _ hmem)).1
      · rcases List.mem_cons.mp hmem with rfl | hmem
        · rfl
        · exact decide_eq_false (hnone c (List.mem_append_right _ hmem)).1
    rw [pointPosition, hdot]
    apply hfound
    · exact fun c hc => decide_eq_false (hnone c (List.mem_append_left _ hc)).2
    · rfl

/-- What is read of a numeral before the override: its decimal places, and its digits
without the point. -/
theorem read_eq {text : List Char} {n : ℤ} {places : ℕ}
    (hread : readDecimal isPoint text = some (n, places)) (hlow : -2 ^ 63 ≤ n)
    (hhigh : n < 2 ^ 63) :
    pointPosition text = none ∧ places = 0 ∧ atoi text = Int32.ofInt n ∨
      ∃ pos, pointPosition text = some pos ∧ text.length - pos - 1 = places ∧
        atoi (text.take pos ++ text.drop (pos + 1)) = Int32.ofInt n := by
  obtain ⟨whole, fraction, hdigits, hne, rfl, rfl, hrest⟩ := readDecimal_parts hread
  obtain ⟨sign, htext, hsign, hparts⟩ := readSign_parts text
  have hsignPoint : ∀ c ∈ sign, isPoint c = false := by
    intro c hc
    rcases hsign c hc with rfl | rfl <;> rfl
  have hfront : ∀ c ∈ sign ++ whole, isPoint c = false := by
    intro c hc
    rcases List.mem_append.mp hc with hmem | hmem
    · exact hsignPoint c hmem
    · exact not_isPoint_of_isDigit (hdigits c (List.mem_append_left _ hmem))
  have hatoi := atoi_digits (hparts (whole ++ fraction) hdigits) hne hdigits hlow hhigh
  rcases hrest with ⟨hwhole, rfl⟩ | ⟨point, hpoint, hfraction⟩
  · rw [hwhole] at htext
    rw [List.append_nil] at hatoi ⊢
    rw [← htext] at hatoi hfront
    exact Or.inl ⟨pointPosition_none hfront, rfl, hatoi⟩
  · have hback : ∀ c ∈ fraction, isPoint c = false := fun c hc =>
      not_isPoint_of_isDigit (hdigits c (List.mem_append_right _ hc))
    have hwhole : text = (sign ++ whole) ++ point :: fraction := by
      rw [htext, hfraction, List.append_assoc]
    have htake : text.take (sign ++ whole).length = sign ++ whole := by
      rw [hwhole, List.take_left]
    have hdrop : text.drop ((sign ++ whole).length + 1) = fraction := by
      rw [hwhole, ← List.drop_drop, List.drop_left]
      rfl
    refine Or.inr ⟨(sign ++ whole).length, ?_, ?_, ?_⟩
    · rw [hwhole]
      exact pointPosition_some hfront hback hpoint
    · rw [hwhole, List.length_append, List.length_cons]
      omega
    · rw [htake, hdrop, List.append_assoc]
      exact hatoi

/-- A numeral of a number is converted to the number. -/
theorem valueToInteger_eq (override : UInt8) {text : List Char} {n : ℤ} {places : ℕ}
    (hread : readDecimal isPoint text = some (n, places)) (hplaces : places < 256)
    (hlow : -2 ^ 63 ≤ n) (hhigh : n < 2 ^ 63) :
    valueToInteger override text =
      { val := Int32.ofInt (sentNumber override n places)
        precision := UInt8.ofNat (sentPlaces override places)
        size := sizeFor (Int32.ofInt (sentNumber override n places)) } := by
  have hbyte : (UInt8.ofNat places).toNat = places := UInt8.toNat_ofNat_of_lt' hplaces
  have hoverride : (if override > 0 then overridePrecision override (UInt8.ofNat places) (Int32.ofInt n)
      else (UInt8.ofNat places, Int32.ofInt n)) =
      (UInt8.ofNat (sentPlaces override places), Int32.ofInt (sentNumber override n places)) := by
    split
    · rw [overridePrecision_eq, hbyte]
    · rename_i hzero
      have hnone : override = 0 := by
        rw [gt_iff_lt, UInt8.lt_iff_toNat_lt] at hzero
        exact UInt8.toNat_inj.mp (Nat.eq_zero_of_not_pos hzero)
      subst hnone
      have hsame : sentPlaces 0 places = places := max_eq_left (Nat.zero_le _)
      rw [sentNumber, hsame, Nat.sub_self, pow_zero, mul_one]
  rcases read_eq hread hlow hhigh with ⟨hpos, rfl, hatoi⟩ | ⟨pos, hpos, hlength, hatoi⟩
  · change (if override > 0 then overridePrecision override 0 _ else (0, _)) = _ at hoverride
    simp only [valueToInteger, hpos, hatoi, hoverride]
  · simp only [valueToInteger, hpos, hlength, hatoi, hoverride]

/-! ## The bytes -/

theorem toBytes_eq_map (size n : ℕ) :
    toBytes size n = (List.range size).map fun k => UInt8.ofNat (n / 256 ^ (size - 1 - k)) := by
  induction size with
  | zero => rfl
  | succ size ih =>
      rw [toBytes, ih, List.range_succ_eq_map, List.map_cons, List.map_map]
      congr 1
      apply List.map_congr_left
      intro k _
      rw [Function.comp_apply, show size + 1 - 1 - k.succ = size - 1 - k by omega]

theorem toUInt8_shiftRight (value : UInt32) {k : ℕ} (hk : k < 4) :
    (value >>> UInt32.ofNat (k * 8)).toUInt8 = UInt8.ofNat (value.toNat / 256 ^ k) := by
  have hshift : (UInt32.ofNat (k * 8)).toNat % 32 = 8 * k := by
    rw [UInt32.toNat_ofNat']
    omega
  apply UInt8.toNat_inj.mp
  rw [UInt32.toNat_toUInt8, UInt32.toNat_shiftRight, hshift, Nat.shiftRight_eq_div_pow, pow_mul,
    UInt8.toNat_ofNat']
  rfl

/-- The header byte. -/
def packHeader (precision scale size : UInt8) : UInt8 :=
  (precision <<< precisionShift) ||| (scale <<< scaleShift) ||| size

theorem appendValue_eq (override scale : UInt8) (text : List Char) :
    appendValue override text scale =
      packHeader (valueToInteger override text).precision scale
          (valueToInteger override text).size ::
        toBytes (valueToInteger override text).size.toNat
          (valueToInteger override text).val.toUInt32.toNat := by
  rw [toBytes_eq_map]
  apply congrArg (List.cons _)
  apply List.map_congr_left
  intro k hk
  have hfour : (valueToInteger override text).size.toNat ≤ 4 := by
    rcases sizeFor_cases (valueToInteger override text).val with h | h | h <;>
      rw [show (valueToInteger override text).size = _ from h] <;> decide
  exact toUInt8_shiftRight _ (by have := List.mem_range.mp hk; omega)

theorem headerSize_packHeader (precision scale : UInt8) {size : UInt8} (hsize : size.toNat < 8) :
    headerSize (packHeader precision scale size) = size := by
  apply UInt8.toNat_inj.mp
  rw [toNat_headerSize, packHeader, UInt8.toNat_or, UInt8.toNat_or, UInt8.toNat_shiftLeft,
    UInt8.toNat_shiftLeft, Nat.shiftLeft_eq, Nat.shiftLeft_eq]
  change ((precision.toNat * 2 ^ 5 % 2 ^ 8 ||| scale.toNat * 2 ^ 3 % 2 ^ 8) ||| size.toNat) % 2 ^ 3 = _
  rw [Nat.or_mod_two_pow, Nat.or_mod_two_pow, show precision.toNat * 2 ^ 5 % 2 ^ 8 % 2 ^ 3 = 0 by omega,
    show scale.toNat * 2 ^ 3 % 2 ^ 8 % 2 ^ 3 = 0 by omega, Nat.or_self, Nat.zero_or]
  exact Nat.mod_eq_of_lt hsize

theorem toNat_packHeader (precision : UInt8) {scale size : UInt8} (hscale : scale.toNat < 4)
    (hsize : size.toNat < 8) :
    (packHeader precision scale size).toNat =
      32 * (precision.toNat % 8) + 8 * scale.toNat + size.toNat := by
  have hfields := Nat.two_pow_add_eq_or_of_lt (show 8 * scale.toNat < 2 ^ 5 by omega)
    (precision.toNat % 8)
  have hlow := Nat.two_pow_add_eq_or_of_lt (show size.toNat < 2 ^ 3 from hsize)
    (4 * (precision.toNat % 8) + scale.toNat)
  rw [packHeader, UInt8.toNat_or, UInt8.toNat_or, UInt8.toNat_shiftLeft,
    UInt8.toNat_shiftLeft, Nat.shiftLeft_eq, Nat.shiftLeft_eq]
  change ((precision.toNat * 2 ^ 5 % 2 ^ 8 ||| scale.toNat * 2 ^ 3 % 2 ^ 8) ||| size.toNat) = _
  rw [show precision.toNat * 2 ^ 5 % 2 ^ 8 = 2 ^ 5 * (precision.toNat % 8) by omega,
    show scale.toNat * 2 ^ 3 % 2 ^ 8 = 8 * scale.toNat by omega, ← hfields,
    show 2 ^ 5 * (precision.toNat % 8) + 8 * scale.toNat =
      2 ^ 3 * (4 * (precision.toNat % 8) + scale.toNat) by omega, ← hlow]
  omega

theorem valueBytes_tail (header : UInt8) (bytes : List UInt8) :
    valueBytes (header :: bytes) 1 bytes.length = bytes := by
  apply List.ext_getElem
  · exact length_valueBytes _
  · intro i _ hi
    simp [valueBytes, hi]

/-! ## There and back -/

section

variable (locale : Lconv) (override scale : UInt8) (text : List Char)

theorem length_tail_appendValue :
    (appendValue override text scale).tail.length = (getAppendValueSize override text).toNat := by
  rw [appendValue_eq]
  exact length_toBytes _ _

theorem header_appendValue :
    headerSize ((appendValue override text scale).getD 0 0) = getAppendValueSize override text := by
  rw [appendValue_eq]
  apply headerSize_packHeader
  rcases sizeFor_cases (valueToInteger override text).val with h | h | h <;>
    rw [show (valueToInteger override text).size = _ from h] <;> decide

theorem size_cases : getAppendValueSize override text = 1 ∨ getAppendValueSize override text = 2 ∨
    getAppendValueSize override text = 4 :=
  sizeFor_cases _

theorem size_le : (getAppendValueSize override text).toNat ≤ 4 := by
  rcases size_cases override text with h | h | h <;> rw [h] <;> decide

/-- What is read denotes the bytes that were appended. -/
theorem denotes_appendValue :
    Denotes locale (extractValue locale (appendValue override text scale)).text
      (((valueToInteger override text).val.toUInt32.toNat : ℤ).bmod
        (256 ^ (getAppendValueSize override text).toNat))
      (extractValue locale (appendValue override text scale)).precision.toNat := by
  have hheader := header_appendValue override scale text
  have hlength := length_tail_appendValue override scale text
  have hsize := size_cases override text
  rw [← hheader] at hlength hsize
  rw [← twosComplement_toBytes]
  rw [appendValue_eq] at hheader hlength hsize ⊢
  change Denotes _ _ (twosComplement (toBytes (valueToInteger override text).size.toNat _)) _
  generalize packHeader (valueToInteger override text).precision scale
    (valueToInteger override text).size = header at hheader hlength hsize ⊢
  generalize toBytes (valueToInteger override text).size.toNat
    (valueToInteger override text).val.toUInt32.toNat = bytes at hlength ⊢
  have hlength : bytes.length = (headerSize header).toNat := hlength
  have hbytes := valueBytes_tail header bytes
  rw [hlength] at hbytes
  cases bytes with
  | nil =>
      have hpos : headerSize header = 0 := UInt8.toNat_inj.mp hlength.symm
      rcases hsize with h | h | h <;> exact absurd (hpos.symm.trans h) (by decide)
  | cons first rest =>
      change Denotes locale (printValue locale (headerPrecision header) first
        (extractedNumber (headerSize header) first
          (valueBytes (header :: first :: rest) 1 (headerSize header).toNat))) _ _
      rw [hbytes]
      apply denotes_exact locale (headerPrecision_lt header) hlength
      rcases hsize with h | h | h
      · exact Or.inl h
      · exact Or.inr (Or.inl h)
      · exact Or.inr (Or.inr (Or.inl h))

end

/-- The bytes of a number are those of the number, unless their highest bit stands for
a sign that the number does not have. -/
theorem bmod_ofInt {n : ℤ} (hlow : -2 ^ 31 ≤ n) (hhigh : n < 2 ^ 31) :
    ((Int32.ofInt n).toUInt32.toNat : ℤ).bmod (256 ^ (sizeFor (Int32.ofInt n)).toNat) = n ↔
      ¬ (128 ≤ n ∧ n < 256) ∧ ¬ (32768 ≤ n ∧ n < 65536) := by
  rw [toNat_toUInt32_ofInt, sizeFor_ofInt hlow hhigh]
  split
  · change (n % 2 ^ 32).bmod 256 = n ↔ _
    rw [Int.bmod_def]
    omega
  · split
    · change (n % 2 ^ 32).bmod 65536 = n ↔ _
      rw [Int.bmod_def]
      omega
    · change (n % 2 ^ 32).bmod 4294967296 = n ↔ _
      rw [Int.bmod_def]
      omega

theorem natAbs_le_sentNumber (override : UInt8) (number : ℤ) (places : ℕ) :
    number.natAbs ≤ (sentNumber override number places).natAbs := by
  rw [sentNumber, Int.natAbs_mul, Int.natAbs_pow]
  exact Nat.le_mul_of_pos_right _ (Nat.pow_pos (by decide))

theorem bmod_bounds (n : ℤ) {size : UInt8} (hsize : size = 1 ∨ size = 2 ∨ size = 4) :
    -2 ^ 31 ≤ n.bmod (256 ^ size.toNat) ∧ n.bmod (256 ^ size.toNat) < 2 ^ 31 := by
  rcases hsize with rfl | rfl | rfl
  · change -2 ^ 31 ≤ n.bmod 256 ∧ n.bmod 256 < 2 ^ 31
    rw [Int.bmod_def]
    omega
  · change -2 ^ 31 ≤ n.bmod 65536 ∧ n.bmod 65536 < 2 ^ 31
    rw [Int.bmod_def]
    omega
  · change -2 ^ 31 ≤ n.bmod 4294967296 ∧ n.bmod 4294967296 < 2 ^ 31
    rw [Int.bmod_def]
    omega

/-- The number comes back exactly if it fits. -/
theorem decimalRoundTrips_iff (locale : Lconv) (override scale : UInt8) {text : List Char}
    {number : ℤ}
    {places : ℕ} (hread : readDecimal isPoint text = some (number, places)) :
    RoundTrips locale override scale text (sentNumber override number places)
        (sentPlaces override places) ↔
      FitsWire scale (sentNumber override number places) (sentPlaces override places) := by
  have hdenotes := denotes_appendValue locale override scale text
  have hplaces : places ≤ sentPlaces override places := le_max_left _ _
  have habs := natAbs_le_sentNumber override number places
  constructor
  · intro hround
    have hnumber := Option.some.inj (hdenotes.value.symm.trans hround.value)
    obtain ⟨hnumber, -⟩ := Prod.mk.inj hnumber
    have hprecision : sentPlaces override places < 8 := by
      have hheader := toNat_headerPrecision ((appendValue override text scale).getD 0 0)
      have hbyte := ((appendValue override text scale).getD 0 0).toNat_lt
      rw [← hround.samePrecision]
      change (headerPrecision _).toNat < 8
      omega
    have hscale : scale.toNat < 4 := by
      have hheader := toNat_headerScale ((appendValue override text scale).getD 0 0)
      rw [← hround.sameScale]
      change (headerScale _).toNat < 4
      omega
    obtain ⟨hlow, hhigh⟩ := bmod_bounds ((valueToInteger override text).val.toUInt32.toNat : ℤ)
      (size_cases override text)
    rw [hnumber] at hlow hhigh
    have hvalue := valueToInteger_eq override hread (by omega) (by omega) (by omega)
    rw [getAppendValueSize, hvalue] at hnumber
    obtain ⟨hone, htwo⟩ := (bmod_ofInt hlow hhigh).mp hnumber
    exact ⟨hscale, hprecision, hlow, hhigh, hone, htwo⟩
  · rintro ⟨hscale, hprecision, hlow, hhigh, hone, htwo⟩
    have hvalue := valueToInteger_eq override hread (by omega) (by omega) (by omega)
    have hnumber := (bmod_ofInt hlow hhigh).mpr ⟨hone, htwo⟩
    have hfour := size_le override text
    have hheader : ((appendValue override text scale).getD 0 0).toNat =
        32 * sentPlaces override places + 8 * scale.toNat +
          (getAppendValueSize override text).toNat := by
      have hpack := toNat_packHeader (UInt8.ofNat (sentPlaces override places)) hscale
        (hfour.trans_lt (by decide))
      have hbyte : (UInt8.ofNat (sentPlaces override places)).toNat = sentPlaces override places :=
        UInt8.toNat_ofNat_of_lt' (hprecision.trans (by decide))
      rw [hbyte, Nat.mod_eq_of_lt hprecision] at hpack
      rw [appendValue_eq, ← hpack, getAppendValueSize, hvalue]
      rfl
    have hsamePrecision : (extractValue locale (appendValue override text scale)).precision.toNat =
        sentPlaces override places := by
      change (headerPrecision _).toNat = _
      rw [toNat_headerPrecision, hheader]
      omega
    have hsameScale : (extractValue locale (appendValue override text scale)).scale = scale := by
      change headerScale _ = _
      apply UInt8.toNat_inj.mp
      rw [toNat_headerScale, hheader]
      omega
    refine ⟨?_, hsamePrecision, hsameScale, length_tail_appendValue override scale text,
      header_appendValue override scale text⟩
    rw [hdenotes.value, hsamePrecision, getAppendValueSize, hvalue, hnumber]

/-- Minus five and a half comes back. -/
theorem roundTrips_fiveAndHalf : RoundTrips cLocale 0 1 ['-', '5', '.', '5'] (-55) 1 :=
  (@decimalRoundTrips_iff cLocale 0 1 ['-', '5', '.', '5'] (-55) 1 rfl).mpr
    ⟨by decide, by decide, by decide, by decide, by decide, by decide⟩

/-- Two hundred is sent in one byte, and read as a negative number. -/
theorem not_roundTrips_twoHundred : ¬ RoundTrips cLocale 0 0 ['2', '0', '0'] 200 0 := by
  intro hround
  exact absurd hround.value (by decide)

end CommandClass

end OpenZWave
