import OpenZWave.Bitfield
import OpenZWave.CommandFrame
import OpenZWave.SendDataRequests

/-!
# Scales of meters

A scale is encoded in the report on the supported scales, in the request of a reading and
in the reading, and differently from version to version. Its value has the index of the
meter type and the scale.
-/

namespace OpenZWave

open Checked NumberText DecimalText

namespace Meter

def classId : UInt8 := 0x32
def cmdGet : UInt8 := 0x01
def cmdReport : UInt8 := 0x02
def cmdSupportedReport : UInt8 := 0x04

/-- `MeterType_Cooling`, the last of the enumeration that starts with 0. -/
def meterTypeCooling : ℤ := 4

def exporting : UInt16 := 256
def reset : UInt16 := 257

/-- `MeterTypes`: labels and units, sixteen for each type. -/
def meterTypes : List (String × String) :=
  [("Electric - kWh", "kWh"), ("Electric - kVah", "kVah"), ("Electric - W", "W"),
    ("Electric - Pulses", "Pulses"), ("Electric - V", "V"), ("Electric - A", "A"),
    ("Electric - PF", "PF"), ("Electric (Unknown)", ""), ("Electric - kVar", "kVar"),
    ("Electric - kVarh", "kVarh")] ++ List.replicate 6 ("Electric (Unknown)", "") ++
  [("Gas - m3", "m3"), ("Gas - ft3", "ft3"), ("Gas (Unknown)", ""),
    ("Gas - Pulses", "Pulses")] ++ List.replicate 12 ("Gas (Unknown)", "") ++
  [("Water - m3", "m3"), ("Water - ft3", "ft3"), ("Water - gal", "gal"),
    ("Water - Pulses", "Pulses")] ++ List.replicate 12 ("Water (Unknown)", "") ++
  ("Heating - kWh", "kWh") :: List.replicate 15 ("Heating (Unknown)", "") ++
  ("Cooling - kWh", "kWh") :: List.replicate 15 ("Cooling (Unknown)", "")

/-! ## The report on the supported scales -/

/-- A value that is created, with its label and unit. -/
structure Created where
  index : UInt16
  label : String
  unit : String
  deriving DecidableEq

/-- One pass of the loop over the bytes that follow: the same byte is read each time. A
shift by all 32 bits or more is undefined. -/
def extendOnce (f : CommandFrame) (scale : UInt32) (k : ℕ) : Except FrameFault UInt32 := do
  let scale2 ← f.read (3 + 1)
  check (8 * (k + 1) < 32) .overrun
  return scale ||| (scale2.toUInt32 <<< UInt32.ofNat (8 * (k + 1)))

def extend (f : CommandFrame) (scale : UInt32) (size : UInt8) : Except FrameFault UInt32 :=
  (List.range size.toNat).foldlM (extendOnce f) scale

/-- The scales, as each version has them. -/
def decodeScale (version : UInt8) (f : CommandFrame) : Except FrameFault UInt32 :=
  if version = 2 then do return ((← f.read 2) &&& 0x0F).toUInt32
  else if version = 3 then do return ((← f.read 2) &&& 0xFF).toUInt32
  else if version ≥ 4 then do
    let first ← f.read 2
    let scale := (first &&& 0x7F).toUInt32
    if first &&& 0x80 ≠ 0 then do extend f scale (← f.read 3)
    else return scale
  else return 0

/-- One pass of the loop over the scales. -/
def createScale (meterType : ℤ) (scale : UInt32) (created : List Created) (i : ℕ) :
    Except FrameFault (List Created) :=
  if scale &&& (1 <<< UInt32.ofNat i) ≠ 0 then do
    let type := UInt32.ofInt ((meterType - 1) * 16 + i)
    if type.toNat > meterTypes.length then return created
    else
      let entry ← readAt meterTypes type.toNat .table
      return created ++ [⟨type.toUInt16, entry.1, entry.2⟩]
  else return created

/-- `HandleSupportedReport`: the values for the scales, and whether there is one for a
reset; `none` if the report is dropped. The loop goes on to bit nine. -/
def handleSupportedReport (version : UInt8) (f : CommandFrame) :
    Except FrameFault (Option (List Created × Bool)) := do
  let properties ← f.read 1
  let canReset := properties &&& 0x80 ≠ 0
  let meterType : ℤ := (properties &&& 0x1f).toNat
  if meterType > meterTypeCooling then return none
  else
    let scale ← decodeScale version f
    let scalesize := 1
    let created ← (List.range (scalesize * 8 + 1 + 1)).foldlM (createScale meterType scale) []
    return some (created, canReset)

/-! ## Requests -/

/-- The request for a value: its length byte, and the command. -/
def getCommand (version : UInt8) (i : ℕ) : UInt8 × List UInt8 :=
  let scale := UInt8.ofNat (i % 16)
  let declared : UInt8 :=
    if version = 1 then 2 else if version ≤ 3 then 3 else if scale > 7 then 4 else 3
  let bytes :=
    if version = 2 then [(scale &&& 0x03) <<< 3]
    else if version = 3 then [(scale &&& 0x07) <<< 3]
    else if version ≥ 4 then
      if scale > 7 then [0x38, scale - 8] else [(scale &&& 0x07) <<< 3]
    else []
  (declared, [classId, cmdGet] ++ bytes)

/-- The indexes up to the number of `MeterTypes` for which there is a value. -/
def requestedIndexes (values : UInt16 → Bool) : List ℕ :=
  (List.range meterTypes.length).filter fun i => values (UInt16.ofNat i)

/-- `RequestValue`. -/
def requestValue (sender : Sender) (id : ℕ) (getSupported : Bool) (values : UInt16 → Bool)
    (inst : UInt8) : List SendData :=
  if getSupported then
    (requestedIndexes values).map fun i =>
      let command := getCommand sender.cc.version i
      sender.request (sender.onInstance (sender.get id classId) inst) command.1 command.2
  else []

/-! ## Readings -/

/-- `GetScale`. -/
def getScale (version : UInt8) (f : CommandFrame) : Except FrameFault UInt8 := do
  let scale : UInt8 ←
    if version ≥ 1 then (fun third : UInt8 => (third &&& 0x18) >>> 3) <$> f.read 2 else pure 0
  let scale : UInt8 ←
    if version ≥ 3 then (fun second : UInt8 => scale ||| ((second &&& 0x80) >>> 5)) <$> f.read 1
    else pure scale
  if version ≥ 4 ∧ scale = 7 then do
    let last ← f.lengthLess 2
    return (← f.read last.toNat) + 8
  else return scale

/-- A reading: the value it is for, whether the value is new, its text and precision, and
the export flag of the later versions. -/
structure Reading where
  index : UInt16
  created : Bool
  text : List Char
  precision : UInt8
  exporting : Option Bool

/-- `HandleReport`: `none` if the reading is dropped. -/
def handleReport (locale : Lconv) (version : UInt8) (values : UInt16 → Bool) (f : CommandFrame) :
    Except FrameFault (Option Reading) := do
  let header ← f.read 2
  let _ ← f.readRange 3 (max 1 (CommandClass.headerSize header).toNat)
  let extracted := CommandClass.extractValue locale (f.data.drop 2)
  let scale ← getScale version f
  let properties ← f.read 1
  let meterType : ℤ := (properties &&& 0x1f).toNat
  let index := UInt16.ofInt ((meterType - 1) * 16 + scale.toNat)
  if index.toNat < meterTypes.length then
    if ¬ values index ∧ version ≠ 1 then return none
    else
      return some
        { index := index
          created := !values index
          text := extracted.text
          precision := extracted.precision
          exporting := if version > 1 then some (properties &&& 0x60 = 0x40) else none }
  else return none

/-! ## What is asked -/

section Asked

variable (version : UInt8) (f : CommandFrame)

/-- The report is on this type. -/
def typeOf : ℕ := (f.data.getD 1 0).toNat % 32

/-- The report has the bit for a scale: version 2 has four bits, version 3 eight, and the
later ones seven and, if the eighth is set, the bits of the bytes that follow. -/
def Advertises (scale : ℕ) : Prop :=
  if version = 2 then scale < 4 ∧ (f.data.getD 2 0).toNat.testBit scale = true
  else if version = 3 then scale < 8 ∧ (f.data.getD 2 0).toNat.testBit scale = true
  else if version ≥ 4 then
    if scale < 7 then (f.data.getD 2 0).toNat.testBit scale = true
    else (f.data.getD 2 0).toNat.testBit 7 = true ∧ 8 ≤ scale ∧
      scale / 8 ≤ (f.data.getD 3 0).toNat ∧
      (f.data.getD (3 + scale / 8) 0).toNat.testBit (scale % 8) = true
  else False

/-- The scale that a request asks for. -/
def requestedScale (command : List UInt8) : ℕ :=
  if version = 2 then (command.getD 2 0).toNat / 8 % 4
  else if version = 3 then (command.getD 2 0).toNat / 8 % 8
  else if (command.getD 2 0).toNat / 8 % 8 = 7 then (command.getD 3 0).toNat + 8
  else (command.getD 2 0).toNat / 8 % 8

/-- What else a reading holds: a rate, a precision, the bytes of the value, and the
bytes behind it for the time since an earlier reading. -/
structure Rest where
  rate : ℕ
  precision : ℕ
  value : List UInt8
  earlier : List UInt8
  rate_lt : rate < 4
  precision_lt : precision < 8
  value_pos : 1 ≤ value.length
  value_lt : value.length < 8

/-- The reading of a device: two bits of the scale are in the third byte and one is in the
second. From version 4 on a scale of at least 8 is 7 there, and a last byte. -/
def encode (type scale : ℕ) (rest : Rest) : List UInt8 :=
  let field := if version ≥ 4 ∧ 8 ≤ scale then 7 else scale
  [cmdReport, UInt8.ofNat (128 * (field / 4) + 32 * rest.rate + type),
    UInt8.ofNat (32 * rest.precision + 8 * (field % 4) + rest.value.length)] ++
  (rest.value ++ rest.earlier ++
    if version ≥ 4 ∧ 8 ≤ scale then [UInt8.ofNat (scale - 8)] else [])

/-- The index for a type and a scale. -/
def indexOf (type scale : ℕ) : UInt16 := UInt16.ofNat ((type - 1) * 16 + scale)

/-- The indexes of the values that are created. -/
def createdIndexes : Option (List Created × Bool) → List UInt16
  | none => []
  | some result => result.1.map (·.index)

/-- The value of a scale is asked for with this scale, and a reading with it is one of this
value. -/
structure InAgreement (type scale : ℕ) (values : UInt16 → Bool) : Prop where
  requested : (indexOf type scale).toNat ∈ requestedIndexes values
  counted : (getCommand version (indexOf type scale).toNat).1.toNat =
    (getCommand version (indexOf type scale).toNat).2.length
  request : requestedScale version (getCommand version (indexOf type scale).toNat).2 = scale
  report : ∀ (locale : Lconv) (rest : Rest) (reading : CommandFrame),
    reading.data = encode version type scale rest →
      Yields (handleReport locale version values reading) fun result =>
        result.map (·.index) = some (indexOf type scale)

/-- One value is created for each scale that is advertised and none else, without a fault,
and requests and readings agree on it. -/
def Agrees : Prop :=
  Yields (handleSupportedReport version f) fun result =>
    (createdIndexes result).Nodup ∧
    (∀ index, index ∈ createdIndexes result ↔
      ∃ scale, Advertises version f scale ∧ index.toNat = (typeOf f - 1) * 16 + scale) ∧
    ∀ values : UInt16 → Bool, (∀ index ∈ createdIndexes result, values index = true) →
      ∀ scale, Advertises version f scale → InAgreement version (typeOf f) scale values

/-- Where requests and readings have a place for a scale. -/
def HasPlace (scale : ℕ) : Prop :=
  2 ≤ version ∧ scale < 10 ∧ (version = 2 → scale < 4) ∧ (version = 3 → scale < 8) ∧
    (version ≥ 4 → scale ≠ 7)

/-- The report has the bytes that are read, and not more than three are to follow. -/
def Readable : Prop :=
  version ≥ 2 → 3 ≤ f.data.length ∧
    (version ≥ 4 → (f.data.getD 2 0).toNat.testBit 7 = true → 4 ≤ f.data.length ∧
      (1 ≤ (f.data.getD 3 0).toNat → 5 ≤ f.data.length ∧ (f.data.getD 3 0).toNat ≤ 3))

/-- Cooling meters advertise nothing; the others, in a report that is complete, no scale
from 10 on. -/
def Supported : Prop :=
  if typeOf f = 5 then ∀ scale, ¬ Advertises version f scale
  else Readable version f ∧ ∀ scale, Advertises version f scale → scale < 10

end Asked

/-! ## Bits -/

theorem toNat_bit {i : ℕ} (hi : i < 32) : ((1 : UInt32) <<< UInt32.ofNat i).toNat = 2 ^ i := by
  have hpow : 2 ^ i < 2 ^ 32 := Nat.pow_lt_pow_right (by omega) hi
  rw [UInt32.toNat_shiftLeft, UInt32.toNat_ofNat', Nat.mod_eq_of_lt (by omega : i < 2 ^ 32),
    Nat.mod_eq_of_lt hi, UInt32.toNat_one, Nat.shiftLeft_eq, Nat.one_mul, Nat.mod_eq_of_lt hpow]

theorem and_bit_ne_zero (scale : UInt32) {i : ℕ} (hi : i < 32) :
    scale &&& (1 <<< UInt32.ofNat i) ≠ 0 ↔ scale.toNat.testBit i = true := by
  rw [ne_eq, ← UInt32.toNat_inj, UInt32.toNat_and, toNat_bit hi, Nat.and_two_pow,
    UInt32.toNat_zero]
  cases scale.toNat.testBit i with
  | false => simp
  | true => simp

theorem and_128_ne_zero (byte : UInt8) : byte &&& 0x80 ≠ 0 ↔ byte.toNat.testBit 7 = true := by
  have hmask : (byte &&& 0x80).toNat = (byte.toNat.testBit 7).toNat * 2 ^ 7 :=
    Nat.and_two_pow byte.toNat 7
  rw [ne_eq, ← UInt8.toNat_inj, hmask]
  cases byte.toNat.testBit 7 with
  | false => simp
  | true => simp

theorem testBit_or_shiftLeft (scale : UInt32) (byte : UInt8) {j i : ℕ} (hj : j < 32)
    (hi : i < 32) :
    (scale ||| (byte.toUInt32 <<< UInt32.ofNat j)).toNat.testBit i =
      (scale.toNat.testBit i || (decide (j ≤ i) && byte.toNat.testBit (i - j))) := by
  rw [UInt32.toNat_or, Nat.testBit_or, UInt32.toNat_shiftLeft, UInt8.toNat_toUInt32,
    UInt32.toNat_ofNat', Nat.mod_eq_of_lt (by omega : j < 2 ^ 32), Nat.mod_eq_of_lt hj,
    Nat.testBit_mod_two_pow, decide_eq_true hi, Bool.true_and, Nat.testBit_shiftLeft]

/-! ## The scales of a report -/

section Decode

variable {version : UInt8} {f : CommandFrame}

theorem four_le (hlow : 2 ≤ version) (h2 : ¬ version = 2) (h3 : ¬ version = 3) :
    4 ≤ version := by
  have htwo : version.toNat ≠ 2 := fun h => h2 (UInt8.toNat_inj.mp h)
  have hthree : version.toNat ≠ 3 := fun h => h3 (UInt8.toNat_inj.mp h)
  have hle : 2 ≤ version.toNat := UInt8.le_iff_toNat_le.mp hlow
  apply UInt8.le_iff_toNat_le.mpr
  change 4 ≤ version.toNat
  omega

theorem Advertises.lt {scale : ℕ} (h : Advertises version f scale) : scale < 2048 := by
  have hsize := (f.data.getD 3 0).toNat_lt
  unfold Advertises at h
  split at h
  · omega
  split at h
  · omega
  split at h
  · split at h <;> omega
  · exact h.elim

/-- Each pass sets the bits for its own eight scales, and only the first pass those for
scales below 16. -/
theorem extend_spec (hread : 5 ≤ f.data.length) (scale : UInt32) {n : ℕ} (hn : n ≤ 3) :
    Yields ((List.range n).foldlM (extendOnce f) scale) fun result =>
      ∀ i < 16, result.toNat.testBit i =
        (scale.toNat.testBit i ||
          (decide (1 ≤ n ∧ 8 ≤ i) && (f.data.getD 4 0).toNat.testBit (i - 8))) := by
  induction n with
  | zero =>
      refine yields_pure.mpr fun i _ => ?_
      simp
  | succ n ih =>
      rw [List.range_succ, List.foldlM_append]
      apply (ih (by omega)).bind
      intro past hpast
      rw [List.foldlM_cons, extendOnce, bind_assoc, CommandFrame.read_bind (by omega),
        bind_assoc, check_bind (by omega), pure_bind, List.foldlM_nil]
      refine yields_pure.mpr fun i hi => ?_
      rw [testBit_or_shiftLeft past _ (by omega) (by omega), hpast i hi]
      rcases Nat.eq_zero_or_pos n with rfl | hpos
      · simp
      · have hlater : ¬ 8 * (n + 1) ≤ i := by omega
        have hfirst : 1 ≤ n ∧ 8 ≤ i ↔ 1 ≤ n + 1 ∧ 8 ≤ i := by omega
        simp only [hlater, hfirst, decide_false, Bool.false_and, Bool.or_false]

theorem readable_of_extend {scale result : UInt32} {size : UInt8}
    (h : extend f scale size = .ok result) (hsize : 1 ≤ size.toNat) :
    5 ≤ f.data.length ∧ size.toNat ≤ 3 := by
  obtain ⟨n, hn⟩ : ∃ n, size.toNat = n + 1 := ⟨size.toNat - 1, by omega⟩
  rw [extend, hn, List.range_succ, List.foldlM_append, bind_eq_ok] at h
  obtain ⟨past, -, hlast⟩ := h
  rw [List.foldlM_cons, extendOnce, bind_assoc, CommandFrame.read_bind_eq_ok, bind_assoc,
    check_bind_eq_ok] at hlast
  omega

theorem testBit_mask (byte : UInt8) (k i : ℕ) :
    (byte.toNat % 2 ^ k).testBit i = true ↔ i < k ∧ byte.toNat.testBit i = true := by
  rw [Nat.testBit_mod_two_pow, Bool.and_eq_true, decide_eq_true_iff]

theorem decodeScale_later (h2 : ¬ version = 2) (h3 : ¬ version = 3) (h4 : version ≥ 4)
    (h : Readable version f) :
    Yields (decodeScale version f) fun scale =>
      ∀ i < 10, scale.toNat.testBit i = true ↔ Advertises version f i := by
  have hversion : version ≥ 2 := UInt8.le_trans (by decide) h4
  obtain ⟨hfirst, hrest⟩ := h hversion
  have hrest := hrest h4
  have hmask : ((f.data.getD 2 0) &&& 0x7F).toNat = (f.data.getD 2 0).toNat % 2 ^ 7 :=
    Nat.and_two_pow_sub_one_eq_mod _ 7
  rw [decodeScale, if_neg h2, if_neg h3, if_pos h4, CommandFrame.read_bind hfirst]
  by_cases hmore : (f.data.getD 2 0).toNat.testBit 7 = true
  · obtain ⟨hcount, hbytes⟩ := hrest hmore
    rw [if_pos ((and_128_ne_zero _).mpr hmore), CommandFrame.read_bind hcount]
    rcases Nat.eq_zero_or_pos (f.data.getD 3 0).toNat with hzero | hpos
    · rw [extend, hzero]
      refine yields_pure.mpr fun i hi => ?_
      rw [UInt8.toNat_toUInt32, hmask, testBit_mask, Advertises, if_neg h2, if_neg h3,
        if_pos h4, hzero]
      split
      · rename_i hlow
        exact and_iff_right hlow
      · refine iff_of_false (fun hset => absurd hset.1 ‹_›) ?_
        omega
    · obtain ⟨hread, hsize⟩ := hbytes hpos
      refine (extend_spec hread _ hsize).mono fun scale hscale i hi => ?_
      rw [hscale i (by omega), UInt8.toNat_toUInt32, hmask, Bool.or_eq_true, testBit_mask,
        Bool.and_eq_true, decide_eq_true_iff, Advertises, if_neg h2, if_neg h3, if_pos h4]
      by_cases hlow : i < 7
      · rw [if_pos hlow]
        constructor
        · rintro (hset | hset)
          · exact hset.2
          · omega
        · intro hset
          exact .inl ⟨hlow, hset⟩
      · rw [if_neg hlow]
        constructor
        · rintro (hset | ⟨⟨-, h8⟩, hset⟩)
          · exact absurd hset.1 hlow
          · have hbyte : i / 8 = 1 := by omega
            have hbit : i % 8 = i - 8 := by omega
            rw [hbyte, hbit]
            exact ⟨hmore, h8, hpos, hset⟩
        · rintro ⟨-, h8, -, hset⟩
          have hbyte : i / 8 = 1 := by omega
          have hbit : i % 8 = i - 8 := by omega
          rw [hbyte, hbit] at hset
          exact .inr ⟨⟨hpos, h8⟩, hset⟩
  · rw [if_neg (fun hset => hmore ((and_128_ne_zero _).mp hset))]
    refine yields_pure.mpr fun i hi => ?_
    rw [UInt8.toNat_toUInt32, hmask, testBit_mask, Advertises, if_neg h2, if_neg h3, if_pos h4]
    split
    · rename_i hlow
      exact and_iff_right hlow
    · exact iff_of_false (fun hset => absurd hset.1 ‹_›) (fun hset => hmore hset.1)

theorem decodeScale_spec (h : Readable version f) :
    Yields (decodeScale version f) fun scale =>
      ∀ i < 10, scale.toNat.testBit i = true ↔ Advertises version f i := by
  by_cases h2 : version = 2
  · subst h2
    have hmask : ((f.data.getD 2 0) &&& 0x0F).toNat = (f.data.getD 2 0).toNat % 2 ^ 4 :=
      Nat.and_two_pow_sub_one_eq_mod _ 4
    rw [decodeScale, if_pos rfl, CommandFrame.read_bind (h (by decide)).1]
    refine yields_pure.mpr fun i _ => ?_
    rw [UInt8.toNat_toUInt32, hmask, testBit_mask, Advertises, if_pos rfl]
  by_cases h3 : version = 3
  · subst h3
    have hmask : ((f.data.getD 2 0) &&& 0xFF).toNat = (f.data.getD 2 0).toNat % 2 ^ 8 :=
      Nat.and_two_pow_sub_one_eq_mod _ 8
    rw [decodeScale, if_neg h2, if_pos rfl, CommandFrame.read_bind (h (by decide)).1]
    refine yields_pure.mpr fun i _ => ?_
    rw [UInt8.toNat_toUInt32, hmask, testBit_mask, Advertises, if_neg h2, if_pos rfl]
  by_cases h4 : version ≥ 4
  · exact decodeScale_later h2 h3 h4 h
  · rw [decodeScale, if_neg h2, if_neg h3, if_neg h4]
    refine yields_ok.mpr fun i _ => ?_
    rw [Advertises, if_neg h2, if_neg h3, if_neg h4]
    simp

theorem readable_of_decodeScale {scale : UInt32} (h : decodeScale version f = .ok scale) :
    Readable version f := by
  intro hversion
  rw [decodeScale] at h
  split at h
  · rename_i h2
    subst h2
    exact ⟨(CommandFrame.read_bind_eq_ok.mp h).1, fun h4 => absurd h4 (by decide)⟩
  split at h
  · rename_i h3
    subst h3
    exact ⟨(CommandFrame.read_bind_eq_ok.mp h).1, fun h4 => absurd h4 (by decide)⟩
  split at h
  · obtain ⟨hfirst, h⟩ := CommandFrame.read_bind_eq_ok.mp h
    refine ⟨hfirst, fun _ hmore => ?_⟩
    rw [if_pos ((and_128_ne_zero _).mpr hmore), CommandFrame.read_bind_eq_ok] at h
    exact ⟨h.1, readable_of_extend h.2⟩
  · rename_i h2 h3 h4
    exact absurd (four_le hversion h2 h3) h4

end Decode

/-! ## The values of a report -/

section Create

variable {version : UInt8} {f : CommandFrame} {type : ℕ}

theorem toNat_indexOf (htype : type ≤ 5) {scale : ℕ} (hscale : scale < 2048) :
    (indexOf type scale).toNat = (type - 1) * 16 + scale := by
  rw [indexOf, UInt16.toNat_ofNat', Nat.mod_eq_of_lt (by omega)]

/-- The value for a scale, with its label and unit. -/
def valueOf (type scale : ℕ) : Created :=
  let entry := meterTypes.getD ((type - 1) * 16 + scale) ("", "")
  ⟨indexOf type scale, entry.1, entry.2⟩

/-- One pass creates the value of its scale, if the report has the bit for it. -/
theorem createScale_eq (hlow : 1 ≤ type) (hhigh : type ≤ 4) (scale : UInt32)
    (created : List Created) {i : ℕ} (hi : i < 10) :
    createScale type scale created i =
      .ok (if scale.toNat.testBit i then created ++ [valueOf type i] else created) := by
  have hentry : (type - 1) * 16 + i < meterTypes.length := by
    have hlength : meterTypes.length = 80 := by decide
    omega
  have htoNat : (UInt32.ofInt (((type : ℤ) - 1) * 16 + i)).toNat = (type - 1) * 16 + i := by
    rw [UInt32.ofInt, UInt32.toNat_ofNat']
    omega
  have hindex : (UInt32.ofInt (((type : ℤ) - 1) * 16 + i)).toUInt16 = indexOf type i := by
    rw [← UInt16.toNat_inj, UInt32.toNat_toUInt16, htoNat, toNat_indexOf (by omega) (by omega)]
    exact Nat.mod_eq_of_lt (by omega)
  simp only [createScale]
  by_cases hbit : scale.toNat.testBit i = true
  · rw [if_pos ((and_bit_ne_zero scale (by omega)).mpr hbit), htoNat,
      if_neg (Nat.not_lt.mpr (Nat.le_of_lt hentry)), readAt_bind hentry ("", ""), if_pos hbit,
      valueOf, hindex]
    rfl
  · rw [if_neg (fun h => hbit ((and_bit_ne_zero scale (by omega)).mp h)), if_neg hbit]
    rfl

theorem foldlM_createScale (hlow : 1 ≤ type) (hhigh : type ≤ 4) (scale : UInt32) {n : ℕ}
    (hn : n ≤ 10) :
    (List.range n).foldlM (createScale type scale) [] =
      .ok (((List.range n).filter scale.toNat.testBit).map (valueOf type)) := by
  induction n with
  | zero => rfl
  | succ n ih =>
      rw [List.range_succ, List.foldlM_append, ih (by omega), ok_bind, List.foldlM_cons,
        createScale_eq hlow hhigh scale _ (by omega), ok_bind, List.foldlM_nil,
        List.filter_append, List.map_append]
      cases hbit : scale.toNat.testBit n with
      | false => simp [hbit, pure, Except.pure]
      | true => simp [hbit, pure, Except.pure]

theorem toNat_typeBits (f : CommandFrame) : ((f.data.getD 1 0) &&& 0x1f).toNat = typeOf f :=
  Nat.and_two_pow_sub_one_eq_mod _ 5

theorem two_le_length (hlow : 1 ≤ typeOf f) : 1 < f.data.length := by
  by_contra hshort
  rw [typeOf, List.getD_eq_default _ _ (Nat.not_lt.mp hshort)] at hlow
  exact absurd hlow (by decide)

theorem handleSupportedReport_cooling (h : typeOf f = 5) :
    handleSupportedReport version f = .ok none := by
  have hdrop : (typeOf f : ℤ) > meterTypeCooling := by
    rw [h]
    decide
  rw [handleSupportedReport, CommandFrame.read_bind (two_le_length (by omega)), toNat_typeBits,
    if_pos hdrop]
  rfl

theorem handleSupportedReport_eq (hlow : 1 ≤ typeOf f) (hhigh : typeOf f ≤ 4) :
    handleSupportedReport version f = do
      let scale ← decodeScale version f
      return some (((List.range 10).filter scale.toNat.testBit).map (valueOf (typeOf f)),
        (f.data.getD 1 0) &&& 0x80 ≠ 0) := by
  have hkept : ¬ (typeOf f : ℤ) > meterTypeCooling := by
    rw [meterTypeCooling]
    omega
  rw [handleSupportedReport, CommandFrame.read_bind (two_le_length hlow), toNat_typeBits,
    if_neg hkept]
  refine congrArg _ (funext fun scale => ?_)
  simp only [foldlM_createScale hlow hhigh scale (Nat.le_refl 10), ok_bind]

/-- The indexes that are created are those of the scales with a bit below ten. -/
theorem mem_created {scale : UInt32} {canReset : Bool} (htype : type ≤ 4) {index : UInt16} :
    index ∈ createdIndexes
        (some (((List.range 10).filter scale.toNat.testBit).map (valueOf type), canReset)) ↔
      ∃ i < 10, scale.toNat.testBit i = true ∧ index.toNat = (type - 1) * 16 + i := by
  simp only [createdIndexes, List.mem_map, List.mem_filter, List.mem_range, exists_exists_and_eq_and]
  constructor
  · rintro ⟨i, ⟨hi, hbit⟩, rfl⟩
    exact ⟨i, hi, hbit, toNat_indexOf (by omega) (by omega)⟩
  · rintro ⟨i, hi, hbit, hindex⟩
    refine ⟨i, ⟨hi, hbit⟩, ?_⟩
    rw [← UInt16.toNat_inj, hindex]
    exact toNat_indexOf (by omega) (by omega)

theorem nodup_created {scale : UInt32} {canReset : Bool} (htype : type ≤ 4) :
    (createdIndexes
      (some (((List.range 10).filter scale.toNat.testBit).map (valueOf type), canReset))).Nodup := by
  rw [createdIndexes, List.map_map]
  apply (List.nodup_range.filter _).map_on
  intro i hi j hj hij
  have hi : i < 10 := List.mem_range.mp (List.mem_of_mem_filter hi)
  have hj : j < 10 := List.mem_range.mp (List.mem_of_mem_filter hj)
  have hindex := congrArg UInt16.toNat hij
  simp only [Function.comp_apply, valueOf] at hindex
  rw [toNat_indexOf (by omega) (by omega), toNat_indexOf (by omega) (by omega)] at hindex
  omega

end Create

/-! ## Requests and readings of a scale -/

section Scale

variable {version : UInt8} {type scale : ℕ}

theorem Advertises.hasPlace {f : CommandFrame} (h : Advertises version f scale)
    (hscale : scale < 10) : HasPlace version scale := by
  unfold Advertises at h
  split at h
  · rename_i h2
    subst h2
    exact ⟨by decide, hscale, fun _ => h.1, fun h3 => absurd h3 (by decide),
      fun h4 => absurd h4 (by decide)⟩
  split at h
  · rename_i h3
    subst h3
    exact ⟨by decide, hscale, fun h2 => absurd h2 (by decide), fun _ => h.1,
      fun h4 => absurd h4 (by decide)⟩
  split at h
  · rename_i h2 h3 h4
    refine ⟨UInt8.le_trans (by decide) h4, hscale, fun h => absurd h h2, fun h => absurd h h3,
      fun _ hseven => ?_⟩
    subst hseven
    rw [if_neg (by decide)] at h
    omega
  · exact h.elim

theorem toNat_thirdBits (third : UInt8) :
    ((third &&& 0x18) >>> 3).toNat = third.toNat / 8 % 4 := by
  change (third.toNat &&& 24) >>> 3 = third.toNat / 8 % 4
  rw [Nat.shiftRight_and_distrib, Nat.shiftRight_eq_div_pow]
  exact Nat.and_two_pow_sub_one_eq_mod _ 2

/-- The bits of the scale in a reading: two in the third byte, one in the second. -/
theorem toNat_scaleBits (second third : UInt8) :
    (((third &&& 0x18) >>> 3) ||| ((second &&& 0x80) >>> 5)).toNat =
      third.toNat / 8 % 4 + 4 * (second.toNat / 128) := by
  have hsecond := second.toNat_lt
  have hhigh : ((second &&& 0x80) >>> 5).toNat = 2 ^ 2 * (second.toNat / 128) := by
    change (second.toNat &&& 128) >>> 5 = 4 * (second.toNat / 128)
    rw [Nat.shiftRight_and_distrib, Nat.shiftRight_eq_div_pow]
    have hpow : 128 >>> 5 = 2 ^ 2 := by decide
    rw [hpow, Nat.and_two_pow, Nat.testBit_eq_decide_div_mod_eq, Nat.div_div_eq_div_mul]
    have htop : second.toNat / 128 = 0 ∨ second.toNat / 128 = 1 := by omega
    change (decide (second.toNat / 128 % 2 = 1)).toNat * 2 ^ 2 = 4 * (second.toNat / 128)
    rcases htop with htop | htop
    · rw [htop]
      rfl
    · rw [htop]
      rfl
  rw [UInt8.toNat_or, toNat_thirdBits, hhigh, Nat.or_comm, Nat.add_comm]
  exact (Nat.two_pow_add_eq_or_of_lt (Nat.mod_lt _ (by decide)) _).symm

/-- A request counts its bytes, and asks for the scale of the index. -/
theorem getCommand_spec (hplace : HasPlace version scale) {i : ℕ} (hi : i % 16 = scale) :
    (getCommand version i).1.toNat = (getCommand version i).2.length ∧
      requestedScale version (getCommand version i).2 = scale := by
  obtain ⟨hlow, hscale, htwo, hthree, hfour⟩ := hplace
  simp only [getCommand, hi]
  by_cases h2 : version = 2
  · have hbound := htwo h2
    subst h2
    interval_cases scale <;> decide
  by_cases h3 : version = 3
  · have hbound := hthree h3
    subst h3
    interval_cases scale <;> decide
  have h4 := four_le hlow h2 h3
  have hhigh : ¬ version ≤ 3 := fun hle => absurd (UInt8.le_trans h4 hle) (by decide)
  have h1 : ¬ version = 1 := by
    rintro rfl
    exact hhigh (by decide)
  have hseven := hfour h4
  simp only [requestedScale, h1, h2, h3, h4, hhigh, if_true, if_false]
  interval_cases scale <;> first | omega | decide

/-- What the scale bits of a reading hold. -/
theorem field_lt (hplace : HasPlace version scale) :
    (if version ≥ 4 ∧ 8 ≤ scale then 7 else scale) < 8 := by
  obtain ⟨hlow, hscale, htwo, hthree, -⟩ := hplace
  split
  · omega
  · rename_i hshort
    by_contra hge
    have h8 : 8 ≤ scale := Nat.not_lt.mp hge
    have h2 : ¬ version = 2 := fun h => by have := htwo h; omega
    have h3 : ¬ version = 3 := fun h => by have := hthree h; omega
    exact hshort ⟨four_le hlow h2 h3, h8⟩

section Encode

variable {rest : Rest} {reading : CommandFrame}

/-- The bytes of a reading, and what their bits are. -/
theorem getD_encode (hdata : reading.data = encode version type scale rest)
    (hplace : HasPlace version scale) (htype : type < 32) :
    let field := if version ≥ 4 ∧ 8 ≤ scale then 7 else scale
    (reading.data.getD 1 0).toNat = 128 * (field / 4) + 32 * rest.rate + type ∧
      (reading.data.getD 2 0).toNat =
        32 * rest.precision + 8 * (field % 4) + rest.value.length := by
  have hfield := field_lt hplace
  have hrate := rest.rate_lt
  have hprecision := rest.precision_lt
  have hvalue := rest.value_lt
  rw [hdata, encode]
  simp only [List.cons_append, List.getD_cons_succ, List.getD_cons_zero, UInt8.toNat_ofNat']
  constructor
  · exact Nat.mod_eq_of_lt (by omega)
  · exact Nat.mod_eq_of_lt (by omega)

theorem three_le_length (hdata : reading.data = encode version type scale rest) :
    3 + rest.value.length ≤ reading.data.length := by
  rw [hdata, encode]
  simp only [List.length_append, List.length_cons, List.length_nil]
  omega

/-- The last byte of a reading of a scale from eight on. -/
theorem getD_last (hdata : reading.data = encode version type scale rest) (h4 : version ≥ 4)
    (h8 : 8 ≤ scale) :
    reading.data.getD (reading.data.length - 1) 0 = UInt8.ofNat (scale - 8) := by
  rw [hdata, encode, if_pos ⟨h4, h8⟩, if_pos ⟨h4, h8⟩, ← List.append_assoc, ← List.append_assoc,
    List.length_append, List.length_singleton, Nat.add_sub_cancel, List.getD_eq_getElem?_getD,
    List.getElem?_concat_length]
  rfl

theorem getScale_encode (hdata : reading.data = encode version type scale rest)
    (hplace : HasPlace version scale) (htype : type < 32) :
    getScale version reading = .ok (UInt8.ofNat scale) := by
  obtain ⟨hsecond, hthird⟩ := getD_encode hdata hplace htype
  have hlength := three_le_length hdata
  have hvalue := rest.value_lt
  have hrate := rest.rate_lt
  have hbits := toNat_scaleBits (reading.data.getD 1 0) (reading.data.getD 2 0)
  have hfield := field_lt hplace
  obtain ⟨hlow, hscale, htwo, hthree, hseven⟩ := hplace
  have hone : version ≥ 1 := UInt8.le_trans (by decide) hlow
  have hvalueOf : (UInt8.ofNat scale).toNat = scale :=
    Nat.mod_eq_of_lt (by omega : scale < 2 ^ 8)
  rw [getScale, if_pos hone, bind_map_left, CommandFrame.read_bind (by omega)]
  by_cases h2 : version = 2
  · have hbound := htwo h2
    have hthree : ¬ version ≥ 3 := by
      rw [h2]
      decide
    have hfour : ¬ (version ≥ 4 ∧ 8 ≤ scale) := by omega
    rw [if_neg hfour] at hthird
    have hlast : ¬ (version ≥ 4 ∧ (reading.data.getD 2 0 &&& 0x18) >>> 3 = 7) :=
      fun h => hthree (UInt8.le_trans (by decide) h.1)
    rw [if_neg hthree, pure_bind]
    beta_reduce
    rw [if_neg hlast]
    refine congrArg Except.ok (UInt8.toNat_inj.mp ?_)
    rw [toNat_thirdBits, hvalueOf, hthird]
    omega
  have hthree : version ≥ 3 := by
    by_cases h3 : version = 3
    · exact h3 ▸ UInt8.le_refl 3
    · exact UInt8.le_trans (by decide) (four_le hlow h2 h3)
  rw [if_pos hthree, bind_map_left, CommandFrame.read_bind (by omega)]
  generalize ((reading.data.getD 2 0 &&& (0x18 : UInt8)) >>> 3) |||
    ((reading.data.getD 1 0 &&& (0x80 : UInt8)) >>> 5) = bits at hbits ⊢
  have hscaleBits := hbits.trans (by omega : _ = if version ≥ 4 ∧ 8 ≤ scale then 7 else scale)
  by_cases hlong : version ≥ 4 ∧ 8 ≤ scale
  · rw [if_pos hlong] at hscaleBits
    have hlast : (reading.length - 2).toNat = reading.data.length - 1 := by
      rw [CommandFrame.toNat_length_sub]
      · change reading.data.length + 1 - 2 = _
        omega
      · exact reading.le_length_iff.mpr (by change 2 ≤ _; omega)
    rw [if_pos ⟨hlong.1, UInt8.toNat_inj.mp hscaleBits⟩,
      CommandFrame.lengthLess_bind (by change 2 ≤ _; omega), hlast,
      CommandFrame.read_bind (by omega), getD_last hdata hlong.1 hlong.2]
    refine congrArg Except.ok (UInt8.toNat_inj.mp ?_)
    rw [hvalueOf, UInt8.toNat_add, UInt8.toNat_ofNat']
    change ((scale - 8) % 256 + 8) % 256 = scale
    omega
  · rw [if_neg hlong] at hscaleBits
    have hseven : ¬ (version ≥ 4 ∧ bits = 7) := by
      rintro ⟨h4, heq⟩
      have htoNat := congrArg UInt8.toNat heq
      exact hseven h4 (hscaleBits.symm.trans htoNat)
    rw [if_neg hseven]
    exact congrArg Except.ok (UInt8.toNat_inj.mp (hscaleBits.trans hvalueOf.symm))

/-- A reading is one of the value of its type and scale, if there is one. -/
theorem handleReport_encode (hdata : reading.data = encode version type scale rest)
    (hplace : HasPlace version scale) (hlow : 1 ≤ type) (hhigh : type ≤ 4) (locale : Lconv)
    {values : UInt16 → Bool} (hexists : values (indexOf type scale) = true) :
    Yields (handleReport locale version values reading) fun result =>
      result.map (·.index) = some (indexOf type scale) := by
  obtain ⟨hsecond, hthird⟩ := getD_encode hdata hplace (by omega)
  have hlength := three_le_length hdata
  have hvalue := rest.value_lt
  have hpos := rest.value_pos
  have hrate := rest.rate_lt
  have hscale := hplace.2.1
  have hsize : (CommandClass.headerSize (reading.data.getD 2 0)).toNat = rest.value.length := by
    rw [CommandClass.toNat_headerSize, hthird]
    omega
  have htype : ((reading.data.getD 1 0) &&& 0x1f).toNat = type := by
    rw [toNat_typeBits, typeOf, hsecond]
    omega
  have hscaleNat : (UInt8.ofNat scale).toNat = scale := Nat.mod_eq_of_lt (by omega)
  have hindex : UInt16.ofInt (((type : ℤ) - 1) * 16 + scale) = indexOf type scale := by
    rw [← UInt16.toNat_inj, toNat_indexOf (by omega) (by omega), UInt16.ofInt,
      UInt16.toNat_ofNat']
    omega
  have hknown : (indexOf type scale).toNat < meterTypes.length := by
    have htable : meterTypes.length = 80 := by decide
    rw [toNat_indexOf (by omega) (by omega), htable]
    omega
  rw [handleReport, CommandFrame.read_bind (by omega), hsize, Nat.max_eq_right hpos,
    CommandFrame.readRange_bind (by omega)]
  simp only [getScale_encode hdata hplace (by omega), ok_bind]
  rw [CommandFrame.read_bind (by omega)]
  simp only [htype, hscaleNat, hindex, if_pos hknown]
  rw [if_neg (fun h => h.1 hexists)]
  exact yields_pure.mpr rfl

end Encode

theorem inAgreement (hplace : HasPlace version scale) (hlow : 1 ≤ type) (hhigh : type ≤ 4)
    {values : UInt16 → Bool} (hexists : values (indexOf type scale) = true) :
    InAgreement version type scale values := by
  have hscale := hplace.2.1
  have hindex : (indexOf type scale).toNat = (type - 1) * 16 + scale :=
    toNat_indexOf (by omega) (by omega)
  have hrequest := getCommand_spec hplace (i := (indexOf type scale).toNat) (by omega)
  refine ⟨?_, hrequest.1, hrequest.2, ?_⟩
  · have htable : meterTypes.length = 80 := by decide
    rw [requestedIndexes, List.mem_filter, List.mem_range, htable, UInt16.ofNat_toNat]
    exact ⟨by omega, hexists⟩
  · intro locale rest reading hdata
    exact handleReport_encode hdata hplace hlow hhigh locale hexists

end Scale

/-! ## The whole exchange -/

theorem agrees_cooling {version : UInt8} {f : CommandFrame} (h : typeOf f = 5) :
    Agrees version f ↔ ∀ scale, ¬ Advertises version f scale := by
  rw [Agrees, handleSupportedReport_cooling h, yields_ok]
  constructor
  · rintro ⟨-, hcreated, -⟩ scale hscale
    have hlt := hscale.lt
    have hmem : indexOf 5 scale ∈ createdIndexes none := by
      refine (hcreated _).mpr ⟨scale, hscale, ?_⟩
      rw [h, toNat_indexOf (Nat.le_refl 5) hlt]
    exact absurd hmem (List.not_mem_nil)
  · intro hnone
    refine ⟨List.nodup_nil, fun index => ?_, fun values _ scale hscale => absurd hscale (hnone scale)⟩
    refine iff_of_false List.not_mem_nil ?_
    rintro ⟨scale, hscale, -⟩
    exact hnone scale hscale

theorem agrees_of_supported {version : UInt8} {f : CommandFrame} (hlow : 1 ≤ typeOf f)
    (hhigh : typeOf f ≤ 4) (hread : Readable version f)
    (hscales : ∀ scale, Advertises version f scale → scale < 10) : Agrees version f := by
  rw [Agrees, handleSupportedReport_eq hlow hhigh]
  refine (decodeScale_spec hread).bind fun scales hbits => yields_pure.mpr ?_
  have hmem (index : UInt16) : index ∈ createdIndexes (some (((List.range 10).filter
      scales.toNat.testBit).map (valueOf (typeOf f)), (f.data.getD 1 0) &&& 0x80 ≠ 0)) ↔
      ∃ scale, Advertises version f scale ∧ index.toNat = (typeOf f - 1) * 16 + scale := by
    rw [mem_created hhigh]
    constructor
    · rintro ⟨i, hi, hbit, hindex⟩
      exact ⟨i, (hbits i hi).mp hbit, hindex⟩
    · rintro ⟨i, hset, hindex⟩
      exact ⟨i, hscales i hset, (hbits i (hscales i hset)).mpr hset, hindex⟩
  refine ⟨nodup_created hhigh, hmem, fun values hvalues scale hset => ?_⟩
  have hscale := hscales scale hset
  apply inAgreement (hset.hasPlace hscale) hlow hhigh
  refine hvalues _ ((hmem _).mpr ⟨scale, hset, ?_⟩)
  exact toNat_indexOf (by omega) (by omega)

theorem supported_of_agrees {version : UInt8} {f : CommandFrame} (hlow : 1 ≤ typeOf f)
    (hhigh : typeOf f ≤ 4) (h : Agrees version f) :
    Readable version f ∧ ∀ scale, Advertises version f scale → scale < 10 := by
  rw [Agrees, handleSupportedReport_eq hlow hhigh] at h
  obtain ⟨result, hresult, -, hcreated, -⟩ := h
  obtain ⟨scales, hscales, hresult⟩ := bind_eq_ok.mp hresult
  obtain rfl := ok_eq_ok.mp hresult
  refine ⟨readable_of_decodeScale hscales, fun scale hset => ?_⟩
  have hindex : (indexOf (typeOf f) scale).toNat = (typeOf f - 1) * 16 + scale :=
    toNat_indexOf (by omega) hset.lt
  obtain ⟨i, hi, -, hsame⟩ := (mem_created hhigh).mp ((hcreated _).mpr ⟨scale, hset, hindex⟩)
  omega

theorem scales_agree_iff (version : UInt8) (f : CommandFrame)
    (htype : 1 ≤ typeOf f ∧ typeOf f ≤ 5) : Agrees version f ↔ Supported version f := by
  unfold Supported
  split
  · rename_i hcooling
    exact agrees_cooling hcooling
  · rename_i hother
    have hhigh : typeOf f ≤ 4 := by omega
    constructor
    · exact supported_of_agrees htype.1 hhigh
    · rintro ⟨hread, hscales⟩
      exact agrees_of_supported htype.1 hhigh hread hscales

def coolingReport : CommandFrame where
  data := [cmdSupportedReport, 0x05, 0x01]
  fits := by decide

theorem scales_agree_cooling : Agrees 3 coolingReport ↔ Supported 3 coolingReport :=
  scales_agree_iff 3 coolingReport (by decide)

/-- A cooling meter advertises kWh, and the report is dropped. -/
theorem scales_not_agree : typeOf coolingReport = 5 ∧ Advertises 3 coolingReport 0 ∧
    ¬ Agrees 3 coolingReport := by
  have hset : Advertises 3 coolingReport 0 := by
    rw [Advertises, if_neg (by decide), if_pos rfl]
    decide
  exact ⟨by decide, hset, fun h => (agrees_cooling (by decide)).mp h 0 hset⟩

end Meter

end OpenZWave
