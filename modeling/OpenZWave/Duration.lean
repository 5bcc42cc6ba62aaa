import OpenZWave.CommandClass

/-!
# The duration byte

A duration is one byte: seconds up to `0x7f`, then minutes. `0xFE` stands for an
unknown duration, and `0xFF` is reserved in a report and the default of the device
in a command.
-/

namespace OpenZWave

namespace CommandClass

/-- `decodeDuration`, in seconds. -/
def decodeDuration (data : UInt8) : UInt32 :=
  if data ≤ 0x7f then data.toUInt32
  else if data > 0x7f ∧ data ≤ 0xFD then (data.toUInt32 - 0x7F) * 60
  else 0xFFFFFFFF

/-- `encodeDuration`. -/
def encodeDuration (seconds : UInt32) : UInt8 :=
  if seconds ≤ 0x7f then (seconds &&& 0xFF).toUInt8
  else if seconds > 7620 then 0xFF
  else (0x79 + ((seconds / 60) &&& 0xFF)).toUInt8

/-- The codes that are no durations. -/
def Reserved (code : UInt8) : Prop := code = 0xFE ∨ code = 0xFF

section

variable {seconds seconds' : UInt32} {code : UInt8}

/-! ## What the codes are -/

theorem encodeDuration_of_seconds (h : seconds.toNat ≤ 127) :
    (encodeDuration seconds).toNat = seconds.toNat := by
  have hle : seconds ≤ 0x7f := UInt32.le_iff_toNat_le.mpr h
  have hbits : seconds.toNat &&& 255 = seconds.toNat % 256 := Nat.and_two_pow_sub_one_eq_mod _ 8
  rw [encodeDuration, if_pos hle, UInt32.toNat_toUInt8, UInt32.toNat_and]
  change (seconds.toNat &&& 255) % 256 = _
  omega

theorem encodeDuration_of_minutes (hlow : 128 ≤ seconds.toNat) (hhigh : seconds.toNat ≤ 7620) :
    (encodeDuration seconds).toNat = 0x79 + seconds.toNat / 60 := by
  have hseconds : ¬ seconds ≤ 0x7f := by
    rw [UInt32.le_iff_toNat_le, show (0x7f : UInt32).toNat = 127 from rfl]
    omega
  have hfits : ¬ seconds > 7620 := by
    rw [gt_iff_lt, UInt32.lt_iff_toNat_lt, show (7620 : UInt32).toNat = 7620 from rfl]
    omega
  have hbits : seconds.toNat / 60 &&& 255 = seconds.toNat / 60 % 256 :=
    Nat.and_two_pow_sub_one_eq_mod _ 8
  rw [encodeDuration, if_neg hseconds, if_neg hfits, UInt32.toNat_toUInt8, UInt32.toNat_add,
    UInt32.toNat_and, UInt32.toNat_div]
  change (121 + (seconds.toNat / 60 &&& 255)) % 2 ^ 32 % 256 = _
  omega

theorem decodeDuration_of_seconds (h : code.toNat ≤ 127) :
    (decodeDuration code).toNat = code.toNat := by
  rw [decodeDuration, if_pos (UInt8.le_iff_toNat_le.mpr h), UInt8.toNat_toUInt32]

/-! ## Round trips -/

/-- A duration of at most 127 seconds is kept. -/
theorem decodeDuration_encodeDuration (h : seconds.toNat ≤ 127) :
    decodeDuration (encodeDuration seconds) = seconds := by
  have hcode := encodeDuration_of_seconds h
  apply UInt32.toNat_inj.mp
  rw [decodeDuration_of_seconds (hcode ▸ h), hcode]

theorem encodeDuration_decodeDuration (h : code.toNat ≤ 127) :
    encodeDuration (decodeDuration code) = code := by
  have hseconds := decodeDuration_of_seconds h
  apply UInt8.toNat_inj.mp
  rw [encodeDuration_of_seconds (hseconds ▸ h), hseconds]

/-- One and two minutes are written in seconds again. -/
theorem encodeDuration_decodeDuration_of_minutes (h : code = 0x80 ∨ code = 0x81) :
    (encodeDuration (decodeDuration code)).toNat = (decodeDuration code).toNat := by
  apply encodeDuration_of_seconds
  rcases h with rfl | rfl <;> decide

/-! ## Order -/

/-- A longer duration has no smaller code, where both are in seconds or both in
minutes. -/
theorem encodeDuration_mono (hle : seconds ≤ seconds') (hhigh : seconds'.toNat ≤ 7620)
    (hsame : seconds.toNat ≤ 127 ↔ seconds'.toNat ≤ 127) :
    encodeDuration seconds ≤ encodeDuration seconds' := by
  have horder : seconds.toNat ≤ seconds'.toNat := UInt32.le_iff_toNat_le.mp hle
  rw [UInt8.le_iff_toNat_le]
  by_cases hseconds : seconds.toNat ≤ 127
  · rw [encodeDuration_of_seconds hseconds, encodeDuration_of_seconds (hsame.mp hseconds)]
    exact horder
  · have hminutes : ¬ seconds'.toNat ≤ 127 := fun h => hseconds (hsame.mpr h)
    rw [encodeDuration_of_minutes (by omega) (Nat.le_trans horder hhigh),
      encodeDuration_of_minutes (by omega) hhigh]
    exact Nat.add_le_add_left (Nat.div_le_div_right horder) _

theorem not_reserved_encodeDuration (hhigh : seconds.toNat ≤ 7620) :
    ¬ Reserved (encodeDuration seconds) := by
  have hcode : (encodeDuration seconds).toNat ≤ 248 := by
    by_cases hseconds : seconds.toNat ≤ 127
    · rw [encodeDuration_of_seconds hseconds]
      omega
    · rw [encodeDuration_of_minutes (by omega) hhigh]
      omega
  rintro (h | h) <;> rw [h] at hcode <;> exact absurd hcode (by decide)

end

/-! ## The codec -/

/-- A duration of at most 127 seconds is kept; longer codes mean longer durations,
among those in seconds and among those in minutes; up to 7620 seconds no code is
reserved; and a code in seconds is restored, while one or two minutes are written in
seconds. -/
theorem duration_codec :
    (∀ seconds : UInt32, seconds.toNat ≤ 127 →
      decodeDuration (encodeDuration seconds) = seconds) ∧
    (∀ seconds seconds' : UInt32, seconds ≤ seconds' → seconds'.toNat ≤ 7620 →
      (seconds.toNat ≤ 127 ↔ seconds'.toNat ≤ 127) →
      encodeDuration seconds ≤ encodeDuration seconds') ∧
    (∀ seconds : UInt32, seconds.toNat ≤ 7620 → ¬ Reserved (encodeDuration seconds)) ∧
    (∀ code : UInt8, code.toNat ≤ 127 → encodeDuration (decodeDuration code) = code) ∧
    ∀ code : UInt8, code = 0x80 ∨ code = 0x81 →
      (encodeDuration (decodeDuration code)).toNat = (decodeDuration code).toNat :=
  ⟨fun _ => decodeDuration_encodeDuration, fun _ _ => encodeDuration_mono,
    fun _ => not_reserved_encodeDuration, fun _ => encodeDuration_decodeDuration,
    fun _ => encodeDuration_decodeDuration_of_minutes⟩

/-- One minute is written as 60 seconds, so not every code is restored. -/
theorem duration_codec_minute :
    ¬ ((∀ seconds : UInt32, seconds.toNat ≤ 127 →
          decodeDuration (encodeDuration seconds) = seconds) ∧
        (∀ seconds : UInt32, 128 ≤ seconds.toNat → seconds.toNat ≤ 7620 →
          (decodeDuration (encodeDuration seconds)).toNat = seconds.toNat / 60 * 60) ∧
        (∀ seconds seconds' : UInt32, seconds ≤ seconds' → seconds'.toNat ≤ 7620 →
          encodeDuration seconds ≤ encodeDuration seconds') ∧
        (∀ seconds : UInt32, seconds.toNat ≤ 7620 → ¬ Reserved (encodeDuration seconds)) ∧
        ∀ code : UInt8, ¬ Reserved code → encodeDuration (decodeDuration code) = code) := by
  rintro ⟨-, -, -, -, hrestored⟩
  have hcode := hrestored 0x80 (by rintro (h | h) <;> cases h)
  exact absurd hcode (by decide)

end CommandClass

end OpenZWave
