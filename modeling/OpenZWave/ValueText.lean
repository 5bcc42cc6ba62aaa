import OpenZWave.Lib.DecimalText

/-!
# Values as text

`GetAsString` and `SetFromString` of the integer and raw values. A text is set when the
number in front of it, cut to 32 bits, is within a bound; what follows the number is
not looked at.
-/

namespace OpenZWave

open NumberText DecimalText

/-- What `Value::Set` finds: whether the value is read-only, `SetValue` of its command
class when driver, node and class are there, and the refreshes after a success. -/
structure SetTarget (α σ : Type) where
  readOnly : Bool
  setValue : Option (α → σ → Bool × σ)
  afterSet : σ → σ

/-- `Set` of a value: a copy with the new value is submitted. -/
def SetTarget.set {α σ : Type} (target : SetTarget α σ) (value : α) (state : σ) : Bool × σ :=
  if target.readOnly then (false, state)
  else
    match target.setValue with
    | none => (false, state)
    | some setValue =>
        let res := setValue value state
        if res.1 then (true, target.afterSet res.2) else res

/-- The values of this module; a raw value has a length. -/
inductive TextType
  | byte
  | short
  | int
  | raw (valueLength : UInt8)

/-! ## Raw values -/

/-- `0x%.2x`. -/
def printByte (byte : UInt8) : List Char := '0' :: 'x' :: printHex 2 byte.toNat

/-- `ValueRaw::GetAsString`. -/
def printRaw : List UInt8 → List Char
  | [] => []
  | byte :: bytes => printByte byte ++ bytes.flatMap fun byte => ' ' :: printByte byte

/-- The loop of `ValueRaw::SetFromString`: the index is a byte, and one character is
skipped after each number. -/
def rawLoop (valueLength : UInt8) (p : List Char) (index : UInt8) (value : List UInt8) :
    UInt8 × List UInt8 :=
  let val := UInt32.ofInt (strtol 16 p).1
  if (strtol 16 p).2 = p ∨ val ≥ 256 then (index, value)
  else
    let value := if index < valueLength then value.set index.toNat val.toUInt8 else value
    if (strtol 16 p).2 = [] then (index + 1, value)
    else rawLoop valueLength (strtol 16 p).2.tail (index + 1) value
  termination_by p.length
  decreasing_by exact length_tail_strtol ‹_›

namespace TextType

abbrev Carrier : TextType → Type
  | byte => UInt8
  | short => Int16
  | int => Int32
  | raw _ => List UInt8

/-- `GetAsString`. -/
def getAsString : (type : TextType) → type.Carrier → List Char
  | byte => fun (value : UInt8) => printInt value.toNat
  | short => fun (value : Int16) => printInt value.toInt
  | int => fun (value : Int32) => printInt value.toInt
  | raw _ => printRaw

/-- What `SetFromString` passes to `Set`, if it gets there. -/
def fromString : (type : TextType) → List Char → Option type.Carrier
  | byte => fun text =>
      let val := (atoi (cStr text)).toUInt32
      if val < 256 then some val.toUInt8 else none
  | short => fun text =>
      let val := (atoi (cStr text)).toUInt32
      if val < 32768 then some val.toUInt16.toInt16 else none
  | int => fun text => some (atoi (cStr text))
  | raw valueLength => fun text =>
      let read := rawLoop valueLength (cStr text) 0 (List.replicate valueLength.toNat 0)
      if read.1 ≤ valueLength then some (read.2.take read.1.toNat) else none

/-- `SetFromString`. -/
def setFromString {σ : Type} (type : TextType) (target : SetTarget type.Carrier σ)
    (text : List Char) (state : σ) : Bool × σ :=
  match type.fromString text with
  | some value => target.set value state
  | none => (false, state)

end TextType

/-! ## What a text denotes -/

/-- Numbers of one byte in base sixteen, with blanks between them. -/
inductive RawText : List Char → List UInt8 → Prop
  | empty : RawText [] []
  | last {word : List Char} {byte : UInt8} (h : Numeral 16 word byte.toNat) : RawText word [byte]
  | cons {word text : List Char} {byte next : UInt8} {bytes : List UInt8}
      (h : Numeral 16 word byte.toNat) (rest : RawText text (next :: bytes)) :
      RawText (word ++ ' ' :: text) (byte :: next :: bytes)

namespace TextType

/-- The text is that of a value, as a whole. -/
def Denotes : (type : TextType) → List Char → type.Carrier → Prop
  | byte => fun text (value : UInt8) => Numeral 10 text value.toNat
  | short => fun text (value : Int16) => Numeral 10 text value.toInt
  | int => fun text (value : Int32) => Numeral 10 text value.toInt
  | raw valueLength => fun text value => RawText text value ∧ value.length ≤ valueLength.toNat

/-- What is asked of `SetFromString`: the text of a value sets it, and another text has
no effect. -/
def Exact (type : TextType) (text : List Char) : Prop :=
  ∀ (σ : Type) (target : SetTarget type.Carrier σ) (state : σ),
    (∀ value, type.Denotes text value →
      type.setFromString target text state = target.set value state) ∧
    ((∀ value, ¬ type.Denotes text value) → type.setFromString target text state = (false, state))

/-- What is asked of a value that is printed and set again. -/
def SetsBack (type : TextType) (value : type.Carrier) : Prop :=
  ∀ (σ : Type) (target : SetTarget type.Carrier σ) (state : σ),
    type.setFromString target (type.getAsString value) state = target.set value state

end TextType

/-- The number in front of a text, modulo `2 ^ 32`. -/
def leading (text : List Char) : ℤ := (strtol 10 (cStr text)).1 % 2 ^ 32

/-- How many numbers below 256 stand in front of a text, with any character between
them. -/
def countNumbers (p : List Char) : ℕ :=
  if (strtol 16 p).2 = p ∨ 256 ≤ (strtol 16 p).1 % 2 ^ 32 then 0
  else if (strtol 16 p).2 = [] then 1
  else countNumbers (strtol 16 p).2.tail + 1
  termination_by p.length
  decreasing_by exact length_tail_strtol ‹_›

namespace TextType

/-- The texts that are handled as asked. -/
def Handled : TextType → List Char → Prop
  | byte => fun text => (∃ value, Denotes byte text value) ∨ 256 ≤ leading text
  | short => fun text => (∃ value : Int16, Denotes short text value ∧ 0 ≤ value.toInt) ∨
      (∀ value, ¬ Denotes short text value) ∧ 32768 ≤ leading text
  | int => fun text => ∃ value, Denotes int text value
  | raw valueLength => fun text => (∃ value, Denotes (raw valueLength) text value) ∨
      valueLength.toNat < countNumbers (cStr text) % 256

/-- The values that are set again from their text. -/
def Settable : (type : TextType) → type.Carrier → Prop
  | short => fun (value : Int16) => 0 ≤ value.toInt
  | raw valueLength => fun value => value.length ≤ valueLength.toNat
  | _ => fun _ => True

end TextType

/-! ## What is submitted -/

section

variable {type : TextType} {text : List Char} {value : type.Carrier}

/-- A target that accepts every value and keeps it. -/
def keeping (α : Type) : SetTarget α (List α) where
  readOnly := false
  setValue := some fun value state => (true, value :: state)
  afterSet := id

/-- A value is submitted, to whatever target, exactly if the text is converted to it. -/
theorem submits_iff :
    (∀ (σ : Type) (target : SetTarget type.Carrier σ) (state : σ),
      type.setFromString target text state = target.set value state) ↔
      type.fromString text = some value := by
  constructor
  · intro h
    have hkept := h _ (keeping type.Carrier) []
    rw [TextType.setFromString] at hkept
    cases hsubmitted : type.fromString text with
    | none =>
        rw [hsubmitted] at hkept
        cases hkept
    | some submitted =>
        rw [hsubmitted] at hkept
        cases hkept
        rfl
  · intro h σ target state
    rw [TextType.setFromString, h]

theorem rejects_iff :
    (∀ (σ : Type) (target : SetTarget type.Carrier σ) (state : σ),
      type.setFromString target text state = (false, state)) ↔ type.fromString text = none := by
  constructor
  · intro h
    have hkept := h _ (keeping type.Carrier) []
    rw [TextType.setFromString] at hkept
    cases hsubmitted : type.fromString text with
    | none => rfl
    | some submitted =>
        rw [hsubmitted] at hkept
        cases hkept
  · intro h σ target state
    rw [TextType.setFromString, h]

theorem exact_iff :
    type.Exact text ↔ (∀ value, type.Denotes text value → type.fromString text = some value) ∧
      ((∀ value, ¬ type.Denotes text value) → type.fromString text = none) := by
  constructor
  · intro h
    exact ⟨fun value hvalue => submits_iff.mp fun σ target state => (h σ target state).1 value hvalue,
      fun hnone => rejects_iff.mp fun σ target state => (h σ target state).2 hnone⟩
  · rintro ⟨hvalue, hnone⟩ σ target state
    exact ⟨fun value hdenotes => submits_iff.mpr (hvalue value hdenotes) σ target state,
      fun hno => rejects_iff.mpr (hnone hno) σ target state⟩

end

/-! ## Bytes, shorts and integers -/

theorem atoi_numeral {text : List Char} {n : ℤ} (h : Numeral 10 text n) :
    atoi (cStr text) = Int32.ofInt n := by
  rw [h.cStr (Or.inl rfl), atoi, atol, h.2]

theorem toNat_atoi (text : List Char) :
    ((atoi (cStr text)).toUInt32.toNat : ℤ) = leading text :=
  toNat_toUInt32_ofInt _

theorem toNat_atoi_numeral {text : List Char} {n : ℤ} (h : Numeral 10 text n) :
    ((atoi (cStr text)).toUInt32.toNat : ℤ) = n % 2 ^ 32 := by
  rw [atoi_numeral h]
  exact toNat_toUInt32_ofInt n

theorem fromString_byte {text : List Char} {value : UInt8}
    (h : TextType.Denotes .byte text value) : TextType.fromString .byte text = some value := by
  have hbyte := value.toNat_lt
  have hval := toNat_atoi_numeral h
  have hless : (atoi (cStr text)).toUInt32 < 256 :=
    UInt32.lt_iff_toNat_lt.mpr (by change _ < 256; omega)
  refine (if_pos hless).trans (congrArg some (UInt8.toNat_inj.mp ?_))
  rw [UInt32.toNat_toUInt8]
  omega

theorem fromString_byte_none (text : List Char) :
    TextType.fromString .byte text = none ↔ 256 ≤ leading text := by
  have hval := toNat_atoi text
  have hless : (atoi (cStr text)).toUInt32 < 256 ↔ (atoi (cStr text)).toUInt32.toNat < 256 :=
    UInt32.lt_iff_toNat_lt
  simp only [TextType.fromString, hless, ite_eq_right_iff, reduceCtorEq, imp_false]
  omega

theorem fromString_short {text : List Char} {value : Int16}
    (h : TextType.Denotes .short text value) :
    TextType.fromString .short text = if 0 ≤ value.toInt then some value else none := by
  have hlow := value.le_toInt
  have hhigh := value.toInt_lt
  have hval := toNat_atoi_numeral h
  have hless : (atoi (cStr text)).toUInt32 < 32768 ↔ (atoi (cStr text)).toUInt32.toNat < 32768 :=
    UInt32.lt_iff_toNat_lt
  have hpositive : (atoi (cStr text)).toUInt32 < 32768 ↔ 0 ≤ value.toInt := by
    rw [hless]
    omega
  simp only [TextType.fromString, hpositive]
  split
  · refine congrArg some (Int16.toInt_inj.mp ?_)
    have hcond := BitVec.toInt_eq_toNat_cond (atoi (cStr text)).toUInt32.toUInt16.toBitVec
    change (atoi (cStr text)).toUInt32.toUInt16.toInt16.toInt =
      if 2 * (atoi (cStr text)).toUInt32.toUInt16.toNat < 65536 then _ else _ at hcond
    rw [hcond, if_pos]
    · change (((atoi (cStr text)).toUInt32.toUInt16.toNat : ℕ) : ℤ) = _
      rw [UInt32.toNat_toUInt16]
      omega
    · rw [UInt32.toNat_toUInt16]
      omega
  · rfl

theorem fromString_short_none (text : List Char) :
    TextType.fromString .short text = none ↔ 32768 ≤ leading text := by
  have hval := toNat_atoi text
  have hless : (atoi (cStr text)).toUInt32 < 32768 ↔ (atoi (cStr text)).toUInt32.toNat < 32768 :=
    UInt32.lt_iff_toNat_lt
  simp only [TextType.fromString, hless, ite_eq_right_iff, reduceCtorEq, imp_false]
  omega

theorem fromString_int {text : List Char} {value : Int32}
    (h : TextType.Denotes .int text value) : TextType.fromString .int text = some value := by
  change some (atoi (cStr text)) = _
  rw [atoi_numeral h, Int32.ofInt_toInt]

/-! ## Raw values -/

theorem toNat_ofInt (n : ℤ) : ((UInt32.ofInt n).toNat : ℤ) = n % 2 ^ 32 := by
  change (((n % 2 ^ 32).toNat % 2 ^ 32 : ℕ) : ℤ) = _
  omega

theorem rejected_iff (n : ℤ) : UInt32.ofInt n ≥ 256 ↔ 256 ≤ n % 2 ^ 32 := by
  rw [ge_iff_le, UInt32.le_iff_toNat_le, ← toNat_ofInt n]
  exact Int.ofNat_le.symm

/-- The index counts the numbers, modulo its width. -/
theorem toNat_rawLoop (valueLength : UInt8) (p : List Char) (index : UInt8) (value : List UInt8) :
    (rawLoop valueLength p index value).1.toNat = (index.toNat + countNumbers p) % 256 := by
  have hstep : ∀ index : UInt8, (index + 1).toNat = (index.toNat + 1) % 256 := fun index =>
    UInt8.toNat_add index 1
  fun_induction countNumbers p generalizing index value with
  | case1 p hstop =>
      rw [← rejected_iff] at hstop
      rw [rawLoop, if_pos hstop]
      exact (Nat.mod_eq_of_lt index.toNat_lt).symm
  | case2 p hgo hend =>
      rw [← rejected_iff] at hgo
      rw [rawLoop, if_neg hgo]
      dsimp only
      rw [if_pos hend]
      exact hstep index
  | case3 p hgo hmore ih =>
      rw [← rejected_iff] at hgo
      rw [rawLoop, if_neg hgo]
      dsimp only
      rw [if_neg hmore, ih, hstep]
      omega

/-- A number that is read is stored at the index. -/
theorem rawLoop_number {valueLength : UInt8} {p : List Char} {byte : UInt8} {rest : List Char}
    (index : UInt8) (value : List UInt8) (hne : rest ≠ p) (h : strtol 16 p = ((byte.toNat : ℤ), rest))
    (hindex : index < valueLength) :
    rawLoop valueLength p index value =
      if rest = [] then (index + 1, value.set index.toNat byte)
      else rawLoop valueLength rest.tail (index + 1) (value.set index.toNat byte) := by
  have hbyte := byte.toNat_lt
  have hstop : ¬ ((strtol 16 p).2 = p ∨ UInt32.ofInt (strtol 16 p).1 ≥ 256) := by
    rw [rejected_iff, h]
    rintro (heq | hlarge)
    · exact hne heq
    · change 256 ≤ ((byte.toNat : ℕ) : ℤ) % 2 ^ 32 at hlarge
      omega
  have hval : (UInt32.ofInt (strtol 16 p).1).toUInt8 = byte := by
    have hnat := toNat_ofInt (strtol 16 p).1
    rw [h] at hnat ⊢
    apply UInt8.toNat_inj.mp
    rw [UInt32.toNat_toUInt8]
    omega
  rw [rawLoop, if_neg hstop]
  dsimp only
  rw [if_pos hindex, hval, h]

theorem take_set_succ {values : List UInt8} {i : ℕ} (hi : i < values.length) (byte : UInt8) :
    (values.set i byte).take (i + 1) = values.take i ++ [byte] := by
  rw [List.set_eq_take_append_cons_drop, if_pos hi, List.take_append, List.take_take,
    List.length_take, Nat.min_eq_left hi.le, Nat.min_eq_right (Nat.le_succ i), Nat.add_sub_cancel_left]
  rfl

/-- The bytes of a text are stored from the index on, as long as there is room. -/
theorem rawLoop_rawText {valueLength : UInt8} {p : List Char} {bytes : List UInt8}
    (h : RawText p bytes) {index : UInt8} {value : List UInt8}
    (hlength : value.length = valueLength.toNat)
    (hroom : index.toNat + bytes.length ≤ valueLength.toNat) :
    (rawLoop valueLength p index value).1.toNat = index.toNat + bytes.length ∧
      (rawLoop valueLength p index value).2.take (index.toNat + bytes.length) =
        value.take index.toNat ++ bytes := by
  have hbyte := valueLength.toNat_lt
  have hnext : ∀ index : UInt8, index.toNat < valueLength.toNat →
      (index + 1).toNat = index.toNat + 1 := by
    intro index hless
    exact (UInt8.toNat_add index 1).trans (Nat.mod_eq_of_lt (by change index.toNat + 1 < 256; omega))
  induction h generalizing index value with
  | empty =>
      have hstop : rawLoop valueLength [] index value = (index, value) := by
        rw [rawLoop]
        exact if_pos (Or.inl rfl)
      rw [hstop, List.append_nil]
      exact ⟨rfl, rfl⟩
  | last hword =>
      have hless : index.toNat < valueLength.toNat := hroom
      have hstored := rawLoop_number index value hword.1.symm hword.2 (UInt8.lt_iff_toNat_lt.mpr hless)
      rw [if_pos rfl] at hstored
      rw [hstored]
      exact ⟨hnext index hless, take_set_succ (hlength ▸ hless) _⟩
  | @cons word text byte next bytes hword hrest ih =>
      have hless : index.toNat < valueLength.toNat := by
        rw [List.length_cons] at hroom
        omega
      have hsplit := strtol_append (Or.inr rfl) hword.1 hword.2 text
      have hne : ' ' :: text ≠ word ++ ' ' :: text := by
        intro heq
        have hlengths := congrArg List.length heq
        rw [List.length_append] at hlengths
        have hpos := List.length_pos_iff.mpr hword.1
        omega
      have hstored := rawLoop_number index value hne hsplit (UInt8.lt_iff_toNat_lt.mpr hless)
      rw [if_neg (List.cons_ne_nil _ _), List.tail_cons] at hstored
      have hroom' : (index + 1).toNat + (next :: bytes).length ≤ valueLength.toNat := by
        rw [hnext index hless]
        rw [List.length_cons] at hroom
        omega
      have hlength' : (value.set index.toNat byte).length = valueLength.toNat :=
        List.length_set.trans hlength
      obtain ⟨hindex, hvalue⟩ := ih hlength' hroom'
      rw [hnext index hless] at hindex hvalue
      have hcount : index.toNat + (byte :: next :: bytes).length =
          index.toNat + 1 + (next :: bytes).length := by
        simp only [List.length_cons]
        omega
      rw [hstored, hindex, hcount, hvalue, take_set_succ (hlength ▸ hless), List.append_assoc]
      exact ⟨rfl, rfl⟩

theorem RawText.cStr {text : List Char} {bytes : List UInt8} (h : RawText text bytes) :
    cStr text = text := by
  induction h with
  | empty => rfl
  | last hword => exact hword.cStr (Or.inr rfl)
  | cons hword hrest ih =>
      have hfirst := List.takeWhile_eq_self_iff.mp (hword.cStr (Or.inr rfl))
      have hsecond := List.takeWhile_eq_self_iff.mp ih
      apply List.takeWhile_eq_self_iff.mpr
      intro c hc
      rcases List.mem_append.mp hc with hmem | hmem
      · exact hfirst c hmem
      · rcases List.mem_cons.mp hmem with rfl | hmem
        · rfl
        · exact hsecond c hmem

theorem fromString_raw {valueLength : UInt8} {text : List Char} {value : List UInt8}
    (h : TextType.Denotes (.raw valueLength) text value) :
    TextType.fromString (.raw valueLength) text = some value := by
  obtain ⟨htext, hlength⟩ := h
  have hzero : (0 : UInt8).toNat + value.length ≤ valueLength.toNat := by
    rw [UInt8.toNat_zero, Nat.zero_add]
    exact hlength
  have hfresh : (List.replicate valueLength.toNat (0 : UInt8)).length = valueLength.toNat :=
    List.length_replicate
  obtain ⟨hindex, hvalue⟩ := rawLoop_rawText htext hfresh hzero
  rw [UInt8.toNat_zero, Nat.zero_add] at hindex hvalue
  simp only [TextType.fromString, htext.cStr, UInt8.le_iff_toNat_le, hindex, if_pos hlength, hvalue]
  rfl

theorem fromString_raw_none (valueLength : UInt8) (text : List Char) :
    TextType.fromString (.raw valueLength) text = none ↔
      valueLength.toNat < countNumbers (cStr text) % 256 := by
  have hindex := toNat_rawLoop valueLength (cStr text) 0 (List.replicate valueLength.toNat 0)
  rw [UInt8.toNat_zero, Nat.zero_add] at hindex
  simp only [TextType.fromString, UInt8.le_iff_toNat_le, hindex, ite_eq_right_iff, reduceCtorEq,
    imp_false]
  omega

/-! ## Printed values -/

theorem numeral_printByte (byte : UInt8) : Numeral 16 (printByte byte) byte.toNat := by
  have hbyte := byte.toNat_lt
  exact numeral_printHex (Or.inr rfl) 2 (by omega)

theorem rawText_printRaw (value : List UInt8) : RawText (printRaw value) value := by
  induction value with
  | nil => exact .empty
  | cons byte bytes ih =>
      cases bytes with
      | nil =>
          have hlast : printRaw [byte] = printByte byte := List.append_nil _
          rw [hlast]
          exact .last (numeral_printByte byte)
      | cons next bytes => exact .cons (numeral_printByte byte) ih

namespace TextType

theorem denotes_byte (value : UInt8) : Denotes .byte (getAsString .byte value) value := by
  have hbyte := value.toNat_lt
  exact numeral_printInt (i := (value.toNat : ℤ)) (by omega) (by omega)

theorem denotes_short (value : Int16) : Denotes .short (getAsString .short value) value := by
  have hlow := value.le_toInt
  have hhigh := value.toInt_lt
  exact numeral_printInt (i := value.toInt) (by omega) (by omega)

theorem denotes_int (value : Int32) : Denotes .int (getAsString .int value) value := by
  have hlow := value.le_toInt
  have hhigh := value.toInt_lt
  exact numeral_printInt (i := value.toInt) (by omega) (by omega)

/-! ## Every type -/

theorem length_fromString_raw {valueLength : UInt8} {text : List Char} {value : List UInt8}
    (h : fromString (.raw valueLength) text = some value) : value.length ≤ valueLength.toNat := by
  simp only [fromString] at h
  split at h
  · rename_i hle
    obtain rfl := Option.some.inj h
    exact (List.length_take_le _ _).trans (UInt8.le_iff_toNat_le.mp hle)
  · cases h

/-- A printed value is set again, unless it is a negative short, or longer than the raw
value may be. -/
theorem setsBack_iff (type : TextType) (value : type.Carrier) :
    type.SetsBack value ↔ type.Settable value := by
  refine Iff.trans submits_iff ?_
  cases type with
  | byte => exact iff_of_true (fromString_byte (denotes_byte value)) trivial
  | short =>
      rw [fromString_short (denotes_short value)]
      change _ ↔ 0 ≤ Int16.toInt value
      split
      · rename_i hpositive
        exact iff_of_true rfl hpositive
      · rename_i hnegative
        exact iff_of_false nofun hnegative
  | int => exact iff_of_true (fromString_int (denotes_int value)) trivial
  | raw valueLength =>
      exact ⟨length_fromString_raw, fun h => fromString_raw ⟨rawText_printRaw value, h⟩⟩

/-- Where the text of a value is always converted to it, only other texts can go wrong. -/
theorem exact_of_converts {type : TextType} {text : List Char}
    (h : ∀ value, type.Denotes text value → type.fromString text = some value) :
    type.Exact text ↔ (∃ value, type.Denotes text value) ∨ type.fromString text = none := by
  rw [exact_iff]
  constructor
  · rintro ⟨-, hnone⟩
    by_cases hvalue : ∃ value, type.Denotes text value
    · exact Or.inl hvalue
    · exact Or.inr (hnone (not_exists.mp hvalue))
  · rintro (⟨value, hvalue⟩ | hnone)
    · exact ⟨h, fun hno => absurd hvalue (hno value)⟩
    · exact ⟨h, fun _ => hnone⟩

theorem exact_short (text : List Char) : Exact .short text ↔ Handled .short text := by
  rw [exact_iff]
  change _ ↔ (∃ value : Int16, Denotes .short text value ∧ 0 ≤ value.toInt) ∨
    (∀ value, ¬ Denotes .short text value) ∧ 32768 ≤ leading text
  constructor
  · rintro ⟨hvalue, hnone⟩
    by_cases hdenotes : ∃ value, Denotes .short text value
    · obtain ⟨value, hdenotes⟩ := hdenotes
      have hset := hvalue value hdenotes
      rw [fromString_short hdenotes] at hset
      split at hset
      · rename_i hpositive
        exact Or.inl ⟨value, hdenotes, hpositive⟩
      · cases hset
    · have hno := not_exists.mp hdenotes
      exact Or.inr ⟨hno, (fromString_short_none text).mp (hnone hno)⟩
  · rintro (⟨value, hdenotes, hpositive⟩ | ⟨hno, hlarge⟩)
    · refine ⟨fun other hother => ?_, fun hno => absurd hdenotes (hno value)⟩
      have hsame : other = value := Int16.toInt_inj.mp (Numeral.unique hother hdenotes)
      rw [hsame, fromString_short hdenotes, if_pos hpositive]
    · exact ⟨fun value hvalue => absurd hvalue (hno value),
        fun _ => (fromString_short_none text).mpr hlarge⟩

/-- `SetFromString` does with a text what is asked of it exactly if the text is handled. -/
theorem exact_iff_handled (type : TextType) (text : List Char) :
    type.Exact text ↔ type.Handled text := by
  cases type with
  | byte =>
      rw [exact_of_converts fun _ h => fromString_byte h, fromString_byte_none]
      rfl
  | short => exact exact_short text
  | int =>
      rw [exact_of_converts fun _ h => fromString_int h]
      exact or_iff_left nofun
  | raw valueLength =>
      rw [exact_of_converts fun _ h => fromString_raw h, fromString_raw_none]
      rfl

/-- When values are set from text as asked. -/
theorem setFromString_iff (type : TextType) :
    (∀ value : type.Carrier, type.SetsBack value ↔ type.Settable value) ∧
      ∀ text : List Char, type.Exact text ↔ type.Handled text :=
  ⟨setsBack_iff type, exact_iff_handled type⟩

/-- Minus five is not set from its text. -/
theorem not_setsBack_minusFive : ¬ SetsBack .short (-5 : Int16) := by
  intro h
  have hpositive : 0 ≤ (-5 : Int16).toInt := (setsBack_iff .short (-5 : Int16)).mp h
  exact absurd hpositive (by decide)

end TextType

end OpenZWave
