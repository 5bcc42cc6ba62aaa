import Mathlib.Data.Int.Basic
import Mathlib.Data.List.Basic
import Mathlib.Data.Nat.Basic
import Mathlib.Tactic.IntervalCases
import Mathlib.Tactic.Ring

/-!
# Numbers as text

How the C library writes a number and reads it again: `%d` and `%x` on one side,
`strtol` and `atol` on the other. A text is the list of its characters up to the
terminating zero. `long` has 64 bits; what does not fit is clamped.
-/

namespace NumberText

/-- `c_str`: the characters up to the first zero. -/
def cStr (text : List Char) : List Char := text.takeWhile (· ≠ Char.ofNat 0)

/-! ## Digits -/

/-- The digit that a character stands for, in a base up to sixteen. -/
def digit? (base : ℕ) (c : Char) : Option ℕ :=
  let value :=
    if '0' ≤ c ∧ c ≤ '9' then c.toNat - 48
    else if 'a' ≤ c ∧ c ≤ 'f' then c.toNat - 87
    else if 'A' ≤ c ∧ c ≤ 'F' then c.toNat - 55
    else base
  if value < base then some value else none

/-- The digits in front are read; the result is their value and the rest. -/
def readDigits (base : ℕ) : ℕ → List Char → ℕ × List Char
  | value, [] => (value, [])
  | value, c :: cs =>
      match digit? base c with
      | some d => readDigits base (base * value + d) cs
      | none => (value, c :: cs)

/-- No digit stands in front. -/
def Stops (base : ℕ) (text : List Char) : Prop := ∀ c ∈ text.head?, digit? base c = none

theorem stops_nil (base : ℕ) : Stops base [] := nofun

theorem stops_cons {base : ℕ} {c : Char} {cs : List Char} (h : digit? base c = none) :
    Stops base (c :: cs) := by
  rintro _ ⟨⟩
  exact h

theorem readDigits_of_stops {base value : ℕ} {text : List Char} (h : Stops base text) :
    readDigits base value text = (value, text) := by
  cases text with
  | nil => rfl
  | cons c cs => rw [readDigits, h c rfl]

theorem digit?_digitChar {base d : ℕ} (hbase : base ≤ 16) (hd : d < base) :
    digit? base d.digitChar = some d := by
  have hsmall : d < 16 := hd.trans_le hbase
  rw [digit?]
  interval_cases d <;> simp [Nat.digitChar, hd]

theorem readDigits_digitChar {base d : ℕ} (hbase : base ≤ 16) (hd : d < base) (value : ℕ)
    (cs : List Char) :
    readDigits base value (d.digitChar :: cs) = readDigits base (base * value + d) cs := by
  rw [readDigits, digit?_digitChar hbase hd]

/-- A numeral after the digits of `value` shifts them and adds its own. -/
theorem readDigits_toDigits {base : ℕ} (htwo : 1 < base) (hbase : base ≤ 16) (n value : ℕ)
    (rest : List Char) :
    readDigits base value (Nat.toDigits base n ++ rest) =
      readDigits base (base ^ (Nat.toDigits base n).length * value + n) rest := by
  induction n using Nat.strong_induction_on generalizing value rest with
  | h n ih =>
      rcases Nat.lt_or_ge n base with hlt | hle
      · rw [Nat.toDigits_of_lt_base hlt]
        exact (readDigits_digitChar hbase hlt value rest).trans (by simp)
      · have hless : n / base < n := Nat.div_lt_self (by omega) htwo
        have hdigit : n % base < base := Nat.mod_lt n (by omega)
        rw [Nat.toDigits_of_base_le htwo hle, List.append_assoc, ih _ hless, List.singleton_append,
          readDigits_digitChar hbase hdigit, List.length_append, List.length_singleton]
        congr 1
        calc base * (base ^ (Nat.toDigits base (n / base)).length * value + n / base) + n % base
            = base ^ ((Nat.toDigits base (n / base)).length + 1) * value +
                (base * (n / base) + n % base) := by ring
          _ = base ^ ((Nat.toDigits base (n / base)).length + 1) * value + n := by
              rw [Nat.div_add_mod]

theorem readDigits_numeral {base : ℕ} (htwo : 1 < base) (hbase : base ≤ 16) (n : ℕ)
    {rest : List Char} (hrest : Stops base rest) :
    readDigits base 0 (Nat.toDigits base n ++ rest) = (n, rest) := by
  rw [readDigits_toDigits htwo hbase, mul_zero, zero_add, readDigits_of_stops hrest]

/-- Zeros in front of a numeral do not count. -/
theorem readDigits_zeros {base : ℕ} (hpos : 0 < base) (hbase : base ≤ 16) (k : ℕ)
    (text : List Char) :
    readDigits base 0 (List.replicate k '0' ++ text) = readDigits base 0 text := by
  induction k with
  | zero => rfl
  | succ k ih =>
      have hzero := readDigits_digitChar hbase hpos 0 (List.replicate k '0' ++ text)
      rw [mul_zero, zero_add] at hzero
      exact hzero.trans ih

theorem toDigits_eq_cons {base : ℕ} (htwo : 1 < base) (n : ℕ) :
    ∃ d cs, d < base ∧ Nat.toDigits base n = d.digitChar :: cs := by
  induction n using Nat.strong_induction_on with
  | h n ih =>
      rcases Nat.lt_or_ge n base with hlt | hle
      · exact ⟨n, [], hlt, Nat.toDigits_of_lt_base hlt⟩
      · obtain ⟨d, cs, hd, hcons⟩ := ih (n / base) (Nat.div_lt_self (by omega) htwo)
        refine ⟨d, cs ++ [Nat.digitChar (n % base)], hd, ?_⟩
        rw [Nat.toDigits_of_base_le htwo hle, hcons]
        rfl

/-! ## Writing -/

/-- `%d`. -/
def printInt : ℤ → List Char
  | .ofNat n => Nat.toDigits 10 n
  | .negSucc n => '-' :: Nat.toDigits 10 (n + 1)

/-- Zeros in front, up to a number of digits. -/
def pad (width : ℕ) (digits : List Char) : List Char :=
  List.replicate (width - digits.length) '0' ++ digits

/-- `%0*d`: the sign counts. -/
def printIntPadded (width : ℕ) : ℤ → List Char
  | .ofNat n => pad width (Nat.toDigits 10 n)
  | .negSucc n => '-' :: pad (width - 1) (Nat.toDigits 10 (n + 1))

/-- `%.*x`. -/
def printHex (precision n : ℕ) : List Char := pad precision (Nat.toDigits 16 n)

/-- `%02X` of a byte, and `setw(2)` with `uppercase`, `hex` and `setfill('0')`. -/
def printHexByte (n : ℕ) : List Char := (printHex 2 n).map Char.toUpper

/-! ## Reading -/

/-- `isspace`. -/
def isSpace (c : Char) : Bool := c == ' ' || (decide ('\t' ≤ c) && decide (c ≤ '\r'))

/-- A sign in front, and what follows it. -/
def readSign : List Char → Bool × List Char
  | '-' :: cs => (true, cs)
  | '+' :: cs => (false, cs)
  | cs => (false, cs)

/-- A `0x` is skipped when a digit follows it. -/
def skipHexPrefix : List Char → List Char
  | '0' :: x :: c :: cs =>
      if (x = 'x' ∨ x = 'X') ∧ (digit? 16 c).isSome then c :: cs else '0' :: x :: c :: cs
  | cs => cs

/-- The base of a numeral, which its prefix tells if it is not given. -/
def readBase (base : ℕ) (text : List Char) : ℕ × List Char :=
  if base = 0 then
    if skipHexPrefix text ≠ text then (16, skipHexPrefix text)
    else if text.head? = some '0' then (8, text)
    else (10, text)
  else if base = 16 then (16, skipHexPrefix text)
  else (base, text)

/-- `LONG_MIN` and `LONG_MAX`. -/
def clampLong (i : ℤ) : ℤ := max (-2 ^ 63) (min i (2 ^ 63 - 1))

/-- The number that a sign and digits stand for. -/
def signed (negative : Bool) (n : ℕ) : ℤ := if negative then -n else n

/-- `strtol`: the number, and the text from `endptr` on. Nothing is read when there
is no digit. -/
def strtol (base : ℕ) (text : List Char) : ℤ × List Char :=
  let sign := readSign (text.dropWhile isSpace)
  let numeral := readBase base sign.2
  if numeral.2.head?.bind (digit? numeral.1) = none then (0, text)
  else
    let read := readDigits numeral.1 0 numeral.2
    (clampLong (signed sign.1 read.1), read.2)

/-- `atol`. -/
def atol (text : List Char) : ℤ := (strtol 10 text).1

/-- `atoi`. -/
def atoi (text : List Char) : Int32 := Int32.ofInt (atol text)

/-! ## What is written is read -/

theorem clampLong_of_bounds {i : ℤ} (hlow : -2 ^ 63 ≤ i) (hhigh : i < 2 ^ 63) :
    clampLong i = i := by
  rw [clampLong]
  omega

theorem isSpace_digitChar {d : ℕ} (hd : d < 16) : isSpace d.digitChar = false := by
  interval_cases d <;> rfl

theorem readSign_digitChar {d : ℕ} (hd : d < 16) (cs : List Char) :
    readSign (d.digitChar :: cs) = (false, d.digitChar :: cs) := by
  interval_cases d <;> rfl

/-- A decimal numeral after its sign. -/
theorem strtol_signed {text digits rest : List Char} {negative : Bool} {n : ℕ}
    (hsign : readSign (text.dropWhile isSpace) = (negative, digits))
    (hdigits : digits = Nat.toDigits 10 n ++ rest) (hrest : Stops 10 rest) :
    strtol 10 text = (clampLong (signed negative n), rest) := by
  obtain ⟨d, cs, hd, hcons⟩ := toDigits_eq_cons (Nat.one_lt_succ_succ 8) n
  have hfirst : digits.head?.bind (digit? 10) = some d := by
    rw [hdigits, hcons]
    exact digit?_digitChar (by omega) hd
  have hread : readDigits 10 0 digits = (n, rest) :=
    hdigits ▸ readDigits_numeral (by omega) (by omega) n hrest
  have hbase : readBase 10 digits = (10, digits) := rfl
  simp only [strtol, hsign, hbase, hfirst, reduceCtorEq, if_false, hread]

/-- `%d` is read back. -/
theorem strtol_printInt {i : ℤ} (hlow : -2 ^ 63 ≤ i) (hhigh : i < 2 ^ 63) {rest : List Char}
    (hrest : Stops 10 rest) : strtol 10 (printInt i ++ rest) = (i, rest) := by
  have hclamp := clampLong_of_bounds hlow hhigh
  cases i with
  | ofNat n =>
      obtain ⟨d, cs, hd, hcons⟩ := toDigits_eq_cons (Nat.one_lt_succ_succ 8) n
      have hstart : (printInt (.ofNat n) ++ rest).dropWhile isSpace = Nat.toDigits 10 n ++ rest := by
        rw [printInt, hcons, List.cons_append, List.dropWhile_cons,
          isSpace_digitChar (hd.trans (by omega))]
        rfl
      have hsign : readSign ((printInt (.ofNat n) ++ rest).dropWhile isSpace) =
          (false, Nat.toDigits 10 n ++ rest) := by
        rw [hstart, hcons]
        exact readSign_digitChar (hd.trans (by omega)) _
      rw [strtol_signed hsign rfl hrest]
      exact congrArg (·, rest) hclamp
  | negSucc n =>
      rw [strtol_signed (n := n + 1) rfl rfl hrest]
      exact congrArg (·, rest) hclamp

/-! ## Two digits of a byte -/

/-- A digit of `printHexByte`. -/
def upperDigit (d : ℕ) : Char := d.digitChar.toUpper

theorem printHexByte_eq {n : ℕ} (hbyte : n < 256) :
    printHexByte n = [upperDigit (n / 16), upperDigit (n % 16)] := by
  have hlow : n / 16 < 16 := by omega
  rcases Nat.lt_or_ge n 16 with hlt | hle
  · have hzero : n / 16 = 0 := by omega
    have hself : n % 16 = n := by omega
    rw [printHexByte, printHex, Nat.toDigits_of_lt_base hlt, hzero, hself]
    rfl
  · rw [printHexByte, printHex, Nat.toDigits_of_base_le (by decide) hle, Nat.toDigits_of_lt_base hlow]
    rfl

theorem digit?_upperDigit {d : ℕ} (hd : d < 16) : digit? 16 (upperDigit d) = some d := by
  interval_cases d <;> rfl

theorem isSpace_upperDigit {d : ℕ} (hd : d < 16) : isSpace (upperDigit d) = false := by
  interval_cases d <;> rfl

theorem readSign_upperDigit {d : ℕ} (hd : d < 16) (cs : List Char) :
    readSign (upperDigit d :: cs) = (false, upperDigit d :: cs) := by
  interval_cases d <;> rfl

theorem skipHexPrefix_pair (c d : Char) : skipHexPrefix [c, d] = [c, d] := by
  rw [skipHexPrefix]
  intro _ _ _ h
  simp at h

/-- A byte is read back from its two digits. -/
theorem strtol_printHexByte {n : ℕ} (hbyte : n < 256) : strtol 16 (printHexByte n) = ((n : ℤ), []) := by
  have hhigh : n / 16 < 16 := by omega
  have hlow : n % 16 < 16 := by omega
  have hread : readDigits 16 0 [upperDigit (n / 16), upperDigit (n % 16)] = (n, []) := by
    rw [readDigits, digit?_upperDigit hhigh]
    dsimp only
    rw [readDigits, digit?_upperDigit hlow]
    dsimp only
    rw [readDigits]
    congr 1
    omega
  have hblank : [upperDigit (n / 16), upperDigit (n % 16)].dropWhile isSpace =
      [upperDigit (n / 16), upperDigit (n % 16)] := by
    rw [List.dropWhile_cons, isSpace_upperDigit hhigh]
    rfl
  have hbase : readBase 16 [upperDigit (n / 16), upperDigit (n % 16)] =
      (16, [upperDigit (n / 16), upperDigit (n % 16)]) := by
    rw [readBase, skipHexPrefix_pair]
    rfl
  have hclamp : clampLong (signed false n) = n := clampLong_of_bounds (by rw [signed]; omega) (by rw [signed]; omega)
  rw [printHexByte_eq hbyte, strtol, hblank, readSign_upperDigit hhigh]
  dsimp only
  rw [hbase]
  dsimp only
  rw [List.head?_cons, Option.bind_some, digit?_upperDigit hhigh, hread, if_neg nofun, hclamp]

/-! ## The rest of the text -/

theorem readDigits_suffix (base value : ℕ) (text : List Char) :
    (readDigits base value text).2 <:+ text := by
  induction text generalizing value with
  | nil => exact List.suffix_rfl
  | cons c cs ih =>
      rw [readDigits]
      split
      · exact (ih _).trans (List.suffix_cons c cs)
      · exact List.suffix_rfl

theorem readSign_suffix (text : List Char) : (readSign text).2 <:+ text := by
  rw [readSign.eq_def]
  split
  · exact List.suffix_cons _ _
  · exact List.suffix_cons _ _
  · exact List.suffix_rfl

theorem skipHexPrefix_suffix (text : List Char) : skipHexPrefix text <:+ text := by
  rw [skipHexPrefix.eq_def]
  split
  · split
    · exact (List.suffix_cons _ _).trans (List.suffix_cons _ _)
    · exact List.suffix_rfl
  · exact List.suffix_rfl

theorem readBase_suffix (base : ℕ) (text : List Char) : (readBase base text).2 <:+ text := by
  rw [readBase]
  split
  · split
    · exact skipHexPrefix_suffix text
    · split <;> exact List.suffix_rfl
  · split
    · exact skipHexPrefix_suffix text
    · exact List.suffix_rfl

/-- What `strtol` leaves is the end of the text. -/
theorem strtol_suffix (base : ℕ) (text : List Char) : (strtol base text).2 <:+ text := by
  rw [strtol]
  dsimp only
  split
  · exact List.suffix_rfl
  · exact (readDigits_suffix _ _ _).trans ((readBase_suffix _ _).trans
      ((readSign_suffix _).trans (List.dropWhile_suffix _)))

theorem readDigits_append {base value n : ℕ} {digits : List Char} (text : List Char)
    (h : readDigits base value digits = (n, [])) :
    readDigits base value (digits ++ text) = readDigits base n text := by
  induction digits generalizing value with
  | nil =>
      cases h
      rfl
  | cons c cs ih =>
      rw [readDigits] at h
      rw [List.cons_append, readDigits]
      split at h
      · exact ih h
      · cases h

theorem readSign_append {text : List Char} (hne : text ≠ []) (rest : List Char) :
    readSign (text ++ rest) = ((readSign text).1, (readSign text).2 ++ rest) := by
  obtain ⟨c, cs, rfl⟩ := List.exists_cons_of_ne_nil hne
  by_cases hminus : c = '-'
  · subst hminus
    rfl
  · by_cases hplus : c = '+'
    · subst hplus
      rfl
    · have hnone : ∀ cs : List Char, readSign (c :: cs) = (false, c :: cs) := by
        intro cs
        rw [readSign]
        · exact fun _ h => hminus (List.cons.inj h).1
        · exact fun _ h => hplus (List.cons.inj h).1
      rw [List.cons_append, hnone, hnone]
      rfl

theorem skipHexPrefix_of_ne {c : Char} {cs : List Char} (h : c ≠ '0') :
    skipHexPrefix (c :: cs) = c :: cs := by
  rw [skipHexPrefix]
  rintro x d ds heq
  exact absurd (List.cons.inj heq).1 h

/-- A character that is no digit and no `x` is no part of the prefix of a numeral. -/
theorem skipHexPrefix_append {text : List Char} (hne : text ≠ []) {sep : Char}
    (hdigit : digit? 16 sep = none) (hx : ¬ (sep = 'x' ∨ sep = 'X')) (rest : List Char) :
    skipHexPrefix (text ++ sep :: rest) = skipHexPrefix text ++ sep :: rest := by
  obtain ⟨c, cs, rfl⟩ := List.exists_cons_of_ne_nil hne
  by_cases hzero : c = '0'
  · subst hzero
    match cs with
    | [] =>
        cases rest with
        | nil => rfl
        | cons d ds =>
            change skipHexPrefix ('0' :: sep :: d :: ds) = '0' :: sep :: d :: ds
            rw [skipHexPrefix]
            exact if_neg (fun h => hx h.1)
    | [x] =>
        change skipHexPrefix ('0' :: x :: sep :: rest) = '0' :: x :: sep :: rest
        rw [skipHexPrefix, hdigit]
        exact if_neg (fun h => absurd h.2 (by decide))
    | x :: d :: ds =>
        rw [List.cons_append, List.cons_append, List.cons_append, skipHexPrefix, skipHexPrefix]
        split <;> rfl
  · rw [List.cons_append, skipHexPrefix_of_ne hzero, skipHexPrefix_of_ne hzero]
    rfl

theorem readBase_append {base : ℕ} (hbase : base = 10 ∨ base = 16) {text : List Char}
    (hne : text ≠ []) (rest : List Char) :
    readBase base (text ++ ' ' :: rest) =
      ((readBase base text).1, (readBase base text).2 ++ ' ' :: rest) := by
  rcases hbase with rfl | rfl
  · rfl
  · exact congrArg (Prod.mk 16) (skipHexPrefix_append hne rfl (by decide) rest)

theorem stops_blank {base : ℕ} (hbase : base = 10 ∨ base = 16) (rest : List Char) :
    Stops base (' ' :: rest) := by
  apply stops_cons
  rcases hbase with rfl | rfl <;> rfl

/-- A numeral is read up to a blank that follows it. -/
theorem strtol_append {base : ℕ} {text : List Char} {n : ℤ} (hbase : base = 10 ∨ base = 16)
    (hne : text ≠ []) (h : strtol base text = (n, [])) (rest : List Char) :
    strtol base (text ++ ' ' :: rest) = (n, ' ' :: rest) := by
  rw [strtol] at h
  dsimp only at h
  split at h
  · exact absurd (Prod.mk.inj h).2 hne
  · rename_i hdigit
    obtain ⟨hn, hrest⟩ := Prod.mk.inj h
    have hnumeral : (readBase base (readSign (text.dropWhile isSpace)).2).2 ≠ [] := by
      intro hnil
      rw [hnil] at hdigit
      exact hdigit rfl
    have hsign : (readSign (text.dropWhile isSpace)).2 ≠ [] := fun hnil =>
      hnumeral (List.suffix_nil.mp (hnil ▸ readBase_suffix base _))
    have hspace : text.dropWhile isSpace ≠ [] := fun hnil =>
      hsign (List.suffix_nil.mp (hnil ▸ readSign_suffix _))
    have hfirst : (text ++ ' ' :: rest).dropWhile isSpace = text.dropWhile isSpace ++ ' ' :: rest := by
      rw [List.dropWhile_append, if_neg (by rw [List.isEmpty_iff]; exact hspace)]
    obtain ⟨c, cs, hcons⟩ := List.exists_cons_of_ne_nil hnumeral
    have hhead : ((readBase base (readSign (text.dropWhile isSpace)).2).2 ++ ' ' :: rest).head? =
        (readBase base (readSign (text.dropWhile isSpace)).2).2.head? := by
      rw [hcons]
      rfl
    have hbaseEq : (readBase base (readSign (text.dropWhile isSpace)).2).1 = base := by
      rcases hbase with rfl | rfl <;> rfl
    have hread := readDigits_append (' ' :: rest)
      (Prod.ext rfl hrest : readDigits (readBase base (readSign (text.dropWhile isSpace)).2).1 0
        (readBase base (readSign (text.dropWhile isSpace)).2).2 = (_, []))
    rw [hbaseEq, readDigits_of_stops (stops_blank hbase rest)] at hread
    rw [strtol]
    simp only [hfirst, readSign_append hspace, readBase_append hbase hsign, hhead, hbaseEq]
    rw [hbaseEq] at hdigit hn
    rw [if_neg hdigit, hread, hn]

/-- What follows the character after a number is shorter than the text. -/
theorem length_tail_strtol {base : ℕ} {text : List Char} (h : (strtol base text).2 ≠ []) :
    (strtol base text).2.tail.length < text.length := by
  have hpos := List.length_pos_iff.mpr h
  have hlength := (strtol_suffix base text).length_le
  rw [List.length_tail]
  omega

/-- Conversion to 32 bits. -/
theorem toNat_toUInt32_ofInt (n : ℤ) : ((Int32.ofInt n).toUInt32.toNat : ℤ) = n % 2 ^ 32 := by
  change ((BitVec.ofInt 32 n).toNat : ℤ) = n % 2 ^ 32
  rw [BitVec.toNat_ofInt]
  exact Int.toNat_of_nonneg (Int.emod_nonneg n (by decide))

theorem toUInt8_ofInt (n : ℕ) : (Int32.ofInt n).toUInt32.toUInt8 = UInt8.ofNat n := by
  have hnat := toNat_toUInt32_ofInt n
  apply UInt8.toNat_inj.mp
  rw [UInt32.toNat_toUInt8, UInt8.toNat_ofNat']
  omega

theorem toUInt16_ofInt (n : ℕ) : (Int32.ofInt n).toUInt32.toUInt16 = UInt16.ofNat n := by
  have hnat := toNat_toUInt32_ofInt n
  apply UInt16.toNat_inj.mp
  rw [UInt32.toNat_toUInt16, UInt16.toNat_ofNat']
  omega

theorem toNat_ofInt (i : ℤ) : ((UInt32.ofInt i).toNat : ℤ) = i % 2 ^ 32 := by
  have hnonneg : 0 ≤ i % 2 ^ 32 := Int.emod_nonneg i (by decide)
  have hless : i % 2 ^ 32 < 2 ^ 32 := Int.emod_lt_of_pos i (by decide)
  have hnat : (UInt32.ofInt i).toNat = (i % 2 ^ 32).toNat % 2 ^ 32 := rfl
  omega

/-- An unsigned number that is written as a signed one comes back. -/
theorem ofInt_toInt_toInt32 (value : UInt32) : UInt32.ofInt value.toInt32.toInt = value := by
  have hint : value.toInt32.toInt = (value.toNat : ℤ).bmod (2 ^ 32) :=
    BitVec.toInt_eq_toNat_bmod value.toBitVec
  have hless : value.toNat < 2 ^ 32 := value.toNat_lt
  have hnat := toNat_ofInt value.toInt32.toInt
  have hmod : (value.toNat : ℤ).bmod (2 ^ 32) % (2 ^ 32 : ℕ) = value.toNat % (2 ^ 32 : ℕ) :=
    Int.bmod_emod
  apply UInt32.toNat_inj.mp
  rw [hint] at hnat ⊢
  omega

theorem ofInt_natCast {n : ℕ} (h : n < 2 ^ 32) : UInt32.ofInt n = UInt32.ofNat n := by
  have hnat := toNat_ofInt n
  apply UInt32.toNat_inj.mp
  rw [UInt32.toNat_ofNat_of_lt' h]
  omega

/-! ## Numerals -/

/-- A text that is a numeral as a whole. -/
def Numeral (base : ℕ) (text : List Char) (n : ℤ) : Prop := text ≠ [] ∧ strtol base text = (n, [])

theorem Numeral.unique {base : ℕ} {text : List Char} {n m : ℤ} (hn : Numeral base text n)
    (hm : Numeral base text m) : n = m :=
  (Prod.mk.inj (hn.2.symm.trans hm.2)).1

/-- `%d` writes a numeral. -/
theorem numeral_printInt {i : ℤ} (hlow : -2 ^ 63 ≤ i) (hhigh : i < 2 ^ 63) :
    Numeral 10 (printInt i) i := by
  have hread := strtol_printInt hlow hhigh (stops_nil 10)
  rw [List.append_nil] at hread
  refine ⟨fun hnil => ?_, hread⟩
  cases i with
  | ofNat n => exact Nat.toDigits_ne_nil hnil
  | negSucc n => cases hnil

theorem printHex_eq_cons (precision n : ℕ) :
    ∃ d cs, d < 16 ∧ printHex precision n = d.digitChar :: cs := by
  obtain ⟨d, cs, hd, hcons⟩ := toDigits_eq_cons (Nat.one_lt_succ_succ 14) n
  rw [printHex, pad]
  cases precision - (Nat.toDigits 16 n).length with
  | zero =>
      rw [List.replicate_zero, List.nil_append, hcons]
      exact ⟨d, cs, hd, rfl⟩
  | succ k =>
      rw [List.replicate_succ, List.cons_append]
      exact ⟨0, _, by omega, rfl⟩

theorem readDigits_printHex (precision n : ℕ) :
    readDigits 16 0 (printHex precision n) = (n, []) := by
  have hnumeral := readDigits_numeral (Nat.one_lt_succ_succ 14) le_rfl n (stops_nil 16)
  rw [List.append_nil] at hnumeral
  rw [printHex, pad, readDigits_zeros (by omega) le_rfl, hnumeral]

/-- A hexadecimal number with its prefix is read in base sixteen, also when the prefix tells
the base. -/
theorem numeral_printHex {base : ℕ} (hbase : base = 0 ∨ base = 16) (precision : ℕ) {n : ℕ}
    (hn : n < 2 ^ 63) : Numeral base ('0' :: 'x' :: printHex precision n) n := by
  obtain ⟨d, cs, hd, hcons⟩ := printHex_eq_cons precision n
  have hdigit : (digit? 16 d.digitChar).isSome = true := by
    rw [digit?_digitChar le_rfl hd]
    rfl
  have hread := readDigits_printHex precision n
  have hspace : ('0' :: 'x' :: printHex precision n).dropWhile isSpace =
      '0' :: 'x' :: printHex precision n := rfl
  have hsign : readSign ('0' :: 'x' :: printHex precision n) =
      (false, '0' :: 'x' :: printHex precision n) := rfl
  have hskip : skipHexPrefix ('0' :: 'x' :: printHex precision n) = printHex precision n := by
    rw [hcons, skipHexPrefix, if_pos ⟨Or.inl rfl, hdigit⟩]
  have hprefix : readBase base ('0' :: 'x' :: printHex precision n) =
      (16, printHex precision n) := by
    rcases hbase with rfl | rfl
    · have hshorter : printHex precision n ≠ '0' :: 'x' :: printHex precision n := fun heq => by
        have hlength := congrArg List.length heq
        rw [List.length_cons, List.length_cons] at hlength
        omega
      rw [readBase, if_pos rfl, hskip, if_pos hshorter]
    · exact congrArg (Prod.mk 16) hskip
  have hhead : (printHex precision n).head?.bind (digit? 16) ≠ none := by
    rw [hcons]
    exact fun hnone => absurd (hnone ▸ hdigit : (none : Option ℕ).isSome = true) (by decide)
  have hclamp : clampLong (signed false n) = n :=
    clampLong_of_bounds (by change (-2 ^ 63 : ℤ) ≤ (n : ℤ); omega)
      (by change (n : ℤ) < 2 ^ 63; omega)
  refine ⟨List.cons_ne_nil _ _, ?_⟩
  simp only [strtol, hspace, hsign, hprefix, if_neg hhead, hread, hclamp]

theorem mem_readDigits {base value : ℕ} {text : List Char} {c : Char} (hc : digit? base c = none)
    (h : c ∈ text) : c ∈ (readDigits base value text).2 := by
  induction text generalizing value with
  | nil => cases h
  | cons d ds ih =>
      rw [readDigits]
      split
      · rename_i hd
        rcases List.mem_cons.mp h with rfl | hmem
        · rw [hc] at hd
          cases hd
        · exact ih hmem
      · exact h

theorem skipHexPrefix_of_not_mem {text : List Char} (hx : 'x' ∉ text) (hX : 'X' ∉ text) :
    skipHexPrefix text = text := by
  rw [skipHexPrefix.eq_def]
  split
  · split
    · rename_i x c cs hprefix
      rcases hprefix.1 with rfl | rfl
      · exact absurd (by simp) hx
      · exact absurd (by simp) hX
    · rfl
  · rfl

/-- A hexadecimal number without a prefix. -/
theorem numeral_printHex_plain (precision : ℕ) {n : ℕ} (hn : n < 2 ^ 63) :
    Numeral 16 (printHex precision n) n := by
  obtain ⟨d, cs, hd, hcons⟩ := printHex_eq_cons precision n
  have hread := readDigits_printHex precision n
  have hdigits : ∀ c, digit? 16 c = none → c ∉ printHex precision n := by
    intro c hc hmem
    have hrest := @mem_readDigits 16 0 _ _ hc hmem
    rw [hread] at hrest
    cases hrest
  have hspace : (printHex precision n).dropWhile isSpace = printHex precision n := by
    rw [hcons, List.dropWhile_cons, isSpace_digitChar hd]
    rfl
  have hsign : readSign (printHex precision n) = (false, printHex precision n) := by
    rw [hcons]
    exact readSign_digitChar hd cs
  have hprefix : readBase 16 (printHex precision n) = (16, printHex precision n) :=
    congrArg (Prod.mk 16) (skipHexPrefix_of_not_mem (hdigits _ rfl) (hdigits _ rfl))
  have hhead : (printHex precision n).head?.bind (digit? 16) ≠ none := by
    rw [hcons, List.head?_cons, Option.bind_some, digit?_digitChar le_rfl hd]
    exact Option.some_ne_none d
  have hclamp : clampLong (signed false n) = n :=
    clampLong_of_bounds (by change (-2 ^ 63 : ℤ) ≤ (n : ℤ); omega)
      (by change (n : ℤ) < 2 ^ 63; omega)
  refine ⟨?_, ?_⟩
  · rw [hcons]
    exact List.cons_ne_nil _ _
  · simp only [strtol, hspace, hsign, hprefix, if_neg hhead, hread, hclamp]

theorem mem_dropWhile {p : Char → Bool} {text : List Char} {c : Char} (hc : p c = false)
    (h : c ∈ text) : c ∈ text.dropWhile p := by
  induction text with
  | nil => cases h
  | cons d ds ih =>
      rw [List.dropWhile_cons]
      split
      · rename_i hd
        rcases List.mem_cons.mp h with rfl | hmem
        · rw [hc] at hd
          cases hd
        · exact ih hmem
      · exact h

theorem mem_readSign {text : List Char} {c : Char} (hminus : c ≠ '-') (hplus : c ≠ '+')
    (h : c ∈ text) : c ∈ (readSign text).2 := by
  rw [readSign.eq_def]
  split
  · exact (List.mem_cons.mp h).resolve_left hminus
  · exact (List.mem_cons.mp h).resolve_left hplus
  · exact h

theorem mem_skipHexPrefix {text : List Char} {c : Char} (hzero : c ≠ '0') (hx : c ≠ 'x' ∧ c ≠ 'X')
    (h : c ∈ text) : c ∈ skipHexPrefix text := by
  rw [skipHexPrefix.eq_def]
  split
  · split
    · rename_i x d ds hprefix
      have hmem := (List.mem_cons.mp h).resolve_left hzero
      rcases List.mem_cons.mp hmem with rfl | hrest
      · rcases hprefix.1 with rfl | rfl
        · exact absurd rfl hx.1
        · exact absurd rfl hx.2
      · exact hrest
    · exact h
  · exact h

/-- The terminating zero is no part of a number. -/
theorem zero_mem_strtol {base : ℕ} (hbase : base = 10 ∨ base = 16) {text : List Char}
    (h : Char.ofNat 0 ∈ text) : Char.ofNat 0 ∈ (strtol base text).2 := by
  have hspace := mem_dropWhile (p := isSpace) rfl h
  have hsign := mem_readSign (by decide) (by decide) hspace
  rw [strtol]
  dsimp only
  split
  · exact h
  · rcases hbase with rfl | rfl
    · exact mem_readDigits rfl hsign
    · exact mem_readDigits rfl (mem_skipHexPrefix (by decide) (by decide) hsign)

theorem Numeral.cStr {base : ℕ} (hbase : base = 10 ∨ base = 16) {text : List Char} {n : ℤ}
    (h : Numeral base text n) : cStr text = text := by
  have hplain : ∀ c ∈ text, decide (c ≠ Char.ofNat 0) = true := by
    intro c hc
    apply decide_eq_true
    rintro rfl
    have hmem := zero_mem_strtol hbase hc
    rw [h.2] at hmem
    cases hmem
  rw [NumberText.cStr, ← List.append_nil text, List.takeWhile_append_of_pos hplain]
  rfl

end NumberText
