import Mathlib.Data.List.TakeWhile
import OpenZWave.Lib.NumberText

/-!
# Decimal numerals

A decimal numeral is a sign, digits, and perhaps a point and more digits. It denotes
an integer, its digits without the point, scaled by the number of digits behind the
point.
-/

namespace DecimalText

open NumberText

/-- The scaled integer that a decimal numeral denotes, and its number of decimal
places. -/
def readDecimal (isPoint : Char → Bool) (text : List Char) : Option (ℤ × ℕ) :=
  let sign := readSign text
  let whole := sign.2.takeWhile Char.isDigit
  match sign.2.dropWhile Char.isDigit with
  | [] => if whole = [] then none else some (signed sign.1 (Nat.ofDigitChars 10 whole 0), 0)
  | c :: fraction =>
      if isPoint c = true ∧ fraction.all Char.isDigit = true ∧ whole ++ fraction ≠ [] then
        some (signed sign.1 (Nat.ofDigitChars 10 (whole ++ fraction) 0), fraction.length)
      else none

/-- The minus sign of a negative numeral. -/
def minus (negative : Bool) : List Char := if negative then ['-'] else []

section

variable {whole fraction : List Char}

theorem readSign_minus (negative : Bool) {digit : Char} (rest : List Char)
    (hdigit : digit.isDigit = true) :
    readSign (minus negative ++ digit :: rest) = (negative, digit :: rest) := by
  cases negative with
  | true => rfl
  | false =>
      change readSign (digit :: rest) = _
      rw [readSign]
      · rintro cs h
        cases h
        exact absurd hdigit (by decide)
      · rintro cs h
        cases h
        exact absurd hdigit (by decide)

theorem readDecimal_point {isPoint : Char → Bool} (negative : Bool) {point : Char}
    (hpoint : isPoint point = true) (hplain : point.isDigit = false) (hne : whole ≠ [])
    (hwhole : ∀ c ∈ whole, c.isDigit = true) (hfraction : ∀ c ∈ fraction, c.isDigit = true) :
    readDecimal isPoint (minus negative ++ (whole ++ point :: fraction)) =
      some (signed negative (Nat.ofDigitChars 10 (whole ++ fraction) 0), fraction.length) := by
  obtain ⟨digit, rest, rfl⟩ := List.exists_cons_of_ne_nil hne
  have hsign := readSign_minus negative (rest ++ point :: fraction)
    (hwhole digit List.mem_cons_self)
  have htake : (digit :: rest ++ point :: fraction).takeWhile Char.isDigit = digit :: rest := by
    rw [List.takeWhile_append_of_pos hwhole, List.takeWhile_cons_of_neg (by rw [hplain]; simp),
      List.append_nil]
  have hdrop : (digit :: rest ++ point :: fraction).dropWhile Char.isDigit = point :: fraction := by
    rw [List.dropWhile_append_of_pos hwhole, List.dropWhile_cons_of_neg (by rw [hplain]; simp)]
  rw [← List.cons_append] at hsign
  simp only [readDecimal, hsign, htake, hdrop, hpoint, List.all_eq_true.mpr hfraction, true_and]
  exact if_pos (List.cons_ne_nil _ _)

theorem readDecimal_whole (isPoint : Char → Bool) (negative : Bool) (hne : whole ≠ [])
    (hwhole : ∀ c ∈ whole, c.isDigit = true) :
    readDecimal isPoint (minus negative ++ whole) =
      some (signed negative (Nat.ofDigitChars 10 whole 0), 0) := by
  obtain ⟨digit, rest, rfl⟩ := List.exists_cons_of_ne_nil hne
  have hsign := readSign_minus negative rest (hwhole digit List.mem_cons_self)
  have htake : (digit :: rest).takeWhile Char.isDigit = digit :: rest :=
    List.takeWhile_eq_self_iff.mpr hwhole
  have hdrop : (digit :: rest).dropWhile Char.isDigit = [] := List.dropWhile_eq_nil_iff.mpr hwhole
  simp only [readDecimal, hsign, htake, hdrop]
  rw [if_neg (List.cons_ne_nil _ _)]

/-! ## Digits -/

theorem isDigit_of_mem_pad {width n : ℕ} : ∀ c ∈ pad width (Nat.toDigits 10 n),
    c.isDigit = true := by
  intro c hc
  rcases List.mem_append.mp hc with hzero | hdigit
  · rw [List.eq_of_mem_replicate hzero]
    rfl
  · exact Nat.isDigit_of_mem_toDigits (by decide) (by decide) hdigit

theorem ofDigitChars_pad (width n : ℕ) :
    Nat.ofDigitChars 10 (pad width (Nat.toDigits 10 n)) 0 = n := by
  rw [pad, Nat.ofDigitChars_append, Nat.ofDigitChars_replicate_zero, Nat.mul_zero,
    Nat.ofDigitChars_ten_toDigits]

theorem length_pad {width : ℕ} {digits : List Char} (h : digits.length ≤ width) :
    (pad width digits).length = width := by
  rw [pad, List.length_append, List.length_replicate]
  omega

/-- Zeros in front of digits may be left out. -/
theorem ofDigitChars_drop_zeros {digits : List Char} {k : ℕ}
    (h : ∀ c ∈ digits.take k, c = '0') :
    Nat.ofDigitChars 10 (digits.drop k) 0 = Nat.ofDigitChars 10 digits 0 := by
  have hzeros : digits.take k = List.replicate (digits.take k).length '0' :=
    List.eq_replicate_of_mem h
  calc Nat.ofDigitChars 10 (digits.drop k) 0
      = Nat.ofDigitChars 10 (digits.drop k) (Nat.ofDigitChars 10 (digits.take k) 0) := by
        rw [hzeros, Nat.ofDigitChars_replicate_zero, Nat.mul_zero]
    _ = Nat.ofDigitChars 10 digits 0 := by
        rw [← Nat.ofDigitChars_append, List.take_append_drop]

/-! ## Integers -/

theorem printInt_eq (i : ℤ) :
    printInt i = minus (decide (i < 0)) ++ Nat.toDigits 10 i.natAbs := by
  cases i with
  | ofNat n =>
      rw [decide_eq_false (Int.not_lt.mpr (Int.natCast_nonneg n) : ¬ Int.ofNat n < 0)]
      rfl
  | negSucc n =>
      rw [decide_eq_true (Int.negSucc_lt_zero n)]
      rfl

theorem signed_natAbs (i : ℤ) : signed (decide (i < 0)) i.natAbs = i := by
  by_cases hi : i < 0
  · rw [decide_eq_true hi, signed, if_pos rfl]
    omega
  · rw [decide_eq_false hi, signed, if_neg Bool.false_ne_true]
    omega

theorem readDecimal_printInt (isPoint : Char → Bool) (i : ℤ) :
    readDecimal isPoint (printInt i) = some (i, 0) := by
  have hdigits : ∀ c ∈ Nat.toDigits 10 i.natAbs, c.isDigit = true :=
    fun c hc => Nat.isDigit_of_mem_toDigits (by decide) (by decide) hc
  rw [printInt_eq, readDecimal_whole isPoint _ Nat.toDigits_ne_nil hdigits,
    Nat.ofDigitChars_ten_toDigits, signed_natAbs]

/-! ## Numerals that are read -/

theorem isDigit_bounds {c : Char} (h : c.isDigit = true) : '0' ≤ c ∧ c ≤ '9' := by
  rw [Char.isDigit, Bool.and_eq_true, decide_eq_true_iff, decide_eq_true_iff] at h
  exact h

theorem isSpace_of_isDigit {c : Char} (h : c.isDigit = true) : isSpace c = false := by
  obtain ⟨hlow, -⟩ := isDigit_bounds h
  have hspace : c ≠ ' ' := by
    rintro rfl
    exact absurd hlow (by decide)
  have hreturn : ¬ c ≤ '\r' := fun hle => absurd (Char.le_trans hlow hle) (by decide)
  simp [isSpace, hspace, hreturn]

theorem digit?_of_isDigit {c : Char} (h : c.isDigit = true) :
    digit? 10 c = some (c.toNat - '0'.toNat) := by
  obtain ⟨hlow, hhigh⟩ := isDigit_bounds h
  have hvalue : c.toNat ≤ '9'.toNat := hhigh
  have hless : c.toNat - 48 < 10 := by
    change c.toNat ≤ 57 at hvalue
    omega
  simp only [digit?, if_pos (And.intro hlow hhigh), if_pos hless]
  rfl

/-- The sign in front can be told from the digits. -/
theorem readSign_parts (text : List Char) :
    ∃ sign : List Char, text = sign ++ (readSign text).2 ∧ (∀ c ∈ sign, c = '-' ∨ c = '+') ∧
      ∀ digits : List Char, (∀ c ∈ digits, c.isDigit = true) →
        readSign ((sign ++ digits).dropWhile isSpace) = ((readSign text).1, digits) := by
  have hplain : ∀ digits : List Char, (∀ c ∈ digits, c.isDigit = true) →
      readSign (([] ++ digits).dropWhile isSpace) = (false, digits) := by
    intro digits hdigits
    cases digits with
    | nil => rfl
    | cons c cs =>
        have hdigit := hdigits c List.mem_cons_self
        rw [List.nil_append, List.dropWhile_cons_of_neg (by simp [isSpace_of_isDigit hdigit])]
        exact readSign_minus false cs hdigit
  cases text with
  | nil => exact ⟨[], rfl, List.forall_mem_nil _, hplain⟩
  | cons c cs =>
      by_cases hminus : c = '-'
      · subst hminus
        exact ⟨['-'], rfl, by simp, fun _ _ => rfl⟩
      · by_cases hplus : c = '+'
        · subst hplus
          exact ⟨['+'], rfl, by simp, fun _ _ => rfl⟩
        · have hnone : readSign (c :: cs) = (false, c :: cs) := by
            rw [readSign]
            · exact fun _ h => hminus (List.cons.inj h).1
            · exact fun _ h => hplus (List.cons.inj h).1
          rw [hnone]
          exact ⟨[], rfl, List.forall_mem_nil _, hplain⟩

/-- The parts of a numeral that denotes a number. -/
theorem readDecimal_parts {isPoint : Char → Bool} {text : List Char} {n : ℤ} {places : ℕ}
    (hread : readDecimal isPoint text = some (n, places)) :
    ∃ whole fraction : List Char, (∀ c ∈ whole ++ fraction, c.isDigit = true) ∧
      whole ++ fraction ≠ [] ∧ places = fraction.length ∧
      n = signed (readSign text).1 (Nat.ofDigitChars 10 (whole ++ fraction) 0) ∧
      ((readSign text).2 = whole ∧ fraction = [] ∨
        ∃ point, isPoint point = true ∧ (readSign text).2 = whole ++ point :: fraction) := by
  have hsplit := List.takeWhile_append_dropWhile (p := Char.isDigit) (l := (readSign text).2)
  have hdigits : ∀ c ∈ (readSign text).2.takeWhile Char.isDigit, c.isDigit = true :=
    fun c hc => List.mem_takeWhile_imp hc
  simp only [readDecimal] at hread
  split at hread
  · rename_i hnil
    split at hread
    · cases hread
    · rename_i hne
      cases hread
      refine ⟨_, [], by simpa using hdigits, by simpa using hne, rfl, by rw [List.append_nil],
        Or.inl ⟨?_, rfl⟩⟩
      rw [hnil, List.append_nil] at hsplit
      exact hsplit.symm
  · rename_i point fraction hcons
    split at hread
    · rename_i hpoint
      cases hread
      obtain ⟨hpoint, hfraction, hne⟩ := hpoint
      refine ⟨_, fraction, ?_, hne, rfl, rfl, Or.inr ⟨point, hpoint, ?_⟩⟩
      · intro c hc
        rcases List.mem_append.mp hc with hwhole | hrest
        · exact hdigits c hwhole
        · exact List.all_eq_true.mp hfraction c hrest
      · rw [hcons] at hsplit
        exact hsplit.symm
    · cases hread

theorem readDigits_isDigit {digits : List Char} (h : ∀ c ∈ digits, c.isDigit = true) (n : ℕ) :
    readDigits 10 n digits = (Nat.ofDigitChars 10 digits n, []) := by
  induction digits generalizing n with
  | nil => rfl
  | cons c digits ih =>
      obtain ⟨hdigit, hdigits⟩ := List.forall_mem_cons.mp h
      rw [readDigits, digit?_of_isDigit hdigit, Nat.ofDigitChars_cons]
      exact ih hdigits _

/-- A sign and digits are read whole. -/
theorem atoi_digits {text digits : List Char} {negative : Bool}
    (hsign : readSign (text.dropWhile isSpace) = (negative, digits)) (hne : digits ≠ [])
    (hdigits : ∀ c ∈ digits, c.isDigit = true)
    (hlow : -2 ^ 63 ≤ signed negative (Nat.ofDigitChars 10 digits 0))
    (hhigh : signed negative (Nat.ofDigitChars 10 digits 0) < 2 ^ 63) :
    atoi text = Int32.ofInt (signed negative (Nat.ofDigitChars 10 digits 0)) := by
  obtain ⟨c, cs, rfl⟩ := List.exists_cons_of_ne_nil hne
  have hfirst : (c :: cs).head?.bind (digit? 10) = some (c.toNat - '0'.toNat) :=
    digit?_of_isDigit (hdigits c List.mem_cons_self)
  have hbase : readBase 10 (c :: cs) = (10, c :: cs) := rfl
  have hread := readDigits_isDigit hdigits 0
  simp only [atoi, atol, strtol, hsign, hbase, hfirst, reduceCtorEq, if_false, hread,
    clampLong_of_bounds hlow hhigh]

end

end DecimalText
