import Mathlib.Data.List.Basic

/-!
# UTF-16 text

The characters of a list of UTF-16 units, where a high surrogate and the low one right
behind it make one character and other surrogates make none, and their bytes in UTF-8.
-/

namespace Utf16

def IsHigh (u : UInt16) : Prop := 0xD800 ≤ u.toNat ∧ u.toNat < 0xDC00

def IsLow (u : UInt16) : Prop := 0xDC00 ≤ u.toNat ∧ u.toNat < 0xE000

instance (u : UInt16) : Decidable (IsHigh u) := inferInstanceAs (Decidable (_ ∧ _))

instance (u : UInt16) : Decidable (IsLow u) := inferInstanceAs (Decidable (_ ∧ _))

/-- The character of a pair. -/
def pair (high low : UInt16) : Char :=
  Char.ofNat (0x10000 + (high.toNat - 0xD800) * 0x400 + (low.toNat - 0xDC00))

/-- The character of a unit that is in no pair. -/
def single (u : UInt16) : List Char :=
  if IsHigh u ∨ IsLow u then [] else [Char.ofNat u.toNat]

def decode : List UInt16 → List Char
  | [] => []
  | [u] => single u
  | u :: v :: us =>
      if IsHigh u ∧ IsLow v then pair u v :: decode us else single u ++ decode (v :: us)

def utf8 (text : List Char) : List UInt8 := text.flatMap String.utf8EncodeChar

theorem IsHigh.not_low {u : UInt16} (h : IsHigh u) : ¬ IsLow u := fun hlow => by
  have := h.2
  have := hlow.1
  omega

/-! ## Unit by unit -/

/-- What the units make behind the unit `v`. -/
def decodeAfter (v : UInt16) (us : List UInt16) : List Char :=
  if IsHigh v then decode (v :: us) else decode us

variable {u v : UInt16} {us : List UInt16}

theorem decode_cons_of_not_high (h : ¬ IsHigh u) : decode (u :: us) = single u ++ decode us := by
  cases us with
  | nil => rw [decode, decode, List.append_nil]
  | cons w us => rw [decode, if_neg fun hpair => h hpair.1]

theorem decodeAfter_nil : decodeAfter v [] = [] := by
  rw [decodeAfter]
  split
  · rename_i hhigh
    rw [decode, single, if_pos (Or.inl hhigh)]
  · rw [decode]

/-- A unit that does not end a pair. -/
theorem decodeAfter_cons (h : ¬ (IsHigh v ∧ IsLow u)) :
    decodeAfter v (u :: us) = (if IsHigh u then [] else single u) ++ decodeAfter u us := by
  have hfirst : decodeAfter v (u :: us) = decode (u :: us) := by
    rw [decodeAfter]
    split
    · rename_i hhigh
      rw [decode, if_neg h, single, if_pos (Or.inl hhigh), List.nil_append]
    · rfl
  rw [hfirst, decodeAfter]
  split
  · rfl
  · rename_i hhigh
    exact decode_cons_of_not_high hhigh

theorem decodeAfter_pair (hhigh : IsHigh v) (hlow : IsLow u) :
    decodeAfter v (u :: us) = pair v u :: decodeAfter u us := by
  rw [decodeAfter, if_pos hhigh, decode, if_pos ⟨hhigh, hlow⟩, decodeAfter,
    if_neg fun h => h.not_low hlow]

theorem utf8_cons (c : Char) (text : List Char) :
    utf8 (c :: text) = String.utf8EncodeChar c ++ utf8 text :=
  List.flatMap_cons

theorem utf8_nil : utf8 [] = [] := rfl

theorem utf8_append (text text' : List Char) : utf8 (text ++ text') = utf8 text ++ utf8 text' :=
  List.flatMap_append

/-! ## The characters -/

theorem toNat_ofNat {n : ℕ} (h : n.isValidChar) : (Char.ofNat n).toNat = n := by
  rw [Char.ofNat, dif_pos h]
  rfl

theorem toNat_pair (hhigh : IsHigh u) (hlow : IsLow v) :
    (pair u v).toNat = 0x10000 + (u.toNat - 0xD800) * 0x400 + (v.toNat - 0xDC00) := by
  obtain ⟨hu, hu'⟩ := hhigh
  obtain ⟨hv, hv'⟩ := hlow
  refine toNat_ofNat (Or.inr ?_)
  omega

theorem toNat_single (hhigh : ¬ IsHigh u) (hlow : ¬ IsLow u) :
    (Char.ofNat u.toNat).toNat = u.toNat := by
  have hu := u.toNat_lt
  rw [IsHigh] at hhigh
  rw [IsLow] at hlow
  refine toNat_ofNat ?_
  rw [Nat.isValidChar]
  omega

/-! ## Their bytes -/

section Bytes

variable {c : Char} {n : ℕ}

theorem encode_one (h : c.toNat = n) (hlt : n < 0x80) :
    String.utf8EncodeChar c = [UInt8.ofNat n] := by
  rw [String.utf8EncodeChar]
  change (if c.toNat ≤ 0x7f then _ else _) = _
  rw [if_pos (by omega), ← h]
  rfl

theorem encode_two (h : c.toNat = n) (hle : 0x80 ≤ n) (hlt : n < 0x800) :
    String.utf8EncodeChar c =
      [UInt8.ofNat (n / 64 % 32 + 0xc0), UInt8.ofNat (n % 64 + 0x80)] := by
  rw [String.utf8EncodeChar]
  change (if c.toNat ≤ 0x7f then _ else if c.toNat ≤ 0x7ff then _ else _) = _
  rw [if_neg (by omega), if_pos (by omega), ← h]
  rfl

theorem encode_three (h : c.toNat = n) (hle : 0x800 ≤ n) (hlt : n < 0x10000) :
    String.utf8EncodeChar c =
      [UInt8.ofNat (n / 4096 % 16 + 0xe0), UInt8.ofNat (n / 64 % 64 + 0x80),
        UInt8.ofNat (n % 64 + 0x80)] := by
  rw [String.utf8EncodeChar]
  change (if c.toNat ≤ 0x7f then _ else if c.toNat ≤ 0x7ff then _ else
    if c.toNat ≤ 0xffff then _ else _) = _
  rw [if_neg (by omega), if_neg (by omega), if_pos (by omega), ← h]
  rfl

theorem encode_four (h : c.toNat = n) (hle : 0x10000 ≤ n) :
    String.utf8EncodeChar c =
      [UInt8.ofNat (n / 262144 % 8 + 0xf0), UInt8.ofNat (n / 4096 % 64 + 0x80),
        UInt8.ofNat (n / 64 % 64 + 0x80), UInt8.ofNat (n % 64 + 0x80)] := by
  rw [String.utf8EncodeChar]
  change (if c.toNat ≤ 0x7f then _ else if c.toNat ≤ 0x7ff then _ else
    if c.toNat ≤ 0xffff then _ else _) = _
  rw [if_neg (by omega), if_neg (by omega), if_neg (by omega), ← h]
  rfl

end Bytes

end Utf16
