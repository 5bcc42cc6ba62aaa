import Mathlib.Data.List.Basic
import Mathlib.Data.List.Infix
import Mathlib.Data.Char

/-!
# Texts as UTF-8

The bytes of a character are one below `0x80`, or a leading byte that gives their number
and continuation bytes. A text of one-byte characters is therefore found in the bytes of a
text exactly where it is found in the text.
-/

namespace OpenZWave.Utf8

/-- The bytes of a text. -/
def encode (t : List Char) : List UInt8 := t.flatMap String.utf8EncodeChar

/-- The text that the bytes are of. -/
def decode (b : List UInt8) : Option (List Char) := b.toByteArray.utf8Decode?.map Array.toList

theorem decode_encode (t : List Char) : decode (encode t) = some t := by
  have hdecode : t.utf8Encode.utf8Decode? = some t.toArray := List.utf8Decode?_utf8Encode
  have hbytes : (encode t).toByteArray = t.utf8Encode := rfl
  rw [decode, hbytes, hdecode]
  rfl

theorem encode_injective : Function.Injective encode := by
  intro t t' h
  have hdecode := congrArg decode h
  rw [decode_encode, decode_encode] at hdecode
  exact Option.some.inj hdecode

theorem encode_append (t t' : List Char) : encode (t ++ t') = encode t ++ encode t' :=
  List.flatMap_append

theorem encode_cons (c : Char) (t : List Char) :
    encode (c :: t) = String.utf8EncodeChar c ++ encode t := List.flatMap_cons

theorem encodeChar_injective : Function.Injective String.utf8EncodeChar := by
  intro c c' h
  have hencode : encode [c] = encode [c'] := by
    rw [encode_cons, encode_cons, h]
  exact List.singleton_inj.mp (encode_injective hencode)

/-- The number of continuation bytes that a leading byte gives. -/
def continuation (d : UInt8) : Nat := if d < 0xE0 then 1 else if d < 0xF0 then 2 else 3

theorem ofNat_le_ofNat {m n : Nat} (hn : n < 256) (h : m ≤ n) : UInt8.ofNat m ≤ UInt8.ofNat n := by
  rw [UInt8.le_iff_toNat_le, UInt8.toNat_ofNat', UInt8.toNat_ofNat', Nat.mod_eq_of_lt hn,
    Nat.mod_eq_of_lt (h.trans_lt hn)]
  exact h

theorem ofNat_lt_ofNat {m n : Nat} (hn : n < 256) (h : m < n) : UInt8.ofNat m < UInt8.ofNat n := by
  rw [UInt8.lt_iff_toNat_lt, UInt8.toNat_ofNat', UInt8.toNat_ofNat', Nat.mod_eq_of_lt hn,
    Nat.mod_eq_of_lt (h.trans hn)]
  exact h

theorem le_continued (n : Nat) : (0x80 : UInt8) ≤ UInt8.ofNat (n % 0x40 + 0x80) := by
  have hmod := Nat.mod_lt n (by decide : 0 < 0x40)
  exact ofNat_le_ofNat (by omega) (Nat.le_add_left 0x80 _)

/-- The leading byte of a character with its number of continuation bytes. -/
theorem leading_bounds {n : Nat} (hlow : 0xC2 ≤ n) (hhigh : n < 0xF5) :
    (0xC2 : UInt8) ≤ UInt8.ofNat n ∧ UInt8.ofNat n < 0xF5 ∧
      continuation (UInt8.ofNat n) = if n < 0xE0 then 1 else if n < 0xF0 then 2 else 3 := by
  have hiff : ∀ k < 256, UInt8.ofNat n < UInt8.ofNat k ↔ n < k := by
    intro k hk
    refine ⟨fun h => ?_, ofNat_lt_ofNat hk⟩
    rw [UInt8.lt_iff_toNat_lt, UInt8.toNat_ofNat', UInt8.toNat_ofNat', Nat.mod_eq_of_lt hk,
      Nat.mod_eq_of_lt (by omega)] at h
    exact h
  have htwo : UInt8.ofNat n < 0xE0 ↔ n < 0xE0 := hiff 0xE0 (by decide)
  have hthree : UInt8.ofNat n < 0xF0 ↔ n < 0xF0 := hiff 0xF0 (by decide)
  refine ⟨ofNat_le_ofNat (by omega) hlow, ofNat_lt_ofNat (by decide) hhigh, ?_⟩
  rw [continuation, if_congr htwo rfl (if_congr hthree rfl rfl)]

/-- One byte, or a leading byte and continuation bytes. -/
theorem encodeChar_cases (c : Char) :
    (c.toNat < 0x80 ∧ String.utf8EncodeChar c = [UInt8.ofNat c.toNat]) ∨
      (0x80 ≤ c.toNat ∧ ∃ d l, String.utf8EncodeChar c = d :: l ∧ 0xC2 ≤ d ∧ d < 0xF5 ∧
        (∀ e ∈ l, 0x80 ≤ e) ∧ l.length = continuation d) := by
  have hvalid : c.val.toNat < 0x110000 := by
    rcases c.valid with hlow | ⟨-, hhigh⟩
    · exact Nat.lt_trans hlow (by decide)
    · exact hhigh
  have hnat : c.toNat = c.val.toNat := rfl
  rw [hnat]
  generalize hv : c.val.toNat = v at hvalid
  rw [String.utf8EncodeChar, hv]
  by_cases hone : v ≤ 0x7f
  · left
    exact ⟨Nat.lt_succ_of_le hone, if_pos hone⟩
  · refine .inr ⟨Nat.lt_of_not_le hone, ?_⟩
    rw [if_neg hone]
    by_cases htwo : v ≤ 0x7ff
    · obtain ⟨hlow, hhigh, hcount⟩ := leading_bounds (by omega : 0xC2 ≤ v / 64 % 0x20 + 0xC0)
        (by omega)
      rw [if_pos htwo]
      refine ⟨_, _, rfl, hlow, hhigh, List.forall_mem_singleton.mpr (le_continued v), ?_⟩
      rw [hcount, if_pos (by omega)]
      rfl
    · rw [if_neg htwo]
      by_cases hthree : v ≤ 0xffff
      · obtain ⟨hlow, hhigh, hcount⟩ := leading_bounds
          (by omega : 0xC2 ≤ v / 4096 % 0x10 + 0xE0) (by omega)
        rw [if_pos hthree]
        refine ⟨_, _, rfl, hlow, hhigh, List.forall_mem_cons.mpr ⟨le_continued (v / 64),
          List.forall_mem_singleton.mpr (le_continued v)⟩, ?_⟩
        rw [hcount, if_neg (by omega), if_pos (by omega)]
        rfl
      · obtain ⟨hlow, hhigh, hcount⟩ := leading_bounds
          (by omega : 0xC2 ≤ v / 262144 % 0x08 + 0xF0) (by omega)
        rw [if_neg hthree]
        refine ⟨_, _, rfl, hlow, hhigh, List.forall_mem_cons.mpr ⟨le_continued (v / 4096),
          List.forall_mem_cons.mpr ⟨le_continued (v / 64),
            List.forall_mem_singleton.mpr (le_continued v)⟩⟩, ?_⟩
        rw [hcount, if_neg (by omega), if_neg (by omega)]
        rfl

/-! ## Where a text is found -/

theorem prefix_of_encode {s t : List Char} (h : encode s <+: encode t) : s <+: t := by
  obtain ⟨rest, hrest⟩ := h
  refine List.isPrefix_of_utf8Encode_append_eq_utf8Encode rest.toByteArray ?_
  have hbytes : (encode s ++ rest).toByteArray = (encode t).toByteArray := by rw [hrest]
  rw [List.toByteArray_append] at hbytes
  exact hbytes

theorem infix_of_append {b : UInt8} {s l t : List UInt8} (hl : b ∉ l)
    (h : b :: s <:+: l ++ t) : b :: s <:+: t := by
  induction l with
  | nil => exact h
  | cons d l ih =>
      rw [List.mem_cons, not_or] at hl
      rw [List.cons_append, List.infix_cons_iff] at h
      rcases h with hstarts | hfound
      · rw [List.cons_prefix_cons] at hstarts
        exact absurd hstarts.1 hl.1
      · exact ih hl.2 hfound

/-- A text that begins with a one-byte character is in the bytes only where it is in the
text. -/
theorem infix_of_encode {c : Char} (hc : c.toNat < 0x80) {s t : List Char}
    (h : encode (c :: s) <:+: encode t) : c :: s <:+: t := by
  have hhead : encode (c :: s) = UInt8.ofNat c.toNat :: encode s := by
    rw [encode_cons]
    rcases encodeChar_cases c with ⟨-, hone⟩ | ⟨hmany, -⟩
    · rw [hone]
      rfl
    · exact absurd hc (Nat.not_lt.mpr hmany)
  induction t with
  | nil =>
      rw [hhead] at h
      cases List.infix_nil.mp h
  | cons d t ih =>
      by_cases hstarts : encode (c :: s) <+: encode (d :: t)
      · exact (prefix_of_encode hstarts).isInfix
      · refine (ih ?_).trans (List.suffix_cons d t).isInfix
        obtain ⟨e, l, hencode, hl⟩ : ∃ e l, String.utf8EncodeChar d = e :: l ∧
            UInt8.ofNat c.toNat ∉ l := by
          rcases encodeChar_cases d with ⟨-, hone⟩ | ⟨-, e, l, hmany, -, -, hl, -⟩
          · exact ⟨_, _, hone, List.not_mem_nil⟩
          · refine ⟨e, l, hmany, fun hmem => ?_⟩
            have hless : UInt8.ofNat c.toNat < UInt8.ofNat 0x80 := ofNat_lt_ofNat (by decide) hc
            exact absurd (hl _ hmem) (UInt8.not_le.mpr hless)
        have htail : encode (d :: t) = e :: (l ++ encode t) := by
          rw [encode_cons, hencode, List.cons_append]
        rw [htail] at h hstarts
        rw [List.infix_cons_iff] at h
        rw [hhead] at h hstarts ⊢
        exact infix_of_append hl (h.resolve_left hstarts)

end OpenZWave.Utf8
