import Mathlib.Data.List.Basic
import Mathlib.Data.List.TakeWhile

/-!
# Text in a document file

The functions of TinyXML that write and read a text: `EncodeString` of `tinyxml.cpp`,
and `SkipWhiteSpace`, `ReadName`, `GetEntity`, `GetChar` and `ReadText` of
`tinyxmlparser.cpp`, with white space condensed. A pointer into the file is what is
left of it, and null is `none`; the end of the file is the end of the list. A
function stops with a `Fault` where the source reads behind the end.
-/

namespace OpenZWave.TiXml

abbrev Bytes := List UInt8

/-- The bytes of a text in the source. -/
def bytes (s : List Char) : Bytes := s.map Char.toUInt8

/-- `SINGLE_QUOTE`. -/
def singleQuote : UInt8 := 39

/-- `DOUBLE_QUOTE`. -/
def doubleQuote : UInt8 := 34

/-- `TiXmlEncoding`. -/
inductive Encoding
  | unknown | utf8 | legacy
  deriving DecidableEq, Repr

inductive Fault
  /-- Behind the end of the file. -/
  | outside
  /-- An assertion of the source that fails. -/
  | assertion
  | diverges
  deriving DecidableEq, Repr

/-! ## Writing -/

/-- `TiXmlBase::entity`. -/
def entity : List (Bytes × UInt8) :=
  [(bytes ['&', 'a', 'm', 'p', ';'], '&'.toUInt8), (bytes ['&', 'l', 't', ';'], '<'.toUInt8),
    (bytes ['&', 'g', 't', ';'], '>'.toUInt8), (bytes ['&', 'q', 'u', 'o', 't', ';'], doubleQuote),
    (bytes ['&', 'a', 'p', 'o', 's', ';'], singleQuote)]

/-- A digit of `%02X`. -/
def hexDigit (n : UInt8) : UInt8 := if n < 10 then '0'.toUInt8 + n else 'A'.toUInt8 + (n - 10)

/-- What `EncodeString` writes for a byte that starts no reference. -/
def encodeByte (c : UInt8) : Bytes :=
  match entity.find? (·.2 == c) with
  | some e => e.1
  | none =>
      if c < 32 then
        bytes ['&', '#', 'x'] ++ [hexDigit (c / 16), hexDigit (c % 16), ';'.toUInt8]
      else [c]

/-- `EncodeString`: `through` while a reference is passed through unchanged. -/
def encodeString : Bool → Bytes → Bytes
  | _, [] => []
  | true, [c] => encodeByte c
  | true, c :: d :: str => c :: encodeString (d != ';'.toUInt8) (d :: str)
  | false, c :: str =>
      if c = '&'.toUInt8 ∧ str.take 2 = bytes ['#', 'x'] then c :: encodeString true str
      else encodeByte c ++ encodeString false str

/-! ## Reading -/

/-- `IsWhiteSpace`. -/
def isWhiteSpace (c : UInt8) : Bool := c == 32 || (9 ≤ c && c ≤ 13)

/-- `IsAlpha`. -/
def isAlpha (c : UInt8) : Bool :=
  if c < 127 then (65 ≤ c && c ≤ 90) || (97 ≤ c && c ≤ 122) else true

/-- `IsAlphaNum`. -/
def isAlphaNum (c : UInt8) : Bool := isAlpha c || (48 ≤ c && c ≤ 57)

/-- `utf8ByteTable`. -/
def utf8ByteTable (c : UInt8) : Nat :=
  if c < 0xC2 then 1 else if c < 0xE0 then 2 else if c < 0xF0 then 3 else if c < 0xF5 then 4 else 1

/-- The byte order marks, and what stands for the other two that are no characters. -/
def isMark (p : Bytes) : Bool :=
  p.take 3 == [0xEF, 0xBB, 0xBF] || p.take 3 == [0xEF, 0xBF, 0xBE] || p.take 3 == [0xEF, 0xBF, 0xBF]

/-- The loop of `SkipWhiteSpace`. -/
def skipLoop (encoding : Encoding) (blank : UInt8 → Bool) : Nat → Bytes → Bytes
  | 0, p => p
  | _ + 1, [] => []
  | fuel + 1, c :: p =>
      if encoding = .utf8 ∧ isMark (c :: p) = true then skipLoop encoding blank fuel (p.drop 2)
      else if blank c then skipLoop encoding blank fuel p
      else c :: p

def skip (encoding : Encoding) (blank : UInt8 → Bool) (p : Bytes) : Bytes :=
  skipLoop encoding blank p.length p

def skipWhiteSpace (encoding : Encoding) (p : Bytes) : Option Bytes :=
  if p = [] then none else some (skip encoding isWhiteSpace p)

/-- What may follow in a name. -/
def isNameByte (c : UInt8) : Bool :=
  isAlphaNum c || c == '_'.toUInt8 || c == '-'.toUInt8 || c == '.'.toUInt8 || c == ':'.toUInt8

/-- `ReadName`. -/
def readName : Bytes → Option (Bytes × Bytes)
  | [] => none
  | c :: p =>
      if isAlpha c || c == '_'.toUInt8 then
        some ((c :: p).takeWhile isNameByte, (c :: p).dropWhile isNameByte)
      else none

/-- A digit of a reference. -/
def digitValue (hex : Bool) (c : UInt8) : Option UInt32 :=
  if 48 ≤ c ∧ c ≤ 57 then some (c - 48).toUInt32
  else if hex ∧ 97 ≤ c ∧ c ≤ 102 then some ((c - 97) + 10).toUInt32
  else if hex ∧ 65 ≤ c ∧ c ≤ 70 then some ((c - 65) + 10).toUInt32
  else none

/-- The digits of a reference from the last one back to its `x` or `#`. -/
def referenceLoop (hex : Bool) : Bytes → UInt64 → UInt32 → Option UInt64
  | [], ucs, _ => some ucs
  | c :: q, ucs, mult =>
      if c = (if hex then 'x' else '#').toUInt8 then some ucs
      else
        match digitValue hex c with
        | none => none
        | some d =>
            referenceLoop hex q (ucs + (mult * d).toUInt64) (mult * if hex then 16 else 10)

/-- `ConvertUTF32ToUTF8`. -/
def convertUTF32ToUTF8 (input : UInt64) : Bytes :=
  let mark (shift : UInt64) : UInt8 := (((input >>> shift) ||| 0x80) &&& 0xBF).toUInt8
  if input < 0x80 then [input.toUInt8]
  else if input < 0x800 then [((input >>> 6) ||| 0xC0).toUInt8, mark 0]
  else if input < 0x10000 then [((input >>> 12) ||| 0xE0).toUInt8, mark 6, mark 0]
  else if input < 0x200000 then [((input >>> 18) ||| 0xF0).toUInt8, mark 12, mark 6, mark 0]
  else []

/-- `GetEntity`: the value and what follows. -/
def getEntity (encoding : Encoding) (p : Bytes) : Bytes × Option Bytes :=
  if p.getD 1 0 = '#'.toUInt8 ∧ p.getD 2 0 ≠ 0 then
    let hex := p.getD 2 0 == 'x'.toUInt8
    let q := p.drop (if hex then 3 else 2)
    let digits := q.takeWhile (· != ';'.toUInt8)
    if q.length ≤ digits.length then ([], none)
    else
      match referenceLoop hex digits.reverse 0 1 with
      | none => ([], none)
      | some ucs =>
          (if encoding = .utf8 then convertUTF32ToUTF8 ucs else [ucs.toUInt8],
            some (q.drop (digits.length + 1)))
  else
    match entity.find? fun e => e.1.isPrefixOf p with
    | some e => ([e.2], some (p.drop e.1.length))
    -- the value is stored, but the length stays zero
    | none => ([], some (p.drop 1))

/-- `GetChar`. -/
def getChar (encoding : Encoding) (p : Bytes) : Except Fault (Bytes × Option Bytes) :=
  let c := p.headD 0
  let length := if encoding = .utf8 then utf8ByteTable c else 1
  if length = 1 then
    if c = '&'.toUInt8 then .ok (getEntity encoding p) else .ok ([c], some (p.drop 1))
  else if p.length < length then .error .outside
  else .ok (p.take length, some (p.drop length))

/-- The loop of `ReadText` that keeps white space: the text, and where the end tag
is; the callers step over it. -/
def keepLoop (encoding : Encoding) (endTag : Bytes) :
    Nat → Bytes → Bytes → Except Fault (Bytes × Option Bytes)
  | fuel, text, p =>
      if p = [] ∨ endTag.isPrefixOf p then .ok (text, some p)
      else
        match fuel with
        | 0 => .error .diverges
        | fuel + 1 => do
            let r ← getChar encoding p
            match r.2 with
            | none => return (text ++ r.1, none)
            | some p => keepLoop encoding endTag fuel (text ++ r.1) p

/-- The loop of `ReadText` that condenses white space. -/
def condenseLoop (encoding : Encoding) (endTag : Bytes) :
    Nat → Bool → Bytes → Bytes → Except Fault (Bytes × Option Bytes)
  | fuel, whitespace, text, p =>
      if p = [] ∨ endTag.isPrefixOf p then .ok (text, some p)
      else
        match fuel with
        | 0 => .error .diverges
        | fuel + 1 =>
            if isWhiteSpace (p.headD 0) then condenseLoop encoding endTag fuel true text (p.drop 1)
            else do
              let text := if whitespace then text ++ [32] else text
              let r ← getChar encoding p
              match r.2 with
              | none => return (text ++ r.1, none)
              | some p => condenseLoop encoding endTag fuel false (text ++ r.1) p

/-- `ReadText`, up to the end tag. -/
def readText (encoding : Encoding) (trimWhiteSpace : Bool) (endTag p : Bytes) :
    Except Fault (Bytes × Option Bytes) :=
  if trimWhiteSpace then
    match skipWhiteSpace encoding p with
    | none => .ok ([], none)
    | some p => condenseLoop encoding endTag p.length false [] p
  else keepLoop encoding endTag p.length [] p

/-! ## Characters -/

/-- The bytes of one character, as far as the parser looks. -/
inductive Sequence : Bytes → Prop
  | single {c : UInt8} (h : utf8ByteTable c = 1) : Sequence [c]
  | several {c : UInt8} {l : Bytes} (h : utf8ByteTable c = l.length + 1) (hne : l ≠ [])
      (hl : ∀ d ∈ l, 0x80 ≤ d) : Sequence (c :: l)

/-- A text of whole characters. -/
inductive Sequenced : Bytes → Prop
  | nil : Sequenced []
  | append {u t : Bytes} : Sequence u → Sequenced t → Sequenced (u ++ t)

/-- `EncodeString` copies what follows these characters. -/
def HasReference (t : Bytes) : Prop := bytes ['&', '#', 'x'] <:+: t

/-- Every byte by itself. -/
def escape (t : Bytes) : Bytes := t.flatMap encodeByte

theorem escape_append (t t' : Bytes) : escape (t ++ t') = escape t ++ escape t' :=
  List.flatMap_append

theorem encodeString_eq {t : Bytes} (h : ¬ HasReference t) : encodeString false t = escape t := by
  induction t with
  | nil => rfl
  | cons c t ih =>
      have htail : ¬ HasReference t := fun htail => h (htail.trans (List.suffix_cons c t).isInfix)
      have hhead : ¬ (c = '&'.toUInt8 ∧ t.take 2 = bytes ['#', 'x']) := by
        rintro ⟨rfl, htake⟩
        refine h ⟨[], t.drop 2, ?_⟩
        have happend := List.take_append_drop 2 t
        rw [htake] at happend
        rw [← happend]
        rfl
      rw [encodeString, if_neg hhead, ih htail]
      rfl

theorem Sequenced.concat {t t' : Bytes} (h : Sequenced t) (h' : Sequenced t') :
    Sequenced (t ++ t') := by
  induction h with
  | nil => exact h'
  | append hu _ ih =>
      rw [List.append_assoc]
      exact .append hu ih

/-- What is written for a byte: a reference to one of the five characters or to a control
character, or the byte. -/
theorem encodeByte_cases (c : UInt8) :
    (∃ e ∈ entity, e.2 = c ∧ encodeByte c = e.1) ∨
      (c < 32 ∧ encodeByte c =
        bytes ['&', '#', 'x'] ++ [hexDigit (c / 16), hexDigit (c % 16), ';'.toUInt8]) ∨
      (32 ≤ c ∧ (∀ e ∈ entity, e.2 ≠ c) ∧ encodeByte c = [c]) := by
  rw [encodeByte]
  cases hfind : entity.find? (·.2 == c) with
  | some e =>
      left
      exact ⟨e, List.mem_of_find?_eq_some hfind, by simpa using List.find?_some hfind, rfl⟩
  | none =>
      right
      by_cases hcontrol : c < 32
      · left
        exact ⟨hcontrol, if_pos hcontrol⟩
      · right
        refine ⟨UInt8.not_lt.mp hcontrol, ?_, if_neg hcontrol⟩
        intro e he
        simpa using List.find?_eq_none.mp hfind e he

theorem encodeByte_head (c : UInt8) :
    (∃ l, encodeByte c = '&'.toUInt8 :: l) ∨ encodeByte c = [c] := by
  rcases encodeByte_cases c with ⟨e, he, -, hcode⟩ | ⟨-, hcode⟩ | ⟨-, -, hcode⟩
  · left
    rw [hcode]
    simp only [entity, List.mem_cons, List.not_mem_nil, or_false] at he
    rcases he with rfl | rfl | rfl | rfl | rfl <;> exact ⟨_, rfl⟩
  · exact .inl ⟨_, hcode⟩
  · exact .inr hcode

theorem referenceLoop_hexDigit {c : UInt8} (h : c < 32) :
    hexDigit (c / 16) ≠ ';'.toUInt8 ∧ hexDigit (c % 16) ≠ ';'.toUInt8 ∧
      referenceLoop true [hexDigit (c % 16), hexDigit (c / 16)] 0 1 = some c.toUInt64 ∧
      convertUTF32ToUTF8 c.toUInt64 = [c] := by
  have hall : ∀ n < 32, hexDigit (UInt8.ofNat n / 16) ≠ ';'.toUInt8 ∧
      hexDigit (UInt8.ofNat n % 16) ≠ ';'.toUInt8 ∧
      referenceLoop true [hexDigit (UInt8.ofNat n % 16), hexDigit (UInt8.ofNat n / 16)] 0 1 =
        some (UInt8.ofNat n).toUInt64 ∧
      convertUTF32ToUTF8 (UInt8.ofNat n).toUInt64 = [UInt8.ofNat n] := by
    decide
  have hc := hall c.toNat (UInt8.lt_iff_toNat_lt.mp h)
  rwa [UInt8.ofNat_toNat] at hc

/-- A reference is read back as its byte. -/
theorem getEntity_encodeByte {c : UInt8} {p : Bytes} (rest : Bytes)
    (h : (∃ e ∈ entity, e.2 = c ∧ p = e.1) ∨ (c < 32 ∧ p =
      bytes ['&', '#', 'x'] ++ [hexDigit (c / 16), hexDigit (c % 16), ';'.toUInt8])) :
    getEntity .utf8 (p ++ rest) = ([c], some rest) := by
  rcases h with ⟨e, he, rfl, rfl⟩ | ⟨hcontrol, rfl⟩
  · simp only [entity, List.mem_cons, List.not_mem_nil, or_false] at he
    rcases he with rfl | rfl | rfl | rfl | rfl <;> rfl
  · obtain ⟨hhigh, hlow, hloop, hvalue⟩ := referenceLoop_hexDigit hcontrol
    have hdigits : (hexDigit (c / 16) :: hexDigit (c % 16) :: ';'.toUInt8 :: rest).takeWhile
        (· != ';'.toUInt8) = [hexDigit (c / 16), hexDigit (c % 16)] := by
      rw [List.takeWhile_cons_of_pos (by simpa using hhigh),
        List.takeWhile_cons_of_pos (by simpa using hlow),
        List.takeWhile_cons_of_neg (by simp)]
    have hform : bytes ['&', '#', 'x'] ++ [hexDigit (c / 16), hexDigit (c % 16), ';'.toUInt8] ++
        rest = '&'.toUInt8 :: '#'.toUInt8 :: 'x'.toUInt8 ::
          (hexDigit (c / 16) :: hexDigit (c % 16) :: ';'.toUInt8 :: rest) := rfl
    have hx : 'x'.toUInt8 ≠ 0 := by decide
    rw [hform, getEntity, if_pos ⟨rfl, hx⟩]
    simp only [List.getD_cons_succ, List.getD_cons_zero, beq_self_eq_true, if_true,
      List.drop_succ_cons, List.drop_zero, hdigits, List.reverse_cons, List.reverse_nil,
      List.nil_append, List.singleton_append, hloop, hvalue, List.length_cons, List.length_nil]
    rw [if_neg (by omega)]

/-! ## Characters are read back -/

theorem utf8ByteTable_of_ne_one {c : UInt8} (h : utf8ByteTable c ≠ 1) : 0xC2 ≤ c := by
  rw [utf8ByteTable] at h
  by_cases hless : c < 0xC2
  · exact absurd (if_pos hless) h
  · exact UInt8.not_lt.mp hless

/-- Large bytes are written as they are. -/
theorem encodeByte_of_large {c : UInt8} (h : 0x80 ≤ c) : encodeByte c = [c] := by
  rw [UInt8.le_iff_toNat_le] at h
  rcases encodeByte_cases c with ⟨e, he, rfl, -⟩ | ⟨hcontrol, -⟩ | ⟨-, -, hself⟩
  · simp only [entity, List.mem_cons, List.not_mem_nil, or_false] at he
    rcases he with rfl | rfl | rfl | rfl | rfl <;> exact absurd h (by decide)
  · rw [UInt8.lt_iff_toNat_lt] at hcontrol
    exact absurd (h.trans_lt hcontrol) (by decide)
  · exact hself

theorem escape_of_large {l : Bytes} (h : ∀ d ∈ l, 0x80 ≤ d) : escape l = l := by
  induction l with
  | nil => rfl
  | cons d l ih =>
      have htail := ih fun e he => h e (List.mem_cons_of_mem d he)
      rw [escape, List.flatMap_cons, encodeByte_of_large (h d List.mem_cons_self), ← escape, htail]
      rfl

theorem Sequence.escape_several {c : UInt8} {l : Bytes} (h : utf8ByteTable c = l.length + 1)
    (hne : l ≠ []) (hl : ∀ d ∈ l, 0x80 ≤ d) : escape (c :: l) = c :: l := by
  have hlong : utf8ByteTable c ≠ 1 := by
    rw [h]
    exact fun heq => hne (List.length_eq_zero_iff.mp (by omega))
  have hc : (0x80 : UInt8) ≤ c := UInt8.le_trans (by decide) (utf8ByteTable_of_ne_one hlong)
  exact escape_of_large (List.forall_mem_cons.mpr ⟨hc, hl⟩)

/-- A character is read back whole. -/
theorem Sequence.getChar_escape {u : Bytes} (h : Sequence u) (rest : Bytes) :
    getChar .utf8 (escape u ++ rest) = .ok (u, some rest) := by
  cases h with
  | single htable =>
      rename_i c
      have hescape : escape [c] = encodeByte c := List.append_nil _
      rw [hescape]
      rcases encodeByte_cases c with ⟨e, he, hc, hcode⟩ | ⟨hcontrol, hcode⟩ | ⟨-, hother, hcode⟩
      · have hentity := getEntity_encodeByte rest (.inl ⟨e, he, hc, hcode⟩)
        have hhead : (encodeByte c ++ rest).headD 0 = '&'.toUInt8 := by
          rw [hcode]
          simp only [entity, List.mem_cons, List.not_mem_nil, or_false] at he
          rcases he with rfl | rfl | rfl | rfl | rfl <;> rfl
        rw [getChar, hhead]
        simp only [if_true, hentity]
        exact if_pos (by decide)
      · have hentity := getEntity_encodeByte rest (.inr ⟨hcontrol, hcode⟩)
        have hhead : (encodeByte c ++ rest).headD 0 = '&'.toUInt8 := by
          rw [hcode]
          rfl
        rw [getChar, hhead]
        simp only [if_true, hentity]
        exact if_pos (by decide)
      · have hamp : c ≠ '&'.toUInt8 := fun heq => hother _ List.mem_cons_self heq.symm
        rw [hcode, getChar]
        simp only [List.cons_append, List.nil_append, List.headD_cons, if_true, htable,
          if_neg hamp, List.drop_succ_cons, List.drop_zero]
  | several htable hne hl =>
      rename_i c l
      have hlong : l.length + 1 ≠ 1 := fun heq => hne (List.length_eq_zero_iff.mp (by omega))
      have hfits : ¬ (c :: l ++ rest).length < l.length + 1 := by
        rw [List.length_append, List.length_cons]
        omega
      rw [Sequence.escape_several htable hne hl, getChar]
      simp only [List.cons_append, List.headD_cons, if_true, htable, if_neg hlong]
      rw [List.cons_append] at hfits
      rw [if_neg hfits, List.take_succ_cons, List.drop_succ_cons, List.take_left, List.drop_left]

/-- What is written for a character begins neither a tag nor the end of a value, and with
white space only for a blank. -/
theorem Sequence.head_escape {u : Bytes} (h : Sequence u) :
    ∃ d l, escape u = d :: l ∧ d ≠ '<'.toUInt8 ∧ d ≠ singleQuote ∧ d ≠ doubleQuote ∧
      (isWhiteSpace d = true ↔ u = [32]) := by
  cases h with
  | single htable =>
      rename_i c
      have hescape : escape [c] = encodeByte c := List.append_nil _
      have hreference : ∀ l, c ≠ 32 → encodeByte c = '&'.toUInt8 :: l →
          ∃ d l, escape [c] = d :: l ∧ d ≠ '<'.toUInt8 ∧ d ≠ singleQuote ∧ d ≠ doubleQuote ∧
            (isWhiteSpace d = true ↔ [c] = [32]) := by
        intro l hne hcode
        refine ⟨'&'.toUInt8, l, hescape.trans hcode, by decide, by decide, by decide, ?_⟩
        exact iff_of_false (by decide) fun heq => hne (List.head_eq_of_cons_eq heq)
      rcases encodeByte_cases c with ⟨e, he, rfl, hcode⟩ | ⟨hcontrol, hcode⟩ | ⟨hle, hother, hcode⟩
      · simp only [entity, List.mem_cons, List.not_mem_nil, or_false] at he
        rcases he with rfl | rfl | rfl | rfl | rfl <;> exact hreference _ (by decide) hcode
      · refine hreference _ ?_ hcode
        rintro rfl
        exact absurd hcontrol (by decide)
      · have hnot : c ∉ entity.map Prod.snd := by
          intro hmem
          obtain ⟨e, he, heq⟩ := List.mem_map.mp hmem
          exact hother e he heq
        refine ⟨c, [], hescape.trans hcode, ?_, ?_, ?_, ?_⟩
        · exact fun heq => hnot (by rw [heq]; decide)
        · exact fun heq => hnot (by rw [heq]; decide)
        · exact fun heq => hnot (by rw [heq]; decide)
        · rw [List.cons.injEq, and_iff_left rfl]
          constructor
          · intro hspace
            simp only [isWhiteSpace, Bool.or_eq_true, beq_iff_eq, Bool.and_eq_true,
              decide_eq_true_eq] at hspace
            rcases hspace with hblank | ⟨-, hhigh⟩
            · exact hblank
            · exact absurd (UInt8.le_trans hle hhigh) (by decide)
          · rintro rfl
            rfl
  | several htable hne hl =>
      rename_i c l
      have hlong : utf8ByteTable c ≠ 1 := by
        rw [htable]
        exact fun heq => hne (List.length_eq_zero_iff.mp (by omega))
      have hc := utf8ByteTable_of_ne_one hlong
      have hless : ∀ d : UInt8, d < 0xC2 → c ≠ d := by
        rintro d hd rfl
        exact absurd hd (UInt8.not_lt.mpr hc)
      refine ⟨c, l, Sequence.escape_several htable hne hl, hless _ (by decide), hless _ (by decide),
        hless _ (by decide), iff_of_false ?_ ?_⟩
      · simp only [isWhiteSpace, Bool.or_eq_true, beq_iff_eq, Bool.and_eq_true,
          decide_eq_true_eq, not_or, not_and]
        exact ⟨hless _ (by decide), fun _ hhigh => absurd (UInt8.le_trans hc hhigh) (by decide)⟩
      · exact fun heq => hless 32 (by decide) (List.head_eq_of_cons_eq heq)

/-! ## White space in front -/

@[simp] theorem skip_nil (encoding : Encoding) (blank : UInt8 → Bool) :
    skip encoding blank [] = [] := rfl

theorem skipLoop_fuel (encoding : Encoding) (blank : UInt8 → Bool) {fuel : Nat} {p : Bytes}
    (h : p.length ≤ fuel) : skipLoop encoding blank fuel p = skip encoding blank p := by
  induction fuel using Nat.strongRecOn generalizing p with
  | ind fuel ih =>
      cases p with
      | nil => cases fuel <;> rfl
      | cons c p =>
          rw [List.length_cons] at h
          obtain ⟨fuel, rfl⟩ : ∃ n, fuel = n + 1 := ⟨fuel - 1, by omega⟩
          have hrest : ∀ q : Bytes, q.length ≤ p.length →
              skipLoop encoding blank fuel q = skipLoop encoding blank p.length q := by
            intro q hq
            rw [ih fuel (by omega) (hq.trans (by omega))]
            rcases Nat.lt_or_ge p.length (fuel + 1) with hlt | hge
            · exact (ih p.length hlt hq).symm
            · omega
          rw [skip, List.length_cons, skipLoop, skipLoop, hrest _ (by rw [List.length_drop]; omega),
            hrest _ le_rfl]

theorem skip_cons (encoding : Encoding) (blank : UInt8 → Bool) (c : UInt8) (p : Bytes) :
    skip encoding blank (c :: p) =
      if encoding = .utf8 ∧ isMark (c :: p) = true then skip encoding blank (p.drop 2)
      else if blank c then skip encoding blank p else c :: p := by
  rw [skip, List.length_cons, skipLoop, skipLoop_fuel _ _ (by rw [List.length_drop]; omega),
    skipLoop_fuel _ _ le_rfl]

theorem length_skipLoop_le (encoding : Encoding) (blank : UInt8 → Bool) (fuel : Nat) (p : Bytes) :
    (skipLoop encoding blank fuel p).length ≤ p.length := by
  induction fuel generalizing p with
  | zero => exact le_rfl
  | succ fuel ih =>
      cases p with
      | nil => exact le_rfl
      | cons c p =>
          rw [skipLoop, List.length_cons]
          split
          · have hdrop := ih (p.drop 2)
            rw [List.length_drop] at hdrop
            omega
          · split
            · exact (ih p).trans (Nat.le_succ _)
            · exact le_rfl

theorem length_skipWhiteSpace_le {encoding : Encoding} {p p' : Bytes}
    (h : skipWhiteSpace encoding p = some p') : p'.length ≤ p.length := by
  rw [skipWhiteSpace] at h
  split at h
  · cases h
  · rw [← Option.some.inj h]
    exact length_skipLoop_le encoding isWhiteSpace p.length p

/-- The characters that are skipped as marks. -/
def marks : List Bytes := [[0xEF, 0xBB, 0xBF], [0xEF, 0xBF, 0xBE], [0xEF, 0xBF, 0xBF]]

theorem isMark_iff (p : Bytes) : isMark p = true ↔ p.take 3 ∈ marks := by
  simp [isMark, marks, or_assoc]

theorem not_isMark {c : UInt8} (h : c ≠ 0xEF) (p : Bytes) : isMark (c :: p) = false := by
  rw [Bool.eq_false_iff, ne_eq, isMark_iff]
  intro hmem
  simp only [marks, List.take_succ_cons, List.mem_cons, List.cons.injEq, List.not_mem_nil,
    or_false] at hmem
  rcases hmem with hmem | hmem | hmem <;> exact h hmem.1

/-- Only a character that is a mark is taken for one. -/
theorem Sequence.isMark_iff_mem {u : Bytes} (h : Sequence u) (rest : Bytes) :
    isMark (u ++ rest) = true ↔ u ∈ marks := by
  cases h with
  | single htable =>
      rename_i c
      have hc : c ≠ 0xEF := by
        rintro rfl
        exact absurd htable (by decide)
      rw [List.singleton_append, not_isMark hc]
      exact iff_of_false Bool.false_ne_true (by simp [marks])
  | several htable hne hl =>
      rename_i c l
      by_cases hc : c = 0xEF
      · have hlength : l.length = 2 := by
          rw [hc] at htable
          exact (Nat.succ.inj htable).symm
        have htake : (c :: l ++ rest).take 3 = c :: l :=
          List.take_left' (by rw [List.length_cons, hlength])
        rw [isMark_iff, htake]
      · rw [List.cons_append, not_isMark hc]
        refine iff_of_false Bool.false_ne_true ?_
        simp [marks, hc]

/-- The text without the blanks and marks in front of it. -/
def skipText (t : Bytes) : Bytes := skip .utf8 (· == 32) t

/-- A character that is skipped in front of a text. -/
def Skipped (u : Bytes) : Prop := u = [32] ∨ u ∈ marks

instance (u : Bytes) : Decidable (Skipped u) := inferInstanceAs (Decidable (_ ∨ _))

theorem skip_of_mark (blank : UInt8 → Bool) {u : Bytes} (h : u ∈ marks) (rest : Bytes) :
    skip .utf8 blank (u ++ rest) = skip .utf8 blank rest := by
  simp only [marks, List.mem_cons, List.not_mem_nil, or_false] at h
  rcases h with rfl | rfl | rfl <;>
    exact (skip_cons _ _ _ _).trans (if_pos ⟨rfl, rfl⟩)

theorem skip_blank {blank : UInt8 → Bool} {c : UInt8} (h : blank c = true) (hc : c ≠ 0xEF)
    (rest : Bytes) : skip .utf8 blank (c :: rest) = skip .utf8 blank rest := by
  rw [skip_cons, not_isMark hc, if_neg (by simp), if_pos h]

theorem skipText_append {u : Bytes} (h : Sequence u) (t : Bytes) :
    skipText (u ++ t) = if Skipped u then skipText t else u ++ t := by
  by_cases hskipped : Skipped u
  · rw [if_pos hskipped]
    rcases hskipped with rfl | hmark
    · exact skip_blank rfl (by decide) t
    · exact skip_of_mark _ hmark t
  · rw [if_neg hskipped]
    have hmark : isMark (u ++ t) = false := by
      rw [Bool.eq_false_iff, ne_eq, h.isMark_iff_mem]
      exact fun hmem => hskipped (.inr hmem)
    cases h with
    | single htable =>
        rename_i c
        have hc : (c == 32) = false := by
          rw [beq_eq_false_iff_ne]
          exact fun heq => hskipped (.inl (by rw [heq]))
        rw [skipText, List.singleton_append, skip_cons, ← List.singleton_append, hmark,
          if_neg (by simp), hc, if_neg (by simp)]
    | several htable hne hl =>
        rename_i c l
        have hc : (c == 32) = false := by
          rw [beq_eq_false_iff_ne]
          rintro rfl
          exact hne (List.length_eq_zero_iff.mp (Nat.succ.inj htable).symm)
        rw [skipText, List.cons_append, skip_cons, ← List.cons_append, hmark, if_neg (by simp), hc,
          if_neg (by simp)]

theorem skip_escape_append {u : Bytes} (h : Sequence u) (rest : Bytes) :
    skip .utf8 isWhiteSpace (escape u ++ rest) =
      if Skipped u then skip .utf8 isWhiteSpace rest else escape u ++ rest := by
  by_cases hskipped : Skipped u
  · rw [if_pos hskipped]
    rcases hskipped with rfl | hmark
    · exact skip_blank rfl (by decide) rest
    · have hescape : escape u = u := by
        simp only [marks, List.mem_cons, List.not_mem_nil, or_false] at hmark
        rcases hmark with rfl | rfl | rfl <;> rfl
      rw [hescape]
      exact skip_of_mark _ hmark rest
  · rw [if_neg hskipped]
    have hmark : isMark (escape u ++ rest) = false := by
      cases h with
      | single htable =>
          rename_i c
          have hc : c ≠ 0xEF := by
            rintro rfl
            exact absurd htable (by decide)
          have hescape : escape [c] = encodeByte c := List.append_nil _
          rw [hescape]
          rcases encodeByte_head c with ⟨l, hcode⟩ | hcode
          · rw [hcode, List.cons_append, not_isMark (by decide)]
          · rw [hcode, List.singleton_append, not_isMark hc]
      | several htable hne hl =>
          rw [Sequence.escape_several htable hne hl, Bool.eq_false_iff, ne_eq,
            (Sequence.several htable hne hl).isMark_iff_mem]
          exact fun hmem => hskipped (.inr hmem)
    obtain ⟨d, l, hescape, -, -, -, hspace⟩ := h.head_escape
    have hd : isWhiteSpace d = false := by
      rw [Bool.eq_false_iff, ne_eq, hspace]
      exact fun heq => hskipped (.inl heq)
    rw [hescape, List.cons_append] at hmark ⊢
    rw [skip_cons, hmark, if_neg (by simp), hd, if_neg (by simp)]

theorem Sequenced.skipText {t : Bytes} (h : Sequenced t) : Sequenced (TiXml.skipText t) := by
  induction h with
  | nil => exact .nil
  | append hu ht ih =>
      rw [skipText_append hu]
      split
      · exact ih
      · exact .append hu ht

theorem skipText_skipText {t : Bytes} (h : Sequenced t) : skipText (skipText t) = skipText t := by
  induction h with
  | nil => rfl
  | append hu _ ih =>
      rw [skipText_append hu]
      split
      · exact ih
      · rename_i hskipped
        rw [skipText_append hu, if_neg hskipped]

/-- In front of a text the same is skipped as in front of what is written for it. -/
theorem skip_escape {t : Bytes} (h : Sequenced t) (rest : Bytes) :
    skip .utf8 isWhiteSpace (escape t ++ rest) =
      if skipText t = [] then skip .utf8 isWhiteSpace rest else escape (skipText t) ++ rest := by
  induction h with
  | nil => exact (if_pos rfl).symm
  | append hu ht ih =>
      rename_i u t
      rw [escape_append, List.append_assoc, skip_escape_append hu, skipText_append hu]
      by_cases hskipped : Skipped u
      · rw [if_pos hskipped, if_pos hskipped, ih]
      · have hne : u ++ t ≠ [] := by
          intro hnil
          rw [List.append_eq_nil_iff] at hnil
          obtain ⟨d, l, hescape, -⟩ := hu.head_escape
          rw [hnil.1] at hescape
          cases hescape
        rw [if_neg hskipped, if_neg hskipped, if_neg hne, escape_append, List.append_assoc]

/-- White space is skipped. -/
theorem skip_space {ws : Bytes} (h : ∀ c ∈ ws, isWhiteSpace c = true) (rest : Bytes) :
    skip .utf8 isWhiteSpace (ws ++ rest) = skip .utf8 isWhiteSpace rest := by
  induction ws with
  | nil => rfl
  | cons c ws ih =>
      have hc := h c List.mem_cons_self
      have hmark : c ≠ 0xEF := by
        rintro rfl
        exact absurd hc (by decide)
      rw [List.cons_append, skip_blank hc hmark, ih fun d hd => h d (List.mem_cons_of_mem c hd)]

/-! ## The loops of `ReadText` -/

/-- The loop that condenses white space, on a text: of the blanks between two characters
one is kept. -/
def condense : Bool → Bytes → Bytes
  | _, [] => []
  | whitespace, c :: t =>
      if c = 32 then condense true t
      else (if whitespace then [32] else []) ++ c :: condense false t

theorem condense_append_visible {v : Bytes} (h : 32 ∉ v) (hne : v ≠ []) (whitespace : Bool)
    (t : Bytes) :
    condense whitespace (v ++ t) = (if whitespace then [32] else []) ++ v ++ condense false t := by
  cases v with
  | nil => exact absurd rfl hne
  | cons c v =>
      rw [List.mem_cons, not_or] at h
      have hrest : ∀ v : Bytes, 32 ∉ v → condense false (v ++ t) = v ++ condense false t := by
        intro v hv
        induction v with
        | nil => rfl
        | cons d v ih =>
            rw [List.mem_cons, not_or] at hv
            rw [List.cons_append, condense, if_neg (Ne.symm hv.1), ih hv.2]
            rfl
      rw [List.cons_append, condense, if_neg (Ne.symm h.1), hrest v h.2, List.append_assoc,
        List.cons_append]

theorem Sequence.visible {u : Bytes} (h : Sequence u) (hblank : u ≠ [32]) : 32 ∉ u ∧ u ≠ [] := by
  cases h with
  | single htable =>
      refine ⟨?_, List.cons_ne_nil _ _⟩
      rw [List.mem_singleton]
      rintro rfl
      exact hblank rfl
  | several htable hne hl =>
      refine ⟨?_, List.cons_ne_nil _ _⟩
      rw [List.mem_cons, not_or]
      constructor
      · rintro rfl
        exact hne (List.length_eq_zero_iff.mp (Nat.succ.inj htable).symm)
      · exact fun hmem => absurd (hl 32 hmem) (by decide)

theorem keepLoop_end {encoding : Encoding} {endTag p : Bytes}
    (h : p = [] ∨ endTag.isPrefixOf p = true) (fuel : Nat) (text : Bytes) :
    keepLoop encoding endTag fuel text p = .ok (text, some p) := by
  cases fuel <;> exact if_pos h

theorem condenseLoop_end {endTag p : Bytes} (h : p = [] ∨ endTag.isPrefixOf p = true) (fuel : Nat)
    (whitespace : Bool) (text : Bytes) :
    condenseLoop .utf8 endTag fuel whitespace text p = .ok (text, some p) := by
  cases fuel <;> exact if_pos h

/-- A value between quotes is read back as it was. -/
theorem keepLoop_escape {t : Bytes} (h : Sequenced t) {q : UInt8}
    (hq : q = singleQuote ∨ q = doubleQuote) (rest : Bytes) {fuel : Nat} (text : Bytes)
    (hfuel : (escape t ++ q :: rest).length ≤ fuel) :
    keepLoop .utf8 [q] fuel text (escape t ++ q :: rest) = .ok (text ++ t, some (q :: rest)) := by
  induction h generalizing fuel text with
  | nil =>
      have hend : escape [] ++ q :: rest = [] ∨ [q].isPrefixOf (escape [] ++ q :: rest) = true :=
        .inr (by simp [escape])
      rw [keepLoop_end hend, List.append_nil]
      rfl
  | append hu ht ih =>
      rename_i u t
      obtain ⟨d, l, hescape, -, hsingle, hdouble, -⟩ := hu.head_escape
      have hd : q ≠ d := by
        rcases hq with rfl | rfl
        · exact hsingle.symm
        · exact hdouble.symm
      have hgo : ¬ (escape (u ++ t) ++ q :: rest = [] ∨
          [q].isPrefixOf (escape (u ++ t) ++ q :: rest) = true) := by
        rw [escape_append, hescape]
        simp [hd]
      have hlength : (escape t ++ q :: rest).length < fuel := by
        rw [escape_append, hescape] at hfuel
        simp only [List.cons_append, List.length_cons, List.length_append] at hfuel ⊢
        omega
      obtain ⟨fuel, rfl⟩ : ∃ n, fuel = n + 1 := ⟨fuel - 1, by omega⟩
      rw [keepLoop, if_neg hgo, escape_append, List.append_assoc]
      simp only [hu.getChar_escape]
      change keepLoop .utf8 [q] fuel (text ++ u) (escape t ++ q :: rest) = _
      rw [ih (text ++ u) (by omega), List.append_assoc]

theorem condenseLoop_space {ws : Bytes} (h : ∀ c ∈ ws, isWhiteSpace c = true) (more : Bytes)
    {fuel : Nat} (whitespace : Bool) (text : Bytes) (hfuel : ws.length ≤ fuel) :
    condenseLoop .utf8 (bytes ['<']) fuel whitespace text (ws ++ '<'.toUInt8 :: more) =
      .ok (text, some ('<'.toUInt8 :: more)) := by
  induction ws generalizing fuel whitespace with
  | nil =>
      have hend : [] ++ '<'.toUInt8 :: more = [] ∨
          (bytes ['<']).isPrefixOf ([] ++ '<'.toUInt8 :: more) = true := .inr (by simp [bytes])
      exact condenseLoop_end hend fuel whitespace text
  | cons c ws ih =>
      have hc := h c List.mem_cons_self
      have hgo : ¬ (c :: ws ++ '<'.toUInt8 :: more = [] ∨
          (bytes ['<']).isPrefixOf (c :: ws ++ '<'.toUInt8 :: more) = true) := by
        have hne : '<'.toUInt8 ≠ c := by
          rintro rfl
          exact absurd hc (by decide)
        simp [bytes, hne]
      rw [List.length_cons] at hfuel
      obtain ⟨fuel, rfl⟩ : ∃ n, fuel = n + 1 := ⟨fuel - 1, by omega⟩
      rw [condenseLoop, if_neg hgo]
      simp only [List.cons_append, List.headD_cons, hc, if_true, List.drop_succ_cons,
        List.drop_zero]
      exact ih (fun d hd => h d (List.mem_cons_of_mem c hd)) true (by omega)

/-- A text in front of a tag is read back condensed. -/
theorem condenseLoop_escape {t ws : Bytes} (h : Sequenced t)
    (hws : ∀ c ∈ ws, isWhiteSpace c = true) (more : Bytes) {fuel : Nat} (whitespace : Bool)
    (text : Bytes) (hfuel : (escape t ++ ws).length ≤ fuel) :
    condenseLoop .utf8 (bytes ['<']) fuel whitespace text
        (escape t ++ (ws ++ '<'.toUInt8 :: more)) =
      .ok (text ++ condense whitespace t, some ('<'.toUInt8 :: more)) := by
  induction h generalizing fuel whitespace text with
  | nil =>
      rw [condense, List.append_nil]
      exact condenseLoop_space hws more whitespace text hfuel
  | append hu ht ih =>
      rename_i u t
      obtain ⟨d, l, hescape, htag, -, -, hspace⟩ := hu.head_escape
      have hgo : ¬ (escape (u ++ t) ++ (ws ++ '<'.toUInt8 :: more) = [] ∨
          (bytes ['<']).isPrefixOf (escape (u ++ t) ++ (ws ++ '<'.toUInt8 :: more)) = true) := by
        rw [escape_append, hescape]
        simp [bytes, Ne.symm htag]
      have hlength : (escape t ++ ws).length < fuel := by
        rw [escape_append, hescape] at hfuel
        simp only [List.cons_append, List.length_cons, List.length_append] at hfuel ⊢
        omega
      obtain ⟨fuel, rfl⟩ : ∃ n, fuel = n + 1 := ⟨fuel - 1, by omega⟩
      rw [condenseLoop, if_neg hgo, escape_append, List.append_assoc]
      by_cases hblank : u = [32]
      · subst hblank
        have htext : condenseLoop .utf8 (bytes ['<']) fuel true text
            (escape t ++ (ws ++ '<'.toUInt8 :: more)) = _ := ih true text (by omega)
        rw [List.singleton_append, condense, if_pos rfl, ← htext]
        exact if_pos rfl
      · have hd : isWhiteSpace d = false := by
          rw [Bool.eq_false_iff, ne_eq, hspace]
          exact hblank
        have hhead : isWhiteSpace
            ((escape u ++ (escape t ++ (ws ++ '<'.toUInt8 :: more))).headD 0) = false := by
          rw [hescape]
          exact hd
        obtain ⟨hvisible, hne⟩ := hu.visible hblank
        rw [hhead, if_neg Bool.false_ne_true, condense_append_visible hvisible hne]
        simp only [hu.getChar_escape]
        change condenseLoop .utf8 (bytes ['<']) fuel false
          ((if whitespace = true then text ++ [32] else text) ++ u)
          (escape t ++ (ws ++ '<'.toUInt8 :: more)) = _
        rw [ih false _ (by omega)]
        cases whitespace <;> simp

end OpenZWave.TiXml
