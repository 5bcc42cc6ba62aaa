import OpenZWave.Lib.NumberList
import Mathlib.Data.List.DropRight
import Mathlib.Data.List.Forall2

/-!
# The network key

`Driver::GetNetworkKey` reads the key from the option `NetworkKey`: sixteen bytes in base
sixteen with commas between them. `split` and `trim` are those of `Utils.cpp`, the numbers are
read with `sscanf`. The key is kept once it is read.
-/

namespace OpenZWave

open NumberText

/-- The word that was read is pushed, unless it is empty and empty ones are dropped. -/
def pushWord (removeEmpty : Bool) (lst : List (List Char)) (word : List Char) :
    List (List Char) :=
  if word ≠ [] ∨ removeEmpty = false then lst ++ [word] else lst

/-- The loop of `split`, from the word and the list so far. -/
def splitLoop (separators : List Char) (removeEmpty : Bool) :
    List Char → List Char → List (List Char) → List (List Char)
  | [], word, lst => pushWord removeEmpty lst word
  | c :: cs, word, lst =>
      if c ∉ separators then splitLoop separators removeEmpty cs (word ++ [c]) lst
      else splitLoop separators removeEmpty cs [] (pushWord removeEmpty lst word)

/-- `split`: the words between separators. -/
def split (input separators : List Char) (removeEmpty : Bool) : List (List Char) :=
  splitLoop separators removeEmpty input [] []

/-- `isgraph`. -/
def isGraph (c : Char) : Bool := decide (33 ≤ c.toNat) && decide (c.toNat ≤ 126)

def ltrim (s : List Char) : List Char := s.dropWhile fun c => !isGraph c

def rtrim (s : List Char) : List Char := s.rdropWhile fun c => !isGraph c

def trim (s : List Char) : List Char := ltrim (rtrim s)

/-- What `sscanf` with the format `%x` does: the end of the text comes before a number, no
number is in front, or a number is stored. -/
inductive Scanned
  | eof | failed
  | stored (value : UInt32)
  deriving DecidableEq, Repr

/-- The prefix of a number in base sixteen, which a digit has to follow. -/
def dropHexPrefix : List Char → List Char
  | '0' :: x :: cs => if x = 'x' ∨ x = 'X' then cs else '0' :: x :: cs
  | cs => cs

def scanHex (text : List Char) : Scanned :=
  let text := text.dropWhile isSpace
  if text = [] then .eof
  else
    let sign := readSign text
    let numeral := dropHexPrefix sign.2
    if numeral.head?.bind (digit? 16) = none then .failed
    else .stored (UInt32.ofInt (signed sign.1 (min (readDigits 16 0 numeral).1 (2 ^ 64 - 1))))

/-- Both are reported as `OZWEXCEPTION_SECURITY_FAILED`. -/
inductive KeyError
  | failedToRead | failedToConvert
  deriving DecidableEq, Repr

/-- The static variables of `GetNetworkKey`. -/
structure KeyStore where
  keybytes : Vector UInt8 16
  keySet : Bool
  deriving DecidableEq, Repr

/-- The loop over the items. The numbers go through `tempkey`, which is not initialised. -/
def convertItems : List (List Char) → ℕ → Vector UInt32 16 → Vector UInt8 16 →
    Except KeyError Unit × Vector UInt8 16
  | [], _, _, keybytes => (.ok (), keybytes)
  | item :: items, i, tempkey, keybytes =>
      match scanHex (cStr (trim item)) with
      | .failed => (.error .failedToConvert, keybytes)
      | .eof =>
          convertItems items (i + 1) tempkey
            (keybytes.setIfInBounds i (tempkey[i]?.getD 0).toUInt8)
      | .stored value =>
          convertItems items (i + 1) (tempkey.setIfInBounds i value)
            (keybytes.setIfInBounds i value.toUInt8)

/-- `Driver::GetNetworkKey`, for a value of the option and what is found in `tempkey`. -/
def getNetworkKey (networkKey : List Char) (tempkey : Vector UInt32 16) (store : KeyStore) :
    Except KeyError (Vector UInt8 16) × KeyStore :=
  if store.keySet then (.ok store.keybytes, store)
  else
    let elems := split networkKey [','] true
    if elems.length ≠ 16 then (.error .failedToRead, store)
    else
      match convertItems elems 0 tempkey store.keybytes with
      | (.error e, keybytes) => (.error e, ⟨keybytes, false⟩)
      | (.ok (), keybytes) => (.ok keybytes, ⟨keybytes, true⟩)

/-! ## Splitting -/

theorem splitLoop_eq (separators : List Char) (removeEmpty : Bool) (input word : List Char)
    (lst : List (List Char)) :
    splitLoop separators removeEmpty input word lst =
      lst ++ (input.splitOnPPrepend (fun c => decide (c ∈ separators)) word.reverse).filter
        fun w => decide (w ≠ []) || !removeEmpty := by
  have hpush : ∀ (lst : List (List Char)) (word : List Char), pushWord removeEmpty lst word =
      lst ++ [word].filter fun w => decide (w ≠ []) || !removeEmpty := by
    intro lst word
    cases removeEmpty <;> cases word <;> simp [pushWord]
  induction input generalizing word lst with
  | nil => rw [splitLoop, hpush, List.splitOnPPrepend_nil, List.reverse_reverse]
  | cons c cs ih =>
      rw [splitLoop]
      by_cases hsep : c ∈ separators
      · rw [if_neg (not_not.mpr hsep), ih, hpush,
          List.splitOnPPrepend_cons_pos (by simpa using hsep), List.reverse_reverse,
          List.append_assoc, ← List.filter_append, List.reverse_nil,
          List.splitOnPPrepend_nil_right]
        rfl
      · rw [if_pos hsep, ih, List.splitOnPPrepend_cons_neg (by simpa using hsep),
          List.reverse_concat]

theorem split_eq (input : List Char) (sep : Char) :
    split input [sep] true = (input.splitOn sep).filter fun word => decide (word ≠ []) := by
  rw [split, splitLoop_eq, List.nil_append, List.reverse_nil, List.splitOnPPrepend_nil_right,
    List.splitOn_eq_splitOnP]
  simp [beq_eq_decide]

/-! ## Trimming -/

theorem isGraph_of_digit {base : ℕ} {c : Char} (h : (digit? base c).isSome) : isGraph c = true := by
  have hcode := toNat_of_isSome h
  rw [isGraph, Bool.and_eq_true, decide_eq_true_iff, decide_eq_true_iff]
  omega

theorem isGraph_of_isSpace {c : Char} (h : isSpace c = true) : isGraph c = false := by
  have hcode := isSpace_iff.mp h
  rw [isGraph, Bool.and_eq_false_iff, decide_eq_false_iff_not, decide_eq_false_iff_not]
  omega

theorem dropWhile_append_of_head {p : Char → Bool} {before word : List Char}
    (hbefore : ∀ c ∈ before, p c = true) (hfirst : ∀ c ∈ word.head?, p c = false) :
    (before ++ word).dropWhile p = word := by
  rw [List.dropWhile_append_of_pos hbefore]
  cases word with
  | nil => rfl
  | cons c cs => exact List.dropWhile_cons_of_neg (by simp [hfirst c rfl])

/-- Blanks around a word are trimmed. -/
theorem trim_append {before after word : List Char} (hbefore : ∀ c ∈ before, isSpace c = true)
    (hafter : ∀ c ∈ after, isSpace c = true) (hword : ∀ c ∈ word, isGraph c = true)
    (hne : word ≠ []) : trim (before ++ word ++ after) = word := by
  have hblank : ∀ c, isSpace c = true → (!isGraph c) = true := by
    intro c hc
    rw [isGraph_of_isSpace hc]
    rfl
  have hrtrim : rtrim (before ++ word ++ after) = before ++ word := by
    rw [rtrim, List.rdropWhile, List.reverse_append, dropWhile_append_of_head,
      List.reverse_reverse]
    · exact fun c hc => hblank c (hafter c (List.mem_reverse.mp hc))
    · intro c hc
      rw [List.head?_reverse, List.getLast?_append_of_ne_nil _ hne] at hc
      rw [hword c (List.mem_of_getLast? hc)]
      rfl
  rw [trim, hrtrim, ltrim]
  apply dropWhile_append_of_head fun c hc => hblank c (hbefore c hc)
  intro c hc
  rw [hword c (List.mem_of_head? hc)]
  rfl

/-! ## Bytes -/

/-- A complete byte in base sixteen: blanks, a prefix, digits with a value below 256, blanks. -/
def HexByte (item : List Char) (value : UInt8) : Prop :=
  ∃ before leading digits after, (∀ c ∈ before, isSpace c = true) ∧
    (∀ c ∈ after, isSpace c = true) ∧ leading ∈ [[], ['0', 'x'], ['0', 'X']] ∧
    digits ≠ [] ∧ (∀ c ∈ digits, (digit? 16 c).isSome) ∧
    item = before ++ (leading ++ digits) ++ after ∧
    (readDigits 16 0 digits).1 = value.toNat

theorem dropHexPrefix_of_digits {digits : List Char}
    (hdigits : ∀ c ∈ digits, (digit? 16 c).isSome) :
    dropHexPrefix digits = digits := by
  rw [dropHexPrefix.eq_def]
  split
  · rename_i x cs
    have hx := hdigits x (by simp)
    apply if_neg
    rintro (rfl | rfl) <;> cases hx
  · rfl

/-- A complete byte is scanned. -/
theorem HexByte.scanned {item : List Char} {value : UInt8} (h : HexByte item value) :
    scanHex (cStr (trim item)) = .stored value.toUInt32 := by
  obtain ⟨before, leading, digits, after, hbefore, hafter, hleading, hne, hdigits, rfl, hvalue⟩ := h
  have hgraph : ∀ c ∈ leading ++ digits, isGraph c = true := by
    intro c hc
    rcases List.mem_append.mp hc with hc | hc
    · simp only [List.mem_cons, List.not_mem_nil, or_false] at hleading
      rcases hleading with rfl | rfl | rfl <;> simp at hc <;> rcases hc with rfl | rfl <;> rfl
    · exact isGraph_of_digit (hdigits c hc)
  have hword : leading ++ digits ≠ [] := List.append_ne_nil_of_right_ne_nil leading hne
  have hterminated : cStr (leading ++ digits) = leading ++ digits := by
    apply List.takeWhile_eq_self_iff.mpr
    intro c hc
    apply decide_eq_true
    rintro rfl
    exact absurd (hgraph _ hc) (by decide)
  have hblank : (leading ++ digits).dropWhile isSpace = leading ++ digits := by
    apply @dropWhile_append_of_head isSpace [] _ (fun _ hmem => absurd hmem List.not_mem_nil)
    intro c hc
    apply Bool.eq_false_iff.mpr
    intro hspace
    have hnot := isGraph_of_isSpace hspace
    rw [hgraph c (List.mem_of_head? hc)] at hnot
    cases hnot
  obtain ⟨c, cs, rfl⟩ := List.exists_cons_of_ne_nil hne
  have hc := hdigits c List.mem_cons_self
  have hsign : readSign (leading ++ c :: cs) = (false, leading ++ c :: cs) := by
    apply readSign_of_ne
    intro d hd
    have hdigit : (digit? 16 d).isSome := by
      simp only [List.mem_cons, List.not_mem_nil, or_false] at hleading
      rcases hleading with rfl | rfl | rfl <;> cases hd
      · exact hc
      · rfl
      · rfl
    exact ⟨ne_of_digit hdigit (digit?_eq_none (by decide)),
      ne_of_digit hdigit (digit?_eq_none (by decide))⟩
  have hprefix : dropHexPrefix (leading ++ c :: cs) = c :: cs := by
    simp only [List.mem_cons, List.not_mem_nil, or_false] at hleading
    rcases hleading with rfl | rfl | rfl
    · exact dropHexPrefix_of_digits hdigits
    · rfl
    · rfl
  have hfirst : (c :: cs).head?.bind (digit? 16) ≠ none := Option.isSome_iff_ne_none.mp hc
  have hsmall : min value.toNat (2 ^ 64 - 1) = value.toNat := by
    have hless := value.toNat_lt
    omega
  have hnumber : UInt32.ofInt (signed false value.toNat) = value.toUInt32 := by
    rw [signed, if_neg Bool.false_ne_true, ofInt_natCast (value.toNat_lt.trans (by decide)),
      ← UInt8.toNat_toUInt32, UInt32.ofNat_toNat]
  simp only [scanHex, trim_append hbefore hafter hgraph hword, hterminated, hblank, if_neg hword,
    hsign, hprefix, if_neg hfirst, hvalue, hsmall, hnumber]

/-! ## The key -/

/-- Items that are bytes are stored one after the other. -/
theorem convertItems_bytes {items : List (List Char)} {values : List UInt8}
    (h : List.Forall₂ HexByte items values) (i : ℕ) (tempkey : Vector UInt32 16)
    (keybytes : Vector UInt8 16) (hroom : i + items.length ≤ 16) :
    ∃ after, convertItems items i tempkey keybytes = (.ok (), after) ∧
      after.toList = keybytes.toList.take i ++ values ++
        keybytes.toList.drop (i + values.length) := by
  induction h generalizing i tempkey keybytes with
  | nil => exact ⟨keybytes, rfl, by simp⟩
  | @cons item value items values hitem hitems ih =>
      rw [List.length_cons] at hroom
      obtain ⟨after, hconvert, hafter⟩ := ih (i + 1) (tempkey.setIfInBounds i value.toUInt32)
        (keybytes.setIfInBounds i value) (by omega)
      refine ⟨after, ?_, ?_⟩
      · rw [convertItems, hitem.scanned]
        simpa using hconvert
      · have hbound : i < (keybytes.toList.set i value).length := by simp; omega
        rw [hafter, Vector.toList_setIfInBounds, List.take_succ_eq_append_getElem hbound,
          List.take_set_of_le (Nat.le_refl i), List.getElem_set_self,
          List.drop_set_of_lt (by omega), List.append_assoc, List.append_assoc, List.append_assoc, List.length_cons,
          Nat.add_right_comm, Nat.add_assoc, List.singleton_append, List.cons_append]

/-- The sixteen bytes that the option spells. -/
def SpellsKey (networkKey : List Char) (key : Vector UInt8 16) : Prop :=
  List.Forall₂ HexByte ((networkKey.splitOn ',').filter fun word => decide (word ≠ [])) key.toList

/-- A key that is spelled is read. -/
theorem getNetworkKey_of_spells {networkKey : List Char} {key : Vector UInt8 16}
    (h : SpellsKey networkKey key) (tempkey : Vector UInt32 16) (keybytes : Vector UInt8 16) :
    getNetworkKey networkKey tempkey ⟨keybytes, false⟩ = (.ok key, ⟨key, true⟩) := by
  have hlength := h.length_eq
  rw [Vector.length_toList] at hlength
  obtain ⟨after, hconvert, hafter⟩ := convertItems_bytes h 0 tempkey keybytes (by omega)
  have hkey : after = key := by
    apply Vector.toList_inj.mp
    rw [hafter, List.take_zero, List.nil_append, Nat.zero_add, List.drop_of_length_le (by simp),
      List.append_nil]
  rw [getNetworkKey, if_neg nofun, split_eq]
  simp only [hlength, hconvert, hkey, ne_eq, not_true, if_false]

end OpenZWave
