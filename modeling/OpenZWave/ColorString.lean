import Mathlib.Tactic.IntervalCases
import OpenZWave.Lib.Checked
import OpenZWave.WellFormedRequests

/-!
# Setting a color string

`Color::SetValue` with the accesses that it makes: the first character by `at`, two
characters of each color by `substr`, and two arrays of eight elements. Between `try` and
`catch (...)` an exception ends in `false`; `throw` without an exception ends the process
there as well. The count of the colors, the length byte and the pairs that are appended
each follow a condition of their own.
-/

namespace OpenZWave

open NumberText Checked

namespace Color

/-- What ends `SetValue` early: the exception of `at` and `substr`, `throw` without an
exception, or an index outside an array. -/
inductive Fault
  | outOfRange
  | terminate
  | arrayIndex
  deriving DecidableEq

/-- `std::string::substr`. -/
def substr (s : List Char) (pos count : ℕ) : Except Fault (List Char) := do
  check (pos ≤ s.length) .outOfRange
  return (s.drop pos).take count

/-- `GetColor`, with its access to the string. Two blanks leave `rawresult` without a
value; it is zero here. -/
def readColor (rgbstring : List Char) (position : ℕ) : Except Fault UInt16 := do
  check (position * 2 + 1 ≤ rgbstring.length) .terminate
  let result ← substr rgbstring ((position - 1) * 2 + 1) 2
  return UInt16.ofInt (strtol 16 result).1

/-- `colvals` and `colvalset`. -/
structure Arrays where
  colvals : List UInt8
  colvalset : List Bool

namespace Arrays

def new : Arrays where
  colvals := List.replicate 8 0
  colvalset := List.replicate 8 false

/-- `colvals[index] = GetColor(s, position)`. -/
def read (arrays : Arrays) (s : List Char) (index : UInt8) (position : ℕ) :
    Except Fault Arrays := do
  let color ← readColor s position
  let colvals ← writeAt arrays.colvals index.toNat color.toUInt8 .arrayIndex
  return { arrays with colvals := colvals }

/-- `colvalset[index] = true`. -/
def mark (arrays : Arrays) (index : UInt8) : Except Fault Arrays := do
  let colvalset ← writeAt arrays.colvalset index.toNat true .arrayIndex
  return { arrays with colvalset := colvalset }

def readSet (arrays : Arrays) (s : List Char) (index : UInt8) (position : ℕ) :
    Except Fault Arrays := do
  let c ← arrays.read s index position
  c.mark index

/-- Warm and cold white. -/
def readWhites (arrays : Arrays) (s : List Char) : Except Fault Arrays := do
  let c ← arrays.read s warmWhite 4
  let c ← c.read s coldWhite 5
  let c ← c.mark warmWhite
  c.mark coldWhite

/-- The block between `try` and `catch`. -/
def decode (s : List Char) (nocols : UInt8) : Except Fault Arrays := do
  let c ← new.read s red 1
  let c ← c.read s green 2
  let c ← c.read s blue 3
  let c ← (if nocols = 4 then c.readSet s warmWhite 4 else .ok c)
  let c ← (if nocols ≥ 5 then c.readWhites s else .ok c)
  let c ← (if nocols ≥ 6 then c.readSet s amber 6 else .ok c)
  let c ← (if nocols ≥ 7 then c.readSet s cyan 7 else .ok c)
  if nocols = 8 then c.readSet s purple 8 else .ok c

/-- A color is appended as its index and its element of `colvals`. -/
def pair (arrays : Arrays) (index : UInt8) : Except Fault (List (UInt8 × UInt8)) := do
  let level ← readAt arrays.colvals index.toNat .arrayIndex
  return [(index, level)]

def isSet (arrays : Arrays) (index : UInt8) : Except Fault Bool :=
  readAt arrays.colvalset index.toNat .arrayIndex

def pairIfSet (arrays : Arrays) (index : UInt8) : Except Fault (List (UInt8 × UInt8)) := do
  let set ← arrays.isSet index
  if set then arrays.pair index else .ok []

def whitePairs (arrays : Arrays) : Except Fault (List (UInt8 × UInt8)) := do
  let warm ← arrays.pair warmWhite
  let cold ← arrays.pair coldWhite
  return warm ++ cold

/-- The pairs that are appended behind the count. -/
def appended (arrays : Arrays) : Except Fault (List (UInt8 × UInt8)) := do
  let r ← arrays.pair red
  let g ← arrays.pair green
  let b ← arrays.pair blue
  let warm ← arrays.isSet warmWhite
  let cold ← arrays.isSet coldWhite
  let allWhite ← (if warm && !cold then arrays.pair warmWhite else .ok [])
  let whites ← (if warm && cold then arrays.whitePairs else .ok [])
  let a ← arrays.pairIfSet amber
  let c ← arrays.pairIfSet cyan
  let p ← arrays.pairIfSet purple
  return r ++ g ++ b ++ allWhite ++ whites ++ a ++ c ++ p

end Arrays

/-- `catch (...)`: the exception of the library is caught, the end of the process is not. -/
def caught {α : Type} : Except Fault α → Except Fault (Option α)
  | .ok a => .ok (some a)
  | .error .outOfRange => .ok none
  | .error fault => .error fault

def pairBytes (pairs : List (UInt8 × UInt8)) : List UInt8 :=
  pairs.flatMap fun p => [p.1, p.2]

/-- The number of colors that a string has room for, as a byte. -/
def nocols (s : List Char) : UInt8 := UInt8.ofNat ((s.length - 1) / 2)

/-- The request for the colors that are set. -/
def setRequest (sender : Sender) (id : ℕ) (inst : UInt8) (duration : Option Int32) (nocols : UInt8)
    (pairs : List (UInt8 × UInt8)) : SendData :=
  sender.request (sender.onInstance (sender.setNoReply id) inst)
    (declaredLength sender.cc.version nocols)
    ([classId, cmdSet, nocols] ++ pairBytes pairs ++ durationBytes sender.cc.version 15300 duration)

/-- `SetValue` for the color string. -/
def setString (sender : Sender) (id : ℕ) (inst : UInt8) (duration : Option Int32) (s : List Char) :
    Except Fault (Bool × List SendData) := do
  let first ← readAt s 0 .outOfRange
  if first ≠ '#' then return (false, [])
  if (s.length - 1) % 2 ≠ 0 then return (false, [])
  match ← caught (Arrays.decode s (nocols s)) with
  | none => return (false, [])
  | some arrays =>
      let pairs ← arrays.appended
      return (true, [setRequest sender id inst duration (nocols s) pairs])

/-! ## What is read and appended -/

/-- The color at a position that the string reaches. -/
def colorAt (rgbstring : List Char) (position : ℕ) : UInt16 :=
  UInt16.ofInt (strtol 16 ((rgbstring.drop ((position - 1) * 2 + 1)).take 2)).1

/-- The test of the length keeps `substr` within the string. -/
theorem readColor_of_long {s : List Char} {position : ℕ} (hlong : position * 2 + 1 ≤ s.length) :
    readColor s position = .ok (colorAt s position) := by
  rw [readColor, check_bind hlong, substr, check, if_pos (by omega)]
  rfl

theorem readColor_of_short {s : List Char} {position : ℕ} (hshort : s.length < position * 2 + 1) :
    readColor s position = .error .terminate := by
  rw [readColor, check, if_neg (by omega)]
  rfl

/-- The pairs of a string, each at its position. -/
def pairsAt (s : List Char) (positions : List (UInt8 × ℕ)) : List (UInt8 × UInt8) :=
  positions.map fun p => (p.1, (colorAt s p.2).toUInt8)

theorem decode_of_few {s : List Char} {n : ℕ} (hn : n < 9)
    (hcolor : ∀ p ∈ colorPositions (UInt8.ofNat n), readColor s p.2 = .ok (colorAt s p.2)) :
    ∃ arrays, Arrays.decode s (UInt8.ofNat n) = .ok arrays ∧
      arrays.appended = .ok (pairsAt s (colorPositions (UInt8.ofNat n))) := by
  -- each number of colors takes its own branches of the block
  interval_cases n <;>
    simp [colorPositions] at hcolor <;>
    simp [Arrays.decode, Arrays.readSet, Arrays.readWhites, Arrays.read, hcolor] <;>
    exact ⟨_, rfl, rfl⟩

theorem decode_of_many {s : List Char} {nocols : UInt8} (hmany : 9 ≤ nocols.toNat)
    (hcolor : ∀ p ∈ colorPositions nocols, readColor s p.2 = .ok (colorAt s p.2)) :
    ∃ arrays, Arrays.decode s nocols = .ok arrays ∧
      arrays.appended = .ok (pairsAt s (colorPositions nocols)) := by
  have hge : ∀ k : UInt8, k.toNat ≤ 8 → nocols ≥ k := fun k hk =>
    UInt8.le_iff_toNat_le.mpr (by omega)
  have hne : ∀ k : UInt8, k.toNat ≤ 8 → nocols ≠ k := fun k hk heq => by
    rw [heq] at hmany
    omega
  rw [colorPositions_of_many hmany] at hcolor ⊢
  simp at hcolor
  simp only [Arrays.decode, if_neg (hne 4 (by decide)), if_pos (hge 5 (by decide)),
    if_pos (hge 6 (by decide)), if_pos (hge 7 (by decide)), if_neg (hne 8 (by decide)),
    Arrays.readSet, Arrays.readWhites, Arrays.read, hcolor]
  exact ⟨_, rfl, rfl⟩

/-- A string with all the colors that are read of it. -/
theorem decode_of_long {s : List Char} {nocols : UInt8}
    (hlong : ∀ p ∈ colorPositions nocols, p.2 * 2 + 1 ≤ s.length) :
    ∃ arrays, Arrays.decode s nocols = .ok arrays ∧
      arrays.appended = .ok (pairsAt s (colorPositions nocols)) := by
  have hcolor : ∀ p ∈ colorPositions nocols, readColor s p.2 = .ok (colorAt s p.2) :=
    fun p hp => readColor_of_long (hlong p hp)
  rcases Nat.lt_or_ge nocols.toNat 9 with hfew | hmany
  · have hdecode := @decode_of_few s nocols.toNat hfew
    rw [UInt8.ofNat_toNat] at hdecode
    exact hdecode hcolor
  · exact decode_of_many hmany hcolor

/-- Red, green and blue are read of every string. -/
theorem decode_of_short {s : List Char} (hshort : s.length < 7) (nocols : UInt8) :
    Arrays.decode s nocols = .error .terminate := by
  have hblue : readColor s 3 = .error .terminate := readColor_of_short hshort
  rcases Nat.lt_or_ge s.length 3 with hnone | hone
  · have hred : readColor s 1 = .error .terminate := readColor_of_short hnone
    simp only [Arrays.decode, Arrays.read, hred]
    rfl
  have hred : readColor s 1 = .ok (colorAt s 1) := readColor_of_long hone
  rcases Nat.lt_or_ge s.length 5 with hfew | htwo
  · have hgreen : readColor s 2 = .error .terminate := readColor_of_short hfew
    simp only [Arrays.decode, Arrays.read, hred, hgreen]
    rfl
  · have hgreen : readColor s 2 = .ok (colorAt s 2) := readColor_of_long htwo
    simp only [Arrays.decode, Arrays.read, hred, hgreen, hblue]
    rfl

/-! ## The request -/

/-- The count is the number of the pairs that follow it, and the length byte is the length
of the command. -/
structure Counted (sender : Sender) (duration : Option Int32) (request : SendData) : Prop where
  count : ∃ (count : UInt8) (pairs : List (UInt8 × UInt8)), count.toNat = pairs.length ∧
    request.command = [classId, cmdSet, count] ++ pairBytes pairs ++
      durationBytes sender.cc.version 15300 duration
  length : request.declared.toNat = request.command.length

/-- It returns: false and nothing is sent, or one request is sent that is counted. -/
def SetSafely (sender : Sender) (duration : Option Int32)
    (result : Except Fault (Bool × List SendData)) : Prop :=
  result = .ok (false, []) ∨
    ∃ request, result = .ok (true, [request]) ∧ Counted sender duration request

variable {sender : Sender} {id : ℕ} {inst : UInt8} {duration : Option Int32}

theorem length_pairBytes (pairs : List (UInt8 × UInt8)) :
    (pairBytes pairs).length = 2 * pairs.length := by
  induction pairs with
  | nil => rfl
  | cons p pairs ih =>
      rw [pairBytes, List.flatMap_cons, List.length_append, ← pairBytes, ih]
      simp only [List.length_cons, List.length_nil]
      omega

theorem length_pairsAt (s : List Char) (nocols : UInt8) :
    (pairsAt s (colorPositions nocols)).length = appendedColors nocols.toNat := by
  rw [pairsAt, List.length_map, length_colorPositions]

theorem length_setRequest (nocols : UInt8) (pairs : List (UInt8 × UInt8)) :
    (setRequest sender id inst duration nocols pairs).command.length =
      3 + 2 * pairs.length + if sender.cc.version > 1 then 1 else 0 := by
  rw [setRequest, Sender.request, List.length_append, List.length_append, length_pairBytes,
    length_durationBytes]
  rfl

/-- The colors that are appended are counted if there are from three to eight. -/
theorem appendedColors_eq_iff (nocols : ℕ) : nocols = appendedColors nocols ↔ 3 ≤ nocols ∧ nocols ≤ 8 := by
  rw [appendedColors]
  split
  · omega
  · split <;> omega

theorem counted_setRequest_iff (s : List Char) (nocols : UInt8) :
    Counted sender duration
        (setRequest sender id inst duration nocols (pairsAt s (colorPositions nocols))) ↔
      3 ≤ nocols.toNat ∧ nocols.toNat ≤ 8 := by
  have hlength := length_pairsAt s nocols
  rw [← appendedColors_eq_iff, ← hlength]
  constructor
  · rintro ⟨⟨count, pairs, hcount, hcommand⟩, -⟩
    obtain ⟨hhead, htail⟩ := List.append_inj' hcommand rfl
    have hthird := congrArg (fun bytes : List UInt8 => bytes[2]?) hhead
    obtain rfl : nocols = count := Option.some.inj hthird
    have hbytes := congrArg List.length hhead
    rw [List.length_append, List.length_append, length_pairBytes, length_pairBytes] at hbytes
    simp only [List.length_cons, List.length_nil] at hbytes
    omega
  · intro hcount
    refine ⟨⟨nocols, _, hcount, rfl⟩, ?_⟩
    have hfew := appendedColors_le nocols.toNat
    rw [length_setRequest]
    refine (declaredLength_eq_iff sender.cc.version nocols (hlength ▸ hfew)).mpr ?_
    rw [← hlength] at hfew
    omega

/-- A string of which colors are read. -/
def Announced (s : List Char) : Prop := s.head? = some '#' ∧ (s.length - 1) % 2 = 0

theorem readAt_zero (c : Char) (colors : List Char) :
    readAt (c :: colors) 0 Fault.outOfRange = .ok c := rfl

theorem setString_of_not_announced {s : List Char} (hne : s ≠ []) (h : ¬ Announced s) :
    setString sender id inst duration s = .ok (false, []) := by
  obtain ⟨c, colors, rfl⟩ := List.exists_cons_of_ne_nil hne
  by_cases hc : c = '#'
  · have hodd : colors.length % 2 ≠ 0 := fun heven => h ⟨congrArg some hc, heven⟩
    simp [setString, readAt_zero, hc, hodd]
  · simp [setString, readAt_zero, ok_bind, hc]
    rfl

/-- The colors of an announced string are decoded, and what is thrown there is caught. -/
theorem setString_of_announced {s : List Char} (h : Announced s) :
    setString sender id inst duration s = (do
      match ← caught (Arrays.decode s (nocols s)) with
      | none => return (false, [])
      | some arrays =>
          let pairs ← arrays.appended
          return (true, [setRequest sender id inst duration (nocols s) pairs])) := by
  obtain ⟨hhead, heven⟩ := h
  obtain ⟨colors, rfl⟩ := List.head?_eq_some_iff.mp hhead
  have hlength : ('#' :: colors).length - 1 = colors.length := rfl
  rw [hlength] at heven
  simp only [setString, readAt, List.getElem?_cons_zero, hlength, heven]
  rfl

theorem setString_of_short {s : List Char} (h : Announced s) (hshort : s.length < 7) :
    setString sender id inst duration s = .error .terminate := by
  rw [setString_of_announced h, decode_of_short hshort]
  rfl

theorem toNat_nocols (s : List Char) : (nocols s).toNat = (s.length - 1) / 2 % 256 :=
  UInt8.toNat_ofNat'

/-- A string with three colors or more has all the colors that are read of it. -/
theorem positions_of_long {s : List Char} (hlong : 7 ≤ s.length) :
    ∀ p ∈ colorPositions (nocols s), p.2 * 2 + 1 ≤ s.length := by
  intro p hp
  have hle := colorPositions_le p hp
  rw [toNat_nocols] at hle
  omega

theorem setString_of_long {s : List Char} (h : Announced s) (hlong : 7 ≤ s.length) :
    setString sender id inst duration s =
      .ok (true, [setRequest sender id inst duration (nocols s)
        (pairsAt s (colorPositions (nocols s)))]) := by
  obtain ⟨arrays, hdecode, happended⟩ := decode_of_long (positions_of_long hlong)
  rw [setString_of_announced h, hdecode]
  change (arrays.appended >>= _) = _
  rw [happended]
  rfl

/-- Exactly when `SetValue` is safe for a string: it is not empty, and if colors are read
of it, their number, as a byte, is from three to eight. -/
theorem setString_safe_iff (sender : Sender) (id : ℕ) (inst : UInt8) (duration : Option Int32)
    (s : List Char) :
    SetSafely sender duration (setString sender id inst duration s) ↔
      s ≠ [] ∧ (Announced s → 3 ≤ (s.length - 1) / 2 % 256 ∧ (s.length - 1) / 2 % 256 ≤ 8) := by
  by_cases hempty : s = []
  · subst hempty
    refine iff_of_false ?_ fun h => h.1 rfl
    rintro (h | ⟨request, h, -⟩) <;> cases h
  by_cases hannounced : Announced s
  swap
  · rw [setString_of_not_announced hempty hannounced]
    exact iff_of_true (.inl rfl) ⟨hempty, fun h => absurd h hannounced⟩
  rw [and_iff_right hempty, ← toNat_nocols, imp_iff_right hannounced]
  rcases Nat.lt_or_ge s.length 7 with hshort | hlong
  · rw [setString_of_short hannounced hshort, toNat_nocols]
    refine iff_of_false ?_ fun h => by omega
    rintro (h | ⟨request, h, -⟩) <;> cases h
  · rw [setString_of_long hannounced hlong, ← @counted_setRequest_iff sender id inst duration s]
    constructor
    · rintro (h | ⟨request, h, hcounted⟩)
      · cases h
      · cases h
        exact hcounted
    · exact fun hcounted => .inr ⟨_, rfl, hcounted⟩

/-- The pairs are those of the colors that are read one after the other. -/
theorem colorBytes_eq_pairBytes {s : List Char} {positions : List (UInt8 × ℕ)}
    (hlong : ∀ p ∈ positions, p.2 * 2 + 1 ≤ s.length) :
    colorBytes s positions = .ok (pairBytes (pairsAt s positions)) := by
  induction positions with
  | nil => rfl
  | cons p positions ih =>
      obtain ⟨hfirst, hrest⟩ := List.forall_mem_cons.mp hlong
      have hcolor : getColor s p.2 = .ok (colorAt s p.2) := if_neg (Nat.not_lt.mpr hfirst)
      rw [colorBytes, hcolor, ih hrest]
      rfl

theorem setColor_of_not_announced {s : List Char} (hne : s ≠ []) (h : ¬ Announced s) :
    setColor sender id inst duration s = .ok (false, []) := by
  obtain ⟨c, colors, rfl⟩ := List.exists_cons_of_ne_nil hne
  by_cases hc : c = '#'
  · have hodd : colors.length % 2 ≠ 0 := fun heven => h ⟨congrArg some hc, heven⟩
    simp [setColor, hc, hodd]
    rfl
  · simp [setColor, hc]
    rfl

/-- The builder without arrays sends the same. -/
theorem setString_eq_ok_iff (s : List Char) (result : Bool × List SendData) :
    setString sender id inst duration s = .ok result ↔
      setColor sender id inst duration s = .ok result := by
  by_cases hempty : s = []
  · subst hempty
    exact iff_of_false nofun nofun
  by_cases hannounced : Announced s
  swap
  · rw [setString_of_not_announced hempty hannounced, setColor_of_not_announced hempty hannounced,
      Except.ok.injEq, Except.ok.injEq]
  obtain ⟨colors, rfl⟩ := List.head?_eq_some_iff.mp hannounced.1
  have heven : colors.length % 2 = 0 := hannounced.2
  rcases Nat.lt_or_ge ('#' :: colors).length 7 with hshort | hlong
  · rw [setString_of_short hannounced hshort]
    refine iff_of_false nofun fun h => ?_
    cases hbytes : colorBytes ('#' :: colors) (colorPositions (UInt8.ofNat (colors.length / 2))) with
    | error e =>
        rw [setColor_of_error heven hbytes] at h
        cases h
    | ok bytes =>
        have hblue := (colorBytes_ok hbytes).2 (blue, 3) (by simp [colorPositions])
        omega
  · have hpositions := positions_of_long hlong
    rw [setString_of_long hannounced hlong,
      setColor_of_colors rfl heven (colorBytes_eq_pairBytes hpositions),
      Except.ok.injEq, Except.ok.injEq]
    rfl

/-- A class of node 5. -/
def plain5 : Sender where
  nodeId := 5
  transmitOptions := 0x25
  cc := CommandClass.new
  micc := none

/-- The empty string, one color, and nine colors. -/
theorem setString_unsafe :
    ¬ SetSafely plain5 none (setString plain5 0 1 none []) ∧
    ¬ SetSafely plain5 none (setString plain5 0 1 none ['#', 'F', 'F']) ∧
    ¬ SetSafely plain5 none (setString plain5 0 1 none ('#' :: List.replicate 18 'F')) := by
  refine ⟨?_, ?_, ?_⟩
  · rintro (h | ⟨request, h, -⟩) <;> cases h
  · have hone : setString plain5 0 1 none ['#', 'F', 'F'] = .error .terminate :=
      setString_of_short ⟨rfl, rfl⟩ (by decide)
    rw [hone]
    rintro (h | ⟨request, h, -⟩) <;> cases h
  · have hnine := @setString_of_long plain5 0 1 none ('#' :: List.replicate 18 'F') ⟨rfl, rfl⟩
      (by decide)
    rw [hnine]
    rintro (h | ⟨request, h, hcounted⟩)
    · cases h
    · cases h
      have hcount := (counted_setRequest_iff _ _).mp hcounted
      exact absurd hcount.2 (by decide)

end Color

end OpenZWave
