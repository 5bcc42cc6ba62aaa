import Mathlib.Data.List.GetD
import Mathlib.Data.List.Nodup
import OpenZWave.ColorString
import OpenZWave.Lib.ByteBuffer

/-!
# The text of a color

`decodeColor` writes the colors of a device as text and `SetValue` reads such a text. The
text leaves out what is not supported as far as it can, and the reader goes by the length
of the text. What the text says is compared with what a device is then told.
-/

namespace OpenZWave

open NumberText ByteBuffer

namespace Color

/-! ## The text -/

/-- Two hexadecimal digits. -/
def hexByte (level : UInt8) : List Char := printHexByte level.toNat

/-- The streams `ss` and `ssbuf`. -/
structure TextStream where
  ss : List Char
  ssbuf : List Char
  usingbuf : Bool

namespace TextStream

def put (t : TextStream) (text : List Char) : TextStream := { t with ss := t.ss ++ text }

def buffer (t : TextStream) (text : List Char) : TextStream :=
  { t with ssbuf := t.ssbuf ++ text, usingbuf := true }

/-- The buffer is appended if it is in use. -/
def flush (t : TextStream) : TextStream :=
  if t.usingbuf then { ss := t.ss ++ t.ssbuf, ssbuf := [], usingbuf := false } else t

end TextStream

/-- `decodeColor`. Its argument is not read. -/
def decodeColor (capabilities : UInt16) (colorvalues _valueArray : Vector UInt8 9) : List Char :=
  let level (color : UInt8) : List Char := hexByte (peek colorvalues color.toNat)
  let rgb (color : UInt8) : List Char := if has capabilities color then level color else ['0', '0']
  let t : TextStream :=
    { ss := '#' :: (rgb red ++ rgb green ++ rgb blue), ssbuf := [], usingbuf := false }
  let t :=
    if has capabilities warmWhite && has capabilities coldWhite then
      (t.put (level warmWhite)).put (level coldWhite)
    else if has capabilities warmWhite then t.put (level warmWhite)
    else if has capabilities coldWhite then t.put (level coldWhite)
    else t.buffer ['0', '0', '0', '0']
  let t := if has capabilities amber then t.flush.put (level amber) else t.buffer ['0', '0']
  let t := if has capabilities cyan then t.flush.put (level cyan) else t.buffer ['0', '0']
  let t := if has capabilities purple then t.flush.put (level purple) else t
  t.ss

/-! ## What a device is told -/

/-- The pairs that a count announces. -/
def takePairs : ℕ → List UInt8 → List (UInt8 × UInt8)
  | n + 1, index :: level :: bytes => (index, level) :: takePairs n bytes
  | _, _ => []

/-- What a `ColorCmd_Set` lists. -/
def listed (request : SendData) : List (UInt8 × UInt8) :=
  match request.command with
  | _ :: _ :: count :: bytes => takePairs count.toNat bytes
  | _ => []

/-- Red, green, blue, the white colors, amber, cyan and purple, as they follow each other in
a text. -/
def channels : List UInt8 := [red, green, blue, warmWhite, coldWhite, amber, cyan, purple]

/-- One `ColorCmd_Set` is sent. It lists each supported channel with its value, and none
with another. -/
def Sets (capabilities : UInt16) (values : Vector UInt8 9)
    (result : Except Fault (Bool × List SendData)) : Prop :=
  ∃ request, result = .ok (true, [request]) ∧ request.command.take 2 = [classId, cmdSet] ∧
    ∀ channel ∈ channels, has capabilities channel = true →
      ∀ level, (channel, level) ∈ listed request ↔ level = peek values channel.toNat

/-- White is supported as the text has a place for it: both colors or none, or warm white
and no color behind it. -/
def LaidOut (capabilities : UInt16) : Prop :=
  has capabilities warmWhite = has capabilities coldWhite ∨
    has capabilities warmWhite = true ∧ has capabilities amber = false ∧
      has capabilities cyan = false ∧ has capabilities purple = false

/-! ## The places of a text -/

/-- The places behind red, green and blue, for the supported channels and their levels. -/
def tailSlots (warm cold ambers cyans purples : Bool) (level : UInt8 → UInt8) : List UInt8 :=
  (if warm then [level warmWhite] else []) ++ (if cold then [level coldWhite] else []) ++
    (if !warm && !cold && (ambers || cyans || purples) then [0, 0] else []) ++
    (if ambers then [level amber] else if cyans || purples then [0] else []) ++
    (if cyans then [level cyan] else if purples then [0] else []) ++
    (if purples then [level purple] else [])

/-- The places of a text. -/
def slots (capabilities : UInt16) (level : UInt8 → UInt8) : List UInt8 :=
  let rgb (color : UInt8) : UInt8 := if has capabilities color then level color else 0
  [rgb red, rgb green, rgb blue] ++
    tailSlots (has capabilities warmWhite) (has capabilities coldWhite) (has capabilities amber)
      (has capabilities cyan) (has capabilities purple) level

def text (places : List UInt8) : List Char := '#' :: places.flatMap hexByte

theorem decodeColor_eq_text (capabilities : UInt16) (colorvalues valueArray : Vector UInt8 9) :
    decodeColor capabilities colorvalues valueArray =
      text (slots capabilities fun color => peek colorvalues color.toNat) := by
  have hzero : hexByte 0 = ['0', '0'] := rfl
  have hrgb : ∀ color, (if has capabilities color then hexByte (peek colorvalues color.toNat)
      else ['0', '0']) =
      hexByte (if has capabilities color then peek colorvalues color.toNat else 0) := by
    intro color
    split <;> rfl
  simp only [decodeColor, hrgb, slots, text]
  -- the buffer is written out when a supported color follows it
  cases has capabilities warmWhite <;> cases has capabilities coldWhite <;>
    cases has capabilities amber <;> cases has capabilities cyan <;>
    cases has capabilities purple <;>
    simp [TextStream.put, TextStream.buffer, TextStream.flush, tailSlots, hzero]

theorem length_slots (capabilities : UInt16) (level : UInt8 → UInt8) :
    3 ≤ (slots capabilities level).length ∧ (slots capabilities level).length ≤ 8 := by
  simp only [slots]
  cases has capabilities warmWhite <;> cases has capabilities coldWhite <;>
    cases has capabilities amber <;> cases has capabilities cyan <;>
    cases has capabilities purple <;> simp [tailSlots]

/-- Where white has its place, so has each supported color behind it. -/
theorem tailSlots_of_laidOut {warm cold ambers cyans purples : Bool}
    (hlaid : warm = cold ∨ warm = true ∧ ambers = false ∧ cyans = false ∧ purples = false)
    (level : UInt8 → UInt8) :
    let tail := tailSlots warm cold ambers cyans purples level
    (warm = true → tail[0]? = some (level warmWhite)) ∧
    (cold = true → tail[1]? = some (level coldWhite)) ∧
    (ambers = true → tail[2]? = some (level amber)) ∧
    (cyans = true → tail[3]? = some (level cyan)) ∧
    (purples = true → tail[4]? = some (level purple)) := by
  cases warm <;> cases cold <;> cases ambers <;> cases cyans <;> cases purples <;>
    simp [tailSlots] at hlaid ⊢

/-- Otherwise the places end before one of them. -/
theorem tailSlots_of_not_laidOut {warm cold ambers cyans purples : Bool}
    (hlaid : ¬ (warm = cold ∨ warm = true ∧ ambers = false ∧ cyans = false ∧ purples = false))
    (level : UInt8 → UInt8) :
    let tail := tailSlots warm cold ambers cyans purples level
    cold = true ∧ tail[1]? = none ∨ ambers = true ∧ tail[2]? = none ∨
      cyans = true ∧ tail[3]? = none ∨ purples = true ∧ tail[4]? = none := by
  cases warm <;> cases cold <;> cases ambers <;> cases cyans <;> cases purples <;>
    simp [tailSlots] at hlaid ⊢

theorem forall_mem_channels {P : UInt8 → Prop} :
    (∀ channel ∈ channels, P channel) ↔ (P red ∧ P green ∧ P blue) ∧
      P warmWhite ∧ P coldWhite ∧ P amber ∧ P cyan ∧ P purple := by
  simp [channels, and_assoc]

theorem slots_of_laidOut {capabilities : UInt16} (hlaid : LaidOut capabilities)
    (level : UInt8 → UInt8) :
    ∀ channel ∈ channels, has capabilities channel = true →
      (slots capabilities level)[channels.idxOf channel]? = some (level channel) := by
  have hrgb : ∀ color, has capabilities color = true →
      some (if has capabilities color then level color else 0) = some (level color) := by
    intro color hcolor
    rw [if_pos hcolor]
  exact forall_mem_channels.mpr
    ⟨⟨hrgb red, hrgb green, hrgb blue⟩, tailSlots_of_laidOut hlaid level⟩

theorem exists_lost_of_not_laidOut {capabilities : UInt16} (hlaid : ¬ LaidOut capabilities)
    (level : UInt8 → UInt8) :
    ∃ channel ∈ channels, has capabilities channel = true ∧
      (slots capabilities level)[channels.idxOf channel]? = none := by
  obtain h | h | h | h := tailSlots_of_not_laidOut hlaid level
  · exact ⟨coldWhite, by decide, h⟩
  · exact ⟨amber, by decide, h⟩
  · exact ⟨cyan, by decide, h⟩
  · exact ⟨purple, by decide, h⟩

/-! ## Reading a text -/

theorem length_hexByte (level : UInt8) : (hexByte level).length = 2 := by
  rw [hexByte, printHexByte_eq level.toNat_lt]
  rfl

theorem length_text (places : List UInt8) : (text places).length = 2 * places.length + 1 := by
  rw [text, List.length_cons]
  congr 1
  induction places with
  | nil => rfl
  | cons level places ih =>
      rw [List.flatMap_cons, List.length_append, length_hexByte, ih, List.length_cons]
      omega

/-- The two characters of a place. -/
theorem take_drop_text {places : List UInt8} {i : ℕ} (hi : i < places.length) :
    ((text places).drop (i * 2 + 1)).take 2 = hexByte places[i] := by
  rw [text, List.drop_succ_cons]
  induction places generalizing i with
  | nil => cases hi
  | cons level places ih =>
      have hlength := length_hexByte level
      rw [List.flatMap_cons]
      cases i with
      | zero =>
          rw [Nat.zero_mul, List.drop_zero, List.take_append_of_le_length (by omega),
            List.take_of_length_le (by omega)]
          rfl
      | succ i =>
          rw [List.drop_append, List.drop_of_length_le (by omega), List.nil_append, hlength,
            Nat.succ_mul, Nat.add_sub_cancel]
          exact ih (Nat.lt_of_succ_lt_succ hi)

theorem colorAt_text {places : List UInt8} {i : ℕ} (hi : i < places.length) :
    (colorAt (text places) (i + 1)).toUInt8 = places[i] := by
  have hbyte := places[i].toNat_lt
  have hread := strtol_printHexByte hbyte
  rw [colorAt, Nat.add_sub_cancel, take_drop_text hi, hexByte, hread]
  have hnat : UInt16.ofInt (places[i].toNat : ℤ) = UInt16.ofNat places[i].toNat := by
    change UInt16.ofNat ((places[i].toNat : ℤ) % 2 ^ 16).toNat = _
    congr 1
    omega
  rw [hnat]
  simp

theorem colorPositions_of_channels {n : ℕ} (hfew : 3 ≤ n) (hmany : n ≤ 8) :
    colorPositions (UInt8.ofNat n) = (channels.zipIdx 1).take n := by
  interval_cases n <;> rfl

/-- A text lists the channels from the first one on, as many as it has places. -/
theorem pairsAt_text {places : List UInt8} (hfew : 3 ≤ places.length) (hmany : places.length ≤ 8) :
    pairsAt (text places) (colorPositions (UInt8.ofNat places.length)) = channels.zip places := by
  have hchannels : channels.length = 8 := rfl
  rw [pairsAt, colorPositions_of_channels hfew hmany]
  apply List.ext_getElem
  · rw [List.length_map, List.length_take, List.length_zipIdx, List.length_zip]
    omega
  · intro i hi _
    rw [List.length_map, List.length_take] at hi
    have hplace : i < places.length := by omega
    rw [List.getElem_map, List.getElem_take, List.getElem_zipIdx, List.getElem_zip, Nat.add_comm 1 i,
      colorAt_text hplace]

theorem takePairs_pairBytes (pairs : List (UInt8 × UInt8)) (rest : List UInt8) :
    takePairs pairs.length (pairBytes pairs ++ rest) = pairs := by
  induction pairs with
  | nil => rfl
  | cons p pairs ih =>
      rw [List.length_cons, pairBytes, List.flatMap_cons, ← pairBytes]
      exact congrArg (p :: ·) ih

variable {sender : Sender} {id : ℕ} {inst : UInt8} {duration : Option Int32}

theorem listed_setRequest {nocols : UInt8} {pairs : List (UInt8 × UInt8)}
    (hcount : nocols.toNat = pairs.length) :
    listed (setRequest sender id inst duration nocols pairs) = pairs := by
  have hlisted : listed (setRequest sender id inst duration nocols pairs) =
      takePairs nocols.toNat
        (pairBytes pairs ++ durationBytes sender.cc.version 15300 duration) := rfl
  rw [hlisted, hcount, takePairs_pairBytes]

/-- The text of some places is sent as a list of the channels that have one. -/
theorem setString_text {places : List UInt8} (hfew : 3 ≤ places.length)
    (hmany : places.length ≤ 8) :
    ∃ request, setString sender id inst duration (text places) = .ok (true, [request]) ∧
      request.command.take 2 = [classId, cmdSet] ∧ listed request = channels.zip places := by
  have hlength := length_text places
  have hannounced : Announced (text places) := ⟨rfl, by rw [hlength]; omega⟩
  have hnocols : nocols (text places) = UInt8.ofNat places.length := by
    rw [nocols, hlength]
    congr 1
    omega
  have hset := @setString_of_long sender id inst duration _ hannounced (by rw [hlength]; omega)
  rw [hnocols, pairsAt_text hfew hmany] at hset
  refine ⟨_, hset, rfl, listed_setRequest ?_⟩
  have hchannels : channels.length = 8 := rfl
  rw [UInt8.toNat_ofNat', List.length_zip]
  omega

theorem nodup_channels : channels.Nodup := by decide

/-- A channel is listed with what stands at its place. -/
theorem mem_zip_channels_iff {places : List UInt8} {channel level : UInt8}
    (hchannel : channel ∈ channels) :
    (channel, level) ∈ channels.zip places ↔ places[channels.idxOf channel]? = some level := by
  have hindex := List.idxOf_lt_length_of_mem hchannel
  rw [List.mem_iff_getElem?]
  constructor
  · rintro ⟨i, hi⟩
    obtain ⟨hfirst, hsecond⟩ := List.getElem?_zip_eq_some.mp hi
    obtain ⟨hlt, rfl : channels[i] = channel⟩ := List.getElem?_eq_some_iff.mp hfirst
    rw [nodup_channels.idxOf_getElem i hlt]
    exact hsecond
  · intro h
    refine ⟨channels.idxOf channel, List.getElem?_zip_eq_some.mpr ⟨?_, h⟩⟩
    rw [List.getElem?_eq_getElem hindex]
    exact congrArg some (List.getElem_idxOf hindex)

/-- What a text makes a device set, by what stands at the place of each channel. -/
theorem sets_text_iff {capabilities : UInt16} {values : Vector UInt8 9} {places : List UInt8}
    (hfew : 3 ≤ places.length) (hmany : places.length ≤ 8) :
    Sets capabilities values (setString sender id inst duration (text places)) ↔
      ∀ channel ∈ channels, has capabilities channel = true →
        places[channels.idxOf channel]? = some (peek values channel.toNat) := by
  obtain ⟨request, hset, hcommand, hlisted⟩ :=
    @setString_text sender id inst duration places hfew hmany
  constructor
  · rintro ⟨other, hother, -, hlist⟩ channel hchannel hhas
    cases hset.symm.trans hother
    apply (mem_zip_channels_iff hchannel).mp
    rw [← hlisted]
    exact (hlist channel hchannel hhas _).mpr rfl
  · intro h
    refine ⟨request, hset, hcommand, fun channel hchannel hhas level => ?_⟩
    rw [hlisted, mem_zip_channels_iff hchannel, h channel hchannel hhas, Option.some.injEq]
    exact eq_comm

/-! ## The round trip -/

/-- The frame lists the supported channels with these values exactly when white has its
place in the text, and the stored values are the same. -/
theorem sets_decodeColor_iff (capabilities : UInt16) (colorvalues values : Vector UInt8 9) :
    Sets capabilities values (setString sender id inst duration
        (decodeColor capabilities colorvalues values)) ↔
      LaidOut capabilities ∧ ∀ channel ∈ channels, has capabilities channel = true →
        peek colorvalues channel.toNat = peek values channel.toNat := by
  obtain ⟨hfew, hmany⟩ := length_slots capabilities fun color => peek colorvalues color.toNat
  rw [decodeColor_eq_text, sets_text_iff hfew hmany]
  by_cases hlaid : LaidOut capabilities
  · rw [and_iff_right hlaid]
    refine forall₃_congr fun channel hchannel hhas => ?_
    rw [slots_of_laidOut hlaid _ channel hchannel hhas, Option.some.injEq]
  · refine iff_of_false (fun h => ?_) fun h => hlaid h.1
    obtain ⟨channel, hchannel, hhas, hlost⟩ :=
      exists_lost_of_not_laidOut hlaid fun color => peek colorvalues color.toNat
    cases hlost.symm.trans (h channel hchannel hhas)

/-- Whatever the class has stored, the text of an argument is the same. -/
def Determined (capabilities : UInt16) : Prop :=
  ∀ valueArray stored stored' : Vector UInt8 9,
    decodeColor capabilities stored valueArray = decodeColor capabilities stored' valueArray

theorem text_injective {places places' : List UInt8} (h : text places = text places') :
    places = places' := by
  have hlength := congrArg List.length h
  rw [length_text, length_text] at hlength
  apply List.ext_getElem
  · omega
  · intro i hi hi'
    rw [← colorAt_text hi, ← colorAt_text hi', h]

theorem level_mem_slots {capabilities : UInt16} (level : UInt8 → UInt8) :
    ∀ channel ∈ channels, has capabilities channel = true →
      level channel ∈ slots capabilities level := by
  have htail : ∀ warm cold ambers cyans purples : Bool,
      let tail := tailSlots warm cold ambers cyans purples level
      (warm = true → level warmWhite ∈ tail) ∧ (cold = true → level coldWhite ∈ tail) ∧
      (ambers = true → level amber ∈ tail) ∧ (cyans = true → level cyan ∈ tail) ∧
      (purples = true → level purple ∈ tail) := by
    intro warm cold ambers cyans purples
    refine ⟨?_, ?_, ?_, ?_, ?_⟩ <;> rintro rfl <;> simp [tailSlots]
  refine forall_mem_channels.mpr ⟨⟨?_, ?_, ?_⟩, ?_⟩
  · intro h
    simp [slots, h]
  · intro h
    simp [slots, h]
  · intro h
    simp [slots, h]
  · obtain ⟨hwarm, hcold, hamber, hcyan, hpurple⟩ := htail (has capabilities warmWhite)
      (has capabilities coldWhite) (has capabilities amber) (has capabilities cyan)
      (has capabilities purple)
    exact ⟨fun h => List.mem_append_right _ (hwarm h), fun h => List.mem_append_right _ (hcold h),
      fun h => List.mem_append_right _ (hamber h), fun h => List.mem_append_right _ (hcyan h),
      fun h => List.mem_append_right _ (hpurple h)⟩

theorem mem_slots_zero {capabilities : UInt16} {place : UInt8}
    (h : place ∈ slots capabilities fun _ => 0) : place = 0 := by
  simp only [slots, tailSlots, ite_self] at h
  revert h
  cases has capabilities warmWhite <;> cases has capabilities coldWhite <;>
    cases has capabilities amber <;> cases has capabilities cyan <;>
    cases has capabilities purple <;> simp

/-- Since the argument is not read, only a text without colors is determined by it. -/
theorem determined_iff (capabilities : UInt16) :
    Determined capabilities ↔ ∀ channel ∈ channels, has capabilities channel = false := by
  constructor
  · intro h channel hchannel
    by_contra hhas
    have hones := h (Vector.replicate 9 0) (Vector.replicate 9 1) (Vector.replicate 9 0)
    rw [decodeColor_eq_text, decodeColor_eq_text] at hones
    have hzero : (fun color : UInt8 => peek (Vector.replicate 9 (0 : UInt8)) color.toNat) =
        fun _ => 0 := by
      funext color
      rw [peek, Vector.toList_replicate, List.getD_eq_getElem?_getD,
        List.getElem?_getD_replicate_default_eq]
    have hone : ∀ channel ∈ channels,
        peek (Vector.replicate 9 (1 : UInt8)) channel.toNat = 1 :=
      forall_mem_channels.mpr ⟨⟨rfl, rfl, rfl⟩, rfl, rfl, rfl, rfl, rfl⟩
    have hmem := level_mem_slots (fun color => peek (Vector.replicate 9 (1 : UInt8)) color.toNat)
      channel hchannel (Bool.eq_true_of_not_eq_false hhas)
    rw [text_injective hones, hzero, hone channel hchannel] at hmem
    exact absurd (mem_slots_zero hmem) (by decide)
  · intro h valueArray stored stored'
    obtain ⟨⟨hred, hgreen, hblue⟩, hwarm, hcold, hamber, hcyan, hpurple⟩ := forall_mem_channels.mp h
    rw [decodeColor_eq_text, decodeColor_eq_text]
    simp [slots, tailSlots, hred, hgreen, hblue, hwarm, hcold, hamber, hcyan, hpurple]

/-- Exactly when the text is determined by its argument, and exactly when a device that is
sent the text is told the values of the argument. -/
theorem decodeColor_roundTrips_iff (sender : Sender) (id : ℕ) (inst : UInt8)
    (duration : Option Int32) (capabilities : UInt16) :
    (Determined capabilities ↔ ∀ channel ∈ channels, has capabilities channel = false) ∧
    ∀ colorvalues values : Vector UInt8 9,
      Sets capabilities values (setString sender id inst duration
          (decodeColor capabilities colorvalues values)) ↔
        LaidOut capabilities ∧ ∀ channel ∈ channels, has capabilities channel = true →
          peek colorvalues channel.toNat = peek values channel.toNat :=
  ⟨determined_iff capabilities, fun colorvalues values =>
    sets_decodeColor_iff capabilities colorvalues values⟩

/-- A device of red, green and blue whose stored values are others than the argument, and
one that has cold white besides. -/
theorem decodeColor_not_roundTrips :
    ¬ Determined 0x1C ∧
    ¬ Sets 0x1C (Vector.replicate 9 255) (setString plain5 0 1 none
        (decodeColor 0x1C (Vector.replicate 9 0) (Vector.replicate 9 255))) ∧
    ¬ Sets 0x1E (Vector.replicate 9 255) (setString plain5 0 1 none
        (decodeColor 0x1E (Vector.replicate 9 255) (Vector.replicate 9 255))) := by
  refine ⟨fun h => ?_, fun h => ?_, fun h => ?_⟩
  · have hred := (determined_iff 0x1C).mp h red (by decide)
    exact absurd hred (by decide)
  · have hred := ((sets_decodeColor_iff _ _ _).mp h).2 red (by decide) (by decide)
    exact absurd hred (by decide)
  · obtain hwhite | ⟨hwarm, -⟩ := ((sets_decodeColor_iff _ _ _).mp h).1
    · exact absurd hwhite (by decide)
    · exact absurd hwarm (by decide)

end Color

end OpenZWave
