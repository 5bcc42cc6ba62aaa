import OpenZWave.AppendValue
import OpenZWave.SendDataRequests

/-!
# Declared and appended lengths

For each builder the length byte is compared with the bytes that follow it. Four of the
builders always agree with themselves. `Configuration::Set` and `Color::SetValue` append
by other rules than they count, `SetCommand` has no bound on its length, and the request
for a log record is one byte longer than declared.
-/

namespace OpenZWave

/-- The calls that build the requests. -/
inductive BuilderCall
  | configurationSet (parameter : UInt16) (value : Int32) (size : UInt8)
  | colorSetValue (inst : UInt8) (capabilities : UInt16) (duration : Option Int32)
      (value : Color.Value)
  | thermostatSetpointSetValue (inst override : UInt8) (index : UInt16) (units : List Char)
      (value : Option (List Char))
  | switchMultilevelSetLevel (inst level : UInt8) (duration : Option Int32)
  | switchMultilevelStartLevelChange (inst : UInt8) (direction : UInt32)
      (values : SwitchMultilevel.LevelValues) (getSupported : Bool)
  | associationSetCommand (groupIdx nodeId length : UInt8) (data : List UInt8)
  | doorLockLoggingRequestValue (inst : UInt8) (what : UInt16) (curRecord : UInt8)

/-- What a builder has sent, when it returns. -/
def Sent.requests : Sent → List SendData
  | .ok (_, requests) => requests
  | .error _ => []

namespace BuilderCall

/-- The requests of a call. -/
def requests (sender : Sender) (id : ℕ) : BuilderCall → List SendData
  | configurationSet parameter value size => [Configuration.set sender id parameter value size]
  | colorSetValue inst capabilities duration value =>
      (Color.setValue sender id inst capabilities duration value).requests
  | thermostatSetpointSetValue inst override index units value =>
      (ThermostatSetpoint.setValue sender id inst override index units value).requests
  | switchMultilevelSetLevel inst level duration =>
      (SwitchMultilevel.setLevel sender id inst level duration).requests
  | switchMultilevelStartLevelChange inst direction values getSupported =>
      (SwitchMultilevel.startLevelChange sender id inst direction values getSupported).requests
  | associationSetCommand groupIdx nodeId length data =>
      [AssociationCommandConfiguration.setCommand sender id groupIdx nodeId length data]
  | doorLockLoggingRequestValue inst what curRecord =>
      (DoorLockLogging.requestValue sender id inst what curRecord).2

/-- A color string whose number of colors, as a byte, is one that is appended. -/
def CountedString (s : List Char) : Prop :=
  s.head? = some '#' → (s.length - 1) % 2 = 0 → 3 ≤ (s.length - 1) / 2 →
    3 ≤ (s.length - 1) / 2 % 256 ∧ (s.length - 1) / 2 % 256 ≤ 8 ∨ (s.length - 1) / 2 % 256 = 135

/-- The calls whose requests are well formed. -/
def Counted : BuilderCall → Prop
  | configurationSet _ _ size => size = 1 ∨ size = 2 ∨ size = 4
  | colorSetValue _ _ _ (.color s) => CountedString s
  | colorSetValue _ capabilities _ (.index (some item)) =>
      Color.has capabilities Color.indexColor = true ∨ item.toUInt32.toUInt8.toNat ≤ 17
  | associationSetCommand _ _ length _ => length.toNat ≤ 241
  | doorLockLoggingRequestValue _ what _ => what ≠ 3
  | _ => True

end BuilderCall

/-! ## The length of a message -/

namespace SendData

theorem totalLength_le (head : Msg) (appended : ℕ) : head.totalLength appended ≤ appended + 10 := by
  have hinserted : head.inserted.length ≤ 4 := by
    rw [Msg.inserted]
    split
    · exact Msg.length_encapHeader_le head
    · exact Nat.zero_le _
  rw [Msg.totalLength]
  split <;> omega

variable {request : SendData}

theorem length_appended : request.appended.length = request.command.length + 3 := by
  rw [appended, List.length_cons, List.length_cons, List.length_append, List.length_singleton]

/-- A short request is well formed exactly if its command is counted. -/
theorem wellFormed_short_iff (hshort : request.command.length ≤ 242) :
    request.WellFormed ↔ request.declared.toNat = request.command.length := by
  have htotal := totalLength_le request.head request.appended.length
  rw [length_appended] at htotal
  exact ⟨fun h => h.counted, fun h => ⟨h, by rw [length_appended]; omega⟩⟩

end SendData

variable (sender : Sender) (id : ℕ)

/-! ## Configuration -/

theorem configuration_wellFormed (parameter : UInt16) (value : Int32) (size : UInt8) :
    (Configuration.set sender id parameter value size).WellFormed ↔
      size = 1 ∨ size = 2 ∨ size = 4 := by
  have hsize := size.toNat_lt
  have hlength : (Configuration.set sender id parameter value size).command.length =
      4 + (if size.toNat > 2 then 2 else 0) + (if size.toNat > 1 then 1 else 0) + 1 := by
    simp only [Configuration.set, Sender.request, gt_iff_lt, UInt8.lt_iff_toNat_lt]
    rw [List.length_append, List.length_append, List.length_append, apply_ite List.length,
      apply_ite List.length]
    rfl
  have hdeclared : (Configuration.set sender id parameter value size).declared.toNat =
      (4 + size.toNat) % 256 := UInt8.toNat_add 4 size
  have hequal : ∀ k : UInt8, size = k ↔ size.toNat = k.toNat := fun k => UInt8.toNat_inj.symm
  rw [SendData.wellFormed_short_iff (by rw [hlength]; split <;> split <;> omega), hlength, hdeclared,
    hequal, hequal, hequal]
  change _ ↔ size.toNat = 1 ∨ size.toNat = 2 ∨ size.toNat = 4
  split <;> split <;> omega

/-! ## Color -/

namespace Color

theorem getColor_ok {s : List Char} {position : ℕ} {color : UInt16} (h : getColor s position = .ok color) :
    position * 2 + 1 ≤ s.length := by
  rw [getColor] at h
  split at h
  · cases h
  · omega

/-- Every color is appended with its index, and needs two characters of the string. -/
theorem colorBytes_ok {s : List Char} {positions : List (UInt8 × ℕ)} {colors : List UInt8}
    (h : colorBytes s positions = .ok colors) :
    colors.length = 2 * positions.length ∧ ∀ p ∈ positions, p.2 * 2 + 1 ≤ s.length := by
  induction positions generalizing colors with
  | nil =>
      cases h
      exact ⟨rfl, nofun⟩
  | cons p positions ih =>
      obtain ⟨index, position⟩ := p
      rw [colorBytes] at h
      cases hcolor : getColor s position with
      | error e => rw [hcolor] at h; cases h
      | ok color =>
          rw [hcolor] at h
          cases hrest : colorBytes s positions with
          | error e => rw [hrest] at h; cases h
          | ok rest =>
              rw [hrest] at h
              cases h
              obtain ⟨hlength, hpositions⟩ := ih hrest
              refine ⟨?_, List.forall_mem_cons.mpr ⟨getColor_ok hcolor, hpositions⟩⟩
              rw [List.length_cons, List.length_cons, List.length_cons, hlength]
              omega

theorem colorBytes_of_long {s : List Char} {positions : List (UInt8 × ℕ)}
    (h : ∀ p ∈ positions, p.2 * 2 + 1 ≤ s.length) : ∃ colors, colorBytes s positions = .ok colors := by
  induction positions with
  | nil => exact ⟨[], rfl⟩
  | cons p positions ih =>
      obtain ⟨hfirst, hrest⟩ := List.forall_mem_cons.mp h
      obtain ⟨rest, hrest⟩ := ih hrest
      have hcolor : getColor s p.2 = .ok _ := if_neg (Nat.not_lt.mpr hfirst)
      rw [colorBytes, hcolor, hrest]
      exact ⟨_, rfl⟩

/-- The number of colors that are appended. -/
def appendedColors (nocols : ℕ) : ℕ :=
  if nocols < 4 then 3 else if nocols ≤ 8 then nocols else 7

theorem colorPositions_of_many {nocols : UInt8} (h : 9 ≤ nocols.toNat) :
    colorPositions nocols = [(red, 1), (green, 2), (blue, 3), (warmWhite, 4), (coldWhite, 5),
      (amber, 6), (cyan, 7)] := by
  have hge : ∀ k : UInt8, k.toNat ≤ 8 → nocols ≥ k := fun k hk =>
    UInt8.le_iff_toNat_le.mpr (by omega)
  have hne : ∀ k : UInt8, k.toNat ≤ 8 → nocols ≠ k := fun k hk heq => by
    rw [heq] at h
    omega
  rw [colorPositions, if_neg (hne 4 (by decide)), if_pos (hge 5 (by decide)),
    if_pos (hge 6 (by decide)), if_pos (hge 7 (by decide)), if_neg (hne 8 (by decide))]
  rfl

theorem length_colorPositions (nocols : UInt8) :
    (colorPositions nocols).length = appendedColors nocols.toNat := by
  rcases Nat.lt_or_ge nocols.toNat 9 with hfew | hmany
  · have hall : ∀ k : Fin 9, (colorPositions (UInt8.ofNat k)).length = appendedColors k := by decide
    have heach := hall ⟨nocols.toNat, hfew⟩
    rw [UInt8.ofNat_toNat] at heach
    exact heach
  · rw [colorPositions_of_many hmany, appendedColors, if_neg (by omega), if_neg (by omega)]
    rfl

theorem colorPositions_le {nocols : UInt8} : ∀ p ∈ colorPositions nocols, p.2 ≤ max 3 nocols.toNat := by
  rcases Nat.lt_or_ge nocols.toNat 9 with hfew | hmany
  · have hall : ∀ k : Fin 9, ∀ p ∈ colorPositions (UInt8.ofNat k), p.2 ≤ max 3 k.val := by decide
    have heach := hall ⟨nocols.toNat, hfew⟩
    rw [UInt8.ofNat_toNat] at heach
    exact heach
  · rw [colorPositions_of_many hmany]
    have hseven : ∀ p ∈ [(red, 1), (green, 2), (blue, 3), (warmWhite, 4), (coldWhite, 5), (amber, 6),
        (cyan, 7)], p.2 ≤ 7 := by decide
    intro p hp
    have := hseven p hp
    omega

theorem length_durationBytes (version : UInt8) (default : UInt32) (duration : Option Int32) :
    (durationBytes version default duration).length = if version > 1 then 1 else 0 := by
  rw [durationBytes]
  split <;> rfl

/-- The declared length counts as many colors as are appended, modulo its width. -/
theorem declaredLength_eq_iff (version nocols : UInt8) {appended : ℕ} (hfew : appended ≤ 8) :
    (declaredLength version nocols).toNat =
        3 + 2 * appended + (if version > 1 then 1 else 0) ↔
      nocols.toNat % 128 = appended := by
  have hnocols := nocols.toNat_lt
  rw [declaredLength]
  split
  · rw [UInt8.toNat_ofNat']
    omega
  · rw [UInt8.toNat_ofNat']
    omega

variable {sender : Sender} {id : ℕ} {inst : UInt8} {duration : Option Int32}

theorem appendedColors_iff {nocols : ℕ} (hbyte : nocols < 256) :
    nocols % 128 = appendedColors nocols ↔ 3 ≤ nocols ∧ nocols ≤ 8 ∨ nocols = 135 := by
  rw [appendedColors]
  split
  · omega
  · split <;> omega

theorem appendedColors_le (nocols : ℕ) : appendedColors nocols ≤ 8 := by
  rw [appendedColors]
  split
  · omega
  · split <;> omega

/-- The request that is sent for a string, when its colors can be read. -/
theorem setColor_of_colors {s colors : List Char} {bytes : List UInt8} (hs : s = '#' :: colors)
    (heven : colors.length % 2 = 0)
    (hbytes : colorBytes s (colorPositions (UInt8.ofNat (colors.length / 2))) = .ok bytes) :
    setColor sender id inst duration s =
      .ok (true, [sender.request (sender.onInstance (sender.setNoReply id) inst)
        (declaredLength sender.cc.version (UInt8.ofNat (colors.length / 2)))
        ([classId, cmdSet, UInt8.ofNat (colors.length / 2)] ++ bytes ++
          durationBytes sender.cc.version 15300 duration)]) := by
  subst hs
  have hlength : ('#' :: colors).length - 1 = colors.length := rfl
  simp only [setColor, List.head?_cons, hlength, heven, hbytes]
  rfl

/-- A string with three colors or more has all the colors that are read of it. -/
theorem colorBytes_of_three {colors : List Char} (hlong : 3 ≤ colors.length / 2) :
    ∃ bytes, colorBytes ('#' :: colors) (colorPositions (UInt8.ofNat (colors.length / 2))) =
      .ok bytes := by
  have hbyte : (UInt8.ofNat (colors.length / 2)).toNat = colors.length / 2 % 256 := UInt8.toNat_ofNat'
  apply colorBytes_of_long
  intro p hp
  have hle := colorPositions_le p hp
  rw [hbyte] at hle
  rw [List.length_cons]
  omega

/-- Nothing is sent for a string whose colors cannot be read. -/
theorem setColor_of_error {colors : List Char} {e : Abort} (heven : colors.length % 2 = 0)
    (hbytes : colorBytes ('#' :: colors) (colorPositions (UInt8.ofNat (colors.length / 2))) =
      .error e) :
    setColor sender id inst duration ('#' :: colors) = .error e := by
  have hlength : ('#' :: colors).length - 1 = colors.length := rfl
  simp only [setColor, List.head?_cons, hlength, heven, hbytes]
  rfl

theorem setColor_wellFormed (s : List Char) :
    (∀ request ∈ (setColor sender id inst duration s).requests, request.WellFormed) ↔
      BuilderCall.CountedString s := by
  cases s with
  | nil => exact iff_of_true (List.forall_mem_nil _) nofun
  | cons c colors =>
      rw [BuilderCall.CountedString, List.head?_cons, List.length_cons, Nat.add_sub_cancel]
      by_cases hc : c = '#'
      swap
      · refine iff_of_true ?_ (fun h => absurd (Option.some.inj h) hc)
        have hnone : setColor sender id inst duration (c :: colors) = .ok (false, []) := by
          simp [setColor, hc]
          rfl
        rw [hnone]
        exact List.forall_mem_nil _
      by_cases heven : colors.length % 2 = 0
      swap
      · refine iff_of_true ?_ (fun _ h => absurd h heven)
        have hnone : setColor sender id inst duration (c :: colors) = .ok (false, []) := by
          simp [setColor, hc, heven]
          rfl
        rw [hnone]
        exact List.forall_mem_nil _
      subst hc
      have hbyte : (UInt8.ofNat (colors.length / 2)).toNat = colors.length / 2 % 256 := UInt8.toNat_ofNat'
      cases hbytes : colorBytes ('#' :: colors) (colorPositions (UInt8.ofNat (colors.length / 2))) with
      | error e =>
          have hshort : ¬ 3 ≤ colors.length / 2 := fun hlong => by
            obtain ⟨bytes, hok⟩ := colorBytes_of_three hlong
            rw [hok] at hbytes
            cases hbytes
          rw [setColor_of_error heven hbytes]
          exact iff_of_true (List.forall_mem_nil _) (fun _ _ h => absurd h hshort)
      | ok bytes =>
          obtain ⟨hlength, hpositions⟩ := colorBytes_ok hbytes
          have hblue : 3 * 2 + 1 ≤ ('#' :: colors).length :=
            hpositions (blue, 3) (by simp [colorPositions])
          rw [List.length_cons] at hblue
          have hfew := appendedColors_le (colors.length / 2 % 256)
          rw [length_colorPositions, hbyte] at hlength
          have hcommand : ([classId, cmdSet, UInt8.ofNat (colors.length / 2)] ++ bytes ++
              durationBytes sender.cc.version 15300 duration).length =
              3 + 2 * appendedColors (colors.length / 2 % 256) +
                (if sender.cc.version > 1 then 1 else 0) := by
            rw [List.length_append, List.length_append, hlength, length_durationBytes]
            rfl
          have hcounted := declaredLength_eq_iff sender.cc.version
            (UInt8.ofNat (colors.length / 2)) hfew
          rw [hbyte, ← hcommand] at hcounted
          rw [setColor_of_colors rfl heven hbytes]
          change (∀ request ∈ [_], SendData.WellFormed request) ↔ _
          rw [List.forall_mem_singleton, SendData.wellFormed_short_iff]
          · refine hcounted.trans ((appendedColors_iff (Nat.mod_lt _ (by decide))).trans ?_)
            exact ⟨fun h _ _ _ => h, fun h => h rfl heven (by omega)⟩
          · refine le_of_eq_of_le hcommand ?_
            split <;> omega

/-- What the switch appends: red, green and blue for every index it knows, and the white
colors that it says it has set. -/
structure FakeSpec (warm cold : Bool) (index : ℕ) (fake : List UInt8 × Bool × Bool) : Prop where
  warm : fake.2.1 = true → warm = true
  cold : fake.2.2 = true → cold = true
  length : fake.1.length = (if index ≤ 17 then 6 else 0) + (if fake.2.1 then 2 else 0) +
    (if fake.2.2 then 2 else 0)

theorem fakeColor_spec (warm cold : Bool) (index : ℕ) :
    FakeSpec warm cold index (fakeColor warm cold index) := by
  rcases Nat.lt_or_ge index 18 with hknown | hunknown
  · interval_cases index <;> cases warm <;> cases cold <;>
      exact ⟨by decide, by decide, by decide⟩
  · have hnone : fakeColor warm cold index = ([], false, false) := by
      obtain ⟨k, rfl⟩ := Nat.exists_eq_add_of_le' hunknown
      rfl
    rw [hnone]
    exact ⟨nofun, nofun, by rw [if_neg (by omega)]; rfl⟩

theorem toNat_countColors (capabilities : UInt16) :
    (countColors capabilities).toNat = 3 + ((has capabilities warmWhite).toNat +
      (has capabilities coldWhite).toNat + (has capabilities amber).toNat +
      (has capabilities cyan).toNat + (has capabilities purple).toNat) := by
  rw [countColors]
  generalize has capabilities warmWhite = warm
  generalize has capabilities coldWhite = cold
  generalize has capabilities amber = ambers
  generalize has capabilities cyan = cyans
  generalize has capabilities purple = purples
  cases warm <;> cases cold <;> cases ambers <;> cases cyans <;> cases purples <;> rfl

theorem length_pair (present : Bool) (color level : UInt8) :
    (if present then [color, level] else []).length = 2 * present.toNat := by
  cases present <;> rfl

/-- A white color is appended once, by the switch or after it. -/
theorem white_once {has set : Bool} (h : set = true → has = true) :
    (if set then 2 else 0) + 2 * (has && !set).toNat = 2 * has.toNat := by
  cases set with
  | false => simp
  | true =>
      rw [h rfl]
      rfl

/-- What the fake colors and those that are appended after them amount to. -/
theorem length_fakeColors (capabilities : UInt16) (index : ℕ) {fake : List UInt8 × Bool × Bool}
    (hfake : FakeSpec (has capabilities warmWhite) (has capabilities coldWhite) index fake) :
    fake.1.length + 2 * (has capabilities warmWhite && !fake.2.1).toNat +
        2 * (has capabilities coldWhite && !fake.2.2).toNat + 2 * (has capabilities amber).toNat +
        2 * (has capabilities cyan).toNat + 2 * (has capabilities purple).toNat =
      2 * ((countColors capabilities).toNat - if index ≤ 17 then 0 else 3) := by
  have hwarm := white_once hfake.warm
  have hcold := white_once hfake.cold
  rw [hfake.length, toNat_countColors]
  split <;> omega

theorem countColors_le (capabilities : UInt16) :
    3 ≤ (countColors capabilities).toNat ∧ (countColors capabilities).toNat ≤ 8 := by
  have hwarm := Bool.toNat_le (has capabilities warmWhite)
  have hcold := Bool.toNat_le (has capabilities coldWhite)
  have hamber := Bool.toNat_le (has capabilities amber)
  have hcyan := Bool.toNat_le (has capabilities cyan)
  have hpurple := Bool.toNat_le (has capabilities purple)
  rw [toNat_countColors]
  omega

theorem setIndex_real {capabilities : UInt16} {value : Int32}
    (hreal : has capabilities indexColor = true) :
    ∀ request ∈ (setIndex sender id inst capabilities duration (some value)).requests,
      request.WellFormed := by
  have hlength := length_durationBytes sender.cc.version 15300 duration
  have hcommand : ([classId, cmdSet, 1, indexColor, value.toUInt32.toUInt8] ++
      durationBytes sender.cc.version 15300 duration).length =
        5 + if sender.cc.version > 1 then 1 else 0 := by
    rw [List.length_append, hlength]
    rfl
  simp only [setIndex, hreal, if_true]
  change ∀ request ∈ [_], SendData.WellFormed request
  rw [List.forall_mem_singleton, SendData.wellFormed_short_iff]
  · change (if sender.cc.version > 1 then (6 : UInt8) else 5).toNat = List.length (_ ++ _)
    rw [hcommand]
    split <;> rfl
  · change List.length (_ ++ _) ≤ 242
    rw [hcommand]
    split <;> decide

theorem setIndex_fake {capabilities : UInt16} {value : Int32}
    (hfake : has capabilities indexColor = false) :
    (∀ request ∈ (setIndex sender id inst capabilities duration (some value)).requests,
        request.WellFormed) ↔ value.toUInt32.toUInt8.toNat ≤ 17 := by
  have hspec := fakeColor_spec (has capabilities warmWhite) (has capabilities coldWhite)
    value.toUInt32.toUInt8.toNat
  have hlength := length_fakeColors capabilities _ hspec
  have hduration := length_durationBytes sender.cc.version 0 duration
  obtain ⟨hthree, height⟩ := countColors_le capabilities
  simp only [setIndex, hfake, if_false, Bool.false_eq_true]
  generalize fakeColor (has capabilities warmWhite) (has capabilities coldWhite)
    value.toUInt32.toUInt8.toNat = fake at hlength ⊢
  obtain ⟨colors, wwset, cwset⟩ := fake
  have hcommand : ([classId, cmdSet, countColors capabilities] ++ colors ++
      (if has capabilities warmWhite && !wwset then [warmWhite, 0x00] else []) ++
      (if has capabilities coldWhite && !cwset then [coldWhite, 0x00] else []) ++
      (if has capabilities amber then [amber, 0x00] else []) ++
      (if has capabilities cyan then [cyan, 0x00] else []) ++
      (if has capabilities purple then [purple, 0x00] else []) ++
      durationBytes sender.cc.version 0 duration).length =
        3 + 2 * ((countColors capabilities).toNat -
          if value.toUInt32.toUInt8.toNat ≤ 17 then 0 else 3) +
          if sender.cc.version > 1 then 1 else 0 := by
    rw [← hlength, ← hduration]
    simp only [List.length_append, length_pair, List.length_cons, List.length_nil]
    omega
  have hcounted := declaredLength_eq_iff sender.cc.version (countColors capabilities)
    ((Nat.sub_le _ (if value.toUInt32.toUInt8.toNat ≤ 17 then 0 else 3)).trans height)
  rw [← hcommand] at hcounted
  change (∀ request ∈ [_], SendData.WellFormed request) ↔ _
  rw [List.forall_mem_singleton, SendData.wellFormed_short_iff]
  · refine hcounted.trans ?_
    split <;> omega
  · change List.length (_ ++ _) ≤ 242
    rw [hcommand]
    split <;> split <;> omega

theorem setValue_wellFormed (capabilities : UInt16) (value : Value) :
    (∀ request ∈ (setValue sender id inst capabilities duration value).requests,
        request.WellFormed) ↔
      (BuilderCall.colorSetValue inst capabilities duration value).Counted := by
  cases value with
  | color s => exact setColor_wellFormed s
  | index item =>
      cases item with
      | none => exact iff_of_true (List.forall_mem_nil _) trivial
      | some value =>
          change _ ↔ has capabilities indexColor = true ∨ value.toUInt32.toUInt8.toNat ≤ 17
          cases hreal : has capabilities indexColor with
          | true => exact iff_of_true (setIndex_real hreal) (Or.inl rfl)
          | false => exact (setIndex_fake hreal).trans (by simp)
  | duration value => exact iff_of_true (List.forall_mem_nil _) trivial
  | channelsCapabilities value =>
      refine iff_of_true ?_ trivial
      rw [setValue]
      split
      · change ∀ request ∈ [_], SendData.WellFormed request
        rw [List.forall_mem_singleton, SendData.wellFormed_short_iff (by simp [Sender.request])]
        rfl
      · exact List.forall_mem_nil _
  | other => exact iff_of_true (List.forall_mem_nil _) trivial

end Color

/-! ## The builders that count right -/

theorem wellFormed_sent {result : Bool} {request : SendData} (h : request.WellFormed) :
    ∀ r ∈ Sent.requests (.ok (result, [request])), r.WellFormed :=
  List.forall_mem_singleton.mpr h

theorem thermostatSetpoint_wellFormed (inst override : UInt8) (index : UInt16) (units : List Char)
    (value : Option (List Char)) :
    ∀ request ∈ (ThermostatSetpoint.setValue sender id inst override index units value).requests,
      request.WellFormed := by
  cases value with
  | none => exact List.forall_mem_nil _
  | some value =>
      apply wellFormed_sent
      generalize (if NumberText.cStr units = ['C'] then (0 : UInt8) else 1) = scale
      have hfour := CommandClass.size_le override value
      have hlength := CommandClass.length_tail_appendValue override scale value
      have hcommand : ([ThermostatSetpoint.classId, ThermostatSetpoint.cmdSet,
          (index &&& 0xFF).toUInt8] ++ CommandClass.appendValue override value scale).length =
            4 + (CommandClass.getAppendValueSize override value).toNat := by
        rw [List.length_append, ← hlength]
        change 3 + _ = _
        rw [CommandClass.appendValue]
        exact Nat.add_right_comm 3 _ 1
      apply (SendData.wellFormed_short_iff (le_of_eq_of_le hcommand (by omega))).mpr
      refine Eq.trans ?_ hcommand.symm
      exact (UInt8.toNat_add 4 _).trans (Nat.mod_eq_of_lt (by change 4 + _ < 256; omega))

theorem setLevel_wellFormed (inst level : UInt8) (duration : Option Int32) :
    ∀ request ∈ (SwitchMultilevel.setLevel sender id inst level duration).requests,
      request.WellFormed := by
  by_cases hversion : sender.cc.version ≥ 2
  · cases duration with
    | none =>
        simp only [SwitchMultilevel.setLevel, if_pos hversion]
        exact List.forall_mem_nil _
    | some duration =>
        simp only [SwitchMultilevel.setLevel, if_pos hversion]
        apply wellFormed_sent
        exact (SendData.wellFormed_short_iff (by change 4 ≤ 242; decide)).mpr rfl
  · simp only [SwitchMultilevel.setLevel, if_neg hversion]
    apply wellFormed_sent
    exact (SendData.wellFormed_short_iff (by change 3 ≤ 242; decide)).mpr rfl

theorem requestLevel_wellFormed (inst : UInt8) (getSupported : Bool) :
    ∀ request ∈ SwitchMultilevel.requestLevel sender id inst getSupported, request.WellFormed := by
  cases getSupported with
  | false => exact List.forall_mem_nil _
  | true =>
      change ∀ request ∈ [_], SendData.WellFormed request
      rw [List.forall_mem_singleton]
      exact (SendData.wellFormed_short_iff (by change 2 ≤ 242; decide)).mpr rfl

/-- The three lengths of a level change. -/
theorem changeLength_cases (direction : UInt32) (values : SwitchMultilevel.LevelValues) :
    SwitchMultilevel.changeLength direction values = 4 ∨
      SwitchMultilevel.changeLength direction values = 5 ∨
      SwitchMultilevel.changeLength direction values = 6 := by
  rw [SwitchMultilevel.changeLength]
  split
  · exact Or.inr (Or.inr rfl)
  · split
    · exact Or.inr (Or.inl rfl)
    · exact Or.inl rfl

theorem startLevelChange_wellFormed (inst : UInt8) (direction : UInt32)
    (values : SwitchMultilevel.LevelValues) (getSupported : Bool) :
    ∀ request ∈ (SwitchMultilevel.startLevelChange sender id inst direction values
      getSupported).requests, request.WellFormed := by
  by_cases hrange : direction > 3
  · rw [SwitchMultilevel.startLevelChange, if_pos hrange]
    exact List.forall_mem_nil _
  · rw [SwitchMultilevel.startLevelChange, if_neg hrange]
    change ∀ request ∈ _ :: _, SendData.WellFormed request
    rw [List.forall_mem_cons]
    refine ⟨?_, requestLevel_wellFormed sender (id + 1) inst getSupported⟩
    rcases changeLength_cases direction values with h | h | h
    · simp only [h]
      exact (SendData.wellFormed_short_iff (by change 4 ≤ 242; decide)).mpr rfl
    · simp only [h]
      exact (SendData.wellFormed_short_iff (by change 5 ≤ 242; decide)).mpr rfl
    · simp only [h]
      exact (SendData.wellFormed_short_iff (by change 6 ≤ 242; decide)).mpr rfl

/-! ## Associations and the door lock -/

theorem totalLength_get (classId : UInt8) (appended : ℕ) :
    (sender.get id classId).totalLength appended = appended + 6 := by
  have hflags : (sender.get id classId).flags &&& (Msg.multiChannel ||| Msg.multiInstance) = 0 := by
    change (0 : UInt8) &&& _ = 0
    decide
  have hplain : (sender.get id classId).inserted = [] := if_neg (fun h => h.1 hflags)
  rw [Msg.totalLength, hplain]
  change 4 + appended + 0 + 1 + 1 = _
  omega

theorem setCommand_wellFormed (groupIdx nodeId length : UInt8) (data : List UInt8) :
    (AssociationCommandConfiguration.setCommand sender id groupIdx nodeId length data).WellFormed ↔
      length.toNat ≤ 241 := by
  have hlength : (AssociationCommandConfiguration.setCommand sender id groupIdx nodeId length
      data).command.length = 5 + length.toNat := by
    rw [AssociationCommandConfiguration.setCommand, Sender.request, List.length_append,
      List.length_map, List.length_range]
    rfl
  have htotal : (AssociationCommandConfiguration.setCommand sender id groupIdx nodeId length
      data).head.totalLength (AssociationCommandConfiguration.setCommand sender id groupIdx nodeId
        length data).appended.length = length.toNat + 14 := by
    rw [SendData.length_appended, hlength]
    refine (totalLength_get sender id _ _).trans ?_
    omega
  have hdeclared : (AssociationCommandConfiguration.setCommand sender id groupIdx nodeId length
      data).declared.toNat = (length.toNat + 5) % 256 := UInt8.toNat_add length 5
  constructor
  · intro h
    have hfits := h.fits
    rw [htotal] at hfits
    omega
  · intro h
    refine ⟨?_, ?_⟩
    · rw [hdeclared, hlength]
      omega
    · rw [htotal]
      omega

theorem requestValue_wellFormed (inst : UInt8) (what : UInt16) (curRecord : UInt8) :
    (∀ request ∈ (DoorLockLogging.requestValue sender id inst what curRecord).2,
      request.WellFormed) ↔ what ≠ 3 := by
  rw [DoorLockLogging.requestValue]
  split
  · rename_i hsupported
    refine iff_of_true (List.forall_mem_singleton.mpr ?_) (fun h => ?_)
    · exact (SendData.wellFormed_short_iff (by change 2 ≤ 242; decide)).mpr rfl
    · rw [hsupported] at h
      exact absurd h (by decide)
  · split
    · rename_i hrecord
      refine iff_of_false (fun h => ?_) (fun h => h hrecord)
      have hcounted := (List.forall_mem_singleton.mp h).counted
      exact absurd hcounted (by change (2 : ℕ) ≠ 3; decide)
    · rename_i hrecord
      exact iff_of_true (List.forall_mem_nil _) hrecord

/-- A call sends well formed requests exactly if its arguments are counted. -/
theorem BuilderCall.wellFormed_iff (call : BuilderCall) :
    (∀ request ∈ call.requests sender id, request.WellFormed) ↔ call.Counted := by
  cases call with
  | configurationSet parameter value size =>
      rw [requests, List.forall_mem_singleton]
      exact configuration_wellFormed sender id parameter value size
  | colorSetValue inst capabilities duration value => exact Color.setValue_wellFormed capabilities value
  | thermostatSetpointSetValue inst override index units value =>
      exact iff_of_true (thermostatSetpoint_wellFormed sender id inst override index units value) trivial
  | switchMultilevelSetLevel inst level duration =>
      exact iff_of_true (setLevel_wellFormed sender id inst level duration) trivial
  | switchMultilevelStartLevelChange inst direction values getSupported =>
      exact iff_of_true (startLevelChange_wellFormed sender id inst direction values getSupported)
        trivial
  | associationSetCommand groupIdx nodeId length data =>
      rw [requests, List.forall_mem_singleton]
      exact setCommand_wellFormed sender id groupIdx nodeId length data
  | doorLockLoggingRequestValue inst what curRecord =>
      exact requestValue_wellFormed sender id inst what curRecord

/-- The request for a log record declares two bytes and has three. -/
theorem recordGet_not_wellFormed :
    ¬ ∀ request ∈ (BuilderCall.doorLockLoggingRequestValue 1 3 0).requests
      { nodeId := 5, transmitOptions := 0x25, cc := CommandClass.new, micc := none } 0,
      request.WellFormed := by
  intro h
  have hcounted := (h _ List.mem_cons_self).counted
  exact absurd hcounted (by decide)

end OpenZWave
