import Mathlib.Logic.Function.Iterate
import OpenZWave.ColorText

/-!
# Refreshing the colors

A refresh asks for the supported channels and stores each report. Where the device puts a
wrong index into its reports, the class asks for one channel at a time and counts in
`m_coloridxcount` which one it has asked for. `RequestState` starts that count with the
channel, `RequestValue` with zero.
-/

namespace OpenZWave

open ByteBuffer

namespace Color

/-! ## The class -/

/-- The members of the class, and which of its values exist. `hasStatic` is
`HasStaticRequest(StaticRequest_Values)`. -/
structure Members where
  channels : UInt16
  idxBug : Bool
  getSupported : Bool
  hasStatic : Bool
  version : UInt8
  refreshinprogress : Bool
  coloridxcount : UInt8
  colorvalues : Vector UInt8 9
  colorTargetValues : Vector UInt8 9
  hasColor : Bool
  hasIndex : Bool
  hasTarget : Bool

/-- A `ColorCmd_Report`: its bytes from the index on. -/
structure Report where
  index : UInt8
  level : UInt8
  target : UInt8
  duration : UInt8

/-- What the class does besides: it asks the device, and refreshes its values. -/
inductive Effect
  | capabilityGet
  | get (coloridx : UInt8)
  | setTarget (text : List Char) (duration : UInt8)
  | refreshColor (text : List Char)
  | refreshIndex (item : UInt8)
  | refreshTarget (text : List Char)
  deriving DecidableEq

/-- The indexes of the channels. -/
def indexes : List UInt8 := (List.range 9).map UInt8.ofNat

/-- The indexes of a loop that starts behind one of them. -/
def indexesAfter (coloridx : UInt8) : List UInt8 := indexes.drop (coloridx + 1).toNat

/-- The colors of the list, by the text of red, green and blue. -/
def namedColors : List (List Char × UInt8) :=
  [("#000000".toList, 0), ("#FFFFFF".toList, 1), ("#FF9329".toList, 2), ("#FF0000".toList, 3),
    ("#00FF00".toList, 4), ("#0000FF".toList, 5), ("#FFFF00".toList, 6), ("#00FFFF".toList, 7),
    ("#FF00FF".toList, 8), ("#C0C0C0".toList, 9), ("#808080".toList, 10), ("#800000".toList, 11),
    ("#808000".toList, 12), ("#008000".toList, 13), ("#800080".toList, 14), ("#008080".toList, 15),
    ("#000080".toList, 16)]

/-- `decodeColorList`. -/
def decodeColorList (capabilities : UInt16) (colorStr : List Char) : UInt8 :=
  if has capabilities indexColor then 17
  else if capabilities > 31 then 17
  else if has capabilities warmWhite && colorStr.take 9 = "#000000FF".toList then 2
  else if has capabilities coldWhite && colorStr.take 11 = "#00000000FF".toList then 1
  else ((namedColors.find? fun named => colorStr.take 7 = named.1).map Prod.snd).getD 17

namespace Members

variable (c : Members)

/-- The loop of `RequestState`: each supported channel is asked for, or only the first. -/
def requestChannels : List UInt8 → Members → Members × Bool × List Effect
  | [], c => (c, false, [])
  | i :: is, c =>
      if has c.channels i then
        let c := { c with coloridxcount := i }
        if c.idxBug then ({ c with refreshinprogress := true }, true, [.get i])
        else
          let (c, _, effects) := requestChannels is c
          (c, true, .get i :: effects)
      else requestChannels is c

/-- `RequestState`. -/
def requestState (requestFlags : UInt32) : Members × Bool × List Effect :=
  if requestFlags &&& 1 ≠ 0 ∧ c.hasStatic then
    (c, true, if c.channels = 0 then [.capabilityGet] else [])
  else if requestFlags &&& 4 ≠ 0 then
    if c.refreshinprogress then (c, false, [])
    else requestChannels ((List.range 10).map UInt8.ofNat) c
  else (c, false, [])

/-- The loop of `RequestValue`, which starts the count with zero. -/
def requestValues : List UInt8 → Members → Members × Bool × List Effect
  | [], c => (c, false, [])
  | i :: is, c =>
      if has c.channels i then
        if c.idxBug then
          ({ c with refreshinprogress := true, coloridxcount := 0 }, true, [.get i])
        else
          let (c, result, effects) := requestValues is c
          (c, result, .get i :: effects)
      else requestValues is c

/-- `RequestValue`: the values `Color` and `Index` are asked for. -/
def requestValue (what : UInt16) : Members × Bool × List Effect :=
  if c.getSupported ∧ (what = 0 ∨ what = 1) then
    if c.idxBug ∧ c.refreshinprogress then (c, false, [])
    else requestValues ((List.range 10).map UInt8.ofNat) c
  else (c, false, [])

/-- The values that are refreshed when the last channel has been reported. -/
def refreshes (r : Report) : List Effect :=
  let colorStr := decodeColor c.channels c.colorvalues c.colorvalues
  (if c.hasColor then
    (if c.version ≥ 3 then
      [.setTarget (decodeColor c.channels c.colorvalues c.colorTargetValues) r.duration]
    else []) ++ [.refreshColor colorStr]
  else []) ++
  (if c.hasIndex then
    [.refreshIndex (if has c.channels indexColor then peek c.colorvalues indexColor.toNat
      else decodeColorList c.channels colorStr)]
  else []) ++
  (if c.version ≥ 3 ∧ c.hasTarget then [.refreshTarget colorStr] else [])

/-- The next channel is asked for before the report is stored. -/
def requestNext : Members × List Effect :=
  match (indexesAfter c.coloridxcount).find? (has c.channels) with
  | some idx => ({ c with coloridxcount := idx }, [.get idx])
  | none => (c, [])

/-- `m_colorvalues[coloridx] = _data[2]`, and the target of it. -/
def store (coloridx : UInt8) (r : Report) : Members :=
  { c with
    colorvalues := poke c.colorvalues coloridx.toNat r.level
    colorTargetValues :=
      if c.version ≥ 3 then poke c.colorTargetValues coloridx.toNat r.target
      else c.colorTargetValues }

/-- `HandleMsg` for a report of a color. -/
def handleReport (r : Report) : Members × List Effect :=
  let coloridx := if c.idxBug then c.coloridxcount else r.index
  let (c, effects) := if c.idxBug then c.requestNext else (c, [])
  let c := c.store coloridx r
  if (indexesAfter coloridx).any (has c.channels) then (c, effects)
  else
    let c := if c.idxBug then { c with refreshinprogress := false } else c
    (c, effects ++ c.refreshes r)

end Members

/-! ## The walk over the channels -/

/-- The two calls that begin a walk. -/
inductive Start
  | state (requestFlags : UInt32)
  | value (what : UInt16)

def Members.start (c : Members) : Start → Members × Bool × List Effect
  | .state requestFlags => c.requestState requestFlags
  | .value what => c.requestValue what

/-- A device: the level of each channel, and the other bytes of its reports. -/
structure Device where
  level : UInt8 → UInt8
  index : ℕ → UInt8
  target : ℕ → UInt8
  duration : ℕ → UInt8

/-- The report of a channel, which is the `n`-th of the device. -/
def Device.report (device : Device) (n : ℕ) (coloridx : UInt8) : Report where
  index := device.index n
  level := device.level coloridx
  target := device.target n
  duration := device.duration n

/-- The channels that are asked for. -/
def requested : List Effect → List UInt8 :=
  List.filterMap fun | .get coloridx => some coloridx | _ => none

/-- The class, the requests that the device has not answered, and each effect with the
number of answers before it. -/
structure Walk where
  color : Members
  pending : List UInt8
  answered : ℕ
  history : List (ℕ × Effect)

namespace Walk

def begin (c : Members) (start : Start) : Walk where
  color := (c.start start).1
  pending := requested (c.start start).2.2
  answered := 0
  history := (c.start start).2.2.map (0, ·)

/-- The device answers the first request. -/
def answer (device : Device) (w : Walk) : Walk :=
  match w.pending with
  | [] => w
  | coloridx :: pending =>
      let (color, effects) := w.color.handleReport (device.report w.answered coloridx)
      { color := color
        pending := pending ++ requested effects
        answered := w.answered + 1
        history := w.history ++ effects.map (w.answered + 1, ·) }

/-- The channels that have been asked for, in this order. -/
def requests (w : Walk) : List UInt8 := requested (w.history.map Prod.snd)

/-- The refreshes of the color value, each with the number of answers before it. -/
def colorRefreshes (w : Walk) : List (ℕ × List Char) :=
  w.history.filterMap fun | (n, .refreshColor text) => some (n, text) | _ => none

/-- The walk has asked for each supported channel once and in order, each level is stored
with its channel, and the color value was refreshed once, after the last answer. -/
structure Complete (c : Members) (device : Device) (w : Walk) : Prop where
  answered : w.pending = []
  inOrder : w.requests = indexes.filter (has c.channels)
  stored : ∀ coloridx ∈ indexes, peek w.color.colorvalues coloridx.toNat =
    if has c.channels coloridx then device.level coloridx else peek c.colorvalues coloridx.toNat
  refreshed : w.colorRefreshes =
    [(w.answered, decodeColor c.channels w.color.colorvalues w.color.colorvalues)]
  idle : w.color.refreshinprogress = false

end Walk

/-- The call asks for colors. -/
def Start.Asks (c : Members) : Start → Prop
  | .state requestFlags => ¬ (requestFlags &&& 1 ≠ 0 ∧ c.hasStatic = true) ∧ requestFlags &&& 4 ≠ 0
  | .value what => c.getSupported = true ∧ (what = 0 ∨ what = 1)

/-- The count begins with the channel that is asked for: `RequestValue` has to find warm
white supported. -/
def Start.CountsFromFirst (c : Members) : Start → Prop
  | .state _ => True
  | .value _ => has c.channels warmWhite = true

/-! ## The indexes of the channels -/

theorem toNat_of_indexes {before after : List UInt8} {i : UInt8}
    (hsplit : indexes = before ++ i :: after) : i.toNat = before.length ∧ before.length < 9 := by
  have hlength := congrArg List.length hsplit
  have hnine : indexes.length = 9 := rfl
  rw [hnine, List.length_append, List.length_cons] at hlength
  have hbefore : before.length < 9 := by omega
  have hplace : indexes[before.length]? = some i := by
    rw [hsplit, List.getElem?_append_right le_rfl, Nat.sub_self, List.getElem?_cons_zero]
  rw [indexes, List.getElem?_map, List.getElem?_range hbefore, Option.map_some,
    Option.some.injEq] at hplace
  refine ⟨?_, hbefore⟩
  rw [← hplace, UInt8.toNat_ofNat']
  omega

/-- The loop behind an index goes through those after it. -/
theorem indexesAfter_eq {before after : List UInt8} {i : UInt8}
    (hsplit : indexes = before ++ i :: after) : indexesAfter i = after := by
  obtain ⟨hindex, hnine⟩ := toNat_of_indexes hsplit
  have hnext : (i + 1).toNat = before.length + 1 := by
    rw [UInt8.toNat_add, hindex]
    change (before.length + 1) % 256 = _
    omega
  rw [indexesAfter, hnext, hsplit, ← List.drop_drop, List.drop_left]
  rfl

theorem nodup_indexes : indexes.Nodup := by decide

/-! ## A report -/

section Reports

variable {c : Members} {r : Report} {before after : List UInt8} {i : UInt8}

/-- The class asks for the next supported channel, and stores the report with the one it
had asked for. -/
theorem handleReport_of_next {passed rest : List UInt8} {next : UInt8} (hbug : c.idxBug = true)
    (hcount : c.coloridxcount = i) (hsplit : indexes = before ++ i :: after)
    (hafter : after = passed ++ next :: rest) (hnext : has c.channels next = true)
    (hpassed : ∀ j ∈ passed, has c.channels j = false) :
    c.handleReport r = ({ c with coloridxcount := next }.store i r, [.get next]) := by
  have hfind : (indexesAfter i).find? (has c.channels) = some next := by
    rw [indexesAfter_eq hsplit, List.find?_eq_some_iff_append]
    exact ⟨hnext, passed, rest, hafter, fun j hj => by rw [hpassed j hj]; rfl⟩
  have hany : (indexesAfter i).any (has c.channels) = true := by
    rw [List.any_eq_true]
    exact ⟨next, List.mem_of_find?_eq_some hfind, hnext⟩
  simp only [Members.handleReport, Members.requestNext, hbug, if_true, hcount, hfind,
    Members.store, hany]

/-- Behind the last supported channel, the report is stored and the values are refreshed. -/
theorem handleReport_of_last (hbug : c.idxBug = true) (hcount : c.coloridxcount = i)
    (hsplit : indexes = before ++ i :: after) (hlast : ∀ j ∈ after, has c.channels j = false) :
    c.handleReport r =
      ({ c.store i r with refreshinprogress := false },
        { c.store i r with refreshinprogress := false }.refreshes r) := by
  have hfind : (indexesAfter i).find? (has c.channels) = none := by
    rw [indexesAfter_eq hsplit, List.find?_eq_none]
    intro j hj
    rw [hlast j hj]
    nofun
  have hany : (indexesAfter i).any (has c.channels) = false := by
    rw [List.any_eq_false]
    exact List.find?_eq_none.mp hfind
  simp only [Members.handleReport, Members.requestNext, hbug, if_true, hcount, hfind,
    Members.store, hany]
  rfl

end Reports

/-! ## An answer -/

namespace Walk

variable {device : Device} {w : Walk}

theorem answer_of_pending {coloridx : UInt8} {pending : List UInt8}
    (h : w.pending = coloridx :: pending) :
    w.answer device =
      { color := (w.color.handleReport (device.report w.answered coloridx)).1
        pending := pending ++
          requested (w.color.handleReport (device.report w.answered coloridx)).2
        answered := w.answered + 1
        history := w.history ++
          (w.color.handleReport (device.report w.answered coloridx)).2.map (w.answered + 1, ·) } := by
  rw [answer, h]

theorem answer_of_idle (h : w.pending = []) : w.answer device = w := by
  rw [answer, h]

theorem iterate_of_idle (h : w.pending = []) (n : ℕ) : (answer device)^[n] w = w :=
  Function.iterate_fixed (answer_of_idle h) n

theorem requests_append (color : Members) (pending : List UInt8) (answered n : ℕ)
    (history : List (ℕ × Effect)) (effects : List Effect) :
    requests ⟨color, pending, answered, history ++ effects.map (n, ·)⟩ =
      requested (history.map Prod.snd) ++ requested effects := by
  rw [requests, List.map_append, List.map_map]
  exact (List.filterMap_append ..).trans (by congr 2; exact List.map_id effects)

/-- The texts that the color value is refreshed with. -/
def texts : List Effect → List (List Char) :=
  List.filterMap fun | .refreshColor text => some text | _ => none

theorem colorRefreshes_append (color : Members) (pending : List UInt8) (answered n : ℕ)
    (history : List (ℕ × Effect)) (effects : List Effect) :
    colorRefreshes ⟨color, pending, answered, history ++ effects.map (n, ·)⟩ =
      colorRefreshes ⟨color, pending, answered, history⟩ ++ (texts effects).map (n, ·) := by
  rw [colorRefreshes, colorRefreshes, List.filterMap_append, List.filterMap_map]
  congr 1
  induction effects with
  | nil => rfl
  | cons effect effects ih => cases effect <;> simpa [texts] using ih

theorem texts_append (effects more : List Effect) :
    texts (effects ++ more) = texts effects ++ texts more := List.filterMap_append ..

theorem requested_refreshes (c : Members) (r : Report) : requested (c.refreshes r) = [] := by
  rw [Members.refreshes]
  cases c.hasColor <;> cases c.hasIndex <;> by_cases hversion : c.version ≥ 3 <;>
    cases c.hasTarget <;> simp [requested, hversion]

theorem texts_refreshes (c : Members) (r : Report) :
    texts (c.refreshes r) =
      if c.hasColor then [decodeColor c.channels c.colorvalues c.colorvalues] else [] := by
  rw [Members.refreshes]
  cases c.hasColor <;> cases c.hasIndex <;> by_cases hversion : c.version ≥ 3 <;>
    cases c.hasTarget <;> simp [texts, hversion]

/-! ## The walk -/

/-- The walk has asked for a channel and has the levels of those before it. -/
structure Stands (c : Members) (device : Device) (before : List UInt8) (i : UInt8) (w : Walk) :
    Prop where
  channels : w.color.channels = c.channels
  hasColor : w.color.hasColor = c.hasColor
  bug : w.color.idxBug = true
  count : w.color.coloridxcount = i
  supported : has c.channels i = true
  pending : w.pending = [i]
  requests : w.requests = before.filter (has c.channels) ++ [i]
  stored : ∀ j ∈ before, peek w.color.colorvalues j.toNat =
    if has c.channels j then device.level j else peek c.colorvalues j.toNat
  ahead : ∀ j ∉ before, peek w.color.colorvalues j.toNat = peek c.colorvalues j.toNat
  refreshed : w.colorRefreshes = []

variable {c : Members} {before after : List UInt8} {i : UInt8}

/-- What is stored besides the channel that was reported. -/
theorem stored_poke (hsplit : indexes = before ++ i :: after) {colorvalues : Vector UInt8 9}
    (hi : has c.channels i = true)
    (hstored : ∀ j ∈ before, peek colorvalues j.toNat =
      if has c.channels j then device.level j else peek c.colorvalues j.toNat)
    (hahead : ∀ j ∉ before, peek colorvalues j.toNat = peek c.colorvalues j.toNat)
    {passed : List UInt8} (hpassed : ∀ j ∈ passed, has c.channels j = false)
    (hdisjoint : ∀ j ∈ passed, j ∉ before ∧ j ≠ i) :
    (∀ j ∈ before ++ i :: passed, peek (poke colorvalues i.toNat (device.level i)) j.toNat =
      if has c.channels j then device.level j else peek c.colorvalues j.toNat) ∧
    ∀ j ∉ before ++ i :: passed, peek (poke colorvalues i.toNat (device.level i)) j.toNat =
      peek c.colorvalues j.toNat := by
  obtain ⟨hindex, hnine⟩ := toNat_of_indexes hsplit
  have hne : ∀ j : UInt8, j ≠ i → peek (poke colorvalues i.toNat (device.level i)) j.toNat =
      peek colorvalues j.toNat := fun j hj =>
    peek_poke_ne fun h => hj (UInt8.toNat_inj.mp h.symm)
  have hold : i ∉ before := by
    have hnodup := nodup_indexes
    rw [hsplit] at hnodup
    exact fun h => (List.nodup_append.mp hnodup).2.2 i h i List.mem_cons_self rfl
  constructor
  · intro j hj
    rcases List.mem_append.mp hj with hbefore | htail
    · have hji : j ≠ i := fun heq => hold (heq ▸ hbefore)
      rw [hne j hji, hstored j hbefore]
    · rcases List.mem_cons.mp htail with rfl | hpass
      · rw [peek_poke_self (by omega), if_pos hi]
      · obtain ⟨hbefore, hji⟩ := hdisjoint j hpass
        rw [hne j hji, hahead j hbefore, hpassed j hpass]
        rfl
  · intro j hj
    rw [List.mem_append, List.mem_cons, not_or, not_or] at hj
    rw [hne j hj.2.1, hahead j hj.1]

/-- The members before the one that stands there, and those after it, are others. -/
theorem disjoint_of_split (hsplit : indexes = before ++ i :: after) :
    ∀ j ∈ after, j ∉ before ∧ j ≠ i := by
  have hnodup := nodup_indexes
  rw [hsplit] at hnodup
  obtain ⟨-, htail, hcross⟩ := List.nodup_append.mp hnodup
  intro j hj
  refine ⟨fun hbefore => hcross j hbefore j (List.mem_cons_of_mem i hj) rfl, ?_⟩
  rintro rfl
  exact (List.nodup_cons.mp htail).1 hj

/-- The answer to a request moves the walk to the next supported channel. -/
theorem Stands.next (h : Stands c device before i w) (hsplit : indexes = before ++ i :: after)
    {passed rest : List UInt8} {next : UInt8} (hafter : after = passed ++ next :: rest)
    (hnext : has c.channels next = true) (hpassed : ∀ j ∈ passed, has c.channels j = false) :
    Stands c device (before ++ i :: passed) next (w.answer device) := by
  have hreport := @handleReport_of_next w.color (device.report w.answered i) before after i passed
    rest next h.bug h.count hsplit hafter (h.channels ▸ hnext) (h.channels ▸ hpassed)
  have hdisjoint : ∀ j ∈ passed, j ∉ before ∧ j ≠ i := fun j hj =>
    disjoint_of_split hsplit j (hafter ▸ List.mem_append_left _ hj)
  obtain ⟨hstored, hahead⟩ := stored_poke hsplit h.supported h.stored h.ahead hpassed hdisjoint
  have hrequests := h.requests
  have hrefreshed := h.refreshed
  rw [answer_of_pending h.pending, hreport]
  refine ⟨h.channels, h.hasColor, h.bug, rfl, hnext, rfl, ?_, hstored, hahead, ?_⟩
  · rw [requests_append]
    rw [Walk.requests] at hrequests
    have hnone : passed.filter (has c.channels) = [] :=
      List.filter_eq_nil_iff.mpr fun j hj => by rw [hpassed j hj]; nofun
    rw [hrequests, List.filter_append, List.filter_cons_of_pos h.supported, hnone]
    rfl
  · rw [colorRefreshes_append]
    exact congrArg (· ++ []) hrefreshed

/-- The answer to the last one completes it. -/
theorem Stands.last (h : Stands c device before i w) (hsplit : indexes = before ++ i :: after)
    (hlast : ∀ j ∈ after, has c.channels j = false) (hcolor : c.hasColor = true) :
    Complete c device (w.answer device) := by
  have hreport := @handleReport_of_last w.color (device.report w.answered i) before after i h.bug
    h.count hsplit (h.channels ▸ hlast)
  obtain ⟨hstored, -⟩ := stored_poke hsplit h.supported h.stored h.ahead hlast
    (disjoint_of_split hsplit)
  have hrequests := h.requests
  have hrefreshed := h.refreshed
  rw [answer_of_pending h.pending, hreport]
  refine ⟨?_, ?_, ?_, ?_, rfl⟩
  · exact requested_refreshes _ _
  · rw [requests_append, requested_refreshes, List.append_nil]
    rw [Walk.requests] at hrequests
    have hnone : after.filter (has c.channels) = [] :=
      List.filter_eq_nil_iff.mpr fun j hj => by rw [hlast j hj]; nofun
    rw [hrequests, hsplit, List.filter_append, List.filter_cons_of_pos h.supported, hnone]
  · intro j hj
    rw [hsplit] at hj
    exact hstored j hj
  · rw [colorRefreshes_append, ← h.channels]
    have htexts := (texts_refreshes { w.color.store i (device.report w.answered i) with
      refreshinprogress := false } (device.report w.answered i)).trans
        (if_pos (h.hasColor.trans hcolor))
    exact congrArg₂ (· ++ ·) hrefreshed (congrArg (List.map (w.answered + 1, ·)) htexts)

/-- From the channel where it stands, the walk is completed by as many answers as there are
supported channels ahead. -/
theorem Stands.completes (h : Stands c device before i w) (hsplit : indexes = before ++ i :: after)
    (hcolor : c.hasColor = true) : ∃ n, Complete c device ((answer device)^[n] w) := by
  induction hlength : after.length using Nat.strong_induction_on generalizing before i after w with
  | h length ih =>
      cases hfind : after.find? (has c.channels) with
      | none =>
          have hlast : ∀ j ∈ after, has c.channels j = false := fun j hj =>
            Bool.eq_false_of_not_eq_true (List.find?_eq_none.mp hfind j hj)
          exact ⟨1, h.last hsplit hlast hcolor⟩
      | some next =>
          obtain ⟨hnext, passed, rest, hafter, hpassed⟩ := List.find?_eq_some_iff_append.mp hfind
          have hskipped : ∀ j ∈ passed, has c.channels j = false := fun j hj => by
            simpa using hpassed j hj
          have hshorter : rest.length < length := by
            rw [← hlength, hafter, List.length_append, List.length_cons]
            omega
          have hsplit' : indexes = (before ++ i :: passed) ++ next :: rest := by
            rw [hsplit, hafter, List.append_assoc, List.cons_append]
          obtain ⟨n, hn⟩ := ih rest.length hshorter (h.next hsplit hafter hnext hskipped) hsplit' rfl
          exact ⟨n + 1, hn⟩

/-! ## The start -/

theorem requestChannels_of_first {first : UInt8} {passed rest : List UInt8}
    (hbug : c.idxBug = true) (hfirst : has c.channels first = true)
    (hpassed : ∀ j ∈ passed, has c.channels j = false) :
    Members.requestChannels (passed ++ first :: rest) c =
      ({ c with coloridxcount := first, refreshinprogress := true }, true, [.get first]) := by
  induction passed with
  | nil =>
      rw [List.nil_append, Members.requestChannels, if_pos hfirst]
      exact if_pos hbug
  | cons j passed ih =>
      obtain ⟨hj, hrest⟩ := List.forall_mem_cons.mp hpassed
      rw [List.cons_append, Members.requestChannels, hj]
      exact ih hrest

theorem requestValues_of_first {first : UInt8} {passed rest : List UInt8}
    (hbug : c.idxBug = true) (hfirst : has c.channels first = true)
    (hpassed : ∀ j ∈ passed, has c.channels j = false) :
    Members.requestValues (passed ++ first :: rest) c =
      ({ c with refreshinprogress := true, coloridxcount := 0 }, true, [.get first]) := by
  induction passed with
  | nil =>
      rw [List.nil_append, Members.requestValues, if_pos hfirst]
      exact if_pos hbug
  | cons j passed ih =>
      obtain ⟨hj, hrest⟩ := List.forall_mem_cons.mp hpassed
      rw [List.cons_append, Members.requestValues, hj]
      exact ih hrest

/-- The count that a call begins with. -/
def firstCount (first : UInt8) : Start → UInt8
  | .state _ => first
  | .value _ => 0

/-- A call that asks for colors asks for the first supported channel. -/
theorem begin_of_asks {start : Start} {first : UInt8} {passed rest : List UInt8}
    (hbug : c.idxBug = true) (hsplit : indexes = passed ++ first :: rest)
    (hfirst : has c.channels first = true) (hpassed : ∀ j ∈ passed, has c.channels j = false)
    (hasks : start.Asks c) (hidle : c.refreshinprogress = false) :
    begin c start =
      { color := { c with refreshinprogress := true, coloridxcount := firstCount first start }
        pending := [first]
        answered := 0
        history := [(0, .get first)] } := by
  have hten : (List.range 10).map UInt8.ofNat = passed ++ first :: (rest ++ [9]) := by
    calc (List.range 10).map UInt8.ofNat = indexes ++ [9] := rfl
      _ = passed ++ first :: (rest ++ [9]) := by rw [hsplit, List.append_assoc, List.cons_append]
  cases start with
  | state requestFlags =>
      have hstart : c.start (.state requestFlags) =
          ({ c with coloridxcount := first, refreshinprogress := true }, true, [.get first]) := by
        rw [Members.start, Members.requestState, if_neg hasks.1, if_pos hasks.2, hidle, hten]
        exact requestChannels_of_first hbug hfirst hpassed
      rw [begin, hstart]
      rfl
  | value what =>
      have hstart : c.start (.value what) =
          ({ c with refreshinprogress := true, coloridxcount := 0 }, true, [.get first]) := by
        have hvalue : c.getSupported = true ∧ (what = 0 ∨ what = 1) := hasks
        have hfree : ¬ (c.idxBug = true ∧ c.refreshinprogress = true) := fun h =>
          absurd (hidle.symm.trans h.2) (by decide)
        rw [Members.start, Members.requestValue, if_pos hvalue, if_neg hfree, hten]
        exact requestValues_of_first hbug hfirst hpassed
      rw [begin, hstart]
      rfl

/-- Another call asks for no channel. -/
theorem begin_of_not_asks {start : Start} (hbug : c.idxBug = true)
    (h : ¬ (start.Asks c ∧ c.refreshinprogress = false)) :
    (begin c start).pending = [] ∧ (begin c start).requests = [] := by
  cases start with
  | state requestFlags =>
      rw [begin, Members.start, Members.requestState]
      split
      · split <;> exact ⟨rfl, rfl⟩
      · split
        · rename_i hstatic hdynamic
          have hbusy : c.refreshinprogress = true :=
            Bool.eq_true_of_not_eq_false fun hidle => h ⟨⟨hstatic, hdynamic⟩, hidle⟩
          rw [if_pos hbusy]
          exact ⟨rfl, rfl⟩
        · exact ⟨rfl, rfl⟩
  | value what =>
      rw [begin, Members.start, Members.requestValue]
      split
      · rename_i hasks
        have hbusy : c.refreshinprogress = true :=
          Bool.eq_true_of_not_eq_false fun hidle => h ⟨hasks, hidle⟩
        rw [if_pos ⟨hbug, hbusy⟩]
        exact ⟨rfl, rfl⟩
      · exact ⟨rfl, rfl⟩

/-- A walk that counts from the first supported channel. -/
theorem stands_begin {start : Start} {first : UInt8} {passed rest : List UInt8}
    (hbug : c.idxBug = true) (hsplit : indexes = passed ++ first :: rest)
    (hfirst : has c.channels first = true) (hpassed : ∀ j ∈ passed, has c.channels j = false)
    (hasks : start.Asks c) (hidle : c.refreshinprogress = false)
    (hcount : firstCount first start = first) : Stands c device passed first (begin c start) := by
  rw [begin_of_asks hbug hsplit hfirst hpassed hasks hidle]
  have hnone : passed.filter (has c.channels) = [] :=
    List.filter_eq_nil_iff.mpr fun j hj => by rw [hpassed j hj]; nofun
  refine ⟨rfl, rfl, hbug, hcount, hfirst, rfl, ?_, fun j hj => ?_, fun _ _ => rfl, rfl⟩
  · rw [hnone]
    rfl
  · rw [hpassed j hj]
    rfl

/-! ## What goes wrong -/

theorem requests_prefix_answer (w : Walk) : w.requests <+: (w.answer device).requests := by
  cases hpending : w.pending with
  | nil =>
      have hidle : w.answer device = w := answer_of_idle hpending
      exact hidle.symm ▸ List.prefix_rfl
  | cons coloridx pending =>
      rw [answer_of_pending hpending, requests_append]
      exact List.prefix_append _ _

theorem requests_prefix_iterate (w : Walk) (n : ℕ) :
    w.requests <+: ((answer device)^[n] w).requests := by
  induction n generalizing w with
  | zero => exact List.prefix_rfl
  | succ n ih => exact (requests_prefix_answer w).trans (ih _)

/-- A count that begins with zero asks for the first channel twice. -/
theorem requests_of_late_count {first : UInt8} {passed rest : List UInt8} {w : Walk}
    (hbug : w.color.idxBug = true) (hcount : w.color.coloridxcount = 0)
    (hsplit : indexes = 0 :: passed ++ first :: rest) (hpending : w.pending = [first])
    (hfirst : has w.color.channels first = true)
    (hpassed : ∀ j ∈ passed, has w.color.channels j = false) (hrequests : w.requests = [first]) :
    (w.answer device).requests = [first, first] := by
  have hreport := @handleReport_of_next w.color (device.report w.answered first) [] _ 0 passed rest
    first hbug hcount hsplit rfl hfirst hpassed
  rw [Walk.requests] at hrequests
  rw [answer_of_pending hpending, hreport, requests_append, hrequests]
  rfl

theorem not_complete_of_late_count {what : UInt16} {first : UInt8} {passed rest : List UInt8}
    (hbug : c.idxBug = true) (hsplit : indexes = 0 :: passed ++ first :: rest)
    (hfirst : has c.channels first = true) (hpassed : ∀ j ∈ 0 :: passed, has c.channels j = false)
    (hasks : (Start.value what).Asks c) (hidle : c.refreshinprogress = false) (n : ℕ) :
    ¬ Complete c device ((answer device)^[n] (begin c (.value what))) := by
  intro hcomplete
  have hbegin := begin_of_asks hbug hsplit hfirst hpassed hasks hidle
  have hwait : n ≠ 0 := by
    rintro rfl
    have hpending := hcomplete.answered
    rw [Function.iterate_zero, id, hbegin] at hpending
    cases hpending
  obtain ⟨m, rfl⟩ := Nat.exists_eq_succ_of_ne_zero hwait
  have htwice : ((begin c (.value what)).answer device).requests = [first, first] := by
    rw [hbegin]
    exact requests_of_late_count hbug rfl hsplit rfl hfirst
      (fun j hj => hpassed j (List.mem_cons_of_mem 0 hj)) rfl
  have hstarts := @requests_prefix_iterate device ((begin c (.value what)).answer device) m
  rw [htwice, ← Function.iterate_succ_apply, hcomplete.inOrder] at hstarts
  have hnodup : (indexes.filter (has c.channels)).Nodup := nodup_indexes.filter _
  exact absurd (hnodup.sublist hstarts.sublist) (by simp)

theorem hasColor_handleReport (c : Members) (r : Report) :
    (c.handleReport r).1.hasColor = c.hasColor := by
  simp only [Members.handleReport, Members.requestNext, Members.store]
  split_ifs <;> cases (indexesAfter c.coloridxcount).find? (has c.channels) <;> rfl

theorem texts_handleReport {c : Members} (h : c.hasColor = false) (r : Report) :
    texts (c.handleReport r).2 = [] := by
  have hrefreshes : ∀ c' : Members, c'.hasColor = false → texts (c'.refreshes r) = [] :=
    fun c' hc' => (texts_refreshes c' r).trans (if_neg (by rw [hc']; nofun))
  have hnext : texts c.requestNext.2 = [] ∧ c.requestNext.1.hasColor = false := by
    rw [Members.requestNext]
    cases (indexesAfter c.coloridxcount).find? (has c.channels) with
    | none => exact ⟨rfl, h⟩
    | some next => exact ⟨rfl, h⟩
  have hlater : ∀ (c' : Members) effects, c'.hasColor = false → texts effects = [] →
      texts (effects ++ c'.refreshes r) = [] := by
    intro c' effects hc' heffects
    rw [texts_append, heffects, hrefreshes c' hc']
    rfl
  cases hbug : c.idxBug with
  | true =>
      simp only [Members.handleReport, hbug, if_true]
      split
      · exact hnext.1
      · split <;> exact hlater _ _ hnext.2 hnext.1
  | false =>
      simp only [Members.handleReport, hbug, Bool.false_eq_true, if_false]
      split
      · rfl
      · split <;> exact hlater _ _ h rfl

/-- Without a color value, none is refreshed. -/
theorem colorRefreshes_of_no_color {w : Walk} (hcolor : w.color.hasColor = false)
    (hnone : w.colorRefreshes = []) (n : ℕ) : ((answer device)^[n] w).colorRefreshes = [] := by
  induction n generalizing w with
  | zero => exact hnone
  | succ n ih =>
      cases hpending : w.pending with
      | nil =>
          rw [iterate_of_idle hpending]
          exact hnone
      | cons coloridx pending =>
          have htexts := texts_handleReport hcolor (device.report w.answered coloridx)
          rw [Function.iterate_succ_apply]
          refine ih ?_ ?_
          · rw [answer_of_pending hpending]
            exact (hasColor_handleReport _ _).trans hcolor
          · rw [answer_of_pending hpending, colorRefreshes_append, htexts]
            exact congrArg (· ++ []) hnone

end Walk

/-- Exactly when a call begins a complete walk: it asks for colors while no refresh is in
progress, the count begins with the first supported channel, and there is a color value. -/
theorem walk_complete_iff (c : Members) (device : Device) (start : Start)
    (hbug : c.idxBug = true) (hsome : ∃ coloridx ∈ indexes, has c.channels coloridx = true) :
    (∃ n, Walk.Complete c device ((Walk.answer device)^[n] (Walk.begin c start))) ↔
      (start.Asks c ∧ c.refreshinprogress = false) ∧ start.CountsFromFirst c ∧
        c.hasColor = true := by
  obtain ⟨first, hfind⟩ : ∃ first, indexes.find? (has c.channels) = some first :=
    Option.isSome_iff_exists.mp (List.find?_isSome.mpr hsome)
  obtain ⟨hfirst, passed, rest, hsplit, hskipped⟩ := List.find?_eq_some_iff_append.mp hfind
  have hpassed : ∀ j ∈ passed, has c.channels j = false := fun j hj => by
    simpa using hskipped j hj
  have hsupported : indexes.filter (has c.channels) ≠ [] := fun h => by
    obtain ⟨coloridx, hmem, hhas⟩ := hsome
    exact List.filter_eq_nil_iff.mp h coloridx hmem hhas
  constructor
  · rintro ⟨n, hcomplete⟩
    have hasks : start.Asks c ∧ c.refreshinprogress = false := by
      by_contra h
      obtain ⟨hpending, hrequests⟩ := Walk.begin_of_not_asks hbug h
      rw [Walk.iterate_of_idle hpending] at hcomplete
      exact hsupported (hcomplete.inOrder.symm.trans hrequests)
    have hbegin := Walk.begin_of_asks hbug hsplit hfirst hpassed hasks.1 hasks.2
    refine ⟨hasks, ?_, ?_⟩
    · cases start with
      | state requestFlags => trivial
      | value what =>
          by_contra hcold
          obtain ⟨after, hzero⟩ : ∃ after, passed = 0 :: after := by
            cases passed with
            | nil =>
                have hhead := congrArg List.head? hsplit
                cases hhead
                exact absurd hfirst hcold
            | cons j after =>
                have hhead := congrArg List.head? hsplit
                cases hhead
                exact ⟨after, rfl⟩
          subst hzero
          exact Walk.not_complete_of_late_count hbug hsplit hfirst hpassed hasks.1 hasks.2 n hcomplete
    · by_contra hcolor
      have hnone := @Walk.colorRefreshes_of_no_color device (Walk.begin c start)
        (by rw [hbegin]; exact Bool.eq_false_of_not_eq_true hcolor) (by rw [hbegin]; rfl) n
      cases hnone.symm.trans hcomplete.refreshed
  · rintro ⟨⟨hasks, hidle⟩, hcount, hcolor⟩
    have hfirstCount : Walk.firstCount first start = first := by
      cases start with
      | state requestFlags => rfl
      | value what =>
          have hwarm : indexes.find? (has c.channels) = some 0 := List.find?_cons_of_pos hcount
          exact Option.some.inj (hwarm.symm.trans hfind)
    exact (Walk.stands_begin hbug hsplit hfirst hpassed hasks hidle hfirstCount).completes hsplit hcolor

/-- A device with the workaround whose channels are red, green and blue. -/
def bugged : Members where
  channels := 0x1C
  idxBug := true
  getSupported := true
  hasStatic := false
  version := 1
  refreshinprogress := false
  coloridxcount := 0
  colorvalues := Vector.replicate 9 0
  colorTargetValues := Vector.replicate 9 0
  hasColor := true
  hasIndex := true
  hasTarget := false

/-- It reports every channel with index three. -/
def alwaysThree : Device where
  level coloridx := 0x10 + coloridx
  index _ := 3
  target _ := 0
  duration _ := 0

/-- A dynamic request is complete. -/
theorem walk_complete_bugged :
    ∃ n, Walk.Complete bugged alwaysThree
      ((Walk.answer alwaysThree)^[n] (Walk.begin bugged (.state 4))) :=
  (walk_complete_iff bugged alwaysThree (.state 4) rfl ⟨red, List.mem_map.mpr ⟨2, by simp, rfl⟩, rfl⟩).mpr
    ⟨⟨⟨by decide, by decide⟩, rfl⟩, trivial, rfl⟩

/-- A request of the value asks for red twice, and first stores its level with warm white. -/
theorem walk_not_complete :
    ¬ ∃ n, Walk.Complete bugged alwaysThree
      ((Walk.answer alwaysThree)^[n] (Walk.begin bugged (.value 0))) := by
  rintro ⟨n, hcomplete⟩
  have hsplit : indexes = 0 :: [1] ++ red :: [3, 4, 5, 6, 7, 8] := rfl
  have hpassed : ∀ j ∈ (0 : UInt8) :: [1], has bugged.channels j = false :=
    List.forall_mem_cons.mpr ⟨rfl, List.forall_mem_singleton.mpr rfl⟩
  exact Walk.not_complete_of_late_count rfl hsplit rfl hpassed ⟨rfl, .inl rfl⟩ rfl n hcomplete

end Color

end OpenZWave
