import OpenZWave.AlarmSteps

/-!
# Parameters of notifications

What a report writes to the values of its parameters, and what the next one resets.
-/

namespace OpenZWave

open Checked Transition

namespace Alarm

/-- A report that was processed, and the calls that it made. -/
structure Reported where
  f : CommandFrame
  inst : UInt32
  refreshes : List Refresh

namespace Reported

/-- The parameters that were written, and those that were reset. -/
def writes (report : Reported) : List Refresh :=
  report.refreshes.filter fun r => r.source = .param

def resets (report : Reported) : List Refresh :=
  report.refreshes.filter fun r => r.source = .reset

end Reported

/-- The class, and the reports so far, the latest first. -/
structure ParamSession where
  alarm : Alarm
  reports : List Reported

namespace ParamSession

def new : ParamSession where
  alarm := Alarm.new
  reports := []

/-- The reports with the one of a step. -/
def recorded (device : AlarmDevice) (reports : List Reported) (refreshes : List Refresh) :
    Step → List Reported
  | .handleMsg _ f inst =>
      if Processed device f then ⟨f, inst, refreshes⟩ :: reports else reports
  | _ => reports

def step (device : AlarmDevice) (s : ParamSession) (e : Step) : Except Fault ParamSession := do
  let result ← Alarm.step device s.alarm e
  return { alarm := result.1, reports := recorded device s.reports result.2.refreshes e }

end ParamSession

/-- What the latest report wrote. -/
def lastWrites : List Reported → List Refresh
  | [] => []
  | report :: _ => report.writes

/-! ## What is asked of a run -/

/-- The report that is encapsulated in the parameters, without its class. -/
def encapsulated (f : CommandFrame) (n : UInt8) : CommandFrame where
  data := (f.data.drop 9).take (n.toNat - 1)
  fits := by
    have hfits := f.fits
    rw [List.length_take, List.length_drop]
    omega

/-- The field of a parameter in the `n` bytes from the eighth on: a byte, three bytes of a
duration, a string, the name in an encapsulated report on a name, the user and the code in
an encapsulated report on a user code. -/
def IsField (f : CommandFrame) (n : UInt8) (p : EventParams) (index : UInt16)
    (reading : Reading) : Prop :=
  let byteAt := fun i => f.data.getD i 0
  match p.type with
  | .location => index = p.id.toUInt16 ∧ ∃ surrogate text,
      NodeNaming.extractString surrogate (encapsulated f n) = .ok text ∧ reading = .string text.1
  | .list => index = p.id.toUInt16 ∧ n = 1 ∧ reading = .item (byteAt 8).toUInt32.toInt32
  | .userCodeReport =>
      index = p.id.toUInt16 ∧ reading = .byte (if n = 1 then byteAt 8 else byteAt 10) ∨
        index = (p.id + 1).toUInt16 ∧
          reading = .string ((f.data.drop 12).take (n.toNat - 4))
  | .byte => index = p.id.toUInt16 ∧ n = 1 ∧ reading = .byte (byteAt 8)
  | .string => index = p.id.toUInt16 ∧ reading = .string ((f.data.drop 8).take n.toNat)
  | .time => index = p.id.toUInt16 ∧ n = 3 ∧ reading = .int (Int32.ofNat
      ((byteAt 8).toNat * 3600 + (byteAt 9).toNat * 60 + (byteAt 10).toNat))

/-- The value has the type that is written, and takes the field of a parameter, the bytes of
which are in the report. -/
structure Faithful (device : AlarmDevice) (report : Reported) (r : Refresh) : Prop where
  inst : r.inst = report.inst.toUInt8
  fits : r.reading.fits r.kind = true
  taken : r.kind.takes r.reading = true
  block : 8 + (headOf report.f).paramLength.toNat ≤ report.f.data.length
  field : ∃ p ∈ paramsOf device (headOf report.f),
    IsField report.f (headOf report.f).paramLength p r.index r.reading

/-- A value is reset to the default of its type. -/
def Refresh.undo (r : Refresh) : Refresh := { r with source := .reset, reading := r.kind.zero }

/-- A report after those before it: its writes are faithful, and it has reset exactly what
the last one wrote. -/
structure InOrder (device : AlarmDevice) (report : Reported) (past : List Reported) : Prop where
  faithful : ∀ r ∈ report.writes, Faithful device report r
  resets : report.resets = (lastWrites past).map Refresh.undo
  taken : ∀ r ∈ report.resets, r.kind.takes r.reading = true

/-- What is asked of a state: the reports are in order, and what they wrote has the type
with which it was created. -/
structure ParamsProper (device : AlarmDevice) (s : ParamSession) : Prop where
  inOrder : Ordered (InOrder device) s.reports
  stored : ∀ report ∈ s.reports, ∀ r ∈ report.writes, s.alarm.values r.inst r.index = some r.kind

/-! ## The condition -/

/-- A parameter is one of a type that is written rightly, or it has no value that would be
written: a byte, a list that has the item, a user's number alone, and a location that is
empty. -/
def RegularParam (f : CommandFrame) (inst : UInt32) (values : Values) (n : UInt8)
    (p : EventParams) : Prop :=
  let value := values inst.toUInt8 p.id.toUInt16
  let headed := fun cc cmd => f.data.getD 8 0 = cc ∧ f.data.getD 9 0 = cmd
  match p.type with
  | .location =>
      8 < f.data.length ∧ (f.data.getD 8 0 = NodeNaming.classId → 9 < f.data.length) ∧
        (headed NodeNaming.classId NodeNaming.cmdReport → n > 2 → ∀ kind, value = some kind →
          kind = .string ∧ n = 3 ∧ 11 < f.data.length)
  | .list => n = 1 → ∀ kind, value = some kind →
      8 < f.data.length ∧ ∃ items, kind = .list items ∧
        (f.data.getD 8 0).toUInt32.toInt32 ∈ items
  | .userCodeReport =>
      (n ≥ 8 → 8 < f.data.length ∧ (f.data.getD 8 0 = UserCode.classId → 9 < f.data.length) ∧
        (headed UserCode.classId UserCode.cmdReport → value = none)) ∧
      (n = 1 → ∀ kind, value = some kind → 8 < f.data.length ∧ kind = .byte)
  | .byte => n = 1 → ∀ kind, value = some kind → 8 < f.data.length ∧ kind = .byte
  | .string => value = none
  | .time => n = 3 → value = none

/-- A report: what the last one wrote is on the same instance, and can be reset. -/
structure RegularReport (device : AlarmDevice) (s : ParamSession) (f : CommandFrame)
    (inst : UInt32) : Prop where
  head : HeadFits f
  v1 : s.alarm.v1Params = true → V1Fits s.alarm inst
  same : ∀ r ∈ lastWrites s.reports, r.inst = inst.toUInt8 ∧ r.kind.takes r.kind.zero = true
  params : ∀ p ∈ paramsOf device (headOf f),
    RegularParam f inst s.alarm.values (headOf f).paramLength p
  type : TypeFits s.alarm inst (headOf f).type.toUInt32

/-- The condition on a step. -/
def RegularStep (device : AlarmDevice) (s : ParamSession) : Step → Prop
  | .handleMsg _ f inst => MsgFits device s.alarm f inst (RegularReport device s f inst)
  | .pass => HarmlessPass s.alarm
  | _ => True

/-! ## One parameter -/

section Param

variable {f : CommandFrame} {inst : UInt32} {values : Values} {n : UInt8} {p : EventParams}

/-- A text of one byte, its encoding, is empty. -/
theorem extractString_one (h : 11 < f.data.length) (surrogate : UInt16) :
    extractString surrogate f 10 1 = .ok ([], surrogate) := by
  have hread : 1 < (behind f 10).data.length := by
    rw [behind, List.length_drop]
    omega
  rw [extractString, CommandFrame.read_bind hread, if_neg (by decide)]
  rfl

theorem writeText_zero (surrogate : UInt16) (g : CommandFrame) (encoding : UInt8) :
    NodeNaming.writeText surrogate g encoding 0 = .ok ([], surrogate) := by
  rw [NodeNaming.writeText]
  split
  · rfl
  split
  · rfl
  split <;> rfl

theorem extractString_empty {g : CommandFrame} (h : g.data.length = 2) (surrogate : UInt16) :
    NodeNaming.extractString surrogate g = .ok ([], surrogate) := by
  have hlength : g.length = 3 := by
    rw [← UInt32.toNat_inj, g.toNat_length, h]
    rfl
  rw [NodeNaming.extractString, CommandFrame.read_bind (by omega), hlength, if_pos (by decide)]
  simp only [show (if (3 - 3 : UInt32).toUInt8 > 16 then 16 else (3 - 3 : UInt32).toUInt8).toNat = 0
    from rfl, writeText_zero]
  rfl

theorem RegularParam.harmless (h : RegularParam f inst values n p) :
    HarmlessParam f inst values n p := by
  unfold RegularParam at h
  unfold HarmlessParam
  cases htype : p.type with
  | location =>
      simp only [htype] at h ⊢
      refine ⟨h.1, h.2.1, fun hheader hn kind hkind => ?_⟩
      obtain ⟨rfl, rfl, hlong⟩ := h.2.2 hheader hn kind hkind
      exact ⟨rfl, fun surrogate => ⟨_, extractString_one hlong surrogate⟩⟩
  | list =>
      simp only [htype] at h ⊢
      intro hn kind hkind
      obtain ⟨hlong, items, hitems, -⟩ := h hn kind hkind
      exact ⟨hlong, items, hitems⟩
  | userCodeReport =>
      simp only [htype] at h ⊢
      exact h
  | byte =>
      simp only [htype] at h ⊢
      exact h
  | string =>
      simp only [htype] at h ⊢
      intro kind hkind
      cases h.symm.trans hkind
  | time =>
      simp only [htype] at h ⊢
      intro hn kind hkind
      cases (h hn).symm.trans hkind

/-- What is read for a value of a regular parameter is its field, and the value takes it. -/
theorem RegularParam.isField (h : RegularParam f inst values n p) {kind : Kind}
    {reading : Reading} {surrogate : UInt16}
    (hkind : values inst.toUInt8 p.id.toUInt16 = some kind)
    (hfits : reading.fits kind = true) (hreads : Reads f n p surrogate reading) :
    8 + n.toNat ≤ f.data.length ∧ kind.takes reading = true ∧
      IsField f n p p.id.toUInt16 reading := by
  unfold RegularParam at h
  unfold Reads at hreads
  unfold IsField
  cases htype : p.type with
  | location =>
      simp only [htype] at h hreads ⊢
      obtain ⟨⟨hcc, hcmd, hn⟩, text, htext, rfl⟩ := hreads
      obtain ⟨rfl, rfl, hlong⟩ := h.2.2 ⟨hcc, hcmd⟩ hn kind hkind
      cases (extractString_one hlong surrogate).symm.trans htext
      have hlength : (encapsulated f 3).data.length = 2 := by
        rw [encapsulated, List.length_take, List.length_drop]
        change min 2 (f.data.length - 9) = 2
        omega
      exact ⟨Nat.le_of_lt hlong, rfl, trivial, surrogate, _, extractString_empty hlength surrogate, rfl⟩
  | list =>
      simp only [htype] at h hreads ⊢
      obtain ⟨rfl, rfl⟩ := hreads
      obtain ⟨hlong, items, rfl, hitem⟩ := h rfl kind hkind
      exact ⟨hlong, decide_eq_true hitem, trivial, rfl, rfl⟩
  | userCodeReport =>
      simp only [htype] at h hreads ⊢
      obtain ⟨rfl, rfl⟩ := hreads
      obtain ⟨hlong, rfl⟩ := h.2 rfl kind hkind
      exact ⟨hlong, rfl, .inl ⟨trivial, rfl⟩⟩
  | byte =>
      simp only [htype] at h hreads ⊢
      obtain ⟨rfl, rfl⟩ := hreads
      obtain ⟨hlong, rfl⟩ := h rfl kind hkind
      exact ⟨hlong, rfl, trivial, rfl, rfl⟩
  | string =>
      simp only [htype] at h
      cases h.symm.trans hkind
  | time =>
      simp only [htype] at h hreads
      cases (h hreads.1).symm.trans hkind

end Param

/-! ## One step -/

/-- What holds after every step: the state is proper, and the parameters that are set are
those that the latest report wrote. -/
structure ParamInv (device : AlarmDevice) (s : ParamSession) : Prop where
  proper : ParamsProper device s
  params : s.alarm.paramsSet.map UInt32.toUInt16 = (lastWrites s.reports).map Refresh.index

section Step

variable {device : AlarmDevice} {s : ParamSession}

theorem lastWrites_stored (h : ParamsProper device s) {r : Refresh}
    (hr : r ∈ lastWrites s.reports) : s.alarm.values r.inst r.index = some r.kind := by
  cases hreports : s.reports with
  | nil =>
      rw [hreports] at hr
      cases hr
  | cons report past =>
      rw [hreports] at hr
      exact h.stored report (hreports ▸ List.mem_cons_self ..) r hr

theorem clearable_of_same (h : ParamInv device s) {inst : UInt32}
    (hsame : ∀ r ∈ lastWrites s.reports, r.inst = inst.toUInt8) : Clearable s.alarm inst := by
  intro index hindex
  have hmem : index.toUInt16 ∈ (lastWrites s.reports).map Refresh.index := by
    rw [← h.params]
    exact List.mem_map_of_mem hindex
  obtain ⟨r, hr, hi⟩ := List.mem_map.mp hmem
  rw [← hi, ← hsame r hr, lastWrites_stored h.proper hr]
  rfl

/-- On the instance of the latest report, what it wrote is reset. -/
theorem resetsOf_same (h : ParamInv device s) {inst : UInt32}
    (hsame : ∀ r ∈ lastWrites s.reports, r.inst = inst.toUInt8) :
    resetsOf s.alarm.values inst s.alarm.paramsSet =
      (lastWrites s.reports).map Refresh.undo := by
  let reset : UInt16 → Option Refresh := fun index =>
    (s.alarm.values inst.toUInt8 index).map fun kind =>
      ⟨.reset, inst.toUInt8, index, kind, kind.zero⟩
  calc resetsOf s.alarm.values inst s.alarm.paramsSet
      = (s.alarm.paramsSet.map UInt32.toUInt16).filterMap reset := by
        rw [List.filterMap_map]
        rfl
    _ = (lastWrites s.reports).filterMap fun r => reset r.index := by
        rw [h.params, List.filterMap_map]
        rfl
    _ = (lastWrites s.reports).filterMap fun r => some r.undo := by
        apply List.filterMap_congr
        intro r hr
        have hstored := lastWrites_stored h.proper hr
        have hinst := hsame r hr
        simp only [reset, ← hinst, hstored, Option.map_some, Refresh.undo]
    _ = (lastWrites s.reports).map Refresh.undo := congrFun List.filterMap_eq_map _

theorem filter_source_v1 {v1 : List Refresh} (h : ∀ r ∈ v1, IsV1 r) {source : Source}
    (hsource : source ≠ .v1) : v1.filter (fun r => r.source = source) = [] := by
  apply List.filter_eq_nil_iff.mpr
  intro r hr heq
  exact hsource ((of_decide_eq_true heq).symm.trans (h r hr).1)

theorem filter_source_self {l : List Refresh} {source : Source}
    (h : ∀ r ∈ l, r.source = source) : l.filter (fun r => r.source = source) = l :=
  List.filter_eq_self.mpr fun r hr => decide_eq_true (h r hr)

theorem filter_source_other {l : List Refresh} {source other : Source}
    (h : ∀ r ∈ l, r.source = source) (hne : source ≠ other) :
    l.filter (fun r => r.source = other) = [] := by
  apply List.filter_eq_nil_iff.mpr
  intro r hr heq
  exact hne ((h r hr).symm.trans (of_decide_eq_true heq))

theorem source_resetsOf {values : Values} {inst : UInt32} {paramsSet : List UInt32} :
    ∀ r ∈ resetsOf values inst paramsSet, r.source = .reset := by
  intro r hr
  obtain ⟨index, -, hmap⟩ := List.mem_filterMap.mp hr
  obtain ⟨kind, -, rfl⟩ := Option.map_eq_some_iff.mp hmap
  rfl

theorem source_refreshed {values : Values} {source : Source} {inst index : UInt32}
    {reading : Reading} : ∀ r ∈ refreshed values source inst index reading, r.source = source := by
  intro r hr
  obtain ⟨kind, -, rfl⟩ := Option.map_eq_some_iff.mp (Option.mem_toList.mp hr)
  rfl

/-- What the loop over the parameters has written so far. -/
structure WroteFaithfully (device : AlarmDevice) (values : Values) (report : Reported)
    (u : Update) : Prop where
  params : u.paramsSet.map UInt32.toUInt16 = u.refreshes.map Refresh.index
  source : ∀ r ∈ u.refreshes, r.source = .param
  faithful : ∀ r ∈ u.refreshes, Faithful device report r
  stored : ∀ r ∈ u.refreshes, values r.inst r.index = some r.kind

theorem WroteFaithfully.write {values : Values} {report : Reported} {u u' : Update}
    {p : EventParams} {kind : Kind} {reading : Reading}
    (h : WroteFaithfully device values report u) (hp : p ∈ paramsOf device (headOf report.f))
    (hregular : RegularParam report.f report.inst values (headOf report.f).paramLength p)
    (hwritten : WrittenTo values report.inst p.id u
      (Reads report.f (headOf report.f).paramLength p u.surrogate) u' kind reading) :
    WroteFaithfully device values report u' := by
  obtain ⟨hblock, htaken, hfield⟩ :=
    hregular.isField hwritten.value hwritten.fits hwritten.reads
  have hnew : Faithful device report
      ⟨.param, report.inst.toUInt8, p.id.toUInt16, kind, reading⟩ :=
    ⟨rfl, hwritten.fits, htaken, hblock, p, hp, hfield⟩
  refine ⟨?_, ?_, ?_, ?_⟩
  · rw [hwritten.paramsSet, hwritten.refreshes, List.map_append, List.map_append, h.params]
    rfl
  · rw [hwritten.refreshes]
    exact List.forall_mem_append.mpr ⟨h.source, List.forall_mem_singleton.mpr rfl⟩
  · rw [hwritten.refreshes]
    exact List.forall_mem_append.mpr ⟨h.faithful, List.forall_mem_singleton.mpr hnew⟩
  · rw [hwritten.refreshes]
    exact List.forall_mem_append.mpr ⟨h.stored, List.forall_mem_singleton.mpr hwritten.value⟩

/-- A report is in order, and its parameters are set. -/
theorem inv_report (h : ParamInv device s) {f : CommandFrame} {inst : UInt32}
    (hregular : RegularReport device s f inst) (hreport : Processed device f)
    (surrogate : UInt16) :
    Yields (handleReport device surrogate s.alarm f inst) fun r =>
      ParamInv device ⟨r.1, ⟨f, inst, r.2.refreshes⟩ :: s.reports⟩ := by
  have hsame := fun r hr => (hregular.same r hr).1
  have hharmless : HarmlessReport device s.alarm f inst :=
    ⟨hregular.head, hregular.v1, clearable_of_same h hsame,
      fun p hp => (hregular.params p hp).harmless, hregular.type⟩
  let Wrote := WroteFaithfully device s.alarm.values ⟨f, inst, []⟩
  refine (handleReport_yields (I := Wrote) hharmless hreport.2.1 hreport.2.2 surrogate
    ⟨rfl, nofun, nofun, nofun⟩ fun u u' p kind reading hp hu hwritten =>
      WroteFaithfully.write hu hp (hregular.params p hp) hwritten).mono ?_
  rintro ⟨alarm, out⟩ ⟨v1, u, hv1, hwrote, rfl, hout⟩
  have hnotified : ∀ r ∈ s.alarm.notified inst (headOf f), r.source = .event :=
    source_refreshed
  have hwrites : (⟨f, inst, out.refreshes⟩ : Reported).writes = u.refreshes := by
    rw [Reported.writes, hout, List.filter_append, List.filter_append, List.filter_append,
      filter_source_v1 hv1 (by decide), filter_source_other source_resetsOf (by decide),
      filter_source_self hwrote.source, filter_source_other hnotified (by decide),
      List.append_nil]
    rfl
  have hresets : (⟨f, inst, out.refreshes⟩ : Reported).resets =
      (lastWrites s.reports).map Refresh.undo := by
    rw [Reported.resets, hout, List.filter_append, List.filter_append, List.filter_append,
      filter_source_v1 hv1 (by decide), filter_source_self source_resetsOf,
      filter_source_other hwrote.source (by decide), filter_source_other hnotified (by decide),
      List.append_nil, List.append_nil]
    exact resetsOf_same h hsame
  refine ⟨⟨⟨⟨?_, hresets, ?_⟩, h.proper.inOrder⟩, ?_⟩, ?_⟩
  · rw [hwrites]
    intro r hr
    have hfaithful := hwrote.faithful r hr
    exact ⟨hfaithful.inst, hfaithful.fits, hfaithful.taken, hfaithful.block, hfaithful.field⟩
  · rw [hresets]
    intro r hr
    obtain ⟨written, hwritten, rfl⟩ := List.mem_map.mp hr
    exact (hregular.same written hwritten).2
  · rw [values_afterReport]
    refine List.forall_mem_cons.mpr ⟨?_, h.proper.stored⟩
    rw [hwrites]
    exact hwrote.stored
  · rw [paramsSet_afterReport, lastWrites, hwrites]
    exact hwrote.params

/-- A step that adds values and leaves the parameters that are set. -/
theorem ParamInv.of_grows (h : ParamInv device s) {alarm : Alarm}
    (hset : alarm.paramsSet = s.alarm.paramsSet) (hgrows : Grows s.alarm.values alarm.values) :
    ParamInv device { s with alarm := alarm } where
  proper := ⟨h.proper.inOrder, fun report hreport r hr =>
    hgrows _ _ _ (h.proper.stored report hreport r hr)⟩
  params := by
    rw [hset]
    exact h.params

theorem inv_step (h : ParamInv device s) {e : Step} (hregular : RegularStep device s e) :
    Yields (s.step device e) (ParamInv device) := by
  rw [ParamSession.step]
  cases e with
  | requestState inst =>
      have hextends := extends_requestState device s.alarm inst
      exact yields_ok.mpr (h.of_grows hextends.paramsSet hextends.values)
  | setValue milliseconds => exact yields_ok.mpr (h.of_grows rfl fun _ _ _ hvalue => hvalue)
  | elapse milliseconds => exact yields_ok.mpr (h.of_grows rfl fun _ _ _ hvalue => hvalue)
  | pass =>
      refine Yields.bind (P := fun r => Passes s.alarm r.1) ?_ fun r hr => yields_pure.mpr ?_
      · exact (pass_yields hregular).bind fun r hr => yields_pure.mpr hr
      · exact h.of_grows hr.paramsSet fun _ _ _ hvalue => hr.values ▸ hvalue
  | handleMsg surrogate f inst =>
      have hfits : MsgFits device s.alarm f inst (RegularReport device s f inst) := hregular
      simp only [Alarm.step, ParamSession.recorded]
      by_cases hreport : Processed device f
      · simp only [if_pos hreport, handleMsg_report hfits hreport]
        have hreported := hfits.report hreport.1 hreport.2.1 hreport.2.2
        exact (inv_report h hreported hreport surrogate).bind fun r hr => yields_pure.mpr hr
      · simp only [if_neg hreport]
        refine (handleMsg_quiet hfits hreport surrogate).bind fun r hr => yields_pure.mpr ?_
        exact h.of_grows hr.1.paramsSet hr.1.values

end Step

/-! ## Every run -/

theorem inv_paramSession (device : AlarmDevice) : ParamInv device .new :=
  ⟨⟨trivial, nofun⟩, rfl⟩

/-- In every run whose steps meet the condition, there is no fault, every report is in order,
and what it wrote has the type of its value. -/
theorem params_proper (device : AlarmDevice) (steps : List Step)
    (halong : Checked.Along (ParamSession.step device) (RegularStep device) .new steps) :
    Yields (steps.foldlM (ParamSession.step device) .new) (ParamsProper device) :=
  (yields_run_along (fun _ _ h hregular => inv_step h hregular) (inv_paramSession device)
    halong).mono fun _ h => h.proper

/-- The event that clears an access notification, with the event that is cleared, and the
entry of a user code. -/
def clearAccess : NotificationEvents where
  id := 0
  eventParams := [⟨256, .byte, []⟩]
  sorted := by decide

def enterCode : NotificationEvents where
  id := 21
  eventParams := [⟨260, .userCodeReport, []⟩]
  sorted := by decide

def accessControl : NotificationTypes where
  id := 6
  events := [clearAccess, enterCode]
  sorted := by decide

def keypad : AlarmDevice where
  version := 8
  enableClear := true
  v1AlarmTypesEnabled := false
  types := ⟨[accessControl], by decide⟩

/-- The events of access notifications that are supported. -/
def supportsCode : CommandFrame := ⟨[0x02, 0x06, 0x03, 0x01, 0x00, 0x20], by decide⟩

/-- Event 21 was cleared. -/
def clearedReport : CommandFrame :=
  ⟨[0x05, 0x00, 0x00, 0x00, 0xFF, 0x06, 0x00, 0x01, 0x15], by decide⟩

/-- The first user has entered 1234. -/
def codeReport : CommandFrame :=
  ⟨[0x05, 0x00, 0x00, 0x00, 0xFF, 0x06, 0x15, 0x08, 0x63, 0x03, 0x01, 0x01, 0x31, 0x32, 0x33,
    0x34], by decide⟩

theorem params_proper_keypad :
    Yields ([.handleMsg 0 supportsCode 1, .handleMsg 0 clearedReport 1].foldlM
      (ParamSession.step keypad) .new) (ParamsProper keypad) := by
  refine params_proper keypad _ ⟨?_, ?_⟩
  · exact ⟨by decide, fun h => absurd h (by decide), fun h => absurd h (by decide),
      fun h => absurd h (by decide), fun _ => by decide⟩
  · rintro s' ⟨⟩
    refine ⟨⟨by decide, fun _ h => absurd h (by decide), fun _ _ _ => ?_,
      fun h => absurd h (by decide), fun h => absurd h (by decide)⟩, fun s' _ => trivial⟩
    refine ⟨⟨by decide, fun h => absurd h (by decide)⟩, nofun, nofun, ?_, ?_⟩
    · intro p hp
      obtain rfl : p = ⟨256, .byte, []⟩ := List.mem_singleton.mp hp
      intro _ kind hkind
      cases hkind
      exact ⟨by decide, rfl⟩
    · intro kind hkind
      cases hkind
      exact ⟨_, rfl⟩

/-- The value of the code is that of the user; and on the second instance there are no
values that could be reset. -/
theorem params_not_proper :
    ¬ Yields ([.handleMsg 0 supportsCode 1, .handleMsg 0 codeReport 1].foldlM
        (ParamSession.step keypad) .new) (ParamsProper keypad) ∧
    ¬ Yields ([.handleMsg 0 supportsCode 1, .handleMsg 0 clearedReport 1,
        .handleMsg 0 clearedReport 2].foldlM (ParamSession.step keypad) .new)
      (ParamsProper keypad) := by
  have hcast : [Step.handleMsg 0 supportsCode 1, .handleMsg 0 codeReport 1].foldlM
      (ParamSession.step keypad) .new = .error .cast := rfl
  have hmissing : [Step.handleMsg 0 supportsCode 1, .handleMsg 0 clearedReport 1,
      .handleMsg 0 clearedReport 2].foldlM (ParamSession.step keypad) .new =
        .error .missing := rfl
  constructor
  · rw [hcast]
    rintro ⟨s, h, -⟩
    cases h
  · rw [hmissing]
    rintro ⟨s, h, -⟩
    cases h

end Alarm

end OpenZWave
