import OpenZWave.Alarm
import OpenZWave.Lib.Transition

/-!
# What the steps of the notification class do

One lemma for each part of a handler and of the thread: under the conditions of the last
section of the model there is no fault, and the calls of `OnValueRefreshed` are these.
-/

namespace OpenZWave

open Checked

namespace Alarm

/-! ## What a step does -/

section Parts

variable {values : Values} {f : CommandFrame} {inst index : UInt32}

theorem readByte_bind {i : ℕ} (h : i < f.data.length) {β : Type} (k : UInt8 → Except Fault β) :
    (readByte f i >>= k) = k (f.data.getD i 0) :=
  readAt_bind h 0 _ k

/-- The calls for one value. -/
def refreshed (values : Values) (source : Source) (inst index : UInt32) (reading : Reading) :
    List Refresh :=
  ((values inst.toUInt8 index.toUInt16).map fun kind =>
    ⟨source, inst.toUInt8, index.toUInt16, kind, reading⟩).toList

theorem refresh_eq {reading : Reading} (source : Source)
    (h : ∀ kind, values inst.toUInt8 index.toUInt16 = some kind → reading.fits kind = true) :
    refresh values source inst index (.ok reading) =
      .ok (refreshed values source inst index reading) := by
  rw [refresh, refreshed]
  cases hvalue : values inst.toUInt8 index.toUInt16 with
  | none => rfl
  | some kind =>
      dsimp only
      rw [ok_bind, check_bind (h kind hvalue)]
      rfl

theorem refresh_item {s : Alarm} (source : Source) (h : TypeFits s inst index) (n : Int32) :
    refresh s.values source inst index (.ok (.item n)) =
      .ok (refreshed s.values source inst index (.item n)) := by
  apply refresh_eq
  intro kind hkind
  obtain ⟨items, rfl⟩ := h kind hkind
  rfl

/-- The calls for the values of version 1 are for bytes. -/
def IsV1 (r : Refresh) : Prop := r.source = .v1 ∧ ∃ b, r.reading = .byte b

theorem refreshV1_yields {s : Alarm} (h : V1Fits s inst) (type level : UInt8) :
    Yields (refreshV1 s inst type level) fun rs => ∀ r ∈ rs, IsV1 r := by
  have hfirst := @refresh_eq s.values inst typeV1 (.byte type) .v1 fun kind hkind => by
    rw [h typeV1 (by simp) kind hkind]
    rfl
  have hsecond := @refresh_eq s.values inst levelV1 (.byte level) .v1 fun kind hkind => by
    rw [h levelV1 (by simp) kind hkind]
    rfl
  rw [refreshV1, hfirst, hsecond]
  refine yields_pure.mpr fun r hr => ?_
  simp only [refreshed, List.mem_append, Option.mem_toList, Option.map_eq_some_iff] at hr
  rcases hr with ⟨kind, -, rfl⟩ | ⟨kind, -, rfl⟩
  · exact ⟨rfl, type, rfl⟩
  · exact ⟨rfl, level, rfl⟩

theorem reportV1_yields {s : Alarm} (hlong : 3 ≤ f.data.length) (h : V1Fits s inst) :
    Yields (s.reportV1 f inst) fun rs => ∀ r ∈ rs, IsV1 r := by
  rw [reportV1, readByte_bind (by omega), readByte_bind (by omega)]
  exact refreshV1_yields h _ _

theorem ifV1_yields {s : Alarm} {v1 : Except Fault (List Refresh)} {Q : Refresh → Prop}
    (h : s.v1Params = true → Yields v1 fun rs => ∀ r ∈ rs, Q r) :
    Yields (s.ifV1 v1) fun rs => ∀ r ∈ rs, Q r := by
  rw [ifV1]
  split
  · rename_i hparams
    exact h hparams
  · exact yields_pure.mpr nofun

/-- The calls for the parameters that are reset. -/
def resetsOf (values : Values) (inst : UInt32) (paramsSet : List UInt32) : List Refresh :=
  paramsSet.filterMap fun index => (values inst.toUInt8 index.toUInt16).map fun kind =>
    ⟨.reset, inst.toUInt8, index.toUInt16, kind, kind.zero⟩

theorem clearEventParams_eq {s : Alarm} (h : Clearable s inst) :
    clearEventParams s inst = .ok (resetsOf s.values inst s.paramsSet) := by
  unfold Clearable at h
  rw [clearEventParams, resetsOf]
  generalize s.paramsSet = paramsSet at h ⊢
  induction paramsSet with
  | nil => rfl
  | cons index paramsSet ih =>
      obtain ⟨hfirst, hrest⟩ := List.forall_mem_cons.mp h
      obtain ⟨kind, hkind⟩ := Option.isSome_iff_exists.mp hfirst
      rw [List.mapM_cons, ih hrest, List.filterMap_cons, hkind]
      rfl

theorem readHeader_eq (h : HeadFits f) : readHeader f = .ok (headOf f) := by
  have hlong := h.long
  rw [readHeader, readByte_bind (by omega), readByte_bind (by omega), readByte_bind (by omega),
    readByte_bind (by omega)]
  by_cases hsequence : f.data.getD 7 0 &&& 0x80 ≠ 0
  · simp only [hsequence, ne_eq, not_false_eq_true, if_true]
    rw [readByte_bind (h.sequence hsequence)]
    rfl
  · simp only [hsequence, if_false]
    rfl

theorem hasHeader_eq {cc : UInt8} (h8 : 8 < f.data.length)
    (h9 : f.data.getD 8 0 = cc → 9 < f.data.length) (cmd : UInt8) :
    hasHeader f cc cmd = .ok (decide (f.data.getD 8 0 = cc ∧ f.data.getD 9 0 = cmd)) := by
  rw [hasHeader, readByte_bind h8]
  by_cases hcc : f.data.getD 8 0 = cc
  · rw [if_pos hcc, readByte_bind (h9 hcc)]
    exact congrArg Except.ok (decide_eq_decide.mpr (and_iff_right hcc).symm)
  · rw [if_neg hcc]
    exact congrArg Except.ok (decide_eq_false fun h => hcc h.1).symm

/-! ### Parameters -/

section Params

variable {n : UInt8} {p : EventParams} {u : Update}

/-- A parameter's value is written, with what `Q` says of the reading. -/
structure WrittenTo (values : Values) (inst index : UInt32) (u : Update) (Q : Reading → Prop)
    (u' : Update) (kind : Kind) (reading : Reading) : Prop where
  value : values inst.toUInt8 index.toUInt16 = some kind
  reads : Q reading
  fits : reading.fits kind = true
  paramsSet : u'.paramsSet = u.paramsSet ++ [index]
  refreshes : u'.refreshes =
    u.refreshes ++ [⟨.param, inst.toUInt8, index.toUInt16, kind, reading⟩]

theorem write_yields {reading : Except Fault (Reading × UInt16)} {Q : Reading → Prop}
    (h : ∀ kind, values inst.toUInt8 index.toUInt16 = some kind →
      ∃ r kept, reading = .ok (r, kept) ∧ r.fits kind = true ∧ Q r) :
    Yields (u.write values inst index reading) fun u' =>
      u' = u ∨ ∃ kind r, WrittenTo values inst index u Q u' kind r := by
  rw [Update.write]
  cases hvalue : values inst.toUInt8 index.toUInt16 with
  | none => exact yields_pure.mpr (.inl rfl)
  | some kind =>
      obtain ⟨r, kept, hreading, hfits, hQ⟩ := h kind hvalue
      dsimp only
      rw [hreading, ok_bind, check_bind hfits]
      exact yields_pure.mpr (.inr ⟨kind, r, hvalue, hQ, hfits, rfl, rfl⟩)

/-- When a parameter is written, and what its value reads. -/
def Reads (f : CommandFrame) (n : UInt8) (p : EventParams) (surrogate : UInt16)
    (reading : Reading) : Prop :=
  match p.type with
  | .location =>
      (f.data.getD 8 0 = NodeNaming.classId ∧ f.data.getD 9 0 = NodeNaming.cmdReport ∧ n > 2) ∧
        ∃ text, extractString surrogate f 10 (n.toUInt32 - 2) = .ok text ∧
          reading = .string text.1
  | .list => n = 1 ∧ reading = .item (f.data.getD 8 0).toUInt32.toInt32
  | .userCodeReport => n = 1 ∧ reading = .byte (f.data.getD 8 0)
  | .byte => n = 1 ∧ reading = .byte (f.data.getD 8 0)
  | .string =>
      ∃ text, extractString surrogate f 10 (n.toUInt32 - 2) = .ok text ∧ reading = .string text.1
  | .time => n = 3 ∧ ∃ seconds, reading = .int seconds

theorem ofText_eq {text : List UInt8 × UInt16} {start : ℕ} {length : UInt32}
    (h : extractString u.surrogate f start length = .ok text) :
    u.ofText f start length = .ok (.string text.1, text.2) := by
  rw [Update.ofText, h]

theorem ofByte_eq {i : ℕ} (h : i < f.data.length) (reading : UInt8 → Reading) :
    u.ofByte f i reading = .ok (reading (f.data.getD i 0), u.surrogate) := by
  rw [Update.ofByte, readByte_bind h]
  rfl

/-- A pass of the loop over the parameters writes the value of the parameter, or nothing. -/
theorem updateParam_yields (h : HarmlessParam f inst values n p) (u : Update) :
    Yields (updateParam values f inst n u p) fun u' => u' = u ∨
      ∃ kind reading, WrittenTo values inst p.id u (Reads f n p u.surrogate) u' kind reading := by
  unfold HarmlessParam at h
  unfold updateParam Reads
  cases htype : p.type with
  | location =>
      simp only [htype] at h ⊢
      obtain ⟨h8, h9, htext⟩ := h
      rw [hasHeader_eq h8 h9, ok_bind]
      split
      · rename_i hheaded
        obtain ⟨hheader, hn⟩ := hheaded
        have hheader := of_decide_eq_true hheader
        refine write_yields fun kind hkind => ?_
        obtain ⟨rfl, hfits⟩ := htext hheader hn kind hkind
        obtain ⟨text, hextract⟩ := hfits u.surrogate
        exact ⟨_, _, ofText_eq hextract, rfl, ⟨hheader.1, hheader.2, hn⟩, text, hextract, rfl⟩
      · exact yields_pure.mpr (.inl rfl)
  | list =>
      simp only [htype] at h ⊢
      split
      · rename_i hn
        refine write_yields fun kind hkind => ?_
        obtain ⟨h8, items, rfl⟩ := h hn kind hkind
        exact ⟨_, _, ofByte_eq h8 _, rfl, hn, rfl⟩
      · exact yields_pure.mpr (.inl rfl)
  | userCodeReport =>
      simp only [htype] at h ⊢
      obtain ⟨hlong, hshort⟩ := h
      split
      · rename_i hn
        obtain ⟨h8, h9, hnone⟩ := hlong hn
        rw [hasHeader_eq h8 h9, ok_bind]
        split
        · rename_i hheader
          have hnone := hnone (of_decide_eq_true hheader)
          simp only [Update.write, hnone, pure_bind]
          exact yields_pure.mpr (.inl rfl)
        · exact yields_pure.mpr (.inl rfl)
      · split
        · rename_i hn
          refine write_yields fun kind hkind => ?_
          obtain ⟨h8, rfl⟩ := hshort hn kind hkind
          exact ⟨_, _, ofByte_eq h8 _, rfl, hn, rfl⟩
        · exact yields_pure.mpr (.inl rfl)
  | byte =>
      simp only [htype] at h ⊢
      split
      · rename_i hn
        refine write_yields fun kind hkind => ?_
        obtain ⟨h8, rfl⟩ := h hn kind hkind
        exact ⟨_, _, ofByte_eq h8 _, rfl, hn, rfl⟩
      · exact yields_pure.mpr (.inl rfl)
  | string =>
      simp only [htype] at h ⊢
      refine write_yields fun kind hkind => ?_
      obtain ⟨rfl, hfits⟩ := h kind hkind
      obtain ⟨text, hextract⟩ := hfits u.surrogate
      exact ⟨_, _, ofText_eq hextract, rfl, text, hextract, rfl⟩
  | time =>
      simp only [htype] at h ⊢
      split
      · rename_i hn
        refine write_yields fun kind hkind => ?_
        obtain ⟨h12, rfl⟩ := h hn kind hkind
        rw [Update.ofDuration, readByte_bind (by omega), readByte_bind (by omega),
          readByte_bind h12]
        exact ⟨_, _, rfl, rfl, hn, _, rfl⟩
      · exact yields_pure.mpr (.inl rfl)

end Params

end Parts

/-! ### Messages -/

section Messages

variable {device : AlarmDevice} {s : Alarm} {f : CommandFrame} {inst : UInt32}

/-- The calls for the event of a report. -/
def notified (s : Alarm) (inst : UInt32) (head : Header) : List Refresh :=
  refreshed s.values .event inst head.type.toUInt32 (.item head.event.toUInt32.toInt32)

/-- What a report does to the values: it resets the parameters that were set before, writes
its own, and then the event. -/
theorem handleReport_yields (h : HarmlessReport device s f inst) (hversion : device.version > 1)
    (hlong : f.length ≥ 7) {I : Update → Prop} (surrogate : UInt16)
    (h0 : I ⟨surrogate, [], []⟩)
    (hparam : ∀ u u' p kind r, p ∈ paramsOf device (headOf f) → I u →
      WrittenTo s.values inst p.id u (Reads f (headOf f).paramLength p u.surrogate) u' kind r →
      I u') :
    Yields (handleReport device surrogate s f inst) fun r => ∃ v1 u, (∀ x ∈ v1, IsV1 x) ∧ I u ∧
      r.1 = afterReport device s inst (headOf f) u ∧
      r.2.refreshes = v1 ++ resetsOf s.values inst s.paramsSet ++ u.refreshes ++
        s.notified inst (headOf f) := by
  have hhead := h.head.long
  have hfirst : ¬ device.version = 1 := by
    intro h1
    rw [h1] at hversion
    exact absurd hversion (by decide)
  have hv1 := ifV1_yields fun hparams => @reportV1_yields f inst s (by omega) (h.v1 hparams)
  have hparams : Yields ((paramsOf device (headOf f)).foldlM
      (updateParam s.values f inst (headOf f).paramLength) ⟨surrogate, [], []⟩) I := by
    refine yields_foldlM (fun u p hp hu => ?_) h0
    refine (updateParam_yields (h.params p hp) u).mono fun u' hu' => ?_
    rcases hu' with rfl | ⟨kind, r, hwritten⟩
    · exact hu
    · exact hparam u u' p kind r hp hu hwritten
  rw [handleReport, if_neg hfirst, if_pos ⟨hversion, hlong⟩]
  refine hv1.bind fun v1 hv1 => ?_
  rw [readHeader_eq h.head, ok_bind, clearEventParams_eq h.clear, ok_bind]
  refine hparams.bind fun u hu => ?_
  rw [refresh_item .event h.type, ok_bind]
  exact yields_pure.mpr ⟨v1, u, hv1, hu, rfl, rfl⟩

/-- A report whose parameters and event are looked at. -/
def Processed (device : AlarmDevice) (f : CommandFrame) : Prop :=
  f.data.getD 0 0 = cmdReport ∧ device.version > 1 ∧ f.length ≥ 7

instance : Decidable (Processed device f) := inferInstanceAs (Decidable (_ ∧ _ ∧ _))

theorem handleMsg_report {report : Prop}
    (h : MsgFits device s f inst report) (hreport : Processed device f)
    (surrogate : UInt16) :
    handleMsg device surrogate s f inst = handleReport device surrogate s f inst := by
  rw [handleMsg, readByte_bind h.command, if_pos hreport.1]

/-- Values are added, and none is changed. -/
def Grows (values values' : Values) : Prop :=
  ∀ inst index kind, values inst index = some kind → values' inst index = some kind

theorem Grows.trans {values values' values'' : Values} (h : Grows values values')
    (h' : Grows values' values'') : Grows values values'' :=
  fun inst index kind hkind => h' inst index kind (h inst index kind hkind)

theorem grows_addValue (inst index : UInt32) (kind : Kind) (values : Values) :
    Grows values (addValue inst index kind values) := by
  intro i j other hother
  rw [addValue]
  split
  · exact hother
  · rename_i hnone
    by_cases hinst : i = inst.toUInt8
    · subst hinst
      by_cases hindex : j = index.toUInt16
      · subst hindex
        exact absurd (by rw [hother]; rfl) hnone
      · rw [Function.update_self, Function.update_of_ne hindex]
        exact hother
    · rw [Function.update_of_ne hinst]
      exact hother

theorem grows_createParam (inst : UInt32) (ne : NotificationEvents) (values : Values)
    (p : EventParams) : Grows values (createParam inst ne values p) := by
  unfold createParam
  cases p.type with
  | userCodeReport => exact (grows_addValue _ _ _ _).trans (grows_addValue _ _ _ _)
  | location | list | byte | string | time => exact grows_addValue _ _ _ _

theorem grows_setupEvents (types : NotificationCCTypes) (type inst : UInt32)
    (made : Values × List Int32) (index : UInt32) :
    Grows made.1 (setupEvents types type inst made index).1 := by
  rw [setupEvents]
  cases types.getAlarmNotificationEvents type index with
  | none => exact fun _ _ _ h => h
  | some ne =>
      refine Transition.run_invariant _ (I := Grows made.1) (fun values p h => ?_) (fun _ _ _ h => h) _
      exact Grows.trans h (grows_createParam inst ne values p)

/-- What a message that is no report leaves as it is. -/
structure Extends (s s' : Alarm) : Prop where
  paramsSet : s'.paramsSet = s.paramsSet
  clearTimeout : s'.clearTimeout = s.clearTimeout
  timersToInstances : s'.timersToInstances = s.timersToInstances
  timers : s'.timers = s.timers
  now : s'.now = s.now
  values : Grows s.values s'.values

theorem Extends.refl (s : Alarm) : Extends s s := ⟨rfl, rfl, rfl, rfl, rfl, fun _ _ _ h => h⟩

theorem Extends.trans {s' s'' : Alarm} (h : Extends s s') (h' : Extends s' s'') : Extends s s'' :=
  ⟨h'.paramsSet.trans h.paramsSet, h'.clearTimeout.trans h.clearTimeout,
    h'.timersToInstances.trans h.timersToInstances, h'.timers.trans h.timers, h'.now.trans h.now,
    h.values.trans h'.values⟩

theorem extends_addV1 (s : Alarm) (inst : UInt32) : Extends s (s.addV1 inst) :=
  ⟨rfl, rfl, rfl, rfl, rfl, (grows_addValue _ _ _ _).trans (grows_addValue _ _ _ _)⟩

theorem extends_requestState (device : AlarmDevice) (s : Alarm) (inst : UInt32) :
    Extends s (requestState device s inst) := by
  have hv1 : Extends s
      (if device.version = 1 ∨ device.v1AlarmTypesEnabled = true then s.addV1 inst else s) := by
    split
    · exact extends_addV1 s inst
    · exact .refl s
  simp only [requestState]
  split
  · refine hv1.trans ?_
    generalize (if device.version = 1 ∨ device.v1AlarmTypesEnabled = true then s.addV1 inst
      else s) = s'
    split
    · exact ⟨rfl, rfl, rfl, rfl, rfl, grows_addValue _ _ _ _⟩
    · exact .refl s'
  · exact .refl s

theorem extends_supportType (device : AlarmDevice) (inst : UInt32) (s : Alarm × List UInt32)
    (index : UInt32) : Extends s.1 (supportType device inst s index).1 := by
  rw [supportType]
  split
  · cases device.types.getAlarmNotificationTypes index with
    | none => exact ⟨rfl, rfl, rfl, rfl, rfl, fun _ _ _ h => h⟩
    | some nt =>
        refine ⟨rfl, rfl, rfl, rfl, rfl, Grows.trans ?_ (grows_addValue _ _ _ _)⟩
        refine Transition.run_invariant _ (I := fun made : Values × List Int32 => Grows s.1.values made.1)
          (fun made i h => ?_) (fun _ _ _ h => h) _
        exact Grows.trans h (grows_setupEvents _ _ _ made i)
  · split
    · exact .refl s.1
    · exact .refl s.1

theorem forBits_yields {σ : Type} {start numBytes : ℕ} {body : σ → UInt32 → σ} {I : σ → Prop}
    (hlong : start + numBytes ≤ f.data.length) (hbody : ∀ s i, I s → I (body s i)) {s : σ}
    (h0 : I s) : Yields (forBits f start numBytes body s) I := by
  refine yields_foldlM (fun s i hi hs => ?_) h0
  have hi := List.mem_range.mp hi
  rw [readByte_bind (by omega)]
  refine yields_pure.mpr (Transition.run_invariant _ (fun s bit hs => ?_) hs _)
  split
  · exact hbody s _ hs
  · exact hs

/-- What is done by a message that is no report: values are added, and at most those of
version 1 are refreshed. -/
def Quiet (s : Alarm) (r : Alarm × Output) : Prop :=
  Extends s r.1 ∧ ∀ x ∈ r.2.refreshes, IsV1 x

theorem quiet_supportedReport (hlong : 2 + (f.data.getD 1 0 &&& 0x1F).toNat ≤ f.data.length) :
    Yields (handleSupportedReport device s f inst) (Quiet s) := by
  rw [handleSupportedReport, readByte_bind (by omega)]
  have hv1 : Extends s
      (if device.version > 2 ∧ f.data.getD 1 0 &&& 0x80 ≠ 0 then s.addV1 inst else s) := by
    split
    · exact extends_addV1 s inst
    · exact .refl s
  refine (forBits_yields (I := fun r => Extends s r.1) hlong
    (fun r i h => h.trans (extends_supportType device inst r i)) hv1).bind fun r hr => ?_
  exact yields_pure.mpr ⟨hr, nofun⟩

theorem quiet_eventSupportedReport
    (hlong : 3 + (f.data.getD 2 0 &&& 0x1F).toNat ≤ f.data.length) :
    Yields (handleEventSupportedReport device s f inst) (Quiet s) := by
  rw [handleEventSupportedReport, readByte_bind (by omega), readByte_bind (by omega)]
  refine (forBits_yields (I := fun made => Grows s.values made.1) hlong
    (fun made i h => Grows.trans h (grows_setupEvents _ _ _ made i))
    (grows_setupEvents _ _ _ (s.values, []) 0)).bind fun made hmade => ?_
  exact yields_pure.mpr
    ⟨⟨rfl, rfl, rfl, rfl, rfl, hmade.trans (grows_addValue _ _ _ _)⟩, nofun⟩

theorem handleMsg_quiet {report : Prop} (h : MsgFits device s f inst report)
    (hother : ¬ Processed device f)
    (surrogate : UInt16) : Yields (handleMsg device surrogate s f inst) (Quiet s) := by
  rw [handleMsg, readByte_bind h.command]
  split
  · rename_i hreport
    rw [handleReport]
    split
    · rename_i hversion
      obtain ⟨hlong, hfits⟩ := h.version1 hreport hversion
      exact (reportV1_yields hlong hfits).bind fun v1 hv1 => yields_pure.mpr ⟨.refl s, hv1⟩
    · rw [if_neg fun hlong => hother ⟨hreport, hlong⟩]
      exact yields_pure.mpr ⟨.refl s, nofun⟩
  split
  · rename_i hsupported
    exact quiet_supportedReport (h.supported hsupported).2
  split
  · rename_i hevents
    exact quiet_eventSupportedReport (h.events hevents).2
  · exact yields_pure.mpr ⟨.refl s, nofun⟩

theorem values_afterReport (device : AlarmDevice) (s : Alarm) (inst : UInt32) (head : Header)
    (u : Update) : (afterReport device s inst head u).values = s.values := by
  simp only [afterReport]
  split <;> rfl

theorem paramsSet_afterReport (device : AlarmDevice) (s : Alarm) (inst : UInt32) (head : Header)
    (u : Update) : (afterReport device s inst head u).paramsSet = u.paramsSet := by
  simp only [afterReport]
  split <;> rfl

end Messages

/-! ### The thread -/

section Thread

variable {s : Alarm} {type : UInt32}

/-- What `ClearAlarm` does: it forgets the instance of the type, resets the parameters, and
then the type. -/
def Cleared (s : Alarm) (type : UInt32) (r : Alarm × List Refresh) : Prop :=
  match s.timersToInstances type with
  | none => r = (s, [])
  | some inst =>
      r.1 = { s with timersToInstances := Function.update s.timersToInstances type none } ∧
        ∃ v1, (∀ x ∈ v1, IsV1 x) ∧ r.2 = resetsOf s.values inst s.paramsSet ++
          refreshed s.values .clear inst type (.item 0) ++ v1

theorem clearAlarm_yields
    (h : ∀ inst, s.timersToInstances type = some inst → ClearFits s inst type) :
    Yields (clearAlarm s type) (Cleared s type) := by
  unfold Cleared
  rw [clearAlarm]
  cases hinst : s.timersToInstances type with
  | none => exact yields_pure.mpr rfl
  | some inst =>
      have hfits := h inst hinst
      dsimp only
      generalize hs' : { s with
        timersToInstances := Function.update s.timersToInstances type none } = s'
      have hfits' : ClearFits s' inst type := by
        subst hs'
        exact ⟨hfits.clear, hfits.type, hfits.v1⟩
      have hvalues : s'.values = s.values := by rw [← hs']
      have hset : s'.paramsSet = s.paramsSet := by rw [← hs']
      have hv1 := ifV1_yields fun hparams => refreshV1_yields (hfits'.v1 hparams) 0 0
      rw [clearEventParams_eq hfits'.clear, ok_bind, refresh_item .clear hfits.type, ok_bind,
        ← hset, hvalues]
      exact hv1.bind fun v1 hv1 => yields_pure.mpr ⟨rfl, v1, hv1, rfl⟩

/-- What a pass leaves as it is; an instance is at most forgotten. -/
structure Passes (s s' : Alarm) : Prop where
  v1Params : s'.v1Params = s.v1Params
  paramsSet : s'.paramsSet = s.paramsSet
  clearTimeout : s'.clearTimeout = s.clearTimeout
  values : s'.values = s.values
  now : s'.now = s.now
  timersToInstances : ∀ type inst, s'.timersToInstances type = some inst →
    s.timersToInstances type = some inst

theorem Passes.refl (s : Alarm) : Passes s s := ⟨rfl, rfl, rfl, rfl, rfl, fun _ _ h => h⟩

theorem Passes.clearFits {s' : Alarm} (h : Passes s s') {inst : UInt32}
    (hfits : ClearFits s inst type) : ClearFits s' inst type := by
  refine ⟨?_, ?_, ?_⟩
  · rw [Clearable, h.paramsSet, h.values]
    exact hfits.clear
  · rw [TypeFits, h.values]
    exact hfits.type
  · rw [h.v1Params, V1Fits, h.values]
    exact hfits.v1

/-- The thread comes to an entry. -/
theorem visit_yields {s' : Alarm} {te : ClearTimer} (h : Passes s s')
    (hfits : te.due ≤ s.now → ∀ inst, s.timersToInstances te.type = some inst →
      ClearFits s inst te.type) (rs : List Refresh) :
    Yields (visit (s', rs) te) fun r => Passes s r.1 ∧
      if te.due ≤ s'.now then
        ∃ fired, Cleared s' te.type fired ∧ r.2 = rs ++ fired.2 ∧
          r.1 = { fired.1 with timers := fired.1.timers.erase te }
      else r = (s', rs) := by
  rw [visit]
  by_cases hdue : te.due ≤ s'.now
  · simp only [if_pos hdue]
    have hfits : ∀ inst, s'.timersToInstances te.type = some inst → ClearFits s' inst te.type :=
      fun inst hinst => h.clearFits
        (hfits (h.now ▸ hdue) inst (h.timersToInstances _ _ hinst))
    refine (clearAlarm_yields hfits).bind fun fired hfired => yields_pure.mpr ⟨?_, fired, hfired,
      rfl, rfl⟩
    unfold Cleared at hfired
    cases hinst : s'.timersToInstances te.type with
    | none =>
        rw [hinst] at hfired
        dsimp only at hfired
        rw [hfired]
        exact ⟨h.v1Params, h.paramsSet, h.clearTimeout, h.values, h.now, h.timersToInstances⟩
    | some inst =>
        rw [hinst] at hfired
        dsimp only at hfired
        rw [hfired.1]
        refine ⟨h.v1Params, h.paramsSet, h.clearTimeout, h.values, h.now, fun other i hi => ?_⟩
        by_cases hother : other = te.type
        · subst hother
          cases (Function.update_self ..).symm.trans hi
        · exact h.timersToInstances other i ((Function.update_of_ne hother _ _).symm.trans hi)
  · simp only [if_neg hdue]
    exact yields_pure.mpr ⟨h, rfl⟩

theorem pass_yields (h : HarmlessPass s) : Yields (pass s) fun r => Passes s r.1 := by
  refine yields_foldlM (fun r te hte hr => ?_) (Passes.refl s)
  exact (visit_yields hr (h te hte) r.2).mono fun _ hr' => hr'.1

end Thread

end Alarm

end OpenZWave
