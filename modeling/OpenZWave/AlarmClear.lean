import OpenZWave.AlarmSteps

/-!
# The clearing of notifications

A report of an event sets a timer, and the timer sets the list of the type back to zero. All
timers of a type share one place for an instance, and one list of parameters. What is
compared with what should have happened is a log, the newest entry first.
-/

namespace OpenZWave

open Checked Transition

namespace Alarm

/-! ## What should have happened -/

/-- A call of `OnValueRefreshed`, with the time and the timeout, and a pass of the thread. -/
inductive LogEntry
  | refresh (r : Refresh) (time : ℤ) (timeout : UInt32)
  | pass (time : ℤ)

/-- The class and the log. -/
structure ClearSession where
  alarm : Alarm
  log : List LogEntry

namespace ClearSession

def new : ClearSession where
  alarm := Alarm.new
  log := []

/-- The entries for the calls of a step. -/
def entries (s : Alarm) (refreshes : List Refresh) : List LogEntry :=
  (refreshes.map fun r => .refresh r s.now s.clearTimeout).reverse

def started (s : Alarm) (log : List LogEntry) : Step → List LogEntry
  | .pass => .pass s.now :: log
  | _ => log

def step (device : AlarmDevice) (s : ClearSession) (e : Step) : Except Fault ClearSession := do
  let result ← Alarm.step device s.alarm e
  return {
    alarm := result.1
    log := entries s.alarm result.2.refreshes ++ started s.alarm s.log e }

end ClearSession

/-- What a log tells of a type on an instance: when the event that was set last is due, the
first pass from then on, and when it was set back. -/
structure ClearOutcome where
  due : Option ℤ
  passed : Option ℤ
  cleared : List ℤ

namespace ClearOutcome

/-- No event is set. -/
def zero : ClearOutcome := ⟨none, none, []⟩

def pending (due : ℤ) : ClearOutcome := ⟨some due, none, []⟩

def pass (o : ClearOutcome) (time : ℤ) : ClearOutcome :=
  match o.due, o.passed with
  | some due, none => if due ≤ time then { o with passed := some time } else o
  | _, _ => o

def clear (o : ClearOutcome) (time : ℤ) : ClearOutcome :=
  match o.due with
  | some _ => { o with cleared := o.cleared ++ [time] }
  | none => o

/-- The event is set back once, by the first pass of the thread that finds it due. -/
def SetBack (o : ClearOutcome) : Prop :=
  o.cleared = match o.due, o.passed with
    | some _, some time => [time]
    | _, _ => []

end ClearOutcome

/-- The item that a call makes the list of a type show. -/
def shown (inst type : UInt8) (r : Refresh) : Option Int32 :=
  if r.inst = inst ∧ r.index = type.toUInt16 ∧ r.kind.takes r.reading = true then
    match r.reading with
    | .item n => some n
    | _ => none
  else none

/-- An event is due after the timeout. Zero in a report is no event. -/
def outcome (inst type : UInt8) : List LogEntry → ClearOutcome
  | [] => .zero
  | .pass time :: log => (outcome inst type log).pass time
  | .refresh r time timeout :: log =>
      match shown inst type r with
      | none => outcome inst type log
      | some item =>
          if r.source = .reset ∨ r.source = .clear then (outcome inst type log).clear time
          else if item = 0 then .zero
          else .pending (time + timeout.toNat)

/-- Every type is set back on every instance. -/
def ClearProper (s : ClearSession) : Prop :=
  ∀ inst type, (outcome inst type s.log).SetBack

/-! ## The condition -/

section Condition

variable (device : AlarmDevice) (s : Alarm) (f : CommandFrame) (inst : UInt32)

/-- No list of a type is among the parameters that are set. -/
def ApartParams : Prop :=
  ∀ index ∈ s.paramsSet, index.toUInt16 < 256 → ∀ items,
    s.values inst.toUInt8 index.toUInt16 ≠ some (.list items)

/-- A report: nothing goes wrong with it, it refreshes no list of another type, and an event
comes when no timer of its type is pending, for a list that has both the event and zero, or
neither; the timeout is positive. -/
structure ClearableReport : Prop where
  harmless : HarmlessReport device s f inst
  resets : ApartParams s inst
  params : ∀ p ∈ paramsOf device (headOf f), p.type = .list → (headOf f).paramLength = 1 →
    p.id.toUInt16 < 256 → s.values inst.toUInt8 p.id.toUInt16 = none
  alone : (headOf f).event ≠ 0 → ∀ te ∈ s.timers, te.type ≠ (headOf f).type.toUInt32
  known : (headOf f).event ≠ 0 → ∀ items,
    s.values inst.toUInt8 (headOf f).type.toUInt16 = some (.list items) →
      ((headOf f).event.toUInt32.toInt32 ∈ items ↔ 0 ∈ items)
  timeout : (headOf f).event ≠ 0 → 0 < s.clearTimeout.toInt32

/-- A pass: every timer that is due finds the values that it clears, and clears no list of
another type. -/
structure ClearablePass : Prop where
  harmless : HarmlessPass s
  resets : ∀ te ∈ s.timers, te.due ≤ s.now → ∀ inst, s.timersToInstances te.type = some inst →
    ApartParams s inst

end Condition

/-- The condition on a step. -/
def ClearableStep (device : AlarmDevice) (s : ClearSession) : Step → Prop
  | .handleMsg _ f inst => MsgFits device s.alarm f inst (ClearableReport device s.alarm f inst)
  | .pass => ClearablePass s.alarm
  | _ => True

/-! ## One type -/

/-- The list of a type takes the item zero. -/
def TakesZero (values : Values) (inst type : UInt8) : Prop :=
  ∃ items, values inst type.toUInt16 = some (.list items) ∧ (0 : Int32) ∈ items

/-- A type that shows no event on an instance, or whose event was set back. -/
def Settled (values : Values) (inst type : UInt8) (o : ClearOutcome) : Prop :=
  o = .zero ∨ TakesZero values inst type ∧ ∃ due time, o = ⟨some due, some time, [time]⟩

/-- The timers of a type. -/
def timersOf (timers : List ClearTimer) (type : UInt8) : List ClearTimer :=
  timers.filter fun te => te.type = type.toUInt32

/-- A type without a timer. -/
structure Free (s : Alarm) (log : List LogEntry) (type : UInt8) : Prop where
  timers : timersOf s.timers type = []
  stored : s.timersToInstances type.toUInt32 = none
  settled : ∀ inst, Settled s.values inst type (outcome inst type log)

/-- A type whose timer is pending, for an event on its instance that has the outcome `o`. -/
structure Held (s : Alarm) (log : List LogEntry) (type : UInt8) (inst : UInt32) (due : ℤ)
    (o : ClearOutcome) : Prop where
  timers : timersOf s.timers type = [⟨type.toUInt32, due⟩]
  stored : s.timersToInstances type.toUInt32 = some inst
  others : ∀ other, other ≠ inst.toUInt8 → Settled s.values other type (outcome other type log)
  own : outcome inst.toUInt8 type log = .zero ∨
    TakesZero s.values inst.toUInt8 type ∧ outcome inst.toUInt8 type log = o

/-- What holds after every step. -/
structure ClearInv (s : ClearSession) : Prop where
  small : ∀ te ∈ s.alarm.timers, te.type < 256
  tracked : ∀ type, Free s.alarm s.log type ∨
    ∃ inst due, Held s.alarm s.log type inst due (.pending due)

section Outcomes

variable {values values' : Values} {inst type : UInt8} {o : ClearOutcome}

theorem Settled.setBack (h : Settled values inst type o) : o.SetBack := by
  rcases h with rfl | ⟨-, due, time, rfl⟩ <;> rfl

theorem TakesZero.grows (h : TakesZero values inst type) (hgrows : Grows values values') :
    TakesZero values' inst type := by
  obtain ⟨items, hvalue, hzero⟩ := h
  exact ⟨items, hgrows _ _ _ hvalue, hzero⟩

theorem Settled.grows (h : Settled values inst type o) (hgrows : Grows values values') :
    Settled values' inst type o :=
  h.imp_right fun hdone => ⟨hdone.1.grows hgrows, hdone.2⟩

theorem Settled.pass (h : Settled values inst type o) (time : ℤ) :
    o.pass time = o := by
  rcases h with rfl | ⟨-, due, passed, rfl⟩ <;> rfl

/-- A type whose timer is pending is not set back before it is due. -/
theorem Held.setBack {s : Alarm} {log : List LogEntry} {holder : UInt32} {due : ℤ}
    (h : Held s log type holder due (.pending due)) (inst : UInt8) :
    (outcome inst type log).SetBack := by
  by_cases hinst : inst = holder.toUInt8
  · subst hinst
    rcases h.own with hzero | ⟨-, hpending⟩
    · rw [hzero]
      rfl
    · rw [hpending]
      rfl
  · exact (h.others inst hinst).setBack

theorem ClearInv.proper {s : ClearSession} (h : ClearInv s) : ClearProper s := by
  intro inst type
  rcases h.tracked type with hfree | ⟨holder, due, hheld⟩
  · exact (hfree.settled inst).setBack
  · exact hheld.setBack inst

end Outcomes

/-! ## What the log tells of a call -/

section Log

variable {inst type : UInt8} {log : List LogEntry}

theorem shown_of_index {r : Refresh} (h : r.index ≠ type.toUInt16) : shown inst type r = none :=
  if_neg fun hshown => h hshown.2.1

theorem shown_of_reading {r : Refresh} (h : ∀ n, r.reading ≠ .item n) :
    shown inst type r = none := by
  rw [shown]
  split
  · split
    · rename_i n hn
      exact absurd hn (h n)
    · rfl
  · rfl

theorem shown_of_isV1 {r : Refresh} (h : IsV1 r) : shown inst type r = none := by
  obtain ⟨-, b, hb⟩ := h
  apply shown_of_reading
  rw [hb]
  exact nofun

theorem ne_of_not_lt {index : UInt16} (h : ¬ index < 256) : index ≠ type.toUInt16 := by
  rintro rfl
  have htype := type.toNat_lt
  rw [UInt16.lt_iff_toNat_lt, UInt8.toNat_toUInt16] at h
  exact h htype

/-- The parameters that are reset are no lists of types. -/
theorem shown_of_reset {s : Alarm} {holder : UInt32} (h : ApartParams s holder) :
    ∀ r ∈ resetsOf s.values holder s.paramsSet, shown inst type r = none := by
  intro r hr
  obtain ⟨index, hindex, hmap⟩ := List.mem_filterMap.mp hr
  obtain ⟨kind, hkind, rfl⟩ := Option.map_eq_some_iff.mp hmap
  by_cases hlow : index.toUInt16 < 256
  · apply shown_of_reading
    cases kind with
    | list items => exact absurd hkind (h index hindex hlow items)
    | byte | string | int => exact nofun
  · exact shown_of_index (ne_of_not_lt hlow)

theorem entries_append (s : Alarm) (first second : List Refresh) :
    ClearSession.entries s (first ++ second) =
      ClearSession.entries s second ++ ClearSession.entries s first := by
  rw [ClearSession.entries, List.map_append, List.reverse_append]
  rfl

/-- Calls that show nothing of a type leave its outcome. -/
theorem outcome_entries {s : Alarm} {refreshes : List Refresh}
    (h : ∀ r ∈ refreshes, shown inst type r = none) :
    outcome inst type (ClearSession.entries s refreshes ++ log) = outcome inst type log := by
  induction refreshes generalizing log with
  | nil => rfl
  | cons r refreshes ih =>
      obtain ⟨hfirst, hrest⟩ := List.forall_mem_cons.mp h
      have hentries : ClearSession.entries s (r :: refreshes) ++ log =
          ClearSession.entries s refreshes ++ (.refresh r s.now s.clearTimeout :: log) := by
        rw [ClearSession.entries, List.map_cons, List.reverse_cons, List.append_assoc]
        rfl
      rw [hentries, ih hrest, outcome, hfirst]

/-- A call for the list of a type with an item that it has. -/
theorem refreshed_of_list {values : Values} {source : Source} {holder key : UInt32}
    {items : List Int32} (hvalue : values holder.toUInt8 key.toUInt16 = some (.list items))
    (n : Int32) :
    refreshed values source holder key (.item n) =
      [⟨source, holder.toUInt8, key.toUInt16, .list items, .item n⟩] := by
  rw [refreshed, hvalue]
  rfl

theorem shown_of_list {source : Source} {items : List Int32} {n : Int32} (h : n ∈ items) :
    shown inst type ⟨source, inst, type.toUInt16, .list items, .item n⟩ = some n :=
  if_pos ⟨rfl, rfl, decide_eq_true h⟩

/-- A call for a value that is not the list of a type, or does not have the item. -/
theorem shown_of_refused {values : Values} {source : Source} {holder key : UInt32} {n : Int32}
    (h : holder.toUInt8 = inst → key.toUInt16 = type.toUInt16 → ∀ items,
      values inst type.toUInt16 = some (.list items) → n ∉ items) :
    ∀ r ∈ refreshed values source holder key (.item n), shown inst type r = none := by
  intro r hr
  obtain ⟨kind, hkind, rfl⟩ := Option.map_eq_some_iff.mp (Option.mem_toList.mp hr)
  refine if_neg ?_
  rintro ⟨hinst, hindex, htakes⟩
  dsimp only at hinst hindex htakes
  rw [hinst, hindex] at hkind
  cases kind with
  | list items => exact h hinst hindex items hkind (of_decide_eq_true htakes)
  | byte | string | int => cases htakes

end Log

theorem outcome_congr {inst type : UInt8} {log log' : List LogEntry}
    (h : outcome inst type log' = outcome inst type log) (new : List LogEntry) :
    outcome inst type (new ++ log') = outcome inst type (new ++ log) := by
  induction new with
  | nil => exact h
  | cons entry new ih =>
      cases entry with
      | pass time => exact congrArg (ClearOutcome.pass · time) ih
      | refresh r time timeout => rw [List.cons_append, List.cons_append, outcome, outcome, ih]

/-- A log that tells the same of a type as another, or that no event is set. -/
def KeepsOutcomes (log log' : List LogEntry) (type : UInt8) : Prop :=
  ∀ inst, outcome inst type log' = outcome inst type log ∨ outcome inst type log' = .zero

section Same

variable {s s' : Alarm} {log log' : List LogEntry} {type : UInt8}

theorem Settled.of_same {inst : UInt8} (h : Settled s.values inst type (outcome inst type log))
    (hgrows : Grows s.values s'.values) (hlog : KeepsOutcomes log log' type) :
    Settled s'.values inst type (outcome inst type log') := by
  rcases hlog inst with hsame | hzero
  · rw [hsame]
    exact h.grows hgrows
  · exact .inl hzero

theorem Free.of_same (h : Free s log type)
    (htimers : timersOf s'.timers type = timersOf s.timers type)
    (hstored : s'.timersToInstances type.toUInt32 = s.timersToInstances type.toUInt32)
    (hgrows : Grows s.values s'.values) (hlog : KeepsOutcomes log log' type) :
    Free s' log' type where
  timers := htimers.trans h.timers
  stored := hstored.trans h.stored
  settled := fun inst => (h.settled inst).of_same hgrows hlog

theorem Held.of_same {inst : UInt32} {due : ℤ} {o : ClearOutcome} (h : Held s log type inst due o)
    (htimers : timersOf s'.timers type = timersOf s.timers type)
    (hstored : s'.timersToInstances type.toUInt32 = s.timersToInstances type.toUInt32)
    (hgrows : Grows s.values s'.values) (hlog : KeepsOutcomes log log' type) :
    Held s' log' type inst due o where
  timers := htimers.trans h.timers
  stored := hstored.trans h.stored
  others := fun other hother => (h.others other hother).of_same hgrows hlog
  own := by
    rcases hlog inst.toUInt8 with hsame | hzero
    · rw [hsame]
      exact h.own.imp_right fun howned => ⟨howned.1.grows hgrows, howned.2⟩
    · exact .inl hzero

/-- What a type is bound to is left by a step that leaves its timers and its outcomes. -/
theorem tracked_of_same
    (h : Free s log type ∨ ∃ inst due, Held s log type inst due (.pending due))
    (htimers : timersOf s'.timers type = timersOf s.timers type)
    (hstored : s'.timersToInstances type.toUInt32 = s.timersToInstances type.toUInt32)
    (hgrows : Grows s.values s'.values) (hlog : KeepsOutcomes log log' type) :
    Free s' log' type ∨ ∃ inst due, Held s' log' type inst due (.pending due) := by
  rcases h with hfree | ⟨inst, due, hheld⟩
  · exact .inl (hfree.of_same htimers hstored hgrows hlog)
  · exact .inr ⟨inst, due, hheld.of_same htimers hstored hgrows hlog⟩

/-- A step that leaves the timers and every outcome. -/
theorem ClearInv.of_same {s : ClearSession} (h : ClearInv s)
    (htimers : s'.timers = s.alarm.timers)
    (hstored : s'.timersToInstances = s.alarm.timersToInstances)
    (hgrows : Grows s.alarm.values s'.values)
    (hlog : ∀ type, KeepsOutcomes s.log log' type) : ClearInv ⟨s', log'⟩ where
  small := htimers ▸ h.small
  tracked := fun type => by
    have hof : timersOf s'.timers type = timersOf s.alarm.timers type := by
      rw [timersOf, timersOf, htimers]
    exact tracked_of_same (h.tracked type) hof (congrFun hstored _) hgrows (hlog type)

end Same

/-! ## A report -/

section Report

variable {device : AlarmDevice} {s : ClearSession} {f : CommandFrame} {inst : UInt32}

theorem afterReport_of_zero {head : Header} (hevent : head.event = 0) (u : Update) :
    afterReport device s.alarm inst head u = { s.alarm with paramsSet := u.paramsSet } :=
  if_neg fun h => h.1 hevent

theorem afterReport_of_event {head : Header} (hevent : head.event ≠ 0)
    (hversion : device.version < 4) (henable : device.enableClear = true)
    (htimeout : 0 < s.alarm.clearTimeout.toInt32) (u : Update) :
    afterReport device s.alarm inst head u =
      { s.alarm with paramsSet := u.paramsSet }.setClear head.type.toUInt32 inst := by
  have hpos : s.alarm.clearTimeout > 0 := by
    apply UInt32.pos_iff_ne_zero.mpr
    intro hzero
    rw [hzero] at htimeout
    exact absurd htimeout (by decide)
  exact if_pos ⟨hevent, hversion, hpos, henable⟩

theorem toInt_of_pos {timeout : UInt32} (h : 0 < timeout.toInt32) :
    timeout.toInt32.toInt = timeout.toNat := by
  have hpos : 0 < timeout.toInt32.toInt := Int32.lt_iff_toInt_lt.mp h
  have hlt := timeout.toNat_lt
  change 0 < timeout.toBitVec.toInt at hpos
  change timeout.toBitVec.toInt = timeout.toBitVec.toNat
  rw [BitVec.toInt_eq_toNat_cond] at hpos ⊢
  split at hpos
  · rename_i hsmall
    rw [if_pos hsmall]
  · have hnat : timeout.toBitVec.toNat = timeout.toNat := rfl
    omega

theorem toInt32_eq_zero_iff (event : UInt8) : event.toUInt32.toInt32 = 0 ↔ event = 0 := by
  constructor
  · intro h
    have hword : event.toUInt32 = 0 := congrArg Int32.toUInt32 h
    rw [← UInt8.toNat_inj, ← UInt8.toNat_toUInt32, hword]
    rfl
  · rintro rfl
    rfl

theorem timersOf_append_self {timers : List ClearTimer} {type : UInt8}
    (h : timersOf timers type = []) (due : ℤ) :
    timersOf (timers ++ [⟨type.toUInt32, due⟩]) type = [⟨type.toUInt32, due⟩] := by
  rw [timersOf] at h ⊢
  rw [List.filter_append, h]
  simp

theorem timersOf_append_of_ne {type : UInt8} {te : ClearTimer} (h : te.type ≠ type.toUInt32)
    (timers : List ClearTimer) : timersOf (timers ++ [te]) type = timersOf timers type := by
  rw [timersOf, timersOf, List.filter_append]
  simp [h]

theorem toUInt16_inj_type {type other : UInt8}
    (h : other.toUInt32.toUInt16 = type.toUInt16) : type = other := by
  have hnat := congrArg UInt16.toNat h
  have htype := other.toNat_lt
  rw [UInt32.toNat_toUInt16, UInt8.toNat_toUInt32, UInt8.toNat_toUInt16,
    Nat.mod_eq_of_lt (by omega)] at hnat
  exact UInt8.toNat_inj.mp hnat.symm

section Event

variable {head : Header}

/-- The list of the type takes the event. -/
theorem outcome_accepted {items : List Int32} (log : List LogEntry)
    (hvalue : s.alarm.values inst.toUInt8 head.type.toUInt16 = some (.list items))
    (hitem : head.event.toUInt32.toInt32 ∈ items) :
    outcome inst.toUInt8 head.type
        (ClearSession.entries s.alarm (s.alarm.notified inst head) ++ log) =
      if head.event = 0 then .zero
      else .pending (s.alarm.now + s.alarm.clearTimeout.toNat) := by
  have hcall : s.alarm.notified inst head = [⟨.event, inst.toUInt8, head.type.toUInt16,
      .list items, .item head.event.toUInt32.toInt32⟩] := by
    rw [← UInt8.toUInt16_toUInt32] at hvalue ⊢
    exact refreshed_of_list hvalue _
  have hshown := @shown_of_list inst.toUInt8 head.type .event items _ hitem
  rw [hcall]
  change outcome inst.toUInt8 head.type (.refresh _ _ _ :: log) = _
  rw [outcome, hshown]
  simp only [toInt32_eq_zero_iff, reduceCtorEq, or_self, if_false]

/-- No list takes the event, or a list of another type or instance. -/
theorem outcome_refused {i type : UInt8} (log : List LogEntry)
    (h : i = inst.toUInt8 → type = head.type → ∀ items,
      s.alarm.values i type.toUInt16 = some (.list items) →
        head.event.toUInt32.toInt32 ∉ items) :
    outcome i type (ClearSession.entries s.alarm (s.alarm.notified inst head) ++ log) =
      outcome i type log := by
  refine outcome_entries (shown_of_refused fun hinst hindex items hvalue => ?_)
  exact h hinst.symm (toUInt16_inj_type hindex) items hvalue

theorem outcome_of_other {i type : UInt8} (log : List LogEntry)
    (h : i ≠ inst.toUInt8 ∨ type ≠ head.type) :
    outcome i type (ClearSession.entries s.alarm (s.alarm.notified inst head) ++ log) =
      outcome i type log :=
  outcome_refused log fun hinst htype => absurd h (by simp [hinst, htype])

/-- A report without an event. -/
theorem keepsOutcomes_of_zero (hevent : head.event = 0) (log : List LogEntry) (type : UInt8) :
    KeepsOutcomes log (ClearSession.entries s.alarm (s.alarm.notified inst head) ++ log) type := by
  intro i
  by_cases hother : i ≠ inst.toUInt8 ∨ type ≠ head.type
  · exact .inl (outcome_of_other log hother)
  · obtain ⟨rfl, rfl⟩ : i = inst.toUInt8 ∧ type = head.type := by
      simpa only [ne_eq, not_or, not_not] using hother
    by_cases htakes : ∃ items,
        s.alarm.values inst.toUInt8 head.type.toUInt16 = some (.list items) ∧
          head.event.toUInt32.toInt32 ∈ items
    · obtain ⟨items, hvalue, hitem⟩ := htakes
      rw [outcome_accepted log hvalue hitem, if_pos hevent]
      exact .inr rfl
    · exact .inl (outcome_refused log fun _ _ items hvalue hitem =>
        htakes ⟨items, hvalue, hitem⟩)

/-- The event of a report, when its type has no timer. -/
theorem Free.event (h : Free s.alarm s.log head.type) (hevent : head.event ≠ 0)
    (hknown : ∀ items, s.alarm.values inst.toUInt8 head.type.toUInt16 = some (.list items) →
      (head.event.toUInt32.toInt32 ∈ items ↔ 0 ∈ items))
    (htimeout : 0 < s.alarm.clearTimeout.toInt32) (paramsSet : List UInt32) :
    Held ({ s.alarm with paramsSet := paramsSet }.setClear head.type.toUInt32 inst)
      (ClearSession.entries s.alarm (s.alarm.notified inst head) ++ s.log) head.type inst
      (s.alarm.now + s.alarm.clearTimeout.toNat)
      (.pending (s.alarm.now + s.alarm.clearTimeout.toNat)) where
  timers := by
    rw [← toInt_of_pos htimeout]
    exact timersOf_append_self h.timers _
  stored := by
    change (if s.alarm.timersToInstances head.type.toUInt32 = none then _ else _ :
      UInt32 → Option UInt32) _ = _
    rw [if_pos h.stored, Function.update_self]
  others := fun other hother => by
    rw [outcome_of_other s.log (.inl hother)]
    exact h.settled other
  own := by
    by_cases htakes : TakesZero s.alarm.values inst.toUInt8 head.type
    · obtain ⟨items, hvalue, hzero⟩ := htakes
      rw [outcome_accepted s.log hvalue ((hknown items hvalue).mpr hzero), if_neg hevent]
      exact .inr ⟨⟨items, hvalue, hzero⟩, rfl⟩
    · rw [outcome_refused s.log fun _ _ items hvalue hitem =>
        htakes ⟨items, hvalue, (hknown items hvalue).mp hitem⟩]
      exact .inl ((h.settled _).resolve_right fun hdone => htakes hdone.1)

end Event

theorem mem_timersOf {timers : List ClearTimer} {type : UInt8} {te : ClearTimer} :
    te ∈ timersOf timers type ↔ te ∈ timers ∧ te.type = type.toUInt32 := by
  rw [timersOf, List.mem_filter, decide_eq_true_iff]

/-- The report sets the parameters, the list of its type, and a timer. -/
theorem ClearInv.afterReport (h : ClearInv s) (hreport : ClearableReport device s.alarm f inst)
    (hversion : device.version < 4) (henable : device.enableClear = true) (u : Update) :
    ClearInv ⟨afterReport device s.alarm inst (headOf f) u,
      ClearSession.entries s.alarm (s.alarm.notified inst (headOf f)) ++ s.log⟩ := by
  by_cases hevent : (headOf f).event = 0
  · rw [afterReport_of_zero hevent]
    exact h.of_same rfl rfl (fun _ _ _ hkind => hkind) (keepsOutcomes_of_zero hevent s.log)
  · rw [afterReport_of_event hevent hversion henable (hreport.timeout hevent)]
    refine ⟨fun te hte => ?_, fun type => ?_⟩
    · rcases List.mem_append.mp hte with hold | hnew
      · exact h.small te hold
      · rw [List.mem_singleton.mp hnew, UInt32.lt_iff_toNat_lt, UInt8.toNat_toUInt32]
        exact (headOf f).type.toNat_lt
    · by_cases htype : type = (headOf f).type
      · subst htype
        rcases h.tracked (headOf f).type with hfree | ⟨holder, due, hheld⟩
        · exact .inr ⟨inst, _,
            hfree.event hevent (hreport.known hevent) (hreport.timeout hevent) u.paramsSet⟩
        · have hmem : ⟨(headOf f).type.toUInt32, due⟩ ∈
              timersOf s.alarm.timers (headOf f).type := by
            rw [hheld.timers]
            exact List.mem_singleton_self _
          exact absurd rfl (hreport.alone hevent _ (mem_timersOf.mp hmem).1)
      · have hkey : (headOf f).type.toUInt32 ≠ type.toUInt32 :=
          fun heq => htype (UInt8.toUInt32_inj.mp heq).symm
        have hstored : ({ s.alarm with paramsSet := u.paramsSet }.setClear
            (headOf f).type.toUInt32 inst).timersToInstances type.toUInt32 =
              s.alarm.timersToInstances type.toUInt32 := by
          rw [setClear]
          dsimp only
          split
          · exact Function.update_of_ne hkey.symm _ _
          · rfl
        exact tracked_of_same (h.tracked type) (timersOf_append_of_ne hkey _) hstored
          (fun _ _ _ hkind => hkind) fun i => .inl (outcome_of_other s.log (.inr htype))

/-- The parameters of a report are no lists of types. -/
theorem shown_of_written {p : EventParams} {u u' : Update} {kind : Kind} {reading : Reading}
    (hreport : ClearableReport device s.alarm f inst) (hp : p ∈ paramsOf device (headOf f))
    (hwritten : WrittenTo s.alarm.values inst p.id u
      (Reads f (headOf f).paramLength p u.surrogate) u' kind reading) (i type : UInt8) :
    shown i type ⟨.param, inst.toUInt8, p.id.toUInt16, kind, reading⟩ = none := by
  have hreads := hwritten.reads
  unfold Reads at hreads
  cases htype : p.type with
  | list =>
      rw [htype] at hreads
      apply shown_of_index
      refine ne_of_not_lt fun hlow => ?_
      cases (hreport.params p hp htype hreads.1 hlow).symm.trans hwritten.value
  | location =>
      rw [htype] at hreads
      obtain ⟨-, text, -, rfl⟩ := hreads
      exact shown_of_reading nofun
  | string =>
      rw [htype] at hreads
      obtain ⟨text, -, rfl⟩ := hreads
      exact shown_of_reading nofun
  | userCodeReport | byte =>
      rw [htype] at hreads
      obtain ⟨-, rfl⟩ := hreads
      exact shown_of_reading nofun
  | time =>
      rw [htype] at hreads
      obtain ⟨-, seconds, rfl⟩ := hreads
      exact shown_of_reading nofun

theorem ClearInv.handleReport (h : ClearInv s)
    (hreport : ClearableReport device s.alarm f inst) (hversion : 1 < device.version)
    (hbelow : device.version < 4) (henable : device.enableClear = true) (hlong : f.length ≥ 7)
    (surrogate : UInt16) :
    Yields (handleReport device surrogate s.alarm f inst) fun r =>
      ClearInv ⟨r.1, ClearSession.entries s.alarm r.2.refreshes ++ s.log⟩ := by
  refine (handleReport_yields hreport.harmless hversion hlong
    (I := fun u => ∀ r ∈ u.refreshes, ∀ i type, shown i type r = none) surrogate nofun
    fun u u' p kind r hp hu hwritten => ?_).mono fun r hr => ?_
  · rw [hwritten.refreshes]
    exact List.forall_mem_append.mpr
      ⟨hu, List.forall_mem_singleton.mpr (shown_of_written hreport hp hwritten)⟩
  · obtain ⟨v1, u, hv1, hu, halarm, hrefreshes⟩ := hr
    rw [halarm, hrefreshes, entries_append, List.append_assoc]
    refine (h.afterReport hreport hbelow henable u).of_same rfl rfl (fun _ _ _ hkind => hkind)
      fun type i => .inl (outcome_congr (outcome_entries fun r hr => ?_) _)
    rcases List.mem_append.mp hr with hr | hr
    · rcases List.mem_append.mp hr with hr | hr
      · exact shown_of_isV1 (hv1 r hr)
      · exact shown_of_reset hreport.resets r hr
    · exact hu r hr i type

theorem ClearInv.handleMsg (h : ClearInv s)
    (hfits : MsgFits device s.alarm f inst (ClearableReport device s.alarm f inst))
    (hbelow : device.version < 4) (henable : device.enableClear = true) (surrogate : UInt16) :
    Yields (handleMsg device surrogate s.alarm f inst) fun r =>
      ClearInv ⟨r.1, ClearSession.entries s.alarm r.2.refreshes ++ s.log⟩ := by
  by_cases hprocessed : Processed device f
  · obtain ⟨hcommand, hversion, hlong⟩ := id hprocessed
    rw [handleMsg_report hfits hprocessed]
    exact h.handleReport (hfits.report hcommand hversion hlong) hversion hbelow henable hlong
      surrogate
  · refine (handleMsg_quiet hfits hprocessed surrogate).mono fun r hr => ?_
    obtain ⟨hextends, hv1⟩ := hr
    exact h.of_same hextends.timers hextends.timersToInstances hextends.values
      fun type i => .inl (outcome_entries fun x hx => shown_of_isV1 (hv1 x hx))

end Report

/-! ## A pass of the thread -/

section Pass

variable {s : Alarm} {type : UInt8} {inst : UInt32} {fired : Alarm × List Refresh}

/-- The clearing of a type shows nothing of another type or instance, or of a list that
does not take zero. -/
theorem shown_of_cleared (hfired : Cleared s type.toUInt32 fired)
    (hresets : ∀ inst, s.timersToInstances type.toUInt32 = some inst → ApartParams s inst)
    {i other : UInt8}
    (h : ∀ inst, s.timersToInstances type.toUInt32 = some inst → inst.toUInt8 = i →
      other = type → ¬ TakesZero s.values i other) : ∀ x ∈ fired.2, shown i other x = none := by
  unfold Cleared at hfired
  cases hstored : s.timersToInstances type.toUInt32 with
  | none =>
      rw [hstored] at hfired
      dsimp only at hfired
      rw [hfired]
      exact nofun
  | some inst =>
      rw [hstored] at hfired
      obtain ⟨-, v1, hv1, hcalls⟩ := hfired
      rw [hcalls]
      refine List.forall_mem_append.mpr ⟨List.forall_mem_append.mpr ⟨?_, ?_⟩, ?_⟩
      · exact shown_of_reset (hresets inst hstored)
      · exact shown_of_refused fun hinst hindex items hvalue hzero =>
          h inst hstored hinst (toUInt16_inj_type hindex) ⟨items, hvalue, hzero⟩
      · exact fun x hx => shown_of_isV1 (hv1 x hx)

/-- The clearing of a type sets its list on the instance back. -/
theorem outcome_of_cleared (hfired : Cleared s type.toUInt32 fired)
    (hstored : s.timersToInstances type.toUInt32 = some inst) (hresets : ApartParams s inst)
    (htakes : TakesZero s.values inst.toUInt8 type) (start : Alarm) (log : List LogEntry) :
    outcome inst.toUInt8 type (ClearSession.entries start fired.2 ++ log) =
      (outcome inst.toUInt8 type log).clear start.now := by
  obtain ⟨items, hvalue, hzero⟩ := htakes
  rw [Cleared, hstored] at hfired
  obtain ⟨-, v1, hv1, hcalls⟩ := hfired
  have hcall : refreshed s.values .clear inst type.toUInt32 (.item 0) =
      [⟨.clear, inst.toUInt8, type.toUInt16, .list items, .item 0⟩] := by
    rw [← UInt8.toUInt16_toUInt32] at hvalue ⊢
    exact refreshed_of_list hvalue 0
  have hshown := @shown_of_list inst.toUInt8 type .clear items 0 hzero
  rw [hcalls, hcall, entries_append, entries_append, List.append_assoc, List.append_assoc,
    outcome_entries fun x hx => shown_of_isV1 (hv1 x hx)]
  change outcome inst.toUInt8 type (.refresh _ _ _ :: (ClearSession.entries start _ ++ log)) = _
  rw [outcome, hshown, ← @outcome_entries _ _ log start _ (shown_of_reset hresets)]
  rfl

theorem timersOf_erase_self {timers : List ClearTimer} {te : ClearTimer}
    (h : timersOf timers type = [te]) : timersOf (timers.erase te) type = [] := by
  rw [timersOf] at h ⊢
  rw [← List.erase_filter, h, List.erase_cons_head]

theorem timersOf_erase_of_ne {te : ClearTimer} (h : te.type ≠ type.toUInt32)
    (timers : List ClearTimer) : timersOf (timers.erase te) type = timersOf timers type := by
  rw [timersOf, timersOf, ← List.erase_filter]
  apply List.erase_of_not_mem
  exact fun hmem => h (mem_timersOf.mp hmem).2

/-- The timer of a type is due, and sets the type back. -/
theorem Held.fire {log : List LogEntry} {due : ℤ} {start : Alarm}
    (h : Held s log type inst due ((ClearOutcome.pending due).pass start.now))
    (hdue : due ≤ start.now) (hfired : Cleared s type.toUInt32 fired)
    (hresets : ApartParams s inst) :
    Free { fired.1 with timers := fired.1.timers.erase ⟨type.toUInt32, due⟩ }
      (ClearSession.entries start fired.2 ++ log) type := by
  have halarm : fired.1 = { s with
      timersToInstances := Function.update s.timersToInstances type.toUInt32 none } := by
    rw [Cleared, h.stored] at hfired
    exact hfired.1
  have hall : ∀ other, s.timersToInstances type.toUInt32 = some other → ApartParams s other := by
    intro other hother
    cases h.stored.symm.trans hother
    exact hresets
  rw [halarm]
  refine ⟨timersOf_erase_self h.timers, Function.update_self .., fun i => ?_⟩
  by_cases hinst : i = inst.toUInt8
  · subst hinst
    rcases h.own with hzero | ⟨htakes, hpassed⟩
    · by_cases htakes : TakesZero s.values inst.toUInt8 type
      · rw [outcome_of_cleared hfired h.stored hresets htakes, hzero]
        exact .inl rfl
      · rw [outcome_entries (shown_of_cleared hfired hall fun _ _ _ _ => htakes), hzero]
        exact .inl rfl
    · rw [outcome_of_cleared hfired h.stored hresets htakes, hpassed, ClearOutcome.pass]
      refine .inr ⟨htakes, due, start.now, ?_⟩
      simp only [ClearOutcome.pending, if_pos hdue]
      rfl
  · rw [outcome_entries (shown_of_cleared hfired hall fun other hother heq => ?_)]
    · exact h.others i hinst
    · cases h.stored.symm.trans hother
      exact absurd heq.symm hinst

/-- What `ClearAlarm` leaves as it is. -/
structure ClearedFrame (s : Alarm) (key : UInt32) (s' : Alarm) : Prop where
  timers : s'.timers = s.timers
  values : s'.values = s.values
  stored : ∀ other, other ≠ key → s'.timersToInstances other = s.timersToInstances other

theorem clearedFrame_of_cleared {key : UInt32} (hfired : Cleared s key fired) :
    ClearedFrame s key fired.1 := by
  unfold Cleared at hfired
  cases hstored : s.timersToInstances key with
  | none =>
      rw [hstored] at hfired
      dsimp only at hfired
      rw [hfired]
      exact ⟨rfl, rfl, fun _ _ => rfl⟩
  | some inst =>
      rw [hstored] at hfired
      dsimp only at hfired
      rw [hfired.1]
      exact ⟨rfl, rfl, fun other hother => Function.update_of_ne hother _ _⟩

theorem timersOf_cons_self {te : ClearTimer} (h : te.type = type.toUInt32)
    (rest : List ClearTimer) : timersOf (te :: rest) type = te :: timersOf rest type :=
  List.filter_cons_of_pos (decide_eq_true h)

theorem timersOf_cons_of_ne {te : ClearTimer} (h : te.type ≠ type.toUInt32)
    (rest : List ClearTimer) : timersOf (te :: rest) type = timersOf rest type :=
  List.filter_cons_of_neg (by simp [h])

/-- The log while the thread goes through the list. -/
def passLog (start : ClearSession) (refreshes : List Refresh) : List LogEntry :=
  ClearSession.entries start.alarm refreshes ++ .pass start.alarm.now :: start.log

theorem passLog_append (start : ClearSession) (first second : List Refresh) :
    passLog start (first ++ second) =
      ClearSession.entries start.alarm second ++ passLog start first := by
  rw [passLog, passLog, entries_append, List.append_assoc]

/-- A type while the thread goes through the list: its timer is still to come, or is not
due yet. -/
def InPass (start : ClearSession) (rest : List ClearTimer) (r : Alarm × List Refresh)
    (type : UInt8) : Prop :=
  Free r.1 (passLog start r.2) type ∧ timersOf rest type = [] ∨
    ∃ inst due, Held r.1 (passLog start r.2) type inst due
        ((ClearOutcome.pending due).pass start.alarm.now) ∧
      (timersOf rest type = [⟨type.toUInt32, due⟩] ∨
        timersOf rest type = [] ∧ start.alarm.now < due)

section InPass

variable {start : ClearSession} {rest : List ClearTimer} {r : Alarm × List Refresh}
  {te : ClearTimer}

/-- The thread begins. -/
theorem InPass.begin (h : Free start.alarm start.log type ∨
    ∃ inst due, Held start.alarm start.log type inst due (.pending due)) :
    InPass start start.alarm.timers (start.alarm, []) type := by
  have hsettled : ∀ i, Settled start.alarm.values i type (outcome i type start.log) →
      Settled start.alarm.values i type (outcome i type (passLog start [])) := by
    intro i hi
    change Settled _ _ _ ((outcome i type start.log).pass start.alarm.now)
    rwa [hi.pass]
  rcases h with hfree | ⟨inst, due, hheld⟩
  · exact .inl ⟨⟨hfree.timers, hfree.stored, fun i => hsettled i (hfree.settled i)⟩, hfree.timers⟩
  · refine .inr ⟨inst, due, ⟨hheld.timers, hheld.stored,
      fun i hi => hsettled i (hheld.others i hi), ?_⟩, .inl hheld.timers⟩
    exact hheld.own.imp (congrArg (ClearOutcome.pass · start.alarm.now)) fun howned =>
      ⟨howned.1, congrArg (ClearOutcome.pass · start.alarm.now) howned.2⟩

/-- A timer is not due. -/
theorem InPass.skip (h : InPass start (te :: rest) r type) (hdue : start.alarm.now < te.due) :
    InPass start rest r type := by
  by_cases htype : te.type = type.toUInt32
  · unfold InPass at h
    rw [timersOf_cons_self htype] at h
    rcases h with ⟨-, hnone⟩ | ⟨inst, due, hheld, hrest | ⟨hnone, -⟩⟩
    · cases hnone
    · obtain ⟨rfl, hnone⟩ := List.cons.inj hrest
      exact .inr ⟨inst, due, hheld, .inr ⟨hnone, hdue⟩⟩
    · cases hnone
  · unfold InPass at h
    rwa [timersOf_cons_of_ne htype] at h

/-- A timer of another type fires. -/
theorem InPass.other {key : UInt8} {due : ℤ}
    (h : InPass start (⟨key.toUInt32, due⟩ :: rest) r type) (hne : type ≠ key)
    (hfired : Cleared r.1 key.toUInt32 fired)
    (hresets : ∀ inst, r.1.timersToInstances key.toUInt32 = some inst → ApartParams r.1 inst) :
    InPass start rest ({ fired.1 with timers := fired.1.timers.erase ⟨key.toUInt32, due⟩ },
      r.2 ++ fired.2) type := by
  have hkey : type.toUInt32 ≠ key.toUInt32 := fun heq => hne (UInt8.toUInt32_inj.mp heq)
  have hframe := clearedFrame_of_cleared hfired
  have htimers : timersOf (fired.1.timers.erase ⟨key.toUInt32, due⟩) type =
      timersOf r.1.timers type := by
    rw [timersOf_erase_of_ne hkey.symm, hframe.timers]
  have hgrows : Grows r.1.values fired.1.values := by
    rw [hframe.values]
    exact fun _ _ _ hkind => hkind
  have hlog : KeepsOutcomes (passLog start r.2) (passLog start (r.2 ++ fired.2)) type := by
    intro i
    rw [passLog_append]
    exact .inl (outcome_entries (shown_of_cleared hfired hresets fun _ _ _ htype _ => hne htype))
  unfold InPass at h
  rw [timersOf_cons_of_ne hkey.symm] at h
  rcases h with ⟨hfree, hnone⟩ | ⟨inst, due, hheld, hrest⟩
  · exact .inl ⟨hfree.of_same htimers (hframe.stored _ hkey) hgrows hlog, hnone⟩
  · exact .inr ⟨inst, due, hheld.of_same htimers (hframe.stored _ hkey) hgrows hlog, hrest⟩

/-- The timer of the type fires. -/
theorem InPass.own {due : ℤ} (h : InPass start (⟨type.toUInt32, due⟩ :: rest) r type)
    (hdue : due ≤ start.alarm.now) (hfired : Cleared r.1 type.toUInt32 fired)
    (hresets : ∀ inst, r.1.timersToInstances type.toUInt32 = some inst → ApartParams r.1 inst) :
    InPass start rest ({ fired.1 with timers := fired.1.timers.erase ⟨type.toUInt32, due⟩ },
      r.2 ++ fired.2) type := by
  unfold InPass at h
  rw [timersOf_cons_self rfl] at h
  rcases h with ⟨-, hnone⟩ | ⟨inst, due', hheld, hrest | ⟨hnone, -⟩⟩
  · cases hnone
  · obtain ⟨htimer, hnone⟩ := List.cons.inj hrest
    cases htimer
    refine .inl ⟨?_, hnone⟩
    rw [passLog_append]
    exact hheld.fire hdue hfired (hresets inst hheld.stored)
  · cases hnone

/-- The thread is at the end of the list. -/
theorem InPass.done (h : InPass start [] r type) :
    Free r.1 (passLog start r.2) type ∨
      ∃ inst due, Held r.1 (passLog start r.2) type inst due (.pending due) := by
  rcases h with ⟨hfree, -⟩ | ⟨inst, due, hheld, hrest | ⟨-, hdue⟩⟩
  · exact .inl hfree
  · cases hrest
  · have hpending : (ClearOutcome.pending due).pass start.alarm.now = .pending due :=
      if_neg (not_le.mpr hdue)
    rw [hpending] at hheld
    exact .inr ⟨inst, due, hheld⟩

end InPass

/-- What holds while the thread goes through the list. -/
structure PassInv (start : ClearSession) (rest : List ClearTimer) (r : Alarm × List Refresh) :
    Prop where
  passes : Passes start.alarm r.1
  small : ∀ te ∈ r.1.timers, te.type < 256
  listed : ∀ te ∈ rest, te ∈ start.alarm.timers
  tracked : ∀ type, InPass start rest r type

theorem Passes.apartParams {s' : Alarm} (h : Passes s s') (hapart : ApartParams s inst) :
    ApartParams s' inst := by
  rw [ApartParams, h.paramsSet, h.values]
  exact hapart

theorem exists_toUInt32 {key : UInt32} (h : key < 256) : ∃ type : UInt8, key = type.toUInt32 := by
  refine ⟨key.toUInt8, ?_⟩
  have hkey : key.toNat < 256 := UInt32.lt_iff_toNat_lt.mp h
  rw [← UInt32.toNat_inj, UInt8.toNat_toUInt32, UInt32.toNat_toUInt8, Nat.mod_eq_of_lt hkey]

theorem PassInv.visit {start : ClearSession} {te : ClearTimer} {rest : List ClearTimer}
    {r : Alarm × List Refresh} (h : PassInv start (te :: rest) r)
    (hsmall : ∀ te ∈ start.alarm.timers, te.type < 256) (hpass : ClearablePass start.alarm) :
    Yields (visit r te) (PassInv start rest) := by
  obtain ⟨hte, hrest⟩ := List.forall_mem_cons.mp h.listed
  have hnow := h.passes.now
  refine (visit_yields h.passes (hpass.harmless te hte) r.2).mono fun r' hr' => ?_
  obtain ⟨hpasses, hvisit⟩ := hr'
  by_cases hdue : te.due ≤ r.1.now
  · rw [if_pos hdue] at hvisit
    obtain ⟨fired, hfired, hcalls, halarm⟩ := hvisit
    obtain ⟨r', rs'⟩ := r'
    dsimp only at hcalls halarm hpasses
    subst hcalls halarm
    obtain ⟨key, due⟩ := te
    obtain ⟨key, rfl⟩ := exists_toUInt32 (hsmall _ hte)
    rw [hnow] at hdue
    have hresets : ∀ inst, r.1.timersToInstances key.toUInt32 = some inst →
        ApartParams r.1 inst := fun inst hinst =>
      h.passes.apartParams
        (hpass.resets _ hte hdue inst (h.passes.timersToInstances _ _ hinst))
    refine ⟨hpasses, fun te hmem => ?_, hrest, fun type => ?_⟩
    · rw [(clearedFrame_of_cleared hfired).timers] at hmem
      exact h.small te (List.mem_of_mem_erase hmem)
    · by_cases htype : type = key
      · subst htype
        exact (h.tracked type).own hdue hfired hresets
      · exact (h.tracked type).other htype hfired hresets
  · rw [if_neg hdue] at hvisit
    rw [hvisit]
    rw [hnow, not_le] at hdue
    exact ⟨h.passes, h.small, hrest, fun type => (h.tracked type).skip hdue⟩

theorem ClearInv.pass {s : ClearSession} (h : ClearInv s) (hpass : ClearablePass s.alarm) :
    Yields (pass s.alarm) fun r => ClearInv ⟨r.1, passLog s r.2⟩ := by
  have hbegin : PassInv s s.alarm.timers (s.alarm, []) :=
    ⟨.refl s.alarm, h.small, fun _ hte => hte, fun type => .begin (h.tracked type)⟩
  refine (yields_foldlM_rest (fun te rest r hr => hr.visit h.small hpass) hbegin).mono
    fun r hr => ?_
  exact ⟨hr.small, fun type => (hr.tracked type).done⟩

end Pass

/-! ## Every run -/

theorem clearInv_new : ClearInv .new where
  small := nofun
  tracked := fun _ => .inl ⟨rfl, rfl, fun _ => .inl rfl⟩

theorem ClearInv.step {device : AlarmDevice} {s : ClearSession} (h : ClearInv s)
    (hbelow : device.version < 4) (henable : device.enableClear = true) {e : Step}
    (hclearable : ClearableStep device s e) : Yields (s.step device e) ClearInv := by
  rw [ClearSession.step]
  cases e with
  | requestState inst =>
      have hextends := extends_requestState device s.alarm inst
      exact yields_ok.mpr (h.of_same hextends.timers hextends.timersToInstances hextends.values
        fun _ _ => .inl rfl)
  | setValue milliseconds =>
      exact yields_ok.mpr (h.of_same rfl rfl (fun _ _ _ hkind => hkind) fun _ _ => .inl rfl)
  | elapse milliseconds =>
      exact yields_ok.mpr (h.of_same rfl rfl (fun _ _ _ hkind => hkind) fun _ _ => .inl rfl)
  | handleMsg surrogate f inst =>
      exact (h.handleMsg hclearable hbelow henable surrogate).bind fun r hr => yields_pure.mpr hr
  | pass =>
      refine Yields.bind (P := fun r => ClearInv ⟨r.1, passLog s r.2.refreshes⟩) ?_
        fun r hr => yields_pure.mpr hr
      exact (h.pass hclearable).bind fun r hr => yields_pure.mpr hr

/-- In every run whose steps meet the condition, there is no fault, and every type is set
back on every instance, once and not before the timeout. -/
theorem alarms_cleared (device : AlarmDevice) (hversion : device.version = 2 ∨ device.version = 3)
    (henable : device.enableClear = true) (steps : List Step)
    (halong : Checked.Along (ClearSession.step device) (ClearableStep device) .new steps) :
    Yields (steps.foldlM (ClearSession.step device) .new) ClearProper := by
  have hbelow : device.version < 4 := by
    rcases hversion with h | h <;> rw [h] <;> decide
  exact (yields_run_along (fun _ _ h hclearable => h.step hbelow henable hclearable) clearInv_new
    halong).mono fun _ h => h.proper

/-- The events of home security notifications, without parameters. -/
def clearSecurity : NotificationEvents where
  id := 0
  eventParams := []
  sorted := by decide

def motion : NotificationEvents where
  id := 8
  eventParams := []
  sorted := by decide

def homeSecurity : NotificationTypes where
  id := 7
  events := [clearSecurity, motion]
  sorted := by decide

def motionSensor : AlarmDevice where
  version := 3
  enableClear := true
  v1AlarmTypesEnabled := false
  types := ⟨[homeSecurity], by decide⟩

/-- Event 8 of type 7 is supported, and has happened. -/
def supportsMotion : CommandFrame := ⟨[0x02, 0x07, 0x02, 0x00, 0x01], by decide⟩

def motionReport : CommandFrame :=
  ⟨[0x05, 0x00, 0x00, 0x00, 0xFF, 0x07, 0x08, 0x00], by decide⟩

theorem alarms_cleared_motion :
    Yields ([.handleMsg 0 supportsMotion 1, .handleMsg 0 motionReport 1, .elapse 5000,
      .pass].foldlM (ClearSession.step motionSensor) .new) ClearProper := by
  refine alarms_cleared motionSensor (.inr rfl) rfl _ ⟨?_, ?_⟩
  · exact ⟨by decide, fun h => absurd h (by decide), fun h => absurd h (by decide),
      fun h => absurd h (by decide), fun _ => by decide⟩
  · rintro s' ⟨⟩
    refine ⟨⟨by decide, fun _ h => absurd h (by decide), fun _ _ _ => ?_,
      fun h => absurd h (by decide), fun h => absurd h (by decide)⟩, ?_⟩
    · refine ⟨⟨⟨by decide, fun h => absurd h (by decide)⟩, nofun, nofun, nofun, ?_⟩, nofun, nofun,
        fun _ => nofun, fun _ items hitems => ?_, fun _ => by decide⟩
      · intro kind hkind
        cases hkind
        exact ⟨_, rfl⟩
      · cases hitems
        decide
    · rintro s' ⟨⟩
      refine ⟨trivial, ?_⟩
      rintro s' ⟨⟩
      refine ⟨⟨fun te hte _ inst hinst => ?_, fun _ _ _ _ _ => nofun⟩, fun s' _ => trivial⟩
      obtain rfl : te = ⟨7, 5000⟩ := List.mem_singleton.mp hte
      cases hinst
      refine ⟨nofun, fun kind hkind => ?_, nofun⟩
      cases hkind
      exact ⟨_, rfl⟩

/-- A second instance is not set back; and a timer that is older than the last report sets
its event back. -/
theorem alarms_not_cleared :
    ¬ Yields ([.handleMsg 0 supportsMotion 1, .handleMsg 0 supportsMotion 2,
        .handleMsg 0 motionReport 1, .handleMsg 0 motionReport 2, .elapse 5000, .pass].foldlM
      (ClearSession.step motionSensor) .new) ClearProper ∧
    ¬ Yields ([.handleMsg 0 supportsMotion 1, .handleMsg 0 motionReport 1, .elapse 3000,
        .handleMsg 0 motionReport 1, .elapse 2000, .pass].foldlM
      (ClearSession.step motionSensor) .new) ClearProper := by
  constructor
  · rintro ⟨s, hs, hproper⟩
    cases hs
    have hcleared : ([] : List ℤ) = [5000] := hproper 2 7
    cases hcleared
  · rintro ⟨s, hs, hproper⟩
    cases hs
    have hcleared : [(5000 : ℤ)] = [] := hproper 1 7
    cases hcleared

end Alarm

end OpenZWave
