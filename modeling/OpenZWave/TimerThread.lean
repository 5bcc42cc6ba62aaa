import Mathlib.Data.List.Nodup
import Mathlib.Data.List.Perm.Basic
import Mathlib.Data.List.Range
import Mathlib.Logic.Function.Basic
import Mathlib.Order.Basic
import OpenZWave.Lib.Transition

/-!
# The timer thread

The thread waits for its event or for a timeout, and then goes through the list
of timer events: those that are due are fired, and the others give the next
timeout. A callback may set and delete events of the same list. The iterator of
the loop is the border between the entries `passed` and those `ahead`; at the
end of the list it stays at the end when an entry is added. What `TimeRemaining`
returns for an entry in an iteration of the thread is an argument.
-/

namespace OpenZWave

open Transition
open scoped List

/-- A `TimerEventEntry`: `te` is its address, `timer` the `Timer` it belongs to. -/
structure TimerEntry where
  te : Nat
  timer : Nat
  id : UInt32
  deriving DecidableEq

/-- The calls of a `Timer`. -/
inductive TimerCall
  | setEvent (timer : Nat) (id : UInt32)
  | delEvent (timer te : Nat)
  | delEventById (timer : Nat) (id : UInt32)
  | delEvents (timer : Nat)

def TimerCall.isSetEvent : TimerCall → Bool
  | .setEvent _ _ => true
  | _ => false

/-- What is still in use is deleted: the entry whose callback runs, or the one to
which the iterator of the loop points. -/
inductive TimerFault
  | runningCallback
  | iterator
  deriving DecidableEq

/-- `Timeout_Infinite`. -/
def timeoutInfinite : Int := -1

/-- The members of the thread, the lists of the `Timer`s, and the entries that
were fired and deleted so far. -/
structure TimerThread where
  passed : List TimerEntry
  ahead : List TimerEntry
  running : Option TimerEntry
  owned : Nat → List TimerEntry
  nextEntry : Nat
  timeout : Int
  signalled : Bool
  sweeping : Bool
  remaining : Nat → Int
  fired : List Nat
  deleted : List Nat

namespace TimerThread

/-- `m_timerEventList`. -/
def list (s : TimerThread) : List TimerEntry := s.passed ++ s.ahead

/-- The constructor. -/
def new : TimerThread where
  passed := []
  ahead := []
  running := none
  owned := fun _ => []
  nextEntry := 0
  timeout := timeoutInfinite
  signalled := false
  sweeping := false
  remaining := fun _ => 0
  fired := []
  deleted := []

/-- `push_back`: an iterator at the end stays there. -/
def pushBack (s : TimerThread) (e : TimerEntry) : TimerThread :=
  if s.ahead = [] then { s with passed := s.passed ++ [e] }
  else { s with ahead := s.ahead ++ [e] }

/-- `TimerSetEvent`. -/
def setEvent (s : TimerThread) (timer : Nat) (id : UInt32) : TimerThread :=
  let e : TimerEntry := { te := s.nextEntry, timer := timer, id := id }
  { s.pushBack e with
    owned := Function.update s.owned timer (s.owned timer ++ [e])
    nextEntry := s.nextEntry + 1
    signalled := true }

/-- An entry is erased from the lists of the thread and of its `Timer`. -/
def unlink (s : TimerThread) (e : TimerEntry) : TimerThread :=
  { s with
    passed := s.passed.erase e
    ahead := s.ahead.erase e
    owned := Function.update s.owned e.timer ((s.owned e.timer).erase e) }

/-- `TimerDelEvent` for an entry of the list. -/
def delEntry (s : TimerThread) (e : TimerEntry) : Except TimerFault TimerThread :=
  if s.running = some e then .error .runningCallback
  else if s.ahead.head? = some e then .error .iterator
  else .ok { s.unlink e with deleted := s.deleted ++ [e.te] }

def delEntries (s : TimerThread) : List TimerEntry → Except TimerFault TimerThread
  | [] => .ok s
  | e :: entries =>
      match s.delEntry e with
      | .error fault => .error fault
      | .ok s => s.delEntries entries

/-- The entries that a call deletes, from the list of the `Timer`. -/
def targets (s : TimerThread) : TimerCall → List TimerEntry
  | .setEvent _ _ => []
  | .delEvent timer te => ((s.owned timer).find? fun e => e.te = te).toList
  | .delEventById timer id => ((s.owned timer).find? fun e => e.id = id).toList
  | .delEvents timer => s.owned timer

def call (s : TimerThread) : TimerCall → Except TimerFault TimerThread
  | .setEvent timer id => .ok (s.setEvent timer id)
  | c => s.delEntries (s.targets c)

def calls (s : TimerThread) : List TimerCall → Except TimerFault TimerThread
  | [] => .ok s
  | c :: cs =>
      match s.call c with
      | .error fault => .error fault
      | .ok s => s.calls cs

/-- `TimerFireEvent`, whose callback makes the calls. -/
def fireEvent (s : TimerThread) (e : TimerEntry) (cs : List TimerCall) :
    Except TimerFault TimerThread :=
  match { s with running := some e }.calls cs with
  | .error fault => .error fault
  | .ok s =>
      let s := { s with running := none, fired := s.fired ++ [e.te] }
      .ok (if e ∈ s.owned e.timer then s.unlink e else s)

/-- `it++`. -/
def advance (s : TimerThread) (e : TimerEntry) (rest : List TimerEntry) : TimerThread :=
  { s with passed := s.passed ++ [e], ahead := rest }

/-- The body of the loop. -/
def visit (s : TimerThread) (cs : List TimerCall) : Except TimerFault TimerThread :=
  match s.ahead with
  | [] => .ok s
  | e :: rest =>
      let tr := s.remaining e.te
      if tr ≤ 0 then (s.advance e rest).fireEvent e cs
      else
        .ok { s.advance e rest with
          timeout := if s.timeout = timeoutInfinite then tr else min s.timeout tr }

/-- The wait returns, and the iterator is set to the first entry. -/
def wake (s : TimerThread) (remaining : Nat → Int) : TimerThread :=
  { s with
    timeout := timeoutInfinite
    sweeping := true
    remaining := remaining
    passed := []
    ahead := s.list }

/-- The iterator is at the end. -/
def finish (s : TimerThread) : TimerThread :=
  { s with sweeping := false, signalled := false }

end TimerThread

/-- A step of the thread, or a call of another thread. -/
inductive TimerEvent
  | wake (remaining : Nat → Int)
  | visit (cs : List TimerCall)
  | finish
  | call (c : TimerCall)

namespace TimerThread

/-- The mutex is held from `wake` to `finish`. -/
def apply (s : TimerThread) : TimerEvent → Except TimerFault TimerThread
  | .wake remaining => .ok (if s.sweeping then s else s.wake remaining)
  | .visit cs => if s.sweeping then s.visit cs else .ok s
  | .finish => .ok (if s.sweeping ∧ s.ahead = [] then s.finish else s)
  | .call c => if s.sweeping then .ok s else s.call c

def step (s : Except TimerFault TimerThread) (event : TimerEvent) :
    Except TimerFault TimerThread :=
  s.bind fun s => s.apply event

/-! ## What holds of every run -/

/-- The thread wakes up in time for the entry, which was not due when it last
looked. -/
structure Accounted (s : TimerThread) (e : TimerEntry) : Prop where
  notDue : 0 < s.remaining e.te
  finite : s.timeout ≠ timeoutInfinite
  timeout : s.timeout ≤ s.remaining e.te

/-- While the thread waits and nobody has signalled it, its timeout accounts for
every entry; and every entry that was ever set is listed, was fired or was
deleted, one of the three and once. -/
structure Served (s : TimerThread) : Prop where
  accounted : s.sweeping = false → s.signalled = false → ∀ e ∈ s.list, s.Accounted e
  once : s.list.map TimerEntry.te ++ s.fired ++ s.deleted ~ List.range s.nextEntry

/-- None of the calls deletes the entry whose callback makes them, nor the one to
which the iterator points. -/
def Spares (s : TimerThread) : List TimerCall → Prop
  | [] => True
  | c :: cs =>
      (∀ e ∈ s.targets c, s.running ≠ some e ∧ s.ahead.head? ≠ some e) ∧
        ∀ s', s.call c = .ok s' → s'.Spares cs

/-- A callback spares its own entry and the next one, and sets no event when its
entry is the last of the list. -/
def Calm (s : TimerThread) : TimerEvent → Prop
  | .visit cs => ∀ e rest, s.ahead = e :: rest → s.remaining e.te ≤ 0 →
      { s.advance e rest with running := some e }.Spares cs ∧
        (rest = [] → ∀ c ∈ cs, c.isSetEvent = false)
  | _ => True

/-- The entries are distinct, and each `Timer` has its own. -/
structure Sound (s : TimerThread) : Prop where
  once : s.list.map TimerEntry.te ++ s.fired ++ s.deleted ~ List.range s.nextEntry
  owned : ∀ timer, s.owned timer = s.list.filter fun e => e.timer = timer

variable {s : TimerThread} {e : TimerEntry}

theorem list_pushBack : (s.pushBack e).list = s.list ++ [e] := by
  rw [pushBack]
  split
  · rename_i hend
    simp only [list, hend, List.append_nil]
  · simp only [list, List.append_assoc]

theorem Sound.nodup (h : s.Sound) : (s.list.map TimerEntry.te).Nodup := by
  have hall := h.once.nodup_iff.mpr List.nodup_range
  exact (List.nodup_append.mp (List.nodup_append.mp hall).1).1

theorem Sound.nodup_list (h : s.Sound) : s.list.Nodup := h.nodup.of_map

theorem Sound.setEvent (h : s.Sound) (timer : Nat) (id : UInt32) :
    (s.setEvent timer id).Sound := by
  have hlist : (s.setEvent timer id).list =
      s.list ++ [{ te := s.nextEntry, timer := timer, id := id }] := list_pushBack
  have hfired : (s.setEvent timer id).fired = s.fired := by
    rw [TimerThread.setEvent, pushBack]
    split <;> rfl
  have hdeleted : (s.setEvent timer id).deleted = s.deleted := by
    rw [TimerThread.setEvent, pushBack]
    split <;> rfl
  constructor
  · rw [hlist, hfired, hdeleted, List.map_append, List.map_singleton]
    calc s.list.map TimerEntry.te ++ [s.nextEntry] ++ s.fired ++ s.deleted
        = s.list.map TimerEntry.te ++ ([s.nextEntry] ++ (s.fired ++ s.deleted)) := by
          simp only [List.append_assoc]
      _ ~ s.list.map TimerEntry.te ++ (s.fired ++ s.deleted ++ [s.nextEntry]) :=
          List.perm_append_comm.append_left _
      _ = s.list.map TimerEntry.te ++ s.fired ++ s.deleted ++ [s.nextEntry] := by
          simp only [List.append_assoc]
      _ ~ List.range s.nextEntry ++ [s.nextEntry] := h.once.append_right _
      _ = List.range (s.setEvent timer id).nextEntry := List.range_succ.symm
  · intro other
    rw [hlist, List.filter_append, ← h.owned]
    by_cases hother : other = timer
    · subst hother
      simp [TimerThread.setEvent]
    · simp [TimerThread.setEvent, hother, Ne.symm hother]

theorem list_unlink (h : s.Sound) : (s.unlink e).list = s.list.erase e := by
  obtain ⟨-, -, hdisjoint⟩ := List.nodup_append'.mp h.nodup_list
  by_cases hpassed : e ∈ s.passed
  · have hahead : e ∉ s.ahead := fun hahead => hdisjoint hpassed hahead
    rw [list, list, List.erase_append_left _ hpassed, unlink, List.erase_of_not_mem hahead]
  · rw [list, list, List.erase_append_right _ hpassed, unlink, List.erase_of_not_mem hpassed]

theorem owned_unlink (h : s.Sound) (timer : Nat) :
    (s.unlink e).owned timer = (s.unlink e).list.filter fun e => e.timer = timer := by
  rw [list_unlink h, h.nodup_list.erase_eq_filter, List.filter_comm, ← h.owned]
  by_cases htimer : timer = e.timer
  · subst htimer
    have hnodup : (s.owned e.timer).Nodup := h.owned e.timer ▸ h.nodup_list.filter _
    have hself : (s.unlink e).owned e.timer = (s.owned e.timer).erase e := Function.update_self ..
    rw [hself, hnodup.erase_eq_filter]
  · have hother : (s.unlink e).owned timer = s.owned timer := Function.update_of_ne htimer ..
    rw [hother, eq_comm, List.filter_eq_self]
    intro x hx
    rw [h.owned, List.mem_filter, decide_eq_true_eq] at hx
    have hne : x ≠ e := by
      rintro rfl
      exact htimer hx.2.symm
    exact bne_iff_ne.mpr hne

/-- The entry moves from the list to those that were fired or deleted. -/
theorem once_unlink (h : s.Sound) (hmem : e ∈ s.list) {fired deleted : List Nat}
    (hmoved : fired ++ deleted ~ e.te :: (s.fired ++ s.deleted)) :
    (s.unlink e).list.map TimerEntry.te ++ fired ++ deleted ~ List.range s.nextEntry := by
  have hlist : s.list.map TimerEntry.te ~ e.te :: (s.unlink e).list.map TimerEntry.te := by
    rw [list_unlink h]
    exact (List.perm_cons_erase hmem).map _
  calc (s.unlink e).list.map TimerEntry.te ++ fired ++ deleted
      = (s.unlink e).list.map TimerEntry.te ++ (fired ++ deleted) := List.append_assoc ..
    _ ~ (s.unlink e).list.map TimerEntry.te ++ e.te :: (s.fired ++ s.deleted) :=
        hmoved.append_left _
    _ ~ e.te :: ((s.unlink e).list.map TimerEntry.te ++ (s.fired ++ s.deleted)) :=
        List.perm_middle
    _ = (e.te :: (s.unlink e).list.map TimerEntry.te) ++ s.fired ++ s.deleted := by
        simp only [List.cons_append, List.append_assoc]
    _ ~ s.list.map TimerEntry.te ++ s.fired ++ s.deleted :=
        (hlist.symm.append_right _).append_right _
    _ ~ List.range s.nextEntry := h.once

/-! ## Calls -/

/-- What calls leave as it is when the loop does not stand at the end or no event
is set: the entries behind the iterator are among those that were there. -/
structure Shrinks (s s' : TimerThread) : Prop where
  running : s'.running = s.running
  head : s'.ahead.head? = s.ahead.head?
  sweeping : s'.sweeping = s.sweeping
  timeout : s'.timeout = s.timeout
  remaining : s'.remaining = s.remaining
  signalled : s'.signalled = false → s.signalled = false
  passed : ∀ e ∈ s'.passed, e ∈ s.passed
  kept : ∀ e ∈ s.passed, s.running = some e → e ∈ s'.passed

theorem Shrinks.refl (s : TimerThread) : Shrinks s s :=
  ⟨rfl, rfl, rfl, rfl, rfl, id, fun _ => id, fun _ hmem _ => hmem⟩

theorem Shrinks.trans {s₁ s₂ s₃ : TimerThread} (h₁ : Shrinks s₁ s₂) (h₂ : Shrinks s₂ s₃) :
    Shrinks s₁ s₃ where
  running := h₂.running.trans h₁.running
  head := h₂.head.trans h₁.head
  sweeping := h₂.sweeping.trans h₁.sweeping
  timeout := h₂.timeout.trans h₁.timeout
  remaining := h₂.remaining.trans h₁.remaining
  signalled := fun h => h₁.signalled (h₂.signalled h)
  passed := fun e hmem => h₁.passed e (h₂.passed e hmem)
  kept := fun e hmem hrun => h₂.kept e (h₁.kept e hmem hrun) (h₁.running.trans hrun)

theorem Shrinks.ahead_eq_nil_iff {s s' : TimerThread} (h : Shrinks s s') :
    s'.ahead = [] ↔ s.ahead = [] := by
  rw [← List.head?_eq_none_iff, h.head, List.head?_eq_none_iff]

theorem shrinks_setEvent (hahead : s.ahead ≠ []) (timer : Nat) (id : UInt32) :
    Shrinks s (s.setEvent timer id) := by
  rw [setEvent, pushBack, if_neg hahead]
  refine ⟨rfl, ?_, rfl, rfl, rfl, Bool.noConfusion, fun _ hmem => hmem,
    fun _ hmem _ => hmem⟩
  exact List.head?_append_of_ne_nil _ hahead

theorem Sound.delEntry (h : s.Sound) (hmem : e ∈ s.list) (hrun : s.running ≠ some e)
    (hhead : s.ahead.head? ≠ some e) :
    ∃ s', s.delEntry e = .ok s' ∧ s'.Sound ∧ Shrinks s s' ∧ s'.list = s.list.erase e := by
  rw [TimerThread.delEntry, if_neg hrun, if_neg hhead]
  refine ⟨_, rfl, ⟨?_, owned_unlink h⟩, ?_, list_unlink h⟩
  · apply once_unlink h hmem
    calc s.fired ++ (s.deleted ++ [e.te])
        = s.fired ++ s.deleted ++ [e.te] := (List.append_assoc ..).symm
      _ ~ e.te :: (s.fired ++ s.deleted) := List.perm_append_singleton ..
  · refine ⟨rfl, ?_, rfl, rfl, rfl, id, fun _ => List.mem_of_mem_erase, ?_⟩
    · cases hahead : s.ahead with
      | nil => simp [unlink, hahead]
      | cons first rest =>
          have hne : first ≠ e := by
            rintro rfl
            exact hhead (by rw [hahead, List.head?_cons])
          simp [unlink, hahead, hne]
    · intro x hx hxrun
      have hne : x ≠ e := by
        rintro rfl
        exact hrun hxrun
      exact (List.mem_erase_of_ne hne).mpr hx

theorem Sound.delEntries (h : s.Sound) {entries : List TimerEntry} (hnodup : entries.Nodup)
    (hmem : ∀ e ∈ entries, e ∈ s.list)
    (hspare : ∀ e ∈ entries, s.running ≠ some e ∧ s.ahead.head? ≠ some e) :
    ∃ s', s.delEntries entries = .ok s' ∧ s'.Sound ∧ Shrinks s s' := by
  induction entries generalizing s with
  | nil => exact ⟨s, rfl, h, .refl s⟩
  | cons e entries ih =>
      obtain ⟨hnew, hnodup⟩ := List.nodup_cons.mp hnodup
      obtain ⟨⟨hrun, hhead⟩, hspare⟩ := List.forall_mem_cons.mp hspare
      obtain ⟨hfirst, hmem⟩ := List.forall_mem_cons.mp hmem
      obtain ⟨s₁, hdel, hsound, hshrinks, hlist⟩ := h.delEntry hfirst hrun hhead
      have hmem₁ : ∀ x ∈ entries, x ∈ s₁.list := by
        intro x hx
        have hne : x ≠ e := by
          rintro rfl
          exact hnew hx
        rw [hlist]
        exact (List.mem_erase_of_ne hne).mpr (hmem x hx)
      have hspare₁ : ∀ x ∈ entries, s₁.running ≠ some x ∧ s₁.ahead.head? ≠ some x := by
        intro x hx
        rw [hshrinks.running, hshrinks.head]
        exact hspare x hx
      obtain ⟨s', hrest, hsound', hshrinks'⟩ := ih hsound hnodup hmem₁ hspare₁
      rw [TimerThread.delEntries, hdel]
      exact ⟨s', hrest, hsound', hshrinks.trans hshrinks'⟩

theorem Sound.targets (h : s.Sound) (c : TimerCall) :
    (s.targets c).Nodup ∧ ∀ e ∈ s.targets c, e ∈ s.list := by
  have hfound : ∀ timer (p : TimerEntry → Bool), ((s.owned timer).find? p).toList.Nodup ∧
      ∀ e ∈ ((s.owned timer).find? p).toList, e ∈ s.list := by
    intro timer p
    constructor
    · cases (s.owned timer).find? p with
      | none => exact List.nodup_nil
      | some e => exact List.nodup_singleton e
    · intro e he
      have howned := List.mem_of_find?_eq_some (Option.mem_toList.mp he)
      rw [h.owned] at howned
      exact List.mem_of_mem_filter howned
  cases c with
  | setEvent timer id => exact ⟨List.nodup_nil, fun _ hmem => nomatch hmem⟩
  | delEvent timer te => exact hfound timer _
  | delEventById timer id => exact hfound timer _
  | delEvents timer =>
      rw [TimerThread.targets, h.owned]
      exact ⟨h.nodup_list.filter _, fun _ => List.mem_of_mem_filter⟩

/-- A call, of an event that is set only in front of the end. -/
theorem Sound.call (h : s.Sound) {c : TimerCall}
    (hspare : ∀ e ∈ s.targets c, s.running ≠ some e ∧ s.ahead.head? ≠ some e)
    (hset : s.ahead = [] → c.isSetEvent = false) :
    ∃ s', s.call c = .ok s' ∧ s'.Sound ∧ Shrinks s s' := by
  obtain ⟨hnodup, hmem⟩ := h.targets c
  cases c with
  | setEvent timer id =>
      have hahead : s.ahead ≠ [] := fun hend => Bool.noConfusion (hset hend)
      exact ⟨_, rfl, h.setEvent timer id, shrinks_setEvent hahead timer id⟩
  | delEvent timer te => exact h.delEntries hnodup hmem hspare
  | delEventById timer id => exact h.delEntries hnodup hmem hspare
  | delEvents timer => exact h.delEntries hnodup hmem hspare

theorem Sound.calls (h : s.Sound) {cs : List TimerCall} (hspares : s.Spares cs)
    (hset : s.ahead = [] → ∀ c ∈ cs, c.isSetEvent = false) :
    ∃ s', s.calls cs = .ok s' ∧ s'.Sound ∧ Shrinks s s' := by
  induction cs generalizing s with
  | nil => exact ⟨s, rfl, h, .refl s⟩
  | cons c cs ih =>
      obtain ⟨hspare, hlater⟩ := hspares
      obtain ⟨s₁, hcall, hsound, hshrinks⟩ :=
        h.call hspare fun hend => hset hend c List.mem_cons_self
      have hset₁ : s₁.ahead = [] → ∀ c ∈ cs, c.isSetEvent = false := fun hend c hc =>
        hset (hshrinks.ahead_eq_nil_iff.mp hend) c (List.mem_cons_of_mem _ hc)
      obtain ⟨s', hrest, hsound', hshrinks'⟩ := ih hsound (hlater s₁ hcall) hset₁
      rw [TimerThread.calls, hcall]
      exact ⟨s', hrest, hsound', hshrinks.trans hshrinks'⟩

/-- What firing the last passed entry does. -/
structure Fired (s s' : TimerThread) (e : TimerEntry) : Prop where
  sound : s'.Sound
  running : s'.running = none
  sweeping : s'.sweeping = s.sweeping
  timeout : s'.timeout = s.timeout
  remaining : s'.remaining = s.remaining
  passed : ∀ x ∈ s'.passed, x ∈ s.passed ∧ x ≠ e

theorem Sound.fireEvent (h : s.Sound) (hmem : e ∈ s.passed) {cs : List TimerCall}
    (hspares : { s with running := some e }.Spares cs)
    (hset : s.ahead = [] → ∀ c ∈ cs, c.isSetEvent = false) :
    ∃ s', s.fireEvent e cs = .ok s' ∧ Fired s s' e := by
  have hrunning : { s with running := some e }.Sound := ⟨h.once, h.owned⟩
  obtain ⟨s₁, hcalls, hsound, hshrinks⟩ := hrunning.calls hspares hset
  have hpassed : e ∈ s₁.passed := hshrinks.kept e hmem rfl
  have hlist : e ∈ s₁.list := List.mem_append_left _ hpassed
  have howned : e ∈ s₁.owned e.timer := by
    rw [hsound.owned, List.mem_filter]
    exact ⟨hlist, decide_eq_true rfl⟩
  have hstopped : { s₁ with running := none, fired := s₁.fired ++ [e.te] }.unlink e =
      { s₁.unlink e with running := none, fired := s₁.fired ++ [e.te] } := rfl
  rw [TimerThread.fireEvent, hcalls]
  dsimp only
  rw [if_pos howned, hstopped]
  refine ⟨_, rfl, ⟨?_, owned_unlink hsound⟩, rfl, hshrinks.sweeping, hshrinks.timeout,
    hshrinks.remaining, ?_⟩
  · apply once_unlink hsound hlist
    calc s₁.fired ++ [e.te] ++ s₁.deleted
        = s₁.fired ++ e.te :: s₁.deleted := List.append_assoc ..
      _ ~ e.te :: (s₁.fired ++ s₁.deleted) := List.perm_middle
  · intro x hx
    have hnodup : s₁.passed.Nodup := (List.nodup_append.mp hsound.nodup_list).1
    obtain ⟨hne, hx⟩ := hnodup.mem_erase_iff.mp hx
    exact ⟨hshrinks.passed x hx, hne⟩

/-! ## Runs -/

/-- What holds after every step: the timeout accounts for the entries that the
thread has passed, or somebody has signalled it while it waits. -/
structure Inv (s : TimerThread) : Prop where
  sound : s.Sound
  still : s.running = none
  idle : s.sweeping = false → s.ahead = []
  positive : s.timeout = timeoutInfinite ∨ 0 < s.timeout
  accounted : s.sweeping = true ∨ s.signalled = false → ∀ e ∈ s.passed, s.Accounted e

theorem inv_new : new.Inv where
  sound := ⟨.refl _, fun _ => rfl⟩
  still := rfl
  idle := fun _ => rfl
  positive := .inl rfl
  accounted := fun _ _ hmem => nomatch hmem

theorem Inv.served (h : s.Inv) : s.Served where
  accounted := by
    intro hwaits hquiet e hmem
    rw [list, h.idle hwaits, List.append_nil] at hmem
    exact h.accounted (.inr hquiet) e hmem
  once := h.sound.once

theorem Inv.wake (h : s.Inv) (remaining : Nat → Int) : (s.wake remaining).Inv where
  sound := ⟨h.sound.once, h.sound.owned⟩
  still := h.still
  idle := fun hwaits => nomatch hwaits
  positive := .inl rfl
  accounted := fun _ _ hmem => nomatch hmem

theorem Inv.finish (h : s.Inv) (hsweeping : s.sweeping = true) (hend : s.ahead = []) :
    s.finish.Inv where
  sound := ⟨h.sound.once, h.sound.owned⟩
  still := h.still
  idle := fun _ => hend
  positive := h.positive
  accounted := by
    intro _ e hmem
    have hentry := h.accounted (.inl hsweeping) e hmem
    exact ⟨hentry.notDue, hentry.finite, hentry.timeout⟩

/-- An entry that is not due lowers the timeout. -/
theorem Inv.passOver (h : s.Inv) (hsweeping : s.sweeping = true) {rest : List TimerEntry}
    (hahead : s.ahead = e :: rest) (hdue : 0 < s.remaining e.te) :
    { s.advance e rest with
      timeout := if s.timeout = timeoutInfinite then s.remaining e.te
        else min s.timeout (s.remaining e.te) }.Inv := by
  generalize htimeout : (if s.timeout = timeoutInfinite then s.remaining e.te
    else min s.timeout (s.remaining e.te)) = timeout
  have hpositive : 0 < timeout := by
    rw [← htimeout]
    split
    · exact hdue
    · rename_i hfinite
      exact Int.lt_min.mpr ⟨h.positive.resolve_left hfinite, hdue⟩
  have hfinite : timeout ≠ timeoutInfinite := by
    rintro rfl
    exact absurd hpositive (by decide)
  have hself : timeout ≤ s.remaining e.te := by
    rw [← htimeout]
    split
    · exact Int.le_refl _
    · exact Int.min_le_right _ _
  have hother : ∀ x, s.Accounted x → timeout ≤ s.remaining x.te := by
    intro x hx
    rw [← htimeout, if_neg hx.finite]
    exact Int.le_trans (Int.min_le_left _ _) hx.timeout
  have hlist : ({ s.advance e rest with timeout := timeout } : TimerThread).list = s.list := by
    rw [list, list, hahead]
    exact List.append_assoc ..
  refine ⟨⟨?_, ?_⟩, h.still, fun hwaits => ?_, .inr hpositive, fun _ x hx => ?_⟩
  · rw [hlist]
    exact h.sound.once
  · rw [hlist]
    exact h.sound.owned
  · exact absurd (hsweeping.symm.trans hwaits) (by decide)
  · obtain hx | hx := List.mem_append.mp hx
    · have hold := h.accounted (.inl hsweeping) x hx
      exact ⟨hold.notDue, hfinite, hother x hold⟩
    · rw [List.mem_singleton.mp hx]
      exact ⟨hdue, hfinite, hself⟩

theorem Inv.visit (h : s.Inv) (hsweeping : s.sweeping = true) {cs : List TimerCall}
    (hcalm : s.Calm (.visit cs)) : ∃ s', s.visit cs = .ok s' ∧ s'.Inv := by
  rw [TimerThread.visit]
  cases hahead : s.ahead with
  | nil => exact ⟨s, rfl, h⟩
  | cons e rest =>
      dsimp only
      split
      · rename_i hdue
        obtain ⟨hspares, hset⟩ := hcalm e rest hahead hdue
        have hlist : (s.advance e rest).list = s.list := by
          rw [list, list, hahead]
          exact List.append_assoc ..
        have hsound : (s.advance e rest).Sound := by
          constructor
          · rw [hlist]
            exact h.sound.once
          · rw [hlist]
            exact h.sound.owned
        have hmem : e ∈ (s.advance e rest).passed := List.mem_append_right _ List.mem_cons_self
        obtain ⟨s', hfire, hfired⟩ := hsound.fireEvent hmem hspares hset
        refine ⟨s', hfire, hfired.sound, hfired.running, fun hwaits => ?_, ?_, fun _ x hx => ?_⟩
        · exact absurd (hsweeping.symm.trans (hfired.sweeping.symm.trans hwaits)) (by decide)
        · rw [hfired.timeout]
          exact h.positive
        · obtain ⟨hx, hne⟩ := hfired.passed x hx
          have hx : x ∈ s.passed :=
            (List.mem_append.mp hx).resolve_right fun hx => hne (List.mem_singleton.mp hx)
          have hold := h.accounted (.inl hsweeping) x hx
          refine ⟨?_, ?_, ?_⟩
          · rw [hfired.remaining]
            exact hold.notDue
          · rw [hfired.timeout]
            exact hold.finite
          · rw [hfired.timeout, hfired.remaining]
            exact hold.timeout
      · rename_i hdue
        exact ⟨_, rfl, h.passOver hsweeping hahead (Int.not_le.mp hdue)⟩

/-- A call of another thread. -/
theorem Inv.call (h : s.Inv) (hwaits : s.sweeping = false) (c : TimerCall) :
    ∃ s', s.call c = .ok s' ∧ s'.Inv := by
  have hend := h.idle hwaits
  cases hset : c.isSetEvent with
  | true =>
      cases c with
      | setEvent timer id =>
          refine ⟨_, rfl, h.sound.setEvent timer id, ?_, ?_, ?_, ?_⟩
          · rw [setEvent, pushBack, if_pos hend]
            exact h.still
          · intro _
            rw [setEvent, pushBack, if_pos hend]
            exact hend
          · rw [setEvent, pushBack, if_pos hend]
            exact h.positive
          · intro hor
            rw [setEvent, pushBack, if_pos hend] at hor
            obtain hsweeping | hquiet := hor
            · exact absurd (hsweeping.symm.trans hwaits) (by decide)
            · cases hquiet
      | delEvent timer te => cases hset
      | delEventById timer id => cases hset
      | delEvents timer => cases hset
  | false =>
      have hspare : ∀ e ∈ s.targets c, s.running ≠ some e ∧ s.ahead.head? ≠ some e := by
        intro e _
        rw [h.still, hend]
        exact ⟨(Option.some_ne_none e).symm, (Option.some_ne_none e).symm⟩
      obtain ⟨s', hcall, hsound, hshrinks⟩ := h.sound.call hspare fun _ => hset
      refine ⟨s', hcall, hsound, hshrinks.running.trans h.still, fun _ => ?_, ?_, fun hor x hx => ?_⟩
      · exact hshrinks.ahead_eq_nil_iff.mpr hend
      · rw [hshrinks.timeout]
        exact h.positive
      · have hquiet : s.sweeping = true ∨ s.signalled = false := by
          rw [hshrinks.sweeping] at hor
          exact hor.imp_right hshrinks.signalled
        have hold := h.accounted hquiet x (hshrinks.passed x hx)
        refine ⟨?_, ?_, ?_⟩
        · rw [hshrinks.remaining]
          exact hold.notDue
        · rw [hshrinks.timeout]
          exact hold.finite
        · rw [hshrinks.timeout, hshrinks.remaining]
          exact hold.timeout

theorem Inv.apply (h : s.Inv) {event : TimerEvent} (hcalm : s.Calm event) :
    ∃ s', s.apply event = .ok s' ∧ s'.Inv := by
  cases event with
  | wake remaining =>
      refine ⟨_, rfl, ?_⟩
      split
      · exact h
      · exact h.wake remaining
  | visit cs =>
      rw [TimerThread.apply]
      split
      · rename_i hsweeping
        exact h.visit hsweeping hcalm
      · exact ⟨s, rfl, h⟩
  | finish =>
      refine ⟨_, rfl, ?_⟩
      split
      · rename_i hends
        exact h.finish hends.1 hends.2
      · exact h
  | call c =>
      rw [TimerThread.apply]
      split
      · exact ⟨s, rfl, h⟩
      · rename_i hwaits
        exact h.call (eq_false_of_ne_true hwaits) c

/-- The condition in the state before the event. -/
def CalmStep (s : Except TimerFault TimerThread) (event : TimerEvent) : Prop :=
  ∀ s', s = .ok s' → s'.Calm event

/-- In any order of wake-ups, visits and calls, whatever the callbacks set and
delete: when every callback is calm, no entry is lost or fired twice, and the
thread never waits past an entry. -/
theorem served_run (events : List TimerEvent)
    (hcalm : Along step CalmStep (.ok new) events) :
    ∃ s, run step (.ok new) events = .ok s ∧ s.Served := by
  have hrun : ∃ s, run step (.ok new) events = .ok s ∧ s.Inv := by
    refine run_invariant_along (I := fun r => ∃ s : TimerThread, r = .ok s ∧ s.Inv) ?_
      ⟨new, rfl, inv_new⟩ hcalm
    rintro _ event ⟨s, rfl, h⟩ hstep
    exact h.apply (hstep s rfl)
  obtain ⟨s, hok, h⟩ := hrun
  exact ⟨s, hok, h.served⟩

/-- Two entries are set; the first is due and sets a third. -/
def threeEvents : List TimerEvent :=
  [.call (.setEvent 1 7), .call (.setEvent 2 8),
    .wake fun te => if te = 0 then 0 else 250, .visit [.setEvent 1 9], .visit [], .visit [], .finish]

theorem served_run_threeEvents :
    ∃ s, run step (.ok new) threeEvents = .ok s ∧ s.Served := by
  refine served_run threeEvents ⟨?_, ?_, ?_, ?_, ?_, ?_, ?_, trivial⟩
  · rintro _ ⟨⟩
    trivial
  · rintro _ ⟨⟩
    trivial
  · rintro _ ⟨⟩
    trivial
  · rintro _ ⟨⟩ _ _ ⟨⟩ -
    refine ⟨⟨?_, fun _ _ => trivial⟩, fun hend => nomatch hend⟩
    intro _ hmem
    cases hmem
  · rintro _ ⟨⟩ _ _ ⟨⟩ hdue
    exact absurd hdue (by decide)
  · rintro _ ⟨⟩ _ _ ⟨⟩ hdue
    exact absurd hdue (by decide)
  · rintro _ ⟨⟩
    trivial

/-- The callback of the last entry sets an event: the thread goes to wait for
ever. The callback of an entry deletes the next one: the iterator dangles. -/
theorem lastCallback_not_served :
    (∃ s, run step (.ok new) [.call (.setEvent 1 7), .wake fun te => if te = 0 then 0 else 250,
        .visit [.setEvent 1 9], .finish] = .ok s ∧
      s.timeout = timeoutInfinite ∧ s.list = [{ te := 1, timer := 1, id := 9 }] ∧ ¬ s.Served) ∧
    run step (.ok new) [.call (.setEvent 1 7), .call (.setEvent 1 8), .wake fun _ => 0,
        .visit [.delEventById 1 8]] = .error .iterator := by
  refine ⟨⟨_, rfl, rfl, rfl, fun hserved => ?_⟩, rfl⟩
  exact (hserved.accounted rfl rfl _ List.mem_cons_self).finite rfl

end TimerThread

end OpenZWave
