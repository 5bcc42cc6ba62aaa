import Mathlib.Data.List.Count
import OpenZWave.Lib.Countdown
import OpenZWave.Polling

/-!
# How often a value is polled

A complete pass of the poll thread takes every entry of the list once. As long as
the list, the values and the nodes stay as they are, the counter of an entry is
a countdown that is reloaded with the intensity of its value.
-/

namespace OpenZWave

open Countdown

namespace PollDriver

variable (d : PollDriver)

/-- The intensity of a value. -/
def intensity (id : ValueID) : UInt8 :=
  match d.getValue id with
  | none => 0
  | some value => value.pollIntensity

/-- The poll thread requests the value: its node is not asleep and has the class. -/
def answers (id : ValueID) : Bool :=
  match d.nodes id.nodeId with
  | none => false
  | some node =>
      !(!node.listening && node.awake == some false) && node.commandClasses id.commandClassId

/-- The poll thread runs, and it finds the value of each entry. -/
structure Steady : Prop where
  awake : d.awakeNodesQueried = true
  once : d.listed.Nodup
  there : ∀ id ∈ d.listed, ∃ value, d.getValue id = some value

/-- The entry as it goes back to the end of the list. -/
def nextEntry (entry : PollEntry) : PollEntry :=
  { entry with pollCounter := tick (d.intensity entry.id) entry.pollCounter }

/-- The value of the entry is requested when its turn comes. -/
def requests (entry : PollEntry) : Bool := entry.pollCounter == 1 && d.answers entry.id

/-- What passes do not change: the values, and which nodes answer. -/
structure Alike (d d' : PollDriver) : Prop where
  awake : d'.awakeNodesQueried = d.awakeNodesQueried
  values : ∀ id, d'.getValue id = d.getValue id
  answers : ∀ id, d'.answers id = d.answers id

theorem Alike.refl : Alike d d := ⟨rfl, fun _ => rfl, fun _ => rfl⟩

variable {d} {d' d'' : PollDriver}

theorem Alike.trans (h : Alike d d') (h' : Alike d' d'') : Alike d d'' :=
  ⟨h'.awake.trans h.awake, fun id => (h'.values id).trans (h.values id),
    fun id => (h'.answers id).trans (h.answers id)⟩

theorem Alike.intensity (h : Alike d d') (id : ValueID) : d'.intensity id = d.intensity id := by
  rw [PollDriver.intensity, PollDriver.intensity, h.values]

theorem Alike.nextEntry (h : Alike d d') : d'.nextEntry = d.nextEntry := by
  ext entry : 1
  rw [PollDriver.nextEntry, PollDriver.nextEntry, h.intensity]

theorem Alike.requests (h : Alike d d') : d'.requests = d.requests := by
  ext entry : 1
  rw [PollDriver.requests, PollDriver.requests, h.answers]

/-! ## One iteration -/

theorem answers_of_nodes_eq {id : ValueID} {nodeId : UInt8} {node : PollNode nodeId}
    (hnode : d.nodes nodeId = some node) (hid : id.nodeId = nodeId) :
    d.answers id =
      (!(!node.listening && node.awake == some false) && node.commandClasses id.commandClassId) := by
  subst hid
  rw [answers, hnode]

/-- The request changes at most the mark of a node that sleeps, and the log. -/
theorem alike_requestPolled (id : ValueID) : Alike d (d.requestPolled id) := by
  refine ⟨?_, getValue_requestPolled, ?_⟩
  · rw [requestPolled]
    split
    · rfl
    · split
      · rfl
      · split <;> rfl
  · intro other
    rw [requestPolled]
    split
    · rfl
    · rename_i node hnode
      split
      · by_cases hother : other.nodeId = id.nodeId
        · rw [answers_of_nodes_eq hnode hother, setNode,
            answers_of_nodes_eq (Function.update_self ..) hother]
        · rw [answers, answers, setNode]
          dsimp only
          rw [Function.update_of_ne hother]
      · split <;> rfl

theorem pollList_requestPolled (id : ValueID) : (d.requestPolled id).pollList = d.pollList := by
  rw [requestPolled]
  split
  · rfl
  · split
    · rfl
    · split <;> rfl

theorem requested_requestPolled (id : ValueID) :
    (d.requestPolled id).requested = d.requested ++ if d.answers id then [id] else [] := by
  cases hnode : d.nodes id.nodeId with
  | none =>
      have hanswers : d.answers id = false := by rw [answers, hnode]
      rw [requestPolled, hnode, hanswers]
      exact (List.append_nil _).symm
  | some node =>
      have hanswers := answers_of_nodes_eq hnode rfl
      rw [requestPolled, hnode]
      dsimp only
      by_cases hasleep : ¬ node.listening ∧ node.awake = some false
      · have hfalse : d.answers id = false := by
          rw [hanswers]
          simp [hasleep]
        rw [if_pos hasleep, hfalse]
        exact (List.append_nil _).symm
      · rw [if_neg hasleep]
        by_cases hclass : node.commandClasses id.commandClassId = true
        · have htrue : d.answers id = true := by
            rw [hanswers, hclass]
            simpa [or_iff_not_imp_left] using hasleep
          rw [if_pos hclass, htrue]
          rfl
        · have hfalse : d.answers id = false := by
            rw [hanswers, Bool.eq_false_iff.mpr hclass, Bool.and_false]
          rw [if_neg hclass, hfalse]
          exact (List.append_nil _).symm

/-- What an iteration does: the first entry goes to the end. -/
structure Rotated (d d' : PollDriver) (entry : PollEntry) (rest : List PollEntry) : Prop where
  alike : Alike d d'
  pollList : d'.pollList = rest ++ [d.nextEntry entry]
  requested : d'.requested = d.requested ++ if d.requests entry then [entry.id] else []

theorem rotated_pollPass {entry : PollEntry} {rest : List PollEntry} {value : PolledValue}
    (hawake : d.awakeNodesQueried = true) (hlist : d.pollList = entry :: rest)
    (hvalue : d.getValue entry.id = some value) : Rotated d d.pollPass entry rest := by
  have hintensity : d.intensity entry.id = value.pollIntensity := by rw [intensity, hvalue]
  rw [pollPass, if_pos hawake, hlist]
  dsimp only
  by_cases hcounter : entry.pollCounter = 1
  · rw [if_neg (not_not.mpr hcounter), hvalue]
    have hnext : d.nextEntry entry = { entry with pollCounter := value.pollIntensity } := by
      rw [nextEntry, tick, if_pos hcounter, hintensity]
    have hrequests : d.requests entry = d.answers entry.id := by
      rw [requests, hcounter]
      rfl
    constructor
    · dsimp only
      refine Alike.trans ?_ (alike_requestPolled entry.id)
      exact ⟨rfl, fun _ => rfl, fun _ => rfl⟩
    · rw [pollList_requestPolled, hnext]
    · rw [requested_requestPolled, hrequests]
      rfl
  · rw [if_pos hcounter]
    have hnext : d.nextEntry entry = { entry with pollCounter := entry.pollCounter - 1 } := by
      rw [nextEntry, tick, if_neg hcounter]
    have hrequests : d.requests entry = false := by
      rw [requests, beq_eq_false_iff_ne.mpr hcounter, Bool.false_and]
    constructor
    · exact ⟨rfl, fun _ => rfl, fun _ => rfl⟩
    · rw [hnext]
    · rw [hrequests]
      exact (List.append_nil _).symm

/-! ## Complete passes -/

/-- Every entry has its turn once. -/
def completePass (d : PollDriver) : PollDriver := pollPass^[d.pollList.length] d

/-- The iterations for the first entries of the list. -/
theorem iterate_pollPass (turns rest : List PollEntry) (hawake : d.awakeNodesQueried = true)
    (hlist : d.pollList = turns ++ rest)
    (hthere : ∀ entry ∈ turns, ∃ value, d.getValue entry.id = some value) :
    Alike d (pollPass^[turns.length] d) ∧
      (pollPass^[turns.length] d).pollList = rest ++ turns.map d.nextEntry ∧
      (pollPass^[turns.length] d).requested =
        d.requested ++ (turns.filter d.requests).map PollEntry.id := by
  induction turns generalizing d rest with
  | nil => exact ⟨Alike.refl d, by simpa using hlist, by simp⟩
  | cons entry turns ih =>
      obtain ⟨value, hvalue⟩ := hthere entry List.mem_cons_self
      have hrotated := rotated_pollPass hawake hlist hvalue
      obtain ⟨halike, hlist', hrequested⟩ := ih (d := d.pollPass) (rest ++ [d.nextEntry entry])
        (hrotated.alike.awake.trans hawake) (by rw [hrotated.pollList]; exact List.append_assoc ..) (by
          intro other hother
          rw [hrotated.alike.values]
          exact hthere other (List.mem_cons_of_mem _ hother))
      rw [List.length_cons, Function.iterate_succ_apply]
      refine ⟨hrotated.alike.trans halike, ?_, ?_⟩
      · rw [hlist', hrotated.alike.nextEntry, List.append_assoc]
        rfl
      · rw [hrequested, hrotated.requested, hrotated.alike.requests, List.filter_cons]
        cases d.requests entry <;> simp

/-- The passes of a list that stays as it is. -/
def passes (d : PollDriver) (count : Nat) : PollDriver := completePass^[count] d

/-- The entry after so many passes. -/
def entryAfter (d : PollDriver) (count : Nat) (entry : PollEntry) : PollEntry :=
  { entry with pollCounter := (tick (d.intensity entry.id))^[count] entry.pollCounter }

theorem entryAfter_succ (count : Nat) (entry : PollEntry) :
    d.nextEntry (d.entryAfter count entry) = d.entryAfter (count + 1) entry := by
  rw [nextEntry, entryAfter, entryAfter, Function.iterate_succ_apply']

theorem completePass_eq (hawake : d.awakeNodesQueried = true)
    (hthere : ∀ id ∈ d.listed, ∃ value, d.getValue id = some value) :
    Alike d (completePass d) ∧ (completePass d).pollList = d.pollList.map d.nextEntry ∧
      (completePass d).requested =
        d.requested ++ (d.pollList.filter d.requests).map PollEntry.id := by
  have hpass := iterate_pollPass d.pollList [] hawake (List.append_nil _).symm fun entry hentry =>
    hthere entry.id (List.mem_map_of_mem hentry)
  rwa [List.nil_append] at hpass

/-- After any number of complete passes the entries stand in the same order, each
with its countdown. -/
theorem passes_eq (h : d.Steady) (count : Nat) :
    Alike d (passes d count) ∧ (passes d count).pollList = d.pollList.map (d.entryAfter count) := by
  induction count with
  | zero =>
      refine ⟨Alike.refl d, ?_⟩
      exact (List.map_id' d.pollList).symm
  | succ count ih =>
      obtain ⟨halike, hlist⟩ := ih
      have hlisted : (passes d count).listed = d.listed := by
        rw [listed, hlist, List.map_map]
        rfl
      obtain ⟨halike', hlist', -⟩ := completePass_eq (halike.awake.trans h.awake) fun id hid => by
        rw [halike.values]
        exact h.there id (hlisted ▸ hid)
      rw [passes, Function.iterate_succ_apply']
      refine ⟨halike.trans halike', ?_⟩
      calc (completePass (passes d count)).pollList
          = (d.pollList.map (d.entryAfter count)).map d.nextEntry := by
            rw [hlist', hlist, halike.nextEntry]
        _ = d.pollList.map (d.entryAfter (count + 1)) := by
            rw [List.map_map]
            apply List.map_congr_left
            intro entry _
            exact entryAfter_succ count entry

theorem listed_passes (h : d.Steady) (count : Nat) : (passes d count).listed = d.listed := by
  rw [listed, (passes_eq h count).2, List.map_map]
  rfl

/-- A pass requests a value once if its counter stands at one. -/
theorem count_requested_succ (h : d.Steady) {entry : PollEntry} (hentry : entry ∈ d.pollList)
    (count : Nat) :
    (passes d (count + 1)).requested.count entry.id =
      (passes d count).requested.count entry.id +
        if Due (d.intensity entry.id) entry.pollCounter count ∧ d.answers entry.id = true then 1
        else 0 := by
  obtain ⟨halike, hlist⟩ := passes_eq h count
  obtain ⟨-, -, hrequested⟩ := completePass_eq (halike.awake.trans h.awake) fun id hid => by
    rw [halike.values]
    exact h.there id (listed_passes h count ▸ hid)
  have hstep : passes d (count + 1) = completePass (passes d count) :=
    Function.iterate_succ_apply' ..
  have hnodup : (((d.pollList.map (d.entryAfter count)).filter d.requests).map
      PollEntry.id).Nodup := by
    apply List.Nodup.sublist (List.filter_sublist.map _)
    rw [List.map_map]
    exact h.once
  have hmem : entry.id ∈ ((d.pollList.map (d.entryAfter count)).filter d.requests).map
      PollEntry.id ↔
        Due (d.intensity entry.id) entry.pollCounter count ∧ d.answers entry.id = true := by
    have hrequests : d.requests (d.entryAfter count entry) = true ↔
        Due (d.intensity entry.id) entry.pollCounter count ∧ d.answers entry.id = true := by
      rw [requests, Bool.and_eq_true, beq_iff_eq]
      rfl
    rw [← hrequests]
    constructor
    · intro hid
      obtain ⟨later, hlater, hid⟩ := List.mem_map.mp hid
      obtain ⟨hlater, hrequest⟩ := List.mem_filter.mp hlater
      obtain ⟨other, hother, rfl⟩ := List.mem_map.mp hlater
      rwa [List.inj_on_of_nodup_map h.once hother hentry hid] at hrequest
    · intro hrequest
      refine List.mem_map.mpr ⟨d.entryAfter count entry, ?_, rfl⟩
      exact List.mem_filter.mpr ⟨List.mem_map_of_mem hentry, hrequest⟩
  rw [hstep, hrequested, List.count_append, hlist, halike.requests, List.Nodup.count hnodup]
  simp only [hmem]

/-- How often a value has been requested is how often its countdown was due. -/
theorem count_requested (h : d.Steady) {entry : PollEntry} (hentry : entry ∈ d.pollList)
    (count : Nat) :
    (passes d count).requested.count entry.id =
      d.requested.count entry.id +
        if d.answers entry.id then Nat.count (Due (d.intensity entry.id) entry.pollCounter) count
        else 0 := by
  induction count with
  | zero => simp [passes]
  | succ count ih =>
      rw [count_requested_succ h hentry, ih, Nat.count_succ]
      cases d.answers entry.id with
      | false => simp
      | true => simp [Nat.add_assoc]

/-! ## The cadence -/

/-- A value of intensity `k` is requested exactly once in every `k` consecutive
passes, and a value of intensity zero is never requested. -/
def Cadence (d : PollDriver) (id : ValueID) : Prop :=
  if d.intensity id = 0 then
    ∀ count, (passes d count).requested.count id = d.requested.count id
  else
    ∀ start, (passes d (start + (d.intensity id).toNat)).requested.count id =
      (passes d start).requested.count id + 1

/-- The counter of the entry stands within the intensity of its value. -/
def Paced (d : PollDriver) (entry : PollEntry) : Prop :=
  if d.intensity entry.id = 0 then d.answers entry.id = false
  else
    d.answers entry.id = true ∧ 0 < entry.pollCounter.toNat ∧
      entry.pollCounter.toNat ≤ (d.intensity entry.id).toNat

/-- A counter that is reloaded with zero comes to one again. -/
theorem not_cadence_of_zero (h : d.Steady) {entry : PollEntry} (hentry : entry ∈ d.pollList)
    (hzero : d.intensity entry.id = 0) (hanswers : d.answers entry.id = true) :
    ¬ d.Cadence entry.id := by
  rw [Cadence, if_pos hzero]
  intro hnever
  obtain ⟨n, hdue⟩ := exists_due (d.intensity entry.id) entry.pollCounter
  have hcount := hnever (n + 1)
  rw [count_requested h hentry, if_pos hanswers, Nat.count_succ, if_pos hdue] at hcount
  omega

/-- Complete passes keep the order of the list, and they keep the cadence of a value
exactly if the intensity is not zero, the node answers, and the counter stands
within the intensity. -/
theorem cadence_iff (h : d.Steady) :
    (∀ count, (passes d count).listed = d.listed) ∧
      ∀ entry ∈ d.pollList, d.Cadence entry.id ↔ d.Paced entry := by
  refine ⟨listed_passes h, fun entry hentry => ?_⟩
  by_cases hzero : d.intensity entry.id = 0
  · rw [Paced, if_pos hzero]
    cases hanswers : d.answers entry.id with
    | false =>
        rw [Cadence, if_pos hzero]
        simp [count_requested h hentry, hanswers]
    | true => exact iff_of_false (not_cadence_of_zero h hentry hzero hanswers) (by simp)
  · have hpos : 0 < (d.intensity entry.id).toNat :=
      Nat.pos_of_ne_zero fun h => hzero (UInt8.toNat_inj.mp h)
    rw [Cadence, Paced, if_neg hzero, if_neg hzero]
    simp only [count_requested h hentry]
    cases hanswers : d.answers entry.id with
    | false => simp
    | true =>
        rw [and_iff_right rfl, ← due_once_iff hpos]
        simp only [if_true, Nat.add_assoc, Nat.add_left_cancel_iff]

/-! ## After `EnablePoll` -/

/-- A value that is added to the list has a turn of its own. -/
theorem Steady.enablePoll (h : d.Steady) (id : ValueID) (intensity : UInt8) :
    (d.enablePoll id intensity).1.Steady := by
  rw [PollDriver.enablePoll]
  cases hvalue : d.getValue id with
  | none => exact h
  | some value =>
      have hlisted : (d.setIntensity id intensity).listed = d.listed := listed_setIntensity intensity
      have hawake : (d.setIntensity id intensity).awakeNodesQueried = true := by
        rw [setIntensity]
        split <;> exact h.awake
      have hthere : ∀ other, (∃ value, d.getValue other = some value) →
          ∃ value, (d.setIntensity id intensity).getValue other = some value := by
        rintro other ⟨found, hfound⟩
        rw [getValue_setIntensity]
        split
        · exact ⟨_, by rw [hvalue]; rfl⟩
        · exact ⟨found, hfound⟩
      dsimp only
      split
      · refine ⟨hawake, hlisted ▸ h.once, fun other hother => ?_⟩
        exact hthere other (h.there other (hlisted ▸ hother))
      · rename_i hnew
        rw [lists_eq_true_iff, hlisted] at hnew
        have happended : (((d.setIntensity id intensity).pollList ++
            [PollEntry.mk id intensity]).map PollEntry.id) = d.listed ++ [id] := by
          rw [List.map_append, ← hlisted]
          rfl
        refine ⟨hawake, ?_, ?_⟩
        · rw [listed, happended, List.nodup_append]
          refine ⟨h.once, List.nodup_singleton _, ?_⟩
          rintro other hother _ hid rfl
          rw [List.mem_singleton.mp hid] at hother
          exact hnew hother
        · intro other hother
          rw [listed, happended, List.mem_append, List.mem_singleton] at hother
          apply hthere
          cases hother with
          | inl hother => exact h.there other hother
          | inr hother => exact ⟨value, hother ▸ hvalue⟩

theorem steady_lampDriver : (lampDriver 0).Steady :=
  ⟨rfl, List.nodup_nil, fun _ hid => absurd hid List.not_mem_nil⟩

/-- The driver after the level of node 5 has been enabled with this intensity. -/
def enabledLamp (intensity : UInt8) : PollDriver :=
  ((lampDriver 0).enablePoll lampLevel intensity).1

theorem cadence_iff_lampDriver :
    (∀ count, (passes (enabledLamp 2) count).listed = (enabledLamp 2).listed) ∧
      ∀ entry ∈ (enabledLamp 2).pollList,
        (enabledLamp 2).Cadence entry.id ↔ (enabledLamp 2).Paced entry :=
  cadence_iff (steady_lampDriver.enablePoll lampLevel 2)

/-- A value that is enabled with intensity zero is requested in the 256th pass. -/
theorem enabledLamp_not_cadence :
    ¬ ∀ d : PollDriver, d.Steady → ∀ entry ∈ d.pollList, d.Cadence entry.id := by
  intro hclaim
  have hsteady : (enabledLamp 0).Steady := steady_lampDriver.enablePoll lampLevel 0
  have hvalue : (lampDriver 0).getValue lampLevel =
      some { id := lampLevel, pollIntensity := 0 } :=
    (getValue_of_nodes_eq (nodes_lampDriver 0) rfl).trans
      (ValueStore.getValue_eq_some_iff.mpr ⟨List.mem_cons_self, rfl⟩)
  have henabled : enabledLamp 0 =
      { (lampDriver 0).setIntensity lampLevel 0 with
        pollList := [{ id := lampLevel, pollCounter := 0 }]
        notified := [.pollingEnabled lampLevel] } := by
    rw [enabledLamp, enablePoll, hvalue]
    rfl
  have hentry : { id := lampLevel, pollCounter := 0 } ∈ (enabledLamp 0).pollList := by
    rw [henabled]
    exact List.mem_cons_self
  have hstored : (enabledLamp 0).getValue lampLevel =
      some { id := lampLevel, pollIntensity := 0 } := by
    have hset : ((lampDriver 0).setIntensity lampLevel 0).getValue lampLevel =
        some { id := lampLevel, pollIntensity := 0 } := by
      rw [getValue_setIntensity, if_pos rfl, hvalue]
      rfl
    rw [henabled]
    exact hset
  have hzero : (enabledLamp 0).intensity lampLevel = 0 := by
    rw [intensity, hstored]
  have hanswers : (enabledLamp 0).answers lampLevel = true := by
    rw [henabled]
    rfl
  exact not_cadence_of_zero hsteady hentry hzero hanswers (hclaim _ hsteady _ hentry)

end PollDriver

end OpenZWave
