import Mathlib.Logic.Function.Basic
import Mathlib.Data.List.Nodup
import Mathlib.Data.List.Perm.Basic
import OpenZWave.Lib.Transition
import OpenZWave.ValueID

/-!
# Polling

Each value has a poll intensity, and the driver has a list of the values that its
poll thread asks for in turn. The list and the intensities are two records of
one fact. Mutexes, the cache and the time between two passes of the thread are
left out.
-/

namespace OpenZWave

open Transition

structure PolledValue where
  id : ValueID
  pollIntensity : UInt8

/-- The values of a node, at most one under each key. -/
structure ValueStore (nodeId : UInt8) where
  values : List PolledValue
  keys : (values.map fun value => value.id.storeKey).Nodup
  ours : ∀ value ∈ values, value.id.nodeId = nodeId

namespace ValueStore

variable {nodeId : UInt8}

/-- `Node::GetValue`: the value under the key, if it has the same id. -/
def getValue (store : ValueStore nodeId) (id : ValueID) : Option PolledValue :=
  match store.values.find? fun value => value.id.storeKey = id.storeKey with
  | none => none
  | some value => if value.id = id then some value else none

/-- `Value::SetPollIntensity`. -/
def setIntensity (store : ValueStore nodeId) (id : ValueID) (intensity : UInt8) :
    ValueStore nodeId where
  values := store.values.map fun value =>
    if value.id = id then { value with pollIntensity := intensity } else value
  keys := by
    have hkeys : (store.values.map fun value =>
        if value.id = id then { value with pollIntensity := intensity } else value).map
          (fun value => value.id.storeKey) = store.values.map fun value => value.id.storeKey := by
      rw [List.map_map]
      apply List.map_congr_left
      intro value _
      rw [Function.comp]
      split <;> rfl
    rw [hkeys]
    exact store.keys
  ours := by
    intro value hmem
    obtain ⟨old, hold, rfl⟩ := List.mem_map.mp hmem
    have hours := store.ours old hold
    split <;> exact hours

/-- The values that stay. -/
def keep (store : ValueStore nodeId) (stays : ValueID → Bool) : ValueStore nodeId where
  values := store.values.filter fun value => stays value.id
  keys := store.keys.sublist (List.filter_sublist.map _)
  ours := fun value hmem => store.ours value (List.mem_of_mem_filter hmem)

theorem getValue_eq_some_iff {store : ValueStore nodeId} {id : ValueID} {value : PolledValue} :
    store.getValue id = some value ↔ value ∈ store.values ∧ value.id = id := by
  rw [getValue]
  constructor
  · intro h
    split at h
    · cases h
    · rename_i found hfound
      split at h
      · rename_i hid
        rw [← Option.some.inj h]
        exact ⟨List.mem_of_find?_eq_some hfound, hid⟩
      · cases h
  · rintro ⟨hmem, rfl⟩
    cases hfind : store.values.find? fun found => found.id.storeKey = value.id.storeKey with
    | none =>
        rw [List.find?_eq_none] at hfind
        exact absurd (decide_eq_true rfl) (hfind value hmem)
    | some found =>
        have hkey : found.id.storeKey = value.id.storeKey := by
          simpa using List.find?_some hfind
        have hfound : found ∈ store.values := List.mem_of_find?_eq_some hfind
        rw [List.inj_on_of_nodup_map store.keys hfound hmem hkey]
        exact if_pos rfl

theorem getValue_setIntensity (store : ValueStore nodeId) (id other : ValueID)
    (intensity : UInt8) :
    (store.setIntensity id intensity).getValue other =
      if other = id then (store.getValue id).map fun value =>
        { value with pollIntensity := intensity }
      else store.getValue other := by
  ext value
  rw [getValue_eq_some_iff, setIntensity, List.mem_map]
  split
  · rename_i hid
    rw [hid, Option.map_eq_some_iff]
    constructor
    · rintro ⟨⟨old, hold, rfl⟩, hvalue⟩
      have hid : old.id = id := by
        split at hvalue
        · exact hvalue
        · exact hvalue
      exact ⟨old, getValue_eq_some_iff.mpr ⟨hold, hid⟩, (if_pos hid).symm⟩
    · rintro ⟨old, hold, rfl⟩
      obtain ⟨hmem, hid⟩ := getValue_eq_some_iff.mp hold
      exact ⟨⟨old, hmem, if_pos hid⟩, hid⟩
  · rename_i hne
    rw [getValue_eq_some_iff]
    constructor
    · rintro ⟨⟨old, hold, rfl⟩, hvalue⟩
      have hid : old.id ≠ id := by
        intro hid
        rw [if_pos hid] at hvalue
        exact hne (hvalue.symm.trans hid)
      rw [if_neg hid] at hvalue ⊢
      exact ⟨hold, hvalue⟩
    · rintro ⟨hmem, rfl⟩
      exact ⟨⟨value, hmem, if_neg hne⟩, rfl⟩

theorem getValue_keep (store : ValueStore nodeId) (stays : ValueID → Bool) (id : ValueID) :
    (store.keep stays).getValue id = if stays id then store.getValue id else none := by
  ext value
  rw [getValue_eq_some_iff, keep, List.mem_filter]
  split
  · rename_i hstays
    rw [getValue_eq_some_iff]
    constructor
    · rintro ⟨⟨hmem, -⟩, hid⟩
      exact ⟨hmem, hid⟩
    · rintro ⟨hmem, rfl⟩
      exact ⟨⟨hmem, hstays⟩, rfl⟩
  · rename_i hgone
    constructor
    · rintro ⟨⟨-, hstays⟩, rfl⟩
      exact absurd hstays hgone
    · intro h
      cases h

end ValueStore

/-! ## The driver -/

/-- What polling reads and writes of a node: `awake` is that of the Wake Up class. -/
structure PollNode (nodeId : UInt8) where
  store : ValueStore nodeId
  listening : Bool
  awake : Option Bool
  pollRequired : Bool
  commandClasses : UInt8 → Bool

structure PollEntry where
  id : ValueID
  pollCounter : UInt8
  deriving DecidableEq

inductive PollNotification
  | pollingEnabled (id : ValueID)
  | pollingDisabled (id : ValueID)
  deriving DecidableEq

/-- `requested` are the values that the poll thread asked for. -/
structure PollDriver where
  nodes : (nodeId : UInt8) → Option (PollNode nodeId)
  pollList : List PollEntry
  awakeNodesQueried : Bool
  notified : List PollNotification
  requested : List ValueID

/-- The loop of `DisablePoll` goes on from an entry that it has erased. -/
inductive PollFault
  | erasedIterator
  deriving DecidableEq

namespace PollDriver

def setNode (d : PollDriver) {nodeId : UInt8} (node : PollNode nodeId) : PollDriver :=
  { d with nodes := Function.update d.nodes nodeId (some node) }

/-- `GetValue`. -/
def getValue (d : PollDriver) (id : ValueID) : Option PolledValue :=
  match d.nodes id.nodeId with
  | none => none
  | some node => node.store.getValue id

/-- `SetPollIntensity` of the value, if there is one. -/
def setIntensity (d : PollDriver) (id : ValueID) (intensity : UInt8) : PollDriver :=
  match d.nodes id.nodeId with
  | none => d
  | some node => d.setNode { node with store := node.store.setIntensity id intensity }

/-- Whether the poll list has an entry of the value. -/
def lists (d : PollDriver) (id : ValueID) : Bool :=
  d.pollList.any fun entry => entry.id = id

/-- `EnablePoll`. -/
def enablePoll (d : PollDriver) (id : ValueID) (intensity : UInt8) : PollDriver × Bool :=
  match d.getValue id with
  | none => (d, false)
  | some _ =>
      let d := d.setIntensity id intensity
      if d.lists id then (d, true)
      else
        ({ d with
            pollList := d.pollList ++ [{ id := id, pollCounter := intensity }]
            notified := d.notified ++ [.pollingEnabled id] }, true)

/-- The first entry of the value is erased from the list. -/
def unlist (d : PollDriver) (id : ValueID) : PollDriver :=
  { d with pollList := d.pollList.eraseP fun entry => entry.id = id }

/-- `DisablePoll`. -/
def disablePoll (d : PollDriver) (id : ValueID) : Except PollFault (PollDriver × Bool) :=
  match d.nodes id.nodeId with
  | none => .ok (d, false)
  | some _ =>
      if d.lists id then
        match (d.unlist id).getValue id with
        | none => .error .erasedIterator
        | some _ =>
            let d := (d.unlist id).setIntensity id 0
            .ok ({ d with notified := d.notified ++ [.pollingDisabled id] }, true)
      else .ok (d, false)

/-- `isPolled`. -/
def isPolled (d : PollDriver) (id : ValueID) : Bool :=
  match d.getValue id with
  | none => false
  | some value => value.pollIntensity ≠ 0 ∧ d.lists id

/-- `SetPollIntensity`. -/
def setPollIntensity (d : PollDriver) (id : ValueID) (intensity : UInt8) : PollDriver :=
  match d.getValue id with
  | none => d
  | some _ => d.setIntensity id intensity

/-- The values of a node that do not stay are removed from its store. -/
def removeValues (d : PollDriver) (nodeId : UInt8) (stays : ValueID → Bool) : PollDriver :=
  match d.nodes nodeId with
  | none => d
  | some node => d.setNode { node with store := node.store.keep stays }

/-- `Node::RemoveValue`. -/
def removeValue (d : PollDriver) (nodeId commandClassId instanceId : UInt8) (index : UInt16) :
    PollDriver :=
  d.removeValues nodeId fun id => id.storeKey ≠ valueStoreKey commandClassId instanceId index

/-- `RemoveCommandClassValues`. -/
def removeCommandClassValues (d : PollDriver) (nodeId commandClassId : UInt8) : PollDriver :=
  d.removeValues nodeId fun id => id.commandClassId ≠ commandClassId

/-- The loop of the destructor of a node over its values. -/
def disableAll (d : PollDriver) : List PolledValue → Except PollFault PollDriver
  | [] => .ok d
  | value :: values =>
      if d.isPolled value.id then
        match d.disablePoll value.id with
        | .error fault => .error fault
        | .ok (d, _) => d.disableAll values
      else d.disableAll values

/-- A node is deleted. -/
def removeNode (d : PollDriver) (nodeId : UInt8) : Except PollFault PollDriver :=
  match d.nodes nodeId with
  | none => .ok d
  | some node => do
      let d ← d.disableAll node.store.values
      return { d with nodes := Function.update d.nodes nodeId none }

/-- The request for the state of a value, or the mark for a node that sleeps. -/
def requestPolled (d : PollDriver) (id : ValueID) : PollDriver :=
  match d.nodes id.nodeId with
  | none => d
  | some node =>
      if ¬ node.listening ∧ node.awake = some false then
        d.setNode { node with pollRequired := true }
      else if node.commandClasses id.commandClassId then
        { d with requested := d.requested ++ [id] }
      else d

/-- One pass of `PollThreadProc`. -/
def pollPass (d : PollDriver) : PollDriver :=
  if d.awakeNodesQueried then
    match d.pollList with
    | [] => d
    | entry :: rest =>
        if entry.pollCounter ≠ 1 then
          { d with pollList := rest ++ [{ entry with pollCounter := entry.pollCounter - 1 }] }
        else
          match d.getValue entry.id with
          | none => { d with pollList := rest }
          | some value =>
              let again := { entry with pollCounter := value.pollIntensity }
              { d with pollList := rest ++ [again] }.requestPolled entry.id
  else d

end PollDriver

/-- What happens to the values and to the poll list. -/
inductive PollEvent
  | enablePoll (id : ValueID) (intensity : UInt8)
  | disablePoll (id : ValueID)
  | setPollIntensity (id : ValueID) (intensity : UInt8)
  | removeValue (nodeId commandClassId instanceId : UInt8) (index : UInt16)
  | removeCommandClassValues (nodeId commandClassId : UInt8)
  | removeNode (nodeId : UInt8)
  | pollPass

namespace PollDriver

def apply (d : PollDriver) : PollEvent → Except PollFault PollDriver
  | .enablePoll id intensity => .ok (d.enablePoll id intensity).1
  | .disablePoll id => (d.disablePoll id).map Prod.fst
  | .setPollIntensity id intensity => .ok (d.setPollIntensity id intensity)
  | .removeValue nodeId commandClassId instanceId index =>
      .ok (d.removeValue nodeId commandClassId instanceId index)
  | .removeCommandClassValues nodeId commandClassId =>
      .ok (d.removeCommandClassValues nodeId commandClassId)
  | .removeNode nodeId => d.removeNode nodeId
  | .pollPass => .ok d.pollPass

/-! ## List and intensities -/

/-- The values with an entry in the poll list. -/
def listed (d : PollDriver) : List ValueID := d.pollList.map PollEntry.id

/-- The value exists, and its intensity is not zero. -/
def Polled (d : PollDriver) (id : ValueID) : Prop :=
  ∃ value, d.getValue id = some value ∧ value.pollIntensity ≠ 0

/-- The poll list and the intensities say the same. -/
structure InSync (d : PollDriver) : Prop where
  listed : ∀ id, id ∈ d.listed ↔ d.Polled id
  once : d.listed.Nodup

variable {d : PollDriver} {id : ValueID}

theorem lists_eq_true_iff : d.lists id = true ↔ id ∈ d.listed := by
  rw [lists, List.any_eq_true, listed, List.mem_map]
  simp only [decide_eq_true_eq]

theorem getValue_of_nodes_eq_none {nodeId : UInt8} (hnode : d.nodes nodeId = none)
    (hid : id.nodeId = nodeId) : d.getValue id = none := by
  subst hid
  rw [getValue, hnode]

theorem getValue_of_nodes_eq {nodeId : UInt8} {node : PollNode nodeId}
    (hnode : d.nodes nodeId = some node) (hid : id.nodeId = nodeId) :
    d.getValue id = node.store.getValue id := by
  subst hid
  rw [getValue, hnode]

theorem getValue_congr {d' : PollDriver} (hnodes : d'.nodes id.nodeId = d.nodes id.nodeId) :
    d'.getValue id = d.getValue id := by
  rw [getValue, getValue, hnodes]

theorem getValue_setNode {nodeId : UInt8} (node : PollNode nodeId) :
    (d.setNode node).getValue id =
      if id.nodeId = nodeId then node.store.getValue id else d.getValue id := by
  split
  · rename_i hid
    exact getValue_of_nodes_eq (Function.update_self ..) hid
  · rename_i hne
    exact getValue_congr (Function.update_of_ne hne ..)

theorem getValue_setIntensity (other : ValueID) (intensity : UInt8) :
    (d.setIntensity id intensity).getValue other =
      if other = id then (d.getValue id).map fun value =>
        { value with pollIntensity := intensity }
      else d.getValue other := by
  cases hnode : d.nodes id.nodeId with
  | none =>
      have hid : d.getValue id = none := getValue_of_nodes_eq_none hnode rfl
      rw [setIntensity, hnode, hid]
      by_cases hother : other = id
      · rw [if_pos hother, hother, hid]
        rfl
      · rw [if_neg hother]
  | some node =>
      rw [setIntensity, hnode]
      dsimp only
      rw [getValue_setNode, getValue_of_nodes_eq hnode rfl, ValueStore.getValue_setIntensity]
      by_cases hother : other.nodeId = id.nodeId
      · rw [if_pos hother, getValue_of_nodes_eq hnode hother]
      · have hne : other ≠ id := fun h => hother (congrArg ValueID.nodeId h)
        rw [if_neg hother, if_neg hne]

theorem listed_setIntensity (intensity : UInt8) :
    (d.setIntensity id intensity).listed = d.listed := by
  rw [setIntensity]
  split <;> rfl

theorem polled_setIntensity_self {value : PolledValue} (hvalue : d.getValue id = some value)
    (intensity : UInt8) : (d.setIntensity id intensity).Polled id ↔ intensity ≠ 0 := by
  rw [Polled, getValue_setIntensity, if_pos rfl, hvalue]
  constructor
  · rintro ⟨_, ⟨⟩, h⟩
    exact h
  · intro h
    exact ⟨_, rfl, h⟩

theorem polled_setIntensity_of_ne {other : ValueID} (hne : other ≠ id) (intensity : UInt8) :
    (d.setIntensity id intensity).Polled other ↔ d.Polled other := by
  rw [Polled, getValue_setIntensity, if_neg hne]
  exact Iff.rfl

theorem polled_congr {d' : PollDriver} (hvalue : d'.getValue id = d.getValue id) :
    d'.Polled id ↔ d.Polled id := by
  rw [Polled, hvalue]
  exact Iff.rfl

/-- Nothing happens to the list: then the same values must be polled. -/
theorem InSync.iff_of_listed_eq (h : d.InSync) {d' : PollDriver} (hlisted : d'.listed = d.listed) :
    d'.InSync ↔ ∀ id, d'.Polled id ↔ d.Polled id := by
  constructor
  · intro h' id
    rw [← h'.listed, ← h.listed, hlisted]
  · intro hpolled
    refine ⟨fun id => ?_, hlisted ▸ h.once⟩
    rw [hlisted, hpolled]
    exact h.listed id

/-- The same for a change of one intensity. -/
theorem InSync.setIntensity_iff (h : d.InSync) {value : PolledValue}
    (hvalue : d.getValue id = some value) (intensity : UInt8) :
    (d.setIntensity id intensity).InSync ↔ (intensity = 0 ↔ value.pollIntensity = 0) := by
  have hold : d.Polled id ↔ value.pollIntensity ≠ 0 := by
    constructor
    · rintro ⟨_, hsome, hne⟩
      rw [hvalue] at hsome
      rwa [Option.some.inj hsome]
    · exact fun hne => ⟨value, hvalue, hne⟩
  rw [h.iff_of_listed_eq (listed_setIntensity intensity)]
  constructor
  · intro hpolled
    have hself := hpolled id
    rw [polled_setIntensity_self hvalue, hold] at hself
    exact not_iff_not.mp hself
  · intro hzero other
    by_cases hother : other = id
    · rw [hother, polled_setIntensity_self hvalue, hold]
      exact not_congr hzero
    · exact polled_setIntensity_of_ne hother intensity

theorem InSync.setPollIntensity_iff (h : d.InSync) (intensity : UInt8) :
    (d.setPollIntensity id intensity).InSync ↔
      ∀ value, d.getValue id = some value → (intensity = 0 ↔ value.pollIntensity = 0) := by
  rw [setPollIntensity]
  cases hvalue : d.getValue id with
  | none =>
      dsimp only
      simp [h]
  | some value =>
      dsimp only
      rw [h.setIntensity_iff hvalue]
      constructor
      · rintro hzero _ ⟨⟩
        exact hzero
      · exact fun hzero => hzero value rfl

theorem InSync.enablePoll_iff (h : d.InSync) (intensity : UInt8) :
    (d.enablePoll id intensity).1.InSync ↔ (d.getValue id ≠ none → intensity ≠ 0) := by
  rw [enablePoll]
  cases hvalue : d.getValue id with
  | none => simp [h]
  | some value =>
      have hself := polled_setIntensity_self hvalue intensity
      dsimp only
      split
      · rename_i hlists
        rw [lists_eq_true_iff, listed_setIntensity, h.listed] at hlists
        obtain ⟨value', hvalue', hne⟩ := hlists
        rw [hvalue] at hvalue'
        cases hvalue'
        rw [h.setIntensity_iff hvalue, iff_false_right hne]
        exact ⟨fun hne _ => hne, fun hne => hne (Option.some_ne_none value)⟩
      · rename_i hnew
        rw [lists_eq_true_iff] at hnew
        generalize hset : d.setIntensity id intensity = changed at hnew hself ⊢
        have hlisted : changed.listed = d.listed := by rw [← hset, listed_setIntensity]
        have hothers : ∀ other, other ≠ id → (changed.Polled other ↔ d.Polled other) := by
          intro other hother
          rw [← hset, polled_setIntensity_of_ne hother]
        constructor
        · intro h' _
          apply hself.mp
          apply (h'.listed id).mp
          exact List.mem_map_of_mem (List.mem_append_right _ List.mem_cons_self)
        · intro hne
          have hne := hne (Option.some_ne_none value)
          have hadded : ({ changed with
              pollList := changed.pollList ++ [{ id := id, pollCounter := intensity }]
              notified := changed.notified ++ [.pollingEnabled id] } : PollDriver).listed =
              d.listed ++ [id] := by
            rw [← hlisted]
            exact List.map_append
          refine ⟨fun other => ?_, ?_⟩
          · rw [hadded, List.mem_append, List.mem_singleton]
            by_cases hother : other = id
            · rw [hother]
              exact iff_of_true (Or.inr rfl) (hself.mpr hne)
            · rw [or_iff_left hother, h.listed]
              exact (hothers other hother).symm
          · rw [hadded]
            rw [hlisted] at hnew
            exact h.once.append (List.nodup_singleton id) (List.disjoint_singleton.mpr hnew)

/-- Entries of other values, in the order of the list. -/
def others (d : PollDriver) (id : ValueID) : List PollEntry :=
  d.pollList.filter fun entry => entry.id ≠ id

theorem eraseP_eq_filter {l : List PollEntry} (h : (l.map PollEntry.id).Nodup) (id : ValueID) :
    l.eraseP (fun entry => entry.id = id) = l.filter fun entry => entry.id ≠ id := by
  induction l with
  | nil => rfl
  | cons entry l ih =>
      obtain ⟨hnew, hrest⟩ := List.nodup_cons.mp h
      by_cases hentry : entry.id = id
      · have hstay : l.filter (fun entry => entry.id ≠ id) = l := by
          rw [List.filter_eq_self]
          intro other hother
          have hne : other.id ≠ entry.id := by
            intro heq
            exact hnew (heq ▸ List.mem_map_of_mem hother)
          exact decide_eq_true (hentry ▸ hne)
        rw [List.eraseP_cons_of_pos (by simp [hentry]),
          List.filter_cons_of_neg (by simp [hentry]), hstay]
      · rw [List.eraseP_cons_of_neg (by simp [hentry]),
          List.filter_cons_of_pos (by simp [hentry]), ih hrest]

/-- What `DisablePoll` does to a driver whose list and intensities agree. -/
structure Disabled (d d' : PollDriver) (id : ValueID) : Prop where
  inSync : d'.InSync
  others : d'.others id = d.others id
  polled : ∀ other, d'.Polled other ↔ other ≠ id ∧ d.Polled other

theorem Disabled.of_not_polled (h : d.InSync) (hid : ¬ d.Polled id) : Disabled d d id where
  inSync := h
  others := rfl
  polled := by
    intro other
    constructor
    · intro hother
      exact ⟨fun heq => hid (heq ▸ hother), hother⟩
    · exact And.right

theorem getValue_unlist (other : ValueID) : (d.unlist id).getValue other = d.getValue other :=
  rfl

/-- The entry is erased, and the intensity of the value becomes zero. -/
theorem Disabled.of_value (h : d.InSync) {value : PolledValue}
    (hvalue : d.getValue id = some value) (notified : List PollNotification) :
    Disabled d { (d.unlist id).setIntensity id 0 with notified := notified } id := by
  have hlist : ((d.unlist id).setIntensity id 0).pollList = d.others id := by
    rw [setIntensity]
    split <;> exact eraseP_eq_filter h.once id
  have hpolled : ∀ other, ((d.unlist id).setIntensity id 0).Polled other ↔
      other ≠ id ∧ d.Polled other := by
    intro other
    by_cases hother : other = id
    · rw [hother, polled_setIntensity_self (d := d.unlist id) hvalue]
      simp
    · rw [polled_setIntensity_of_ne hother, and_iff_right hother]
      exact polled_congr (getValue_unlist other)
  have hlisted : ((d.unlist id).setIntensity id 0).listed =
      d.listed.filter fun other => other ≠ id := by
    rw [PollDriver.listed, hlist, PollDriver.others, PollDriver.listed, List.filter_map]
    rfl
  generalize hset : (d.unlist id).setIntensity id 0 = changed at hlist hpolled hlisted ⊢
  refine ⟨⟨fun other => ?_, ?_⟩, ?_, hpolled⟩
  · calc other ∈ changed.listed
        ↔ other ∈ d.listed ∧ other ≠ id := by rw [hlisted, List.mem_filter, decide_eq_true_eq]
      _ ↔ other ≠ id ∧ d.Polled other := by rw [h.listed, and_comm]
      _ ↔ changed.Polled other := (hpolled other).symm
  · exact hlisted ▸ h.once.filter _
  · have hagain : changed.others id = (d.others id).filter fun entry => entry.id ≠ id :=
      congrArg (List.filter fun entry : PollEntry => entry.id ≠ id) hlist
    refine hagain.trans ?_
    rw [PollDriver.others, List.filter_filter]
    simp only [Bool.and_self]

theorem InSync.disablePoll (h : d.InSync) (id : ValueID) :
    ∃ d' found, d.disablePoll id = .ok (d', found) ∧ Disabled d d' id := by
  rw [PollDriver.disablePoll]
  cases hnode : d.nodes id.nodeId with
  | none =>
      refine ⟨d, false, rfl, .of_not_polled h ?_⟩
      rintro ⟨value, hvalue, -⟩
      rw [getValue_of_nodes_eq_none hnode rfl] at hvalue
      cases hvalue
  | some node =>
      dsimp only
      split
      · rename_i hlists
        obtain ⟨value, hvalue, -⟩ := (h.listed id).mp (lists_eq_true_iff.mp hlists)
        rw [getValue_unlist, hvalue]
        exact ⟨_, _, rfl, .of_value h hvalue _⟩
      · rename_i hlists
        rw [lists_eq_true_iff, h.listed] at hlists
        exact ⟨d, false, rfl, .of_not_polled h hlists⟩

/-! ## Values and nodes that are removed -/

theorem getValue_removeValues (nodeId : UInt8) (stays : ValueID → Bool) :
    (d.removeValues nodeId stays).getValue id =
      if id.nodeId = nodeId ∧ stays id = false then none else d.getValue id := by
  rw [removeValues]
  cases hnode : d.nodes nodeId with
  | none =>
      dsimp only
      split
      · rename_i hgone
        exact getValue_of_nodes_eq_none hnode hgone.1
      · rfl
  | some node =>
      dsimp only
      rw [getValue_setNode, ValueStore.getValue_keep]
      by_cases hid : id.nodeId = nodeId
      · rw [if_pos hid, getValue_of_nodes_eq hnode hid]
        cases stays id <;> simp [hid]
      · rw [if_neg hid, if_neg fun h => hid h.1]

theorem InSync.removeValues_iff (h : d.InSync) (nodeId : UInt8) (stays : ValueID → Bool) :
    (d.removeValues nodeId stays).InSync ↔
      ∀ id, id.nodeId = nodeId → stays id = false → ¬ d.Polled id := by
  have hlisted : (d.removeValues nodeId stays).listed = d.listed := by
    rw [removeValues]
    split <;> rfl
  rw [h.iff_of_listed_eq hlisted]
  constructor
  · intro hsame id hid hgone hpolled
    obtain ⟨value, hvalue, -⟩ := (hsame id).mpr hpolled
    rw [getValue_removeValues, if_pos ⟨hid, hgone⟩] at hvalue
    cases hvalue
  · intro hzero id
    by_cases hgone : id.nodeId = nodeId ∧ stays id = false
    · apply iff_of_false _ (hzero id hgone.1 hgone.2)
      rintro ⟨value, hvalue, -⟩
      rw [getValue_removeValues, if_pos hgone] at hvalue
      cases hvalue
    · exact polled_congr (by rw [getValue_removeValues, if_neg hgone])

theorem InSync.isPolled_iff (h : d.InSync) : d.isPolled id = true ↔ d.Polled id := by
  rw [isPolled]
  constructor
  · intro hpolled
    split at hpolled
    · cases hpolled
    · rename_i value hvalue
      exact ⟨value, hvalue, (decide_eq_true_eq.mp hpolled).1⟩
  · intro hpolled
    have hlists := lists_eq_true_iff.mpr ((h.listed id).mpr hpolled)
    obtain ⟨value, hvalue, hne⟩ := hpolled
    rw [hvalue]
    exact decide_eq_true ⟨hne, hlists⟩

/-- After the loop of the destructor none of the values is polled. -/
theorem InSync.disableAll (h : d.InSync) (values : List PolledValue) :
    ∃ d', d.disableAll values = .ok d' ∧ d'.InSync ∧
      ∀ id, d'.Polled id → d.Polled id ∧ ∀ value ∈ values, value.id ≠ id := by
  induction values generalizing d with
  | nil => exact ⟨d, rfl, h, fun id hpolled => ⟨hpolled, fun _ hmem => nomatch hmem⟩⟩
  | cons value values ih =>
      rw [PollDriver.disableAll]
      split
      · obtain ⟨d₁, found, hdisable, hdisabled⟩ := h.disablePoll value.id
        obtain ⟨d', hrest, hsync, hpolled⟩ := ih hdisabled.inSync
        rw [hdisable]
        refine ⟨d', hrest, hsync, fun id hid => ?_⟩
        obtain ⟨hbefore, hne⟩ := hpolled id hid
        obtain ⟨hvalue, hstart⟩ := (hdisabled.polled id).mp hbefore
        exact ⟨hstart, List.forall_mem_cons.mpr ⟨hvalue.symm, hne⟩⟩
      · rename_i hidle
        rw [h.isPolled_iff] at hidle
        obtain ⟨d', hrest, hsync, hpolled⟩ := ih h
        refine ⟨d', hrest, hsync, fun id hid => ?_⟩
        obtain ⟨hstart, hne⟩ := hpolled id hid
        refine ⟨hstart, List.forall_mem_cons.mpr ⟨?_, hne⟩⟩
        rintro rfl
        exact hidle hstart

theorem InSync.removeNode (h : d.InSync) (nodeId : UInt8) :
    ∃ d', d.removeNode nodeId = .ok d' ∧ d'.InSync := by
  rw [PollDriver.removeNode]
  cases hnode : d.nodes nodeId with
  | none => exact ⟨d, rfl, h⟩
  | some node =>
      obtain ⟨d', hloop, hsync, hpolled⟩ := h.disableAll node.store.values
      dsimp only
      rw [hloop]
      refine ⟨_, rfl, ?_⟩
      refine (hsync.iff_of_listed_eq ?_).mpr fun id => ?_
      · rfl
      by_cases hid : id.nodeId = nodeId
      · apply iff_of_false
        · rintro ⟨value, hvalue, -⟩
          rw [getValue_of_nodes_eq_none (Function.update_self ..) hid] at hvalue
          cases hvalue
        · intro hlater
          obtain ⟨⟨value, hvalue, -⟩, hne⟩ := hpolled id hlater
          rw [getValue_of_nodes_eq hnode hid, ValueStore.getValue_eq_some_iff] at hvalue
          exact hne value hvalue.1 hvalue.2
      · exact polled_congr (getValue_congr (Function.update_of_ne hid ..))

/-! ## The poll thread -/

theorem listed_requestPolled : (d.requestPolled id).listed = d.listed := by
  rw [requestPolled]
  split
  · rfl
  · split
    · rfl
    · split <;> rfl

theorem getValue_requestPolled (other : ValueID) :
    (d.requestPolled id).getValue other = d.getValue other := by
  rw [requestPolled]
  split
  · rfl
  · rename_i node hnode
    split
    · rw [getValue_setNode]
      split
      · rename_i hother
        exact (getValue_of_nodes_eq hnode hother).symm
      · rfl
    · split <;> rfl

/-- The first entry goes to the end of the list. -/
theorem InSync.rotate (h : d.InSync) {d' : PollDriver} {entry : PollEntry}
    {rest : List PollEntry} (hlist : d.pollList = entry :: rest) (pollCounter : UInt8)
    (hlist' : d'.listed =
      (rest ++ [{ entry with pollCounter := pollCounter }]).map PollEntry.id)
    (hvalues : ∀ id, d'.getValue id = d.getValue id) : d'.InSync := by
  have hperm : d'.listed.Perm d.listed := by
    rw [hlist', PollDriver.listed, hlist, List.map_append, List.map_singleton]
    exact List.perm_append_comm
  refine ⟨fun id => ?_, hperm.nodup_iff.mpr h.once⟩
  rw [hperm.mem_iff, h.listed]
  exact (polled_congr (hvalues id)).symm

theorem InSync.pollPass (h : d.InSync) : d.pollPass.InSync := by
  rw [PollDriver.pollPass]
  split
  · split
    · exact h
    · rename_i entry rest hlist
      split
      · exact h.rotate hlist (entry.pollCounter - 1) rfl fun _ => rfl
      · have hmem : entry.id ∈ d.listed := by
          rw [PollDriver.listed, hlist]
          exact List.mem_cons_self
        obtain ⟨value, hvalue, -⟩ := (h.listed entry.id).mp hmem
        rw [hvalue]
        refine h.rotate hlist value.pollIntensity listed_requestPolled fun id => ?_
        rw [getValue_requestPolled]
        rfl
  · exact h

/-! ## Runs -/

/-- A step of a driver that has not failed. -/
def step (s : Except PollFault PollDriver) (event : PollEvent) : Except PollFault PollDriver :=
  s.bind fun d => d.apply event

/-- The list and the intensities agree after the event, and when a value leaves
the list, all other entries stay in their order. -/
def StaysInSync (s : Except PollFault PollDriver) (event : PollEvent) : Prop :=
  ∃ d d', s = .ok d ∧ d.apply event = .ok d' ∧ d'.InSync ∧
    ∀ id, event = .disablePoll id → d'.others id = d.others id

/-- The event does not set apart list and intensities: an existing value is not
enabled with intensity zero, no intensity becomes zero or ceases to be zero by
`SetPollIntensity`, and no value is removed that is polled. -/
def KeepsSync (d : PollDriver) : PollEvent → Prop
  | .enablePoll id intensity => d.getValue id ≠ none → intensity ≠ 0
  | .setPollIntensity id intensity =>
      ∀ value, d.getValue id = some value → (intensity = 0 ↔ value.pollIntensity = 0)
  | .removeValue nodeId commandClassId instanceId index => ∀ id, id.nodeId = nodeId →
      id.storeKey = valueStoreKey commandClassId instanceId index → ¬ d.Polled id
  | .removeCommandClassValues nodeId commandClassId => ∀ id, id.nodeId = nodeId →
      id.commandClassId = commandClassId → ¬ d.Polled id
  | .disablePoll _ => True
  | .removeNode _ => True
  | .pollPass => True

/-- The condition in the state before the event. -/
def Harmless (s : Except PollFault PollDriver) (event : PollEvent) : Prop :=
  ∃ d, s = .ok d ∧ d.KeepsSync event

theorem InSync.staysInSync_iff (h : d.InSync) (event : PollEvent) :
    (∃ d', d.apply event = .ok d' ∧ d'.InSync ∧
      ∀ id, event = .disablePoll id → d'.others id = d.others id) ↔ d.KeepsSync event := by
  cases event with
  | enablePoll id intensity =>
      rw [KeepsSync, ← h.enablePoll_iff]
      simp [apply]
  | disablePoll id =>
      obtain ⟨d', found, hdisable, hdisabled⟩ := h.disablePoll id
      apply iff_of_true _ trivial
      rw [apply, hdisable]
      refine ⟨d', rfl, hdisabled.inSync, ?_⟩
      rintro _ ⟨⟩
      exact hdisabled.others
  | setPollIntensity id intensity =>
      rw [KeepsSync, ← h.setPollIntensity_iff]
      simp [apply]
  | removeValue nodeId commandClassId instanceId index =>
      have hremove := h.removeValues_iff nodeId fun id =>
        id.storeKey ≠ valueStoreKey commandClassId instanceId index
      simp only [ne_eq, decide_not, Bool.not_eq_false', decide_eq_true_eq] at hremove
      rw [KeepsSync, ← hremove]
      simp [apply, removeValue]
  | removeCommandClassValues nodeId commandClassId =>
      have hremove := h.removeValues_iff nodeId fun id => id.commandClassId ≠ commandClassId
      simp only [ne_eq, decide_not, Bool.not_eq_false', decide_eq_true_eq] at hremove
      rw [KeepsSync, ← hremove]
      simp [apply, removeCommandClassValues]
  | removeNode nodeId =>
      obtain ⟨d', hremove, hsync⟩ := h.removeNode nodeId
      apply iff_of_true _ trivial
      exact ⟨d', hremove, hsync, fun id hevent => nomatch hevent⟩
  | pollPass =>
      apply iff_of_true _ trivial
      exact ⟨d.pollPass, rfl, h.pollPass, fun id hevent => nomatch hevent⟩

/-- From any state in which list and intensities agree, they agree after every
event of a run exactly when every event is harmless. -/
theorem inSync_run_iff (d : PollDriver) (hsync : d.InSync) (events : List PollEvent) :
    Along step StaysInSync (.ok d) events ↔ Along step Harmless (.ok d) events := by
  have hiff : ∀ s event, (∃ d : PollDriver, s = .ok d ∧ d.InSync) →
      (StaysInSync s event ↔ Harmless s event) := by
    rintro _ event ⟨d, rfl, h⟩
    constructor
    · rintro ⟨_, d', ⟨⟩, hstays⟩
      exact ⟨d, rfl, (h.staysInSync_iff event).mp ⟨d', hstays⟩⟩
    · rintro ⟨_, ⟨⟩, hevent⟩
      obtain ⟨d', hstays⟩ := (h.staysInSync_iff event).mpr hevent
      exact ⟨d, d', rfl, hstays⟩
  have hkeeps : ∀ s event, (∃ d : PollDriver, s = .ok d ∧ d.InSync) → StaysInSync s event →
      ∃ d : PollDriver, step s event = .ok d ∧ d.InSync := by
    rintro _ event - ⟨d, d', rfl, happly, h, -⟩
    exact ⟨d', happly, h⟩
  exact along_congr hiff hkeeps ⟨d, rfl, hsync⟩ events

/-- The level of node 5. -/
def lampLevel : ValueID where
  nodeId := 5
  genre := 1
  commandClassId := 0x26
  instanceId := 1
  index := 0
  type := 1

/-- Node 5 with its level, which has the given intensity. -/
def lampNode (intensity : UInt8) : PollNode 5 where
  store :=
    { values := [{ id := lampLevel, pollIntensity := intensity }]
      keys := List.nodup_singleton _
      ours := fun _ hmem => List.mem_singleton.mp hmem ▸ rfl }
  listening := true
  awake := none
  pollRequired := false
  commandClasses := fun id => id = 0x26

/-- The driver of node 5, with its level in the poll list if it has an intensity. -/
def lampDriver (intensity : UInt8) : PollDriver where
  nodes := Function.update (fun _ => none) 5 (some (lampNode intensity))
  pollList := if intensity = 0 then [] else [{ id := lampLevel, pollCounter := intensity }]
  awakeNodesQueried := true
  notified := []
  requested := []

theorem nodes_lampDriver (intensity : UInt8) :
    (lampDriver intensity).nodes 5 = some (lampNode intensity) := by
  simp [lampDriver]

theorem nodes_lampDriver_of_ne (intensity : UInt8) {nodeId : UInt8} (hne : nodeId ≠ 5) :
    (lampDriver intensity).nodes nodeId = none := by
  simp [lampDriver, hne]

theorem polled_lampDriver_iff (intensity : UInt8) :
    (lampDriver intensity).Polled id ↔ id = lampLevel ∧ intensity ≠ 0 := by
  by_cases hid : id.nodeId = 5
  · rw [Polled, getValue_of_nodes_eq (nodes_lampDriver intensity) hid]
    constructor
    · rintro ⟨value, hvalue, hne⟩
      obtain ⟨hmem, hid⟩ := ValueStore.getValue_eq_some_iff.mp hvalue
      rw [List.mem_singleton.mp hmem] at hid hne
      exact ⟨hid.symm, hne⟩
    · rintro ⟨rfl, hne⟩
      exact ⟨_, ValueStore.getValue_eq_some_iff.mpr ⟨List.mem_cons_self, rfl⟩, hne⟩
  · apply iff_of_false
    · rintro ⟨value, hvalue, -⟩
      rw [getValue_of_nodes_eq_none (nodes_lampDriver_of_ne intensity hid) rfl] at hvalue
      cases hvalue
    · rintro ⟨rfl, -⟩
      exact hid rfl

theorem inSync_lampDriver (intensity : UInt8) : (lampDriver intensity).InSync := by
  by_cases hzero : intensity = 0
  · have hlisted : (lampDriver intensity).listed = [] := by
      rw [listed, lampDriver, if_pos hzero, List.map_nil]
    refine ⟨fun id => ?_, hlisted ▸ List.nodup_nil⟩
    rw [hlisted, polled_lampDriver_iff]
    exact iff_of_false List.not_mem_nil fun h => h.2 hzero
  · have hlisted : (lampDriver intensity).listed = [lampLevel] := by
      rw [listed, lampDriver, if_neg hzero, List.map_singleton]
    refine ⟨fun id => ?_, hlisted ▸ List.nodup_singleton _⟩
    rw [hlisted, polled_lampDriver_iff, List.mem_singleton]
    exact (and_iff_left hzero).symm

theorem inSync_run_iff_lampDriver :
    Along step StaysInSync (.ok (lampDriver 0)) [.enablePoll lampLevel 2, .pollPass] ↔
      Along step Harmless (.ok (lampDriver 0)) [.enablePoll lampLevel 2, .pollPass] :=
  inSync_run_iff (lampDriver 0) (inSync_lampDriver 0) [.enablePoll lampLevel 2, .pollPass]

/-- The level is enabled with intensity zero; or its intensity is set to another
number than zero, or to zero, while it is in the list or not; or it is removed. -/
theorem lampDriver_not_inSync :
    ¬ Along step StaysInSync (.ok (lampDriver 0)) [.enablePoll lampLevel 0] ∧
      ¬ Along step StaysInSync (.ok (lampDriver 0)) [.setPollIntensity lampLevel 2] ∧
      ¬ Along step StaysInSync (.ok (lampDriver 1)) [.setPollIntensity lampLevel 0] ∧
      ¬ Along step StaysInSync (.ok (lampDriver 1)) [.removeCommandClassValues 5 0x26] := by
  have hfails : ∀ intensity event, ¬ (lampDriver intensity).KeepsSync event →
      ¬ Along step StaysInSync (.ok (lampDriver intensity)) [event] := by
    rintro intensity event hnot ⟨⟨_, d', ⟨⟩, hstays⟩, -⟩
    exact hnot (((inSync_lampDriver intensity).staysInSync_iff event).mp ⟨d', hstays⟩)
  have hvalue : ∀ intensity, (lampDriver intensity).getValue lampLevel =
      some { id := lampLevel, pollIntensity := intensity } :=
    fun intensity => (getValue_of_nodes_eq (nodes_lampDriver intensity) rfl).trans
      (ValueStore.getValue_eq_some_iff.mpr ⟨List.mem_cons_self, rfl⟩)
  refine ⟨hfails _ _ ?_, hfails _ _ ?_, hfails _ _ ?_, hfails _ _ ?_⟩
  · intro h
    exact h (by rw [hvalue]; exact Option.some_ne_none _) rfl
  · intro h
    exact absurd ((h _ (hvalue 0)).mpr rfl) (by decide)
  · intro h
    exact absurd ((h _ (hvalue 1)).mp rfl) (by decide)
  · intro h
    exact h lampLevel rfl rfl ((polled_lampDriver_iff 1).mpr ⟨rfl, by decide⟩)

end PollDriver

end OpenZWave
