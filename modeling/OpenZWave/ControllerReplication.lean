import OpenZWave.Defs
import Mathlib.Data.List.Count
import Mathlib.Data.List.Range

/-!
# Replication of groups to another controller

`StartReplication` and `SendNextData`, which is called again whenever the other controller
has taken a message. It keeps in three members where it is in the table of the nodes.
-/

namespace OpenZWave

namespace ControllerReplication

def cmdTransferGroup : UInt8 := 0x31
def cmdTransferGroupName : UInt8 := 0x32

/-- `TRANSMIT_OPTION_ACK`. -/
def transmitOptionAck : UInt8 := 0x01

/-! ## The table of the nodes -/

/-- The groups of a node with their labels: `m_groups`, which has one for an index. -/
structure NodeGroups where
  groups : List (UInt8 × List UInt8)
  distinct : (groups.map Prod.fst).Nodup

namespace NodeGroups

def getNumGroups (node : NodeGroups) : UInt8 := UInt8.ofNat node.groups.length

def getGroupLabel (node : NodeGroups) (groupIdx : UInt8) : List UInt8 :=
  (node.groups.lookup groupIdx).getD []

end NodeGroups

/-- `m_nodes`. -/
abbrev NodeTable := UInt8 → Option NodeGroups

/-! ## The messages -/

/-- What `SendNextData` appends to a message. -/
structure Transfer where
  targetNodeId : UInt8
  length : UInt8
  command : List UInt8
  transmitOptions : UInt8
  deriving DecidableEq

/-- What goes out: a message, or the call of `AddNodeStop`. -/
inductive Sent
  | transfer (t : Transfer)
  | addNodeStop (funcId : UInt8)
  deriving DecidableEq

def transferGroup (targetNodeId groupIdx nodeId : UInt8) : Sent :=
  .transfer ⟨targetNodeId, 5,
    [ClassId.controllerReplication, cmdTransferGroup, 0, groupIdx, nodeId],
    transmitOptionAck⟩

def transferGroupName (targetNodeId groupIdx : UInt8) (groupName : List UInt8) : Sent :=
  .transfer ⟨targetNodeId, UInt8.ofNat (groupName.length + 4),
    [ClassId.controllerReplication, cmdTransferGroupName, 0, groupIdx] ++ groupName,
    transmitOptionAck⟩

/-! ## The command class -/

/-- The members; the indexes are of type `int`. -/
structure Replication where
  busy : Bool
  targetNodeId : UInt8
  funcId : UInt8
  nodeId : ℤ
  groupCount : ℤ
  groupIdx : ℤ
  groupName : List UInt8

/-- The constructor. -/
def Replication.new : Replication where
  busy := false
  targetNodeId := 0
  funcId := 0
  nodeId := -1
  groupCount := -1
  groupIdx := -1
  groupName := []

/-- The loop over the nodes from `i` on, of which `remaining` are left: it ends at the
first one with groups. -/
def findNode (nodes : NodeTable) (self : Replication) (i : ℕ) : ℕ → Replication × ℕ
  | 0 => (self, i)
  | remaining + 1 =>
      match nodes (UInt8.ofNat i) with
      | none => findNode nodes self (i + 1) remaining
      | some node =>
          let self := { self with groupCount := node.getNumGroups.toNat }
          if self.groupCount ≠ 0 then
            let groupName := node.getGroupLabel (UInt8.ofInt self.groupIdx)
            ({ self with
                groupName := groupName
                groupIdx := if groupName.length > 0 then 0 else 1 }, i)
          else findNode nodes self (i + 1) remaining

/-- The message for what has been found; `none` if the index of the loop over the name, a
`uint8`, never reaches its end. -/
def send (self : Replication) (i : ℕ) : Option (Replication × List Sent) :=
  if i < 255 then
    let groupIdx := UInt8.ofInt self.groupIdx
    if self.groupName.length > 0 then
      if self.groupName.length ≥ 256 then none
      else
        some ({ self with groupName := [] },
          [transferGroupName self.targetNodeId groupIdx self.groupName])
    else some (self, [transferGroup self.targetNodeId groupIdx (UInt8.ofInt self.nodeId)])
  else some ({ self with busy := false }, [.addNodeStop self.funcId])

/-- The search from the node `i` on, and the message for its result. -/
def search (nodes : NodeTable) (self : Replication) (i : ℕ) : Option (Replication × List Sent) :=
  let found := findNode nodes self i (256 - i)
  send { found.1 with nodeId := found.2 } found.2

/-- `SendNextData`: the next group of a node is left to what follows the loop, where `i` is
still 255. -/
def sendNextData (nodes : NodeTable) (self : Replication) : Option (Replication × List Sent) :=
  if ¬ self.busy then some (self, [])
  else
    let resumed := self.groupIdx ≠ -1
    let self := if resumed then { self with groupIdx := self.groupIdx + 1 } else self
    if resumed ∧ self.groupIdx ≤ self.groupCount then send self 255
    else search nodes self (if self.nodeId = -1 then 0 else (self.nodeId + 1).toNat)

/-- The members when a replication starts; an item that is not there leaves the function. -/
def Replication.started (self : Replication) (targetNodeId : UInt8) (item : Option Int32) :
    Replication :=
  { self with
    targetNodeId := targetNodeId
    funcId := (item.map fun value => value.toUInt32.toUInt8).getD self.funcId
    nodeId := -1
    groupCount := -1
    groupIdx := -1
    busy := true }

/-- `StartReplication`, with what it reads of the two values: the node, and the value of
the item that is selected. -/
def startReplication (nodes : NodeTable) (self : Replication) (nodeId : Option UInt8)
    (function : Option (Option Int32)) : Option (Bool × Replication × List Sent) :=
  if self.busy then some (false, self, [])
  else
    match nodeId with
    | none => some (false, self, [])
    | some targetNodeId =>
        match function with
        | none => some (false, { self with targetNodeId := targetNodeId }, [])
        | some item => do
            let started ← sendNextData nodes (self.started targetNodeId item)
            return (true, started.1, started.2)

/-! ## Runs -/

/-- What each of `n` calls of `SendNextData` sends. -/
def calls (nodes : NodeTable) : ℕ → Replication → Option (List (List Sent))
  | 0, _ => some []
  | n + 1, self => do
      let next ← sendNextData nodes self
      let others ← calls nodes n next.1
      return next.2 :: others

/-- `StartReplication`, and `n` further calls. -/
def run (nodes : NodeTable) (self : Replication) (nodeId : Option UInt8)
    (function : Option (Option Int32)) (n : ℕ) : Option (List (List Sent)) := do
  let started ← startReplication nodes self nodeId function
  let others ← calls nodes n started.2.1
  return started.2.2 :: others

/-! ## What is asked of a run -/

/-- The number of groups of a node, if there is one. -/
def numGroups (nodes : NodeTable) (i : ℕ) : ℕ :=
  ((nodes (UInt8.ofNat i)).map fun node => node.getNumGroups.toNat).getD 0

/-- The label of a node for an index. -/
def groupLabel (nodes : NodeTable) (labelIdx : UInt8) (i : ℕ) : List UInt8 :=
  ((nodes (UInt8.ofNat i)).map fun node => node.getGroupLabel labelIdx).getD []

/-- The nodes from `i` on, `n` in number, that have groups. -/
def withGroups (nodes : NodeTable) (i n : ℕ) : List ℕ :=
  (List.range' i n).filter fun i => numGroups nodes i ≠ 0

/-- One message for every group of a node. -/
def transferGroups (nodes : NodeTable) (targetNodeId : UInt8) (i : ℕ) : List Sent :=
  (List.range (numGroups nodes i)).map fun k =>
    transferGroup targetNodeId (UInt8.ofNat (k + 1)) (UInt8.ofNat i)

def IsGroup : Sent → Bool
  | .transfer t => t.command[1]? == some cmdTransferGroup
  | .addNodeStop _ => false

def IsGroupName : Sent → Bool
  | .transfer t => t.command[1]? == some cmdTransferGroupName
  | .addNodeStop _ => false

/-- Names that may precede the groups of the nodes. -/
def AreNames (names : ℕ → List Sent) : Prop :=
  ∀ i, (names i).length ≤ 1 ∧ ∀ sent ∈ names i, IsGroupName sent

/-- The messages of a run: every group of every node in order, with the names, and the end. -/
def messages (nodes : NodeTable) (targetNodeId funcId : UInt8) (names : ℕ → List Sent)
    (is : List ℕ) : List Sent :=
  is.flatMap (fun i => names i ++ transferGroups nodes targetNodeId i) ++ [.addNodeStop funcId]

/-- From some call on, all messages have been sent and nothing else is; no call sends two. -/
def Complete (nodes : NodeTable) (self : Replication) (targetNodeId : UInt8)
    (item : Option Int32) : Prop :=
  ∃ names, AreNames names ∧ ∃ n, ∀ m ≥ n,
    ∃ sent, run nodes self (some targetNodeId) (some item) m = some sent ∧
      (∀ call ∈ sent, call.length ≤ 1) ∧
      sent.flatten = messages nodes targetNodeId (self.started targetNodeId item).funcId names
        (withGroups nodes 0 256)

/-- A node with a single group, for which no label is found. -/
def Single (nodes : NodeTable) (labelIdx : UInt8) (i : ℕ) : Prop :=
  i ≠ 255 ∧ numGroups nodes i = 1 ∧ groupLabel nodes labelIdx i = []

/-- All nodes with groups are such. On the first one the index -1 is looked up, on the
others the one behind the last group. -/
def Replicable (nodes : NodeTable) : Prop :=
  (∀ i ∈ (withGroups nodes 0 256).head?, Single nodes 255 i) ∧
    ∀ i ∈ (withGroups nodes 0 256).tail, Single nodes 2 i

/-! ## One call -/

theorem ofInt_natCast {i : ℕ} (h : i < 256) : UInt8.ofInt i = UInt8.ofNat i := by
  rw [UInt8.ofInt, Int.emod_eq_of_lt (by omega) (by omega)]
  rfl

variable {nodes : NodeTable} {self : Replication}

theorem length_send {self : Replication} {i : ℕ} {r : Replication × List Sent}
    (h : send self i = some r) : r.2.length = 1 := by
  rw [send] at h
  dsimp only at h
  split at h
  · split at h
    · split at h
      · cases h
      · cases h
        rfl
    · cases h
      rfl
  · cases h
    rfl

/-- A call sends at most one message. -/
theorem length_sendNextData {r : Replication × List Sent} (h : sendNextData nodes self = some r) :
    r.2.length ≤ 1 := by
  rw [sendNextData] at h
  dsimp only at h
  split at h
  · cases h
    exact Nat.zero_le 1
  · generalize (if self.groupIdx ≠ -1 then _ else self : Replication) = advanced at h
    split at h
    · exact Nat.le_of_eq (length_send h)
    · exact Nat.le_of_eq (length_send h)

theorem length_calls {n : ℕ} {sent : List (List Sent)} (h : calls nodes n self = some sent) :
    ∀ call ∈ sent, call.length ≤ 1 := by
  induction n generalizing self sent with
  | zero =>
      cases h
      exact fun call hcall => absurd hcall List.not_mem_nil
  | succ n ih =>
      obtain ⟨next, hnext, h⟩ := Option.bind_eq_some_iff.mp h
      obtain ⟨others, hothers, h⟩ := Option.bind_eq_some_iff.mp h
      cases h
      exact List.forall_mem_cons.mpr ⟨length_sendNextData hnext, ih hothers⟩

/-- When it is not busy, a call does nothing. -/
theorem sendNextData_idle (h : self.busy = false) : sendNextData nodes self = some (self, []) := by
  rw [sendNextData, if_pos (by rw [h]; exact Bool.false_ne_true)]

/-- In the middle of the groups of a node the call ends the replication. -/
theorem sendNextData_resumed (hbusy : self.busy = true) (hidx : self.groupIdx ≠ -1)
    (hless : self.groupIdx + 1 ≤ self.groupCount) :
    sendNextData nodes self =
      some ({ self with groupIdx := self.groupIdx + 1, busy := false },
        [.addNodeStop self.funcId]) := by
  rw [sendNextData, if_neg (not_not.mpr hbusy)]
  dsimp only
  rw [if_pos hidx, if_pos ⟨hidx, hless⟩]
  rfl

/-- Behind the last group of a node the next node is searched for. -/
theorem sendNextData_next (hbusy : self.busy = true) (hidx : self.groupIdx ≠ -1)
    (hlast : self.groupCount < self.groupIdx + 1) {i : ℕ} (hi : self.nodeId = i) :
    sendNextData nodes self =
      search nodes { self with groupIdx := self.groupIdx + 1 } (i + 1) := by
  have hnode : (if self.nodeId = -1 then 0 else (self.nodeId + 1).toNat) = i + 1 := by
    rw [if_neg (by omega), hi]
    rfl
  have hnot : ¬ (self.groupIdx ≠ -1 ∧ self.groupIdx + 1 ≤ self.groupCount) := fun h =>
    absurd h.2 (Int.not_le.mpr hlast)
  rw [sendNextData, if_neg (not_not.mpr hbusy)]
  dsimp only
  rw [if_pos hidx, if_neg hnot, hnode]

/-! ## What a run sends -/

/-- From some number of calls on, these messages have been sent, or no such call returns. -/
def Emits (nodes : NodeTable) (started : Option (Replication × List Sent))
    (sent : Option (List Sent)) : Prop :=
  ∃ n, ∀ m ≥ n,
    (started.bind fun r => (calls nodes m r.1).map fun others => r.2 ++ others.flatten) = sent

theorem emits_none : Emits nodes none none := ⟨0, fun _ _ => rfl⟩

theorem calls_succ (n : ℕ) :
    calls nodes (n + 1) self = (sendNextData nodes self).bind fun next =>
      (calls nodes n next.1).map fun others => next.2 :: others := by
  rw [calls]
  cases sendNextData nodes self with
  | none => rfl
  | some next =>
      change Option.bind (calls nodes n next.1) _ = Option.map _ (calls nodes n next.1)
      cases calls nodes n next.1 <;> rfl

theorem calls_idle (h : self.busy = false) (n : ℕ) :
    calls nodes n self = some (List.replicate n []) := by
  induction n with
  | zero => rfl
  | succ n ih =>
      rw [calls_succ, sendNextData_idle h, Option.bind_some, ih]
      rfl

/-- The end. -/
theorem emits_idle {r : Replication × List Sent} (h : r.1.busy = false) :
    Emits nodes (some r) (some r.2) := by
  refine ⟨0, fun m _ => ?_⟩
  have hnothing : (List.replicate m ([] : List Sent)).flatten = [] :=
    List.flatten_eq_nil_iff.mpr fun _ => List.eq_of_mem_replicate
  rw [Option.bind_some, calls_idle h, Option.map_some, hnothing, List.append_nil]

theorem emits_resumed (hbusy : self.busy = true) (hidx : self.groupIdx ≠ -1)
    (hless : self.groupIdx + 1 ≤ self.groupCount) :
    Emits nodes (sendNextData nodes self) (some [.addNodeStop self.funcId]) := by
  rw [sendNextData_resumed hbusy hidx hless]
  exact emits_idle rfl

/-- A call, and what follows it. -/
theorem emits_call {r : Replication × List Sent} {sent : Option (List Sent)}
    (h : Emits nodes (sendNextData nodes r.1) sent) :
    Emits nodes (some r) (sent.map fun others => r.2 ++ others) := by
  obtain ⟨n, hn⟩ := h
  refine ⟨n + 1, fun m hm => ?_⟩
  obtain ⟨m, rfl⟩ : ∃ k, m = k + 1 := ⟨m - 1, by omega⟩
  rw [← hn m (by omega), Option.bind_some, calls_succ]
  cases sendNextData nodes r.1 with
  | none => rfl
  | some next =>
      rw [Option.bind_some, Option.bind_some, Option.map_map, Option.map_map]
      rfl

theorem Emits.unique {started : Option (Replication × List Sent)} {sent sent' : Option (List Sent)}
    (h : Emits nodes started sent) (h' : Emits nodes started sent') : sent = sent' := by
  obtain ⟨n, hn⟩ := h
  obtain ⟨n', hn'⟩ := h'
  exact (hn (max n n') (le_max_left n n')).symm.trans (hn' (max n n') (le_max_right n n'))

/-- What is sent for the nodes with groups: a label is looked up under `labelIdx` for the
first of them. A node with a name or with several groups ends the replication. -/
def outcome (nodes : NodeTable) (targetNodeId funcId labelIdx : UInt8) :
    List ℕ → Option (List Sent)
  | [] => some [.addNodeStop funcId]
  | i :: is =>
      let groupName := groupLabel nodes labelIdx i
      let group := transferGroup targetNodeId 1 (UInt8.ofNat i)
      if i = 255 then some [.addNodeStop funcId]
      else if groupName.length ≥ 256 then none
      else if groupName.length > 0 then
        some [transferGroupName targetNodeId 0 groupName, .addNodeStop funcId]
      else if numGroups nodes i = 1 then
        (outcome nodes targetNodeId funcId 2 is).map fun others => group :: others
      else some [group, .addNodeStop funcId]

theorem withGroups_succ (nodes : NodeTable) (i n : ℕ) :
    withGroups nodes i (n + 1) =
      if numGroups nodes i = 0 then withGroups nodes (i + 1) n
      else i :: withGroups nodes (i + 1) n := by
  rw [withGroups, List.range'_succ, List.filter_cons]
  by_cases hgroups : numGroups nodes i = 0
  · simp only [hgroups, ne_eq, not_true, decide_false, if_true]
    rfl
  · simp only [hgroups, ne_eq, not_false_eq_true, decide_true, if_true, if_false]
    rfl

/-- Nodes without groups are passed over. -/
theorem search_without {i n : ℕ} (hn : i + (n + 1) = 256) (h : numGroups nodes i = 0) :
    ∃ count, search nodes self i = search nodes { self with groupCount := count } (i + 1) := by
  have hleft : 256 - i = n + 1 := by omega
  have hnext : 256 - (i + 1) = n := by omega
  cases hnode : nodes (UInt8.ofNat i) with
  | none =>
      refine ⟨self.groupCount, ?_⟩
      rw [search, search, hleft, hnext, findNode, hnode]
  | some node =>
      have hzero : (node.getNumGroups.toNat : ℤ) = 0 := by
        rw [numGroups, hnode] at h
        exact_mod_cast h
      refine ⟨node.getNumGroups.toNat, ?_⟩
      rw [search, search, hleft, hnext, findNode, hnode]
      dsimp only
      rw [if_neg (not_not.mpr hzero)]

/-- A node with groups is the next one. -/
theorem search_with {i n : ℕ} (hn : i + (n + 1) = 256) {node : NodeGroups}
    (hnode : nodes (UInt8.ofNat i) = some node) (h : numGroups nodes i ≠ 0) :
    search nodes self i =
      send { self with
        nodeId := i
        groupCount := numGroups nodes i
        groupName := node.getGroupLabel (UInt8.ofInt self.groupIdx)
        groupIdx :=
          if (node.getGroupLabel (UInt8.ofInt self.groupIdx)).length > 0 then 0 else 1 } i := by
  have hleft : 256 - i = n + 1 := by omega
  have hcount : numGroups nodes i = node.getNumGroups.toNat := by
    rw [numGroups, hnode]
    rfl
  rw [hcount] at h ⊢
  rw [search, hleft, findNode, hnode]
  dsimp only
  rw [if_pos (by exact_mod_cast h)]

/-- A node with groups, from the message for it on. -/
theorem emits_send {i count : ℕ} (hbusy : self.busy = true) (hi : i < 256) (hcount : count ≠ 0)
    (hself : self.groupCount = count) (hnode : self.nodeId = i)
    (hidx : self.groupIdx = if self.groupName.length > 0 then 0 else 1)
    {rest : Option (List Sent)}
    (hrest : count = 1 → Emits nodes (search nodes { self with groupIdx := 2 } (i + 1)) rest) :
    Emits nodes (send self i)
      (if i = 255 then some [.addNodeStop self.funcId]
      else if self.groupName.length ≥ 256 then none
      else if self.groupName.length > 0 then
        some [transferGroupName self.targetNodeId 0 self.groupName, .addNodeStop self.funcId]
      else if count = 1 then
        rest.map fun others => transferGroup self.targetNodeId 1 (UInt8.ofNat i) :: others
      else some [transferGroup self.targetNodeId 1 (UInt8.ofNat i), .addNodeStop self.funcId]) := by
  rw [send]
  dsimp only
  by_cases hlast : i = 255
  · rw [if_neg (by omega), if_pos hlast]
    exact emits_idle rfl
  rw [if_pos (by omega), if_neg hlast]
  by_cases hname : self.groupName.length > 0
  · rw [if_pos hname] at hidx
    rw [if_pos hname]
    by_cases hlong : self.groupName.length ≥ 256
    · rw [if_pos hlong, if_pos hlong]
      exact emits_none
    have hzero : UInt8.ofInt self.groupIdx = 0 := by
      rw [hidx]
      rfl
    rw [if_neg hlong, if_neg hlong, if_pos hname, hzero]
    have hstop : Emits nodes (sendNextData nodes { self with groupName := [] })
        (some [.addNodeStop self.funcId]) :=
      emits_resumed hbusy (show self.groupIdx ≠ -1 by rw [hidx]; decide)
        (show self.groupIdx + 1 ≤ self.groupCount by omega)
    exact emits_call (r := (_, _)) hstop
  · rw [if_neg hname] at hidx
    have hgroup : transferGroup self.targetNodeId (UInt8.ofInt self.groupIdx)
        (UInt8.ofInt self.nodeId) = transferGroup self.targetNodeId 1 (UInt8.ofNat i) := by
      rw [hidx, hnode, ofInt_natCast hi]
      rfl
    rw [if_neg hname, if_neg (by omega), if_neg hname, hgroup]
    by_cases hone : count = 1
    · rw [if_pos hone]
      have hnext : sendNextData nodes self =
          search nodes { self with groupIdx := self.groupIdx + 1 } (i + 1) :=
        sendNextData_next hbusy (by rw [hidx]; decide) (by omega) hnode
      rw [hidx] at hnext
      exact emits_call (r := (self, _)) (hnext ▸ hrest hone)
    · rw [if_neg hone]
      have hstop : Emits nodes (sendNextData nodes self) (some [.addNodeStop self.funcId]) :=
        emits_resumed hbusy (by rw [hidx]; decide) (by omega)
      exact emits_call (r := (self, _)) hstop

/-- The search for the nodes from `i` on sends what their list does. -/
theorem emits_search {i n : ℕ} (hn : i + n = 256) (hbusy : self.busy = true) :
    Emits nodes (search nodes self i)
      (outcome nodes self.targetNodeId self.funcId (UInt8.ofInt self.groupIdx)
        (withGroups nodes i n)) := by
  induction n generalizing i self with
  | zero =>
      obtain rfl : i = 256 := hn
      exact emits_idle rfl
  | succ n ih =>
      rw [withGroups_succ]
      split
      · rename_i hwithout
        obtain ⟨count, hcount⟩ := search_without hn hwithout
        rw [hcount]
        exact ih (by omega) hbusy
      · rename_i hwith
        obtain ⟨node, hnode⟩ : ∃ node, nodes (UInt8.ofNat i) = some node := by
          cases hnode : nodes (UInt8.ofNat i) with
          | none => exact absurd (by rw [numGroups, hnode]; rfl) hwith
          | some node => exact ⟨node, rfl⟩
        have hlabel : groupLabel nodes (UInt8.ofInt self.groupIdx) i =
            node.getGroupLabel (UInt8.ofInt self.groupIdx) := by
          rw [groupLabel, hnode]
          rfl
        rw [search_with hn hnode hwith, outcome, hlabel]
        have hi : i < 256 := by omega
        refine emits_send ?_ hi hwith rfl rfl rfl fun _ => ih (by omega) ?_
        · exact hbusy
        · exact hbusy

/-! ## All groups -/

section Messages

variable {targetNodeId funcId labelIdx : UInt8} {names : ℕ → List Sent} {i : ℕ} {is : List ℕ}

theorem messages_cons :
    messages nodes targetNodeId funcId names (i :: is) =
      names i ++ (transferGroups nodes targetNodeId i ++
        messages nodes targetNodeId funcId names is) := by
  rw [messages, messages, List.flatMap_cons, List.append_assoc, List.append_assoc]

theorem transferGroups_one (h : numGroups nodes i = 1) :
    transferGroups nodes targetNodeId i = [transferGroup targetNodeId 1 (UInt8.ofNat i)] := by
  rw [transferGroups, h]
  rfl

theorem countP_transferGroups :
    (transferGroups nodes targetNodeId i).countP IsGroup = numGroups nodes i := by
  have hall : ∀ sent ∈ transferGroups nodes targetNodeId i, IsGroup sent = true := by
    intro sent hsent
    obtain ⟨k, -, rfl⟩ := List.mem_map.mp hsent
    rfl
  rw [List.countP_eq_length.mpr hall, transferGroups, List.length_map, List.length_range]

/-- A node counts with all its groups. -/
theorem numGroups_le_countP :
    numGroups nodes i ≤
      (messages nodes targetNodeId funcId names (i :: is)).countP IsGroup := by
  rw [messages_cons, List.countP_append, List.countP_append, countP_transferGroups]
  omega

/-- Single groups without labels are all that is sent. -/
theorem outcome_of_single (hhead : ∀ i ∈ is.head?, Single nodes labelIdx i)
    (htail : ∀ i ∈ is.tail, Single nodes 2 i) :
    outcome nodes targetNodeId funcId labelIdx is =
      some (messages nodes targetNodeId funcId (fun _ => []) is) := by
  induction is generalizing labelIdx with
  | nil => rfl
  | cons i is ih =>
      obtain ⟨hlast, hone, hlabel⟩ := hhead i rfl
      have hrest := ih (fun j hj => htail j (List.mem_of_mem_head? hj))
        (fun j hj => htail j (List.mem_of_mem_tail hj))
      rw [outcome, if_neg hlast, hlabel, if_neg (by decide), if_neg (by decide), if_pos hone,
        hrest, messages_cons, transferGroups_one hone]
      rfl

/-- If all groups are sent, there are no others than these. -/
theorem single_of_outcome (hnames : AreNames names) (hgroups : ∀ i ∈ is, numGroups nodes i ≠ 0)
    (h : outcome nodes targetNodeId funcId labelIdx is =
      some (messages nodes targetNodeId funcId names is)) :
    (∀ i ∈ is.head?, Single nodes labelIdx i) ∧ ∀ i ∈ is.tail, Single nodes 2 i := by
  induction is generalizing labelIdx with
  | nil => exact ⟨nofun, nofun⟩
  | cons i is ih =>
      obtain ⟨hi, hgroups⟩ := List.forall_mem_cons.mp hgroups
      have hcount : numGroups nodes i ≤
          (messages nodes targetNodeId funcId names (i :: is)).countP IsGroup :=
        numGroups_le_countP
      -- too few groups are sent on all branches but one
      rw [outcome] at h
      by_cases hlast : i = 255
      · rw [if_pos hlast] at h
        rw [← Option.some.inj h] at hcount
        exact absurd (Nat.le_zero.mp hcount) hi
      rw [if_neg hlast] at h
      by_cases hlong : (groupLabel nodes labelIdx i).length ≥ 256
      · rw [if_pos hlong] at h
        cases h
      rw [if_neg hlong] at h
      by_cases hname : (groupLabel nodes labelIdx i).length > 0
      · rw [if_pos hname] at h
        rw [← Option.some.inj h] at hcount
        exact absurd (Nat.le_zero.mp hcount) hi
      rw [if_neg hname] at h
      by_cases hone : numGroups nodes i = 1
      · rw [if_pos hone] at h
        obtain ⟨others, hothers, hcons⟩ := Option.map_eq_some_iff.mp h
        rw [messages_cons, transferGroups_one hone] at hcons
        have hnone : names i = [] := by
          obtain ⟨hlength, hisname⟩ := hnames i
          cases hfirst : names i with
          | nil => rfl
          | cons sent rest =>
              rw [hfirst] at hcons hisname
              obtain ⟨rfl, -⟩ := List.cons_eq_cons.mp hcons
              exact absurd (hisname _ List.mem_cons_self) Bool.false_ne_true
        rw [hnone] at hcons
        obtain ⟨-, rfl⟩ := List.cons_eq_cons.mp hcons
        obtain ⟨hhead, htail⟩ := ih hgroups hothers
        refine ⟨?_, ?_⟩
        · rintro j ⟨⟩
          exact ⟨hlast, hone, List.eq_nil_of_length_eq_zero (Nat.eq_zero_of_not_pos hname)⟩
        · cases is with
          | nil => exact nofun
          | cons k is => exact List.forall_mem_cons.mpr ⟨hhead k rfl, htail⟩
      · rw [if_neg hone] at h
        rw [← Option.some.inj h] at hcount
        have hcount : numGroups nodes i ≤ 1 := hcount
        omega

end Messages

/-- `StartReplication` makes the first call. -/
theorem run_eq (hidle : self.busy = false) (targetNodeId : UInt8) (item : Option Int32) (n : ℕ) :
    run nodes self (some targetNodeId) (some item) n =
      (search nodes (self.started targetNodeId item) 0).bind fun r =>
        (calls nodes n r.1).map fun others => r.2 :: others := by
  have hfirst : sendNextData nodes (self.started targetNodeId item) =
      search nodes (self.started targetNodeId item) 0 := rfl
  rw [run, startReplication, if_neg (by rw [hidle]; exact Bool.false_ne_true), hfirst]
  cases search nodes (self.started targetNodeId item) 0 with
  | none => rfl
  | some r =>
      change Option.bind (calls nodes n r.1) _ = Option.map _ (calls nodes n r.1)
      cases calls nodes n r.1 <;> rfl

/-- No call of a run sends two messages. -/
theorem length_run {targetNodeId : UInt8} {item : Option Int32} {n : ℕ} {sent : List (List Sent)}
    (hidle : self.busy = false)
    (h : run nodes self (some targetNodeId) (some item) n = some sent) :
    ∀ call ∈ sent, call.length ≤ 1 := by
  rw [run_eq hidle] at h
  obtain ⟨r, hr, h⟩ := Option.bind_eq_some_iff.mp h
  obtain ⟨others, hothers, rfl⟩ := Option.map_eq_some_iff.mp h
  exact List.forall_mem_cons.mpr ⟨Nat.le_of_eq (length_send hr), length_calls hothers⟩

/-- A replication is complete if its first call and what follows it send everything. -/
theorem complete_iff_emits (hidle : self.busy = false) (targetNodeId : UInt8)
    (item : Option Int32) :
    Complete nodes self targetNodeId item ↔ ∃ names, AreNames names ∧
      Emits nodes (search nodes (self.started targetNodeId item) 0)
        (some (messages nodes targetNodeId (self.started targetNodeId item).funcId names
          (withGroups nodes 0 256))) := by
  have hflat : ∀ n, (run nodes self (some targetNodeId) (some item) n).map List.flatten =
      (search nodes (self.started targetNodeId item) 0).bind fun r =>
        (calls nodes n r.1).map fun others => r.2 ++ others.flatten := by
    intro n
    rw [run_eq hidle]
    cases search nodes (self.started targetNodeId item) 0 with
    | none => rfl
    | some r =>
        rw [Option.bind_some, Option.bind_some, Option.map_map]
        rfl
  refine exists_congr fun names => and_congr_right fun _ => exists_congr fun n =>
    forall₂_congr fun m _ => ?_
  rw [← hflat, Option.map_eq_some_iff]
  constructor
  · rintro ⟨sent, hrun, -, hsent⟩
    exact ⟨sent, hrun, hsent⟩
  · rintro ⟨sent, hrun, hsent⟩
    exact ⟨sent, hrun, length_run hidle hrun, hsent⟩

theorem numGroups_of_mem {i : ℕ} (h : i ∈ withGroups nodes 0 256) : numGroups nodes i ≠ 0 :=
  of_decide_eq_true (List.mem_filter.mp h).2

theorem emits_run (nodes : NodeTable) (self : Replication) (targetNodeId : UInt8)
    (item : Option Int32) :
    Emits nodes (search nodes (self.started targetNodeId item) 0)
      (outcome nodes targetNodeId (self.started targetNodeId item).funcId 255
        (withGroups nodes 0 256)) :=
  emits_search (Nat.zero_add 256) rfl

theorem replicable_of_complete (hidle : self.busy = false) {targetNodeId : UInt8}
    {item : Option Int32} (h : Complete nodes self targetNodeId item) : Replicable nodes := by
  obtain ⟨names, hnames, hall⟩ := (complete_iff_emits hidle targetNodeId item).mp h
  exact single_of_outcome hnames (fun i => numGroups_of_mem)
    ((emits_run nodes self targetNodeId item).unique hall)

/-- Whatever was replicated before, and to whichever node. -/
theorem replication_complete_iff (hidle : self.busy = false) (targetNodeId : UInt8)
    (item : Option Int32) : Complete nodes self targetNodeId item ↔ Replicable nodes := by
  refine ⟨replicable_of_complete hidle, ?_⟩
  rintro ⟨hhead, htail⟩
  refine (complete_iff_emits hidle targetNodeId item).mpr
    ⟨fun _ => [], fun _ => ⟨Nat.zero_le 1, nofun⟩, ?_⟩
  rw [← outcome_of_single hhead htail]
  exact emits_run nodes self targetNodeId item

/-- A node with a single group. -/
def oneGroup : NodeTable := fun i => if i = 5 then some ⟨[(1, [0x47])], by decide⟩ else none

theorem withGroups_oneGroup : withGroups oneGroup 0 256 = [5] := by decide

theorem replication_complete_oneGroup : Complete oneGroup .new 2 none := by
  refine (replication_complete_iff rfl 2 none).mpr ?_
  rw [Replicable, withGroups_oneGroup]
  refine ⟨?_, nofun⟩
  rintro i ⟨⟩
  exact ⟨by decide, rfl, rfl⟩

/-- A node with two groups. -/
def twoGroups : NodeTable := fun i =>
  if i = 5 then some ⟨[(1, [0x47]), (2, [0x47])], by decide⟩ else none

theorem withGroups_twoGroups : withGroups twoGroups 0 256 = [5] := by decide

theorem replication_not_complete :
    ¬ ∀ (nodes : NodeTable) (targetNodeId : UInt8) (item : Option Int32),
      Complete nodes .new targetNodeId item := by
  intro h
  have hhead := (replicable_of_complete rfl (h twoGroups 2 none)).1
  rw [withGroups_twoGroups] at hhead
  exact absurd (hhead 5 rfl).2.1 (by decide)

end ControllerReplication

end OpenZWave
