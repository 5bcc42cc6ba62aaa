import Mathlib.Data.Finset.Card
import Mathlib.Logic.Function.Basic
import OpenZWave.Defs
import OpenZWave.Lib.Assembly

/-!
# Association groups

`Association` and `MultiChannelAssociation` ask a node for the members of its
groups one group after the other. A group with many members is reported in
several messages, and `m_pendingMembers` collects them until the last one. The
two classes differ in the members and in how a report lists them. `data i` is
the byte `_data[i]` of the message that is handled.
-/

namespace OpenZWave

open Assembly Transition

structure InstanceAssociation where
  nodeId : UInt8
  endPoint : UInt8
  deriving DecidableEq

/-- The two classes. -/
inductive AssociationKind
  | association
  | multiChannelAssociation
  deriving DecidableEq

namespace Association

/-- The members that a report lists. -/
def reportedMembers (data : Nat → UInt8) (length : UInt32) : List UInt8 :=
  if 5 ≤ length then
    let numAssociations := (length - 5).toUInt8
    (List.range numAssociations.toNat).map fun i => data (i + 4)
  else []

end Association

namespace MultiChannelAssociation

/-- The loop over the members from index `i` on. -/
def readMembers (data : Nat → UInt8) (count i : Nat) (pastMarker : Bool) :
    List InstanceAssociation :=
  if i < count then
    if data (i + 4) = 0 then readMembers data count (i + 1) true
    else if pastMarker then
      { nodeId := data (i + 4), endPoint := data (i + 5) } :: readMembers data count (i + 2) true
    else { nodeId := data (i + 4), endPoint := 0 } :: readMembers data count (i + 1) false
  else []
  termination_by count - i

/-- The members that a report lists: nodes, a marker, and nodes with end points. -/
def reportedMembers (data : Nat → UInt8) (length : UInt32) : List InstanceAssociation :=
  if 5 ≤ length then readMembers data (length - 5).toNat 0 false else []

/-- The bytes in which a node lists members. -/
def listed (nodes : List UInt8) (endPoints : List InstanceAssociation) : List UInt8 :=
  nodes ++ 0 :: endPoints.flatMap fun member => [member.nodeId, member.endPoint]

/-- A message has the bytes from member index `i` on. -/
def Holds (data : Nat → UInt8) (i : Nat) (bytes : List UInt8) : Prop :=
  ∀ j, (hj : j < bytes.length) → data (i + j + 4) = bytes[j]

theorem Holds.head {data : Nat → UInt8} {i : Nat} {byte : UInt8} {bytes : List UInt8}
    (h : Holds data i (byte :: bytes)) : data (i + 4) = byte :=
  h 0 (Nat.succ_pos _)

theorem Holds.tail {data : Nat → UInt8} {i : Nat} {byte : UInt8} {bytes : List UInt8}
    (h : Holds data i (byte :: bytes)) : Holds data (i + 1) bytes := by
  intro j hj
  have hnext := h (j + 1) (Nat.succ_lt_succ hj)
  rw [List.getElem_cons_succ] at hnext
  rwa [show i + 1 + j + 4 = i + (j + 1) + 4 by omega]

theorem readMembers_endPoints {data : Nat → UInt8} {count i : Nat}
    {endPoints : List InstanceAssociation} (hnonzero : ∀ member ∈ endPoints, member.nodeId ≠ 0)
    (hcount : count = i + 2 * endPoints.length)
    (hdata : Holds data i (endPoints.flatMap fun member => [member.nodeId, member.endPoint])) :
    readMembers data count i true = endPoints := by
  induction endPoints generalizing i with
  | nil =>
      rw [List.length_nil] at hcount
      rw [readMembers, if_neg (by omega)]
  | cons member endPoints ih =>
      rw [List.length_cons] at hcount
      obtain ⟨hmember, hrest⟩ := List.forall_mem_cons.mp hnonzero
      have hnode : data (i + 4) = member.nodeId := hdata.head
      have hend : data (i + 5) = member.endPoint := hdata.tail.head
      have hread : readMembers data count (i + 2) true = endPoints :=
        ih hrest (by omega) hdata.tail.tail
      rw [readMembers, if_pos (by omega), hnode, if_neg hmember, if_pos rfl, hend, hread]

theorem readMembers_listed {data : Nat → UInt8} {count i : Nat} {nodes : List UInt8}
    {endPoints : List InstanceAssociation} (hnodes : ∀ node ∈ nodes, node ≠ 0)
    (hendPoints : ∀ member ∈ endPoints, member.nodeId ≠ 0)
    (hcount : count = i + nodes.length + 1 + 2 * endPoints.length)
    (hdata : Holds data i (listed nodes endPoints)) :
    readMembers data count i false =
      nodes.map (fun node => { nodeId := node, endPoint := 0 }) ++ endPoints := by
  induction nodes generalizing i with
  | nil =>
      have hmarker : data (i + 4) = 0 := hdata.head
      rw [List.length_nil] at hcount
      rw [readMembers, if_pos (by omega), if_pos hmarker]
      have hrest : count = i + 1 + 2 * endPoints.length := by omega
      exact readMembers_endPoints hendPoints hrest hdata.tail
  | cons node nodes ih =>
      rw [List.length_cons] at hcount
      obtain ⟨hnode, hrest⟩ := List.forall_mem_cons.mp hnodes
      have hbyte : data (i + 4) = node := hdata.head
      rw [readMembers, if_pos (by omega), hbyte, if_neg hnode, if_neg Bool.false_ne_true,
        ih hrest (by omega) hdata.tail]
      rfl

/-- A report is read as it was listed. -/
theorem reportedMembers_listed {data : Nat → UInt8} {length : UInt32} {nodes : List UInt8}
    {endPoints : List InstanceAssociation} (hnodes : ∀ node ∈ nodes, node ≠ 0)
    (hendPoints : ∀ member ∈ endPoints, member.nodeId ≠ 0)
    (hlength : length.toNat = 5 + (nodes.length + 1 + 2 * endPoints.length))
    (hdata : Holds data 0 (listed nodes endPoints)) :
    reportedMembers data length =
      nodes.map (fun node => { nodeId := node, endPoint := 0 }) ++ endPoints := by
  have hfive : (5 : UInt32) ≤ length := by
    rw [UInt32.le_iff_toNat_le, hlength]
    exact Nat.le_add_right 5 _
  rw [reportedMembers, if_pos hfive]
  apply readMembers_listed hnodes hendPoints _ hdata
  calc (length - 5).toNat
      = length.toNat - 5 := UInt32.toNat_sub_of_le _ _ hfive
    _ = 0 + nodes.length + 1 + 2 * endPoints.length := by omega

end MultiChannelAssociation

namespace AssociationKind

def commandClassId : AssociationKind → UInt8
  | .association => ClassId.association
  | .multiChannelAssociation => ClassId.multiChannelAssociation

abbrev Member : AssociationKind → Type
  | .association => UInt8
  | .multiChannelAssociation => InstanceAssociation

def reportedMembers : (kind : AssociationKind) → (Nat → UInt8) → UInt32 → List kind.Member
  | .association => Association.reportedMembers
  | .multiChannelAssociation => MultiChannelAssociation.reportedMembers

/-- A member as the groups keep it. -/
def instanceOf : (kind : AssociationKind) → kind.Member → InstanceAssociation
  | .association, nodeId => { nodeId := nodeId, endPoint := 0 }
  | .multiChannelAssociation, member => member

end AssociationKind

/-! ## Groups -/

/-- `Group`: of `m_associations` the keys. -/
structure Group where
  groupIdx : UInt8
  maxAssociations : UInt8
  auto : Bool
  multiInstance : Bool
  associations : Finset InstanceAssociation

namespace Group

/-- The constructor. -/
def new (groupIdx maxAssociations : UInt8) : Group where
  groupIdx := groupIdx
  maxAssociations := maxAssociations
  auto := groupIdx = 255 ∨ groupIdx = 1
  multiInstance := false
  associations := ∅

/-- `Contains` for end point 0. -/
def contains (group : Group) (nodeId : UInt8) : Bool :=
  { nodeId := nodeId, endPoint := 0 } ∈ group.associations

/-- The loop that adds the associations. -/
def addAll (associations : Finset InstanceAssociation) (members : List InstanceAssociation) :
    Finset InstanceAssociation :=
  members.foldl (fun associations member => insert member associations) associations

/-- `OnGroupChanged`: the group and whether its watchers are notified; `none`
when the index of the loops, a `uint8`, never reaches the number of members. -/
def onGroupChanged (group : Group) (members : List InstanceAssociation) : Option (Group × Bool) :=
  if 256 ≤ members.length then none
  else
    let differs := members.length ≠ group.associations.card
    let old := if differs then ∅ else group.associations
    let notify := differs ∨ members.length = 0
    let added := addAll old members
    if ¬ notify ∧ old.card ≠ added.card then
      some ({ group with associations := addAll ∅ members }, true)
    else some ({ group with associations := added }, notify)

theorem addAll_eq (associations : Finset InstanceAssociation)
    (members : List InstanceAssociation) :
    addAll associations members = associations ∪ members.toFinset := by
  induction members generalizing associations with
  | nil => simp [addAll]
  | cons member members ih =>
      calc addAll associations (member :: members)
          = addAll (insert member associations) members := rfl
        _ = insert member associations ∪ members.toFinset := ih _
        _ = associations ∪ (member :: members).toFinset := by
            rw [List.toFinset_cons, Finset.insert_union, Finset.union_insert]

/-- A list of fewer than 256 different members becomes the membership. -/
theorem onGroupChanged_associations {group : Group} {members : List InstanceAssociation}
    (hnodup : members.Nodup) (hlength : members.length < 256) :
    ∃ group' notify, group.onGroupChanged members = some (group', notify) ∧
      group'.associations = members.toFinset := by
  rw [onGroupChanged, if_neg (by omega)]
  by_cases hdiffers : members.length = group.associations.card
  · by_cases hempty : members.length = 0
    · refine ⟨{ group with associations := addAll group.associations members }, true, ?_, ?_⟩
      · simp [hempty, ← hdiffers]
      · rw [hempty] at hdiffers
        simp only [addAll_eq, Finset.card_eq_zero.mp hdiffers.symm, Finset.empty_union]
    · have hnotify : ¬ (members.length ≠ group.associations.card ∨ members.length = 0) := by
        simp [hdiffers, hdiffers ▸ hempty]
      dsimp only
      rw [if_neg (not_not.mpr hdiffers), addAll_eq]
      by_cases hgrown : group.associations.card = (group.associations ∪ members.toFinset).card
      · refine ⟨_, _, if_neg fun h => h.2 hgrown, ?_⟩
        have hsame : (group.associations ∪ members.toFinset).card ≤ members.toFinset.card := by
          rw [List.toFinset_card_of_nodup hnodup, hdiffers, ← hgrown]
        exact (Finset.eq_of_subset_of_card_le Finset.subset_union_right hsame).symm
      · refine ⟨_, _, if_pos ⟨hnotify, hgrown⟩, ?_⟩
        rw [addAll_eq, Finset.empty_union]
  · refine ⟨{ group with associations := addAll ∅ members }, true, ?_, ?_⟩
    · simp [hdiffers]
    · rw [addAll_eq, Finset.empty_union]

end Group

/-! ## The classes of a node -/

/-- The members of a command class that the handlers read and write, and the log
of the groups it asked for, the reports it was sent and the lists it applied. -/
structure AssociationClass (kind : AssociationKind) where
  queryAll : Bool
  numGroups : UInt8
  currentGroupQuery : UInt8
  getSupported : Bool
  pendingMembers : List kind.Member
  log : List (Entry UInt8 kind.Member)

/-- The part of a node that holds its groups. `looping` says that
`OnGroupChanged` was called and never returns. -/
structure AssociationNode where
  nodeId : UInt8
  controllerNodeId : UInt8
  transmitOptions : UInt8
  associate : Bool
  multiInstance : Bool
  forceInstances : Bool
  groups : UInt8 → Option Group
  classes : (kind : AssociationKind) → Option (AssociationClass kind)
  sent : List (List UInt8)
  notified : List UInt8
  looping : Bool

namespace AssociationNode

def setClass (node : AssociationNode) (kind : AssociationKind) (c : AssociationClass kind) :
    AssociationNode :=
  { node with classes := Function.update node.classes kind (some c) }

/-- A change of the members of a class, if the node has it. -/
def modifyClass (node : AssociationNode) (kind : AssociationKind)
    (change : AssociationClass kind → AssociationClass kind) : AssociationNode :=
  match node.classes kind with
  | none => node
  | some c => node.setClass kind (change c)

/-- `SendMsg` of a command to the node. -/
def send (node : AssociationNode) (command : List UInt8) : AssociationNode :=
  { node with
    sent := node.sent ++
      [[node.nodeId, UInt8.ofNat command.length] ++ command ++ [node.transmitOptions]] }

/-- `QueryGroup`. -/
def queryGroup (node : AssociationNode) (kind : AssociationKind) (groupIdx : UInt8) :
    AssociationNode :=
  match node.classes kind with
  | none => node
  | some c =>
      if c.getSupported then
        (node.send [kind.commandClassId, AssociationCmd.get, groupIdx]).setClass kind
          { c with
            currentGroupQuery := if c.queryAll then groupIdx else c.currentGroupQuery
            log := .requested groupIdx :: c.log }
      else node

/-- `Association::Set` and `Association::Remove`. -/
def setAssociation (node : AssociationNode) (cmd groupIdx targetNodeId : UInt8) :
    AssociationNode :=
  node.send [ClassId.association, cmd, groupIdx, targetNodeId]

/-- What `MultiChannelAssociation::Set` and `Remove` send: an end point needs the
marker. -/
def sendEndPoint (node : AssociationNode) (cmd groupIdx targetNodeId endPoint : UInt8) :
    AssociationNode :=
  if endPoint = 0 then node.send [ClassId.multiChannelAssociation, cmd, groupIdx, targetNodeId]
  else node.send [ClassId.multiChannelAssociation, cmd, groupIdx, 0, targetNodeId, endPoint]

/-- `MultiChannelAssociation::Set`: some devices need an end point for the
controller. -/
def setEndPoint (node : AssociationNode) (groupIdx targetNodeId endPoint : UInt8) :
    AssociationNode :=
  node.sendEndPoint AssociationCmd.set groupIdx targetNodeId
    (if node.forceInstances ∧ endPoint = 0 ∧ targetNodeId = node.controllerNodeId then 1
    else endPoint)

/-- `Group::AddAssociation`. -/
def addAssociation (node : AssociationNode) (group : Group) (nodeId endPoint : UInt8) :
    AssociationNode :=
  if nodeId = 255 then node
  else if (node.classes .multiChannelAssociation).isSome ∧ group.multiInstance ∧
      node.multiInstance then
    (node.setEndPoint group.groupIdx nodeId endPoint).queryGroup
      .multiChannelAssociation group.groupIdx
  else if (node.classes .association).isSome then
    (node.setAssociation AssociationCmd.set group.groupIdx nodeId).queryGroup .association
      group.groupIdx
  else node

/-- `Group::RemoveAssociation`. -/
def removeAssociation (node : AssociationNode) (group : Group) (nodeId endPoint : UInt8) :
    AssociationNode :=
  if (node.classes .multiChannelAssociation).isSome ∧ group.multiInstance then
    (node.sendEndPoint AssociationCmd.remove group.groupIdx nodeId endPoint).queryGroup
      .multiChannelAssociation group.groupIdx
  else if (node.classes .association).isSome then
    (node.setAssociation AssociationCmd.remove group.groupIdx nodeId).queryGroup .association
      group.groupIdx
  else node

/-- `m_groups` in the order of the indices. -/
def allGroups (node : AssociationNode) : List Group :=
  (List.range 256).filterMap fun i => node.groups (UInt8.ofNat i)

/-- `Node::AutoAssociate`. -/
def autoAssociate (node : AssociationNode) : AssociationNode :=
  if node.associate then
    node.allGroups.foldl (fun node group =>
      if group.auto ∧ ¬ group.contains node.controllerNodeId then
        node.addAssociation group node.controllerNodeId 0
      else node) node
  else node

/-- `RequestAllGroups`. -/
def requestAllGroups (node : AssociationNode) (kind : AssociationKind) : AssociationNode :=
  match node.classes kind with
  | none => node
  | some c =>
      (node.setClass kind { c with queryAll := true }).queryGroup kind
        (if c.numGroups = 0xff then 0xff else 1)

/-- The end of the queries. -/
def finishQueries (node : AssociationNode) (kind : AssociationKind) : AssociationNode :=
  node.autoAssociate.modifyClass kind fun c => { c with queryAll := false }

/-- The group to query next: after group 255 group 1. -/
def nextGroup {kind : AssociationKind} (c : AssociationClass kind) : UInt8 :=
  let nextGroup := c.currentGroupQuery + 1
  if nextGroup = 0 then 1 else nextGroup

/-- What follows a report when all groups are queried. -/
def queryNextGroup (node : AssociationNode) (kind : AssociationKind) : AssociationNode :=
  match node.classes kind with
  | none => node
  | some c =>
      if c.queryAll then
        if nextGroup c ≤ c.numGroups then node.queryGroup kind (nextGroup c)
        else (node.finishQueries kind).modifyClass kind fun c => { c with currentGroupQuery := 0 }
      else node

/-- `Group::CheckAuto` of a new group 1: group 255 loses its flag. -/
def clearAuto (groups : UInt8 → Option Group) : UInt8 → Option Group :=
  Function.update groups 255 ((groups 255).map fun group => { group with auto := false })

/-- `GetGroup`, after the group has been created if need be. -/
def groupFor (node : AssociationNode) (groupIdx maxAssociations : UInt8) :
    AssociationNode × Group :=
  match node.groups groupIdx with
  | some group => (node, group)
  | none =>
      let group := Group.new groupIdx maxAssociations
      let groups := if groupIdx = 1 then clearAuto node.groups else node.groups
      ({ node with groups := Function.update groups groupIdx (some group) }, group)

/-- The pending list becomes the contents of the group. -/
def applyMembers (node : AssociationNode) (kind : AssociationKind)
    (groupIdx maxAssociations : UInt8) : AssociationNode :=
  match node.classes kind with
  | none => node
  | some c =>
      let (node, group) := node.groupFor groupIdx maxAssociations
      let group := { group with
        multiInstance := group.multiInstance ∨ kind = AssociationKind.multiChannelAssociation }
      let node := node.setClass kind
        { c with pendingMembers := [], log := .completed groupIdx c.pendingMembers :: c.log }
      match group.onGroupChanged (c.pendingMembers.map kind.instanceOf) with
      | none => { node with looping := true }
      | some (group, notify) =>
          { node with
            groups := Function.update node.groups groupIdx (some group)
            notified := if notify then node.notified ++ [groupIdx] else node.notified }

/-- A report of a group. -/
def collect {kind : AssociationKind} (c : AssociationClass kind) (groupIdx : UInt8)
    (members : List kind.Member) : AssociationClass kind :=
  { c with
    pendingMembers := c.pendingMembers ++ members
    log := .reported groupIdx members :: c.log }

/-- `HandleMsg` of both classes. -/
def handleMsg (node : AssociationNode) (kind : AssociationKind) (data : Nat → UInt8)
    (length : UInt32) : AssociationNode :=
  if data 0 = AssociationCmd.groupingsReport then
    node.modifyClass kind fun c => { c with numGroups := data 1 }
  else if data 0 = AssociationCmd.report then
    let groupIdx := data 1
    let maxAssociations := data 2
    let numReportsToFollow := data 3
    if groupIdx = 0 then node.queryNextGroup kind
    else if maxAssociations = 0 then (node.finishQueries kind).queryNextGroup kind
    else
      let node := node.modifyClass kind fun c =>
        collect c groupIdx (kind.reportedMembers data length)
      if numReportsToFollow ≠ 0 then node
      else
        let node := node.applyMembers kind groupIdx maxAssociations
        if node.looping then node else node.queryNextGroup kind
  else node

end AssociationNode

/-! ## Runs -/

/-- What happens to the groups of a node. -/
inductive AssociationEvent
  | requestAllGroups (kind : AssociationKind)
  | handleMsg (kind : AssociationKind) (data : Nat → UInt8) (length : UInt32)
  | addAssociation (groupIdx nodeId endPoint : UInt8)
  | removeAssociation (groupIdx nodeId endPoint : UInt8)

namespace AssociationNode

/-- A step of the node, unless the thread is still in `OnGroupChanged`. -/
def step (node : AssociationNode) (event : AssociationEvent) : AssociationNode :=
  if node.looping then node
  else
    match event with
    | .requestAllGroups kind => node.requestAllGroups kind
    | .handleMsg kind data length => node.handleMsg kind data length
    | .addAssociation groupIdx nodeId endPoint =>
        match node.groups groupIdx with
        | none => node
        | some group => node.addAssociation group nodeId endPoint
    | .removeAssociation groupIdx nodeId endPoint =>
        match node.groups groupIdx with
        | none => node
        | some group => node.removeAssociation group nodeId endPoint

/-- Each class has collected nothing yet. -/
def Fresh (node : AssociationNode) : Prop :=
  ∀ kind c, node.classes kind = some c → c.pendingMembers = [] ∧ c.log = []

/-- A report after which the group is complete. -/
def Completes (data : Nat → UInt8) : Prop :=
  data 0 = AssociationCmd.report ∧ data 1 ≠ 0 ∧ data 2 ≠ 0 ∧ data 3 = 0

instance (data : Nat → UInt8) : Decidable (Completes data) :=
  inferInstanceAs (Decidable (_ ∧ _ ∧ _ ∧ _))

/-- A report that completes its group comes when the reports of the group stand
apart from the others. -/
def Orderly (node : AssociationNode) : AssociationEvent → Prop
  | .handleMsg kind data _ =>
      Completes data → ∀ c, node.classes kind = some c → Apart (data 1) c.log
  | _ => True

/-- The lists that the class applied consist of the members of their groups, and
the pending list is what the reports since the last of them brought. -/
structure Correct {kind : AssociationKind} (c : AssociationClass kind) : Prop where
  pending : c.pendingMembers = buffered c.log
  assembled : Assembled c.log

def AllCorrect (node : AssociationNode) : Prop :=
  ∀ kind c, node.classes kind = some c → Correct c

section

variable {node : AssociationNode} {kind : AssociationKind}

theorem classes_setClass_self (c : AssociationClass kind) :
    (node.setClass kind c).classes kind = some c := Function.update_self ..

theorem classes_setClass_of_ne {kind' : AssociationKind} (hne : kind' ≠ kind)
    (c : AssociationClass kind) : (node.setClass kind c).classes kind' = node.classes kind' :=
  Function.update_of_ne hne ..

theorem classes_sendEndPoint (cmd groupIdx targetNodeId endPoint : UInt8) :
    (node.sendEndPoint cmd groupIdx targetNodeId endPoint).classes = node.classes := by
  rw [sendEndPoint]
  split <;> rfl

theorem AllCorrect.of_classes_eq {node' : AssociationNode} (h : node.AllCorrect)
    (hclasses : node'.classes = node.classes) : node'.AllCorrect := by
  rw [AllCorrect, hclasses]
  exact h

theorem AllCorrect.setClass (h : node.AllCorrect) {c : AssociationClass kind} (hc : Correct c) :
    (node.setClass kind c).AllCorrect := by
  intro kind' c' hclass
  by_cases hkind : kind' = kind
  · subst hkind
    rw [classes_setClass_self] at hclass
    exact Option.some.inj hclass ▸ hc
  · rw [classes_setClass_of_ne hkind] at hclass
    exact h kind' c' hclass

theorem AllCorrect.modifyClass (h : node.AllCorrect)
    {change : AssociationClass kind → AssociationClass kind}
    (hchange : ∀ c, Correct c → Correct (change c)) : (node.modifyClass kind change).AllCorrect := by
  rw [AssociationNode.modifyClass]
  split
  · exact h
  · rename_i c hclass
    exact h.setClass (hchange c (h kind c hclass))

theorem AllCorrect.queryGroup (h : node.AllCorrect) (groupIdx : UInt8) :
    (node.queryGroup kind groupIdx).AllCorrect := by
  rw [AssociationNode.queryGroup]
  split
  · exact h
  · rename_i c hclass
    have hc := h kind c hclass
    split
    · have hsent : (node.send [kind.commandClassId, AssociationCmd.get, groupIdx]).AllCorrect := h
      exact hsent.setClass ⟨hc.pending, trivial, hc.assembled⟩
    · exact h

theorem AllCorrect.addAssociation (h : node.AllCorrect) (group : Group) (nodeId endPoint : UInt8) :
    (node.addAssociation group nodeId endPoint).AllCorrect := by
  rw [AssociationNode.addAssociation]
  split
  · exact h
  · split
    · exact (h.of_classes_eq (classes_sendEndPoint _ _ _ _)).queryGroup _
    · split
      · have hset : (node.setAssociation AssociationCmd.set group.groupIdx nodeId).AllCorrect := h
        exact hset.queryGroup _
      · exact h

theorem AllCorrect.removeAssociation (h : node.AllCorrect) (group : Group)
    (nodeId endPoint : UInt8) : (node.removeAssociation group nodeId endPoint).AllCorrect := by
  rw [AssociationNode.removeAssociation]
  split
  · exact (h.of_classes_eq (classes_sendEndPoint _ _ _ _)).queryGroup _
  · split
    · have hremove : (node.setAssociation AssociationCmd.remove group.groupIdx
          nodeId).AllCorrect := h
      exact hremove.queryGroup _
    · exact h

theorem AllCorrect.autoAssociate (h : node.AllCorrect) : node.autoAssociate.AllCorrect := by
  rw [AssociationNode.autoAssociate]
  split
  · generalize node.allGroups = groups
    clear * - h
    induction groups generalizing node with
    | nil => exact h
    | cons group groups ih =>
        apply ih
        dsimp only
        split
        · exact h.addAssociation _ _ _
        · exact h
  · exact h

theorem AllCorrect.finishQueries (h : node.AllCorrect) :
    (node.finishQueries kind).AllCorrect :=
  h.autoAssociate.modifyClass fun _ hc => ⟨hc.pending, hc.assembled⟩

theorem AllCorrect.queryNextGroup (h : node.AllCorrect) :
    (node.queryNextGroup kind).AllCorrect := by
  rw [AssociationNode.queryNextGroup]
  split
  · exact h
  · split
    · split
      · exact h.queryGroup _
      · exact h.finishQueries.modifyClass fun _ hc => ⟨hc.pending, hc.assembled⟩
    · exact h

theorem AllCorrect.requestAllGroups (h : node.AllCorrect) :
    (node.requestAllGroups kind).AllCorrect := by
  rw [AssociationNode.requestAllGroups]
  split
  · exact h
  · rename_i c hclass
    have hc := h kind c hclass
    have hset : (node.setClass kind { c with queryAll := true }).AllCorrect :=
      h.setClass ⟨hc.pending, hc.assembled⟩
    exact hset.queryGroup _

theorem groupFor_classes (node : AssociationNode) (groupIdx maxAssociations : UInt8) :
    (node.groupFor groupIdx maxAssociations).1.classes = node.classes := by
  rw [groupFor]
  split <;> rfl

/-- The members are those of the group when its reports stand apart. -/
theorem AllCorrect.applyMembers (h : node.AllCorrect) {groupIdx : UInt8} (maxAssociations : UInt8)
    (hapart : ∀ c, node.classes kind = some c → Apart groupIdx c.log) :
    (node.applyMembers kind groupIdx maxAssociations).AllCorrect := by
  rw [AssociationNode.applyMembers]
  split
  · exact h
  · rename_i c hclass
    have hc := h kind c hclass
    have hown : c.pendingMembers = own groupIdx c.log :=
      hc.pending.trans (buffered_eq_own (hapart c hclass))
    have hdone : Correct { c with
        pendingMembers := [], log := .completed groupIdx c.pendingMembers :: c.log } :=
      ⟨rfl, hown, hc.assembled⟩
    have hset := (h.of_classes_eq (groupFor_classes node groupIdx maxAssociations)).setClass hdone
    dsimp only
    split <;> exact hset

theorem apart_collect {groupIdx : UInt8}
    (h : ∀ c, node.classes kind = some c → Apart groupIdx c.log) (members : List kind.Member) :
    ∀ c, (node.modifyClass kind fun c => collect c groupIdx members).classes kind = some c →
      Apart groupIdx c.log := by
  intro c hclass
  rw [AssociationNode.modifyClass] at hclass
  split at hclass
  · exact h c hclass
  · rename_i c' hclass'
    rw [classes_setClass_self] at hclass
    rw [← Option.some.inj hclass]
    exact ⟨fun hne => absurd rfl hne, h c' hclass'⟩

/-- What one message preserves. -/
theorem AllCorrect.handleMsg (h : node.AllCorrect) {data : Nat → UInt8} (length : UInt32)
    (horderly : Completes data → ∀ c, node.classes kind = some c → Apart (data 1) c.log) :
    (node.handleMsg kind data length).AllCorrect := by
  have hcollect : ∀ members, (node.modifyClass kind fun c =>
      collect c (data 1) members).AllCorrect := by
    intro members
    exact h.modifyClass fun c hc => ⟨congrArg (· ++ members) hc.pending, trivial, hc.assembled⟩
  rw [AssociationNode.handleMsg]
  split
  · exact h.modifyClass fun _ hc => ⟨hc.pending, hc.assembled⟩
  · split
    · rename_i hreport
      dsimp only
      split
      · exact h.queryNextGroup
      · rename_i hgroup
        split
        · exact h.finishQueries.queryNextGroup
        · rename_i hmax
          split
          · exact hcollect _
          · rename_i hfollow
            have hcompletes : Completes data := ⟨hreport, hgroup, hmax, not_not.mp hfollow⟩
            have hstep := (hcollect (kind.reportedMembers data length)).applyMembers (data 2)
              (apart_collect (horderly hcompletes) _)
            split
            · exact hstep
            · exact hstep.queryNextGroup
    · exact h

theorem AllCorrect.step (h : node.AllCorrect) {event : AssociationEvent}
    (horderly : node.Orderly event) : (node.step event).AllCorrect := by
  unfold AssociationNode.step
  split
  · exact h
  · cases event with
    | requestAllGroups kind => exact h.requestAllGroups
    | handleMsg kind data length => exact h.handleMsg length horderly
    | addAssociation groupIdx nodeId endPoint =>
        dsimp only
        split
        · exact h
        · exact h.addAssociation _ _ _
    | removeAssociation groupIdx nodeId endPoint =>
        dsimp only
        split
        · exact h
        · exact h.removeAssociation _ _ _

theorem Fresh.allCorrect (h : node.Fresh) : node.AllCorrect := by
  intro kind c hclass
  obtain ⟨hpending, hlog⟩ := h kind c hclass
  exact ⟨by rw [hpending, hlog]; rfl, by rw [hlog]; trivial⟩

end

/-- Whatever is reported and requested: when the reports of every group that is
completed stand apart, all lists that were applied are those of their groups. -/
theorem assembled_run (node : AssociationNode) (hfresh : node.Fresh)
    (events : List AssociationEvent) (horderly : Along step Orderly node events) :
    ∀ kind c, (run step node events).classes kind = some c → Assembled c.log := by
  have hrun : (run step node events).AllCorrect :=
    run_invariant_along (fun _ _ h hevent => h.step hevent) hfresh.allCorrect horderly
  intro kind c hclass
  exact (hrun kind c hclass).assembled

/-- A node with the Association class and a group 2 known from before. -/
def lamp : AssociationNode where
  nodeId := 5
  controllerNodeId := 1
  transmitOptions := 0x25
  associate := false
  multiInstance := false
  forceInstances := true
  groups := fun groupIdx => if groupIdx = 2 then some (Group.new 2 5) else none
  classes
    | .association => some
        { queryAll := false
          numGroups := 2
          currentGroupQuery := 0
          getSupported := true
          pendingMembers := []
          log := [] }
    | .multiChannelAssociation => none
  sent := []
  notified := []
  looping := false

/-- An Association report of one member. -/
def oneMember (groupIdx numReportsToFollow member : UInt8) : AssociationEvent :=
  .handleMsg .association
    (fun i => [AssociationCmd.report, groupIdx, 5, numReportsToFollow, member].getD i 0) 6

theorem fresh_lamp : lamp.Fresh := by
  intro kind c hclass
  cases kind <;> cases hclass
  exact ⟨rfl, rfl⟩

/-- The two groups of the lamp, the first in two reports. -/
def twoGroups : List AssociationEvent :=
  [.requestAllGroups .association, oneMember 1 1 2, oneMember 1 0 3, oneMember 2 0 4]

theorem assembled_run_lamp :
    ∃ c, (run step lamp twoGroups).classes .association = some c ∧ Assembled c.log := by
  have horderly : Along step Orderly lamp twoGroups := by
    refine ⟨trivial, ?_, ?_, ?_, trivial⟩
    · intro hcompletes
      exact absurd hcompletes (by decide)
    · intro _ c hclass
      cases hclass
      decide
    · intro _ c hclass
      cases hclass
      decide
  exact ⟨_, rfl, assembled_run lamp fresh_lamp twoGroups horderly .association _ rfl⟩

/-- The second report of group 1 is lost, and a node is added to group 2: the
list that is applied to group 2 has the members of both. -/
theorem lostReport_not_assembled :
    ∃ c, (run step lamp
        [.requestAllGroups .association, oneMember 1 1 2, .addAssociation 2 4 0,
          oneMember 2 0 4]).classes .association = some c ∧
      c.log = [.completed 2 [2, 4], .reported 2 [4], .requested 2, .reported 1 [2],
        .requested 1] ∧ ¬ Assembled c.log := by
  refine ⟨_, rfl, rfl, ?_⟩
  decide

end AssociationNode

end OpenZWave
