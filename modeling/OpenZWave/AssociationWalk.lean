import OpenZWave.Association
import OpenZWave.Lib.Sweep

/-!
# Asking for all groups

`RequestAllGroups` asks for the first group, and each report that completes a group asks for
the next one, until the last group is reported or a group is not supported. `walked` is what
the walk has asked for after the reports of a run.
-/

namespace OpenZWave

open Transition Sweep

/-- What the walk over the groups calls. -/
inductive WalkCall
  | queryGroup (groupIdx : UInt8)
  | autoAssociate
  deriving DecidableEq

/-- A report to one of the two classes. -/
structure AssociationReport where
  kind : AssociationKind
  data : Nat → UInt8
  length : UInt32
  isReport : data 0 = AssociationCmd.report

theorem Group.onGroupChanged_ne_none (group : Group) {members : List InstanceAssociation}
    (h : members.length < 256) : group.onGroupChanged members ≠ none := by
  rw [onGroupChanged, if_neg (Nat.not_le_of_lt h)]
  dsimp only
  split_ifs <;> exact Option.some_ne_none _

namespace AssociationNode

/-! ## The calls of the walk -/

/-- The frame of a `QueryGroup` is sent. -/
def queryCalls (node : AssociationNode) (kind : AssociationKind) (groupIdx : UInt8) :
    List WalkCall :=
  match node.classes kind with
  | none => []
  | some c => if c.getSupported then [.queryGroup groupIdx] else []

/-- `RequestAllGroups`, with its calls. -/
def requestAllGroupsCalls (node : AssociationNode) (kind : AssociationKind) :
    AssociationNode × List WalkCall :=
  match node.classes kind with
  | none => (node, [])
  | some c =>
      let node := node.setClass kind { c with queryAll := true }
      let groupIdx := if c.numGroups = 0xff then 0xff else 1
      (node.queryGroup kind groupIdx, node.queryCalls kind groupIdx)

/-- The end of `HandleMsg`, with its calls. -/
def queryNextGroupCalls (node : AssociationNode) (kind : AssociationKind) :
    AssociationNode × List WalkCall :=
  match node.classes kind with
  | none => (node, [])
  | some c =>
      if c.queryAll then
        if nextGroup c ≤ c.numGroups then
          (node.queryGroup kind (nextGroup c), node.queryCalls kind (nextGroup c))
        else
          ((node.finishQueries kind).modifyClass kind fun c => { c with currentGroupQuery := 0 },
            [.autoAssociate])
      else (node, [])

/-- `HandleMsg` of a report, with its calls. -/
def handleReportCalls (node : AssociationNode) (report : AssociationReport) :
    AssociationNode × List WalkCall :=
  let groupIdx := report.data 1
  let maxAssociations := report.data 2
  let numReportsToFollow := report.data 3
  if groupIdx = 0 then node.queryNextGroupCalls report.kind
  else if maxAssociations = 0 then
    let (node, calls) := (node.finishQueries report.kind).queryNextGroupCalls report.kind
    (node, .autoAssociate :: calls)
  else
    let node := node.modifyClass report.kind fun c =>
      collect c groupIdx (report.kind.reportedMembers report.data report.length)
    if numReportsToFollow ≠ 0 then (node, [])
    else
      let node := node.applyMembers report.kind groupIdx maxAssociations
      if node.looping then (node, []) else node.queryNextGroupCalls report.kind

theorem fst_requestAllGroupsCalls (node : AssociationNode) (kind : AssociationKind) :
    (node.requestAllGroupsCalls kind).1 = node.requestAllGroups kind := by
  rw [requestAllGroupsCalls, requestAllGroups]
  cases node.classes kind with
  | none => rfl
  | some c => rfl

theorem fst_queryNextGroupCalls (node : AssociationNode) (kind : AssociationKind) :
    (node.queryNextGroupCalls kind).1 = node.queryNextGroup kind := by
  rw [queryNextGroupCalls, queryNextGroup]
  cases node.classes kind with
  | none => rfl
  | some c =>
      dsimp only
      split
      · split <;> rfl
      · rfl

/-- Without the calls it is `HandleMsg`. -/
theorem fst_handleReportCalls (node : AssociationNode) (report : AssociationReport) :
    (node.handleReportCalls report).1 = node.handleMsg report.kind report.data report.length := by
  have hcmd : AssociationCmd.report ≠ AssociationCmd.groupingsReport := by decide
  rw [handleReportCalls, handleMsg, report.isReport, if_neg hcmd, if_pos rfl]
  dsimp only
  split
  · exact fst_queryNextGroupCalls ..
  · split
    · exact fst_queryNextGroupCalls ..
    · split
      · rfl
      · split
        · rfl
        · exact fst_queryNextGroupCalls ..

/-! ## The state of the walk -/

/-- The members of a class that the walk depends on. -/
structure WalkState where
  queryAll : Bool
  numGroups : UInt8
  currentGroupQuery : UInt8
  getSupported : Bool

def walkState {kind : AssociationKind} (c : AssociationClass kind) : WalkState where
  queryAll := c.queryAll
  numGroups := c.numGroups
  currentGroupQuery := c.currentGroupQuery
  getSupported := c.getSupported

/-- The state of the walk of a class, if the node has the class. -/
def walk (node : AssociationNode) (kind : AssociationKind) : Option WalkState :=
  (node.classes kind).map walkState

/-- No walk of the class is in progress. -/
def Idle (node : AssociationNode) (kind : AssociationKind) : Prop :=
  ∀ state ∈ node.walk kind, state.queryAll = false

/-- The walk of the class has come to the group. -/
def WalksAt (node : AssociationNode) (kind : AssociationKind) (numGroups groupIdx : UInt8) : Prop :=
  node.walk kind = some ⟨true, numGroups, groupIdx, true⟩

section

variable {node node' : AssociationNode} {kind kind' : AssociationKind}

theorem walk_setClass (c : AssociationClass kind) :
    (node.setClass kind c).walk = Function.update node.walk kind (some (walkState c)) := by
  funext kind'
  by_cases hkind : kind' = kind
  · subst hkind
    rw [walk, classes_setClass_self, Function.update_self]
    rfl
  · rw [walk, classes_setClass_of_ne hkind, Function.update_of_ne hkind, walk]

theorem walk_eq_some {c : AssociationClass kind} (h : node.classes kind = some c) :
    node.walk kind = some (walkState c) := by
  rw [walk, h]
  rfl

/-- What does not change the state of the walk of a class changes that of none. -/
theorem walk_modifyClass {change : AssociationClass kind → AssociationClass kind}
    (hchange : ∀ c, walkState (change c) = walkState c) :
    (node.modifyClass kind change).walk = node.walk := by
  rw [modifyClass]
  cases hclass : node.classes kind with
  | none => rfl
  | some c =>
      dsimp only
      rw [walk_setClass, hchange, ← walk_eq_some hclass, Function.update_eq_self]

theorem walk_groupFor (groupIdx maxAssociations : UInt8) :
    (node.groupFor groupIdx maxAssociations).1.walk = node.walk := by
  funext kind
  rw [walk, walk, groupFor_classes]

theorem walk_applyMembers (groupIdx maxAssociations : UInt8) :
    (node.applyMembers kind groupIdx maxAssociations).walk = node.walk := by
  rw [applyMembers]
  cases hclass : node.classes kind with
  | none => rfl
  | some c =>
      have hset : ((node.groupFor groupIdx maxAssociations).1.setClass kind
          { c with
            pendingMembers := []
            log := .completed groupIdx c.pendingMembers :: c.log }).walk = node.walk := by
        rw [walk_setClass, walk_groupFor]
        exact (congrArg _ (walk_eq_some hclass).symm).trans (Function.update_eq_self ..)
      dsimp only
      split <;> exact hset

/-- The list that is applied is worked off when it has fewer than 256 members. -/
theorem looping_applyMembers {groupIdx maxAssociations : UInt8} (hlooping : node.looping = false)
    (hfew : ∀ c, node.classes kind = some c → c.pendingMembers.length < 256) :
    (node.applyMembers kind groupIdx maxAssociations).looping = false := by
  have hgroup : (node.groupFor groupIdx maxAssociations).1.looping = false := by
    rw [groupFor]
    split <;> exact hlooping
  rw [applyMembers]
  cases hclass : node.classes kind with
  | none => exact hlooping
  | some c =>
      dsimp only
      split
      · rename_i hnone
        have hlength : (c.pendingMembers.map kind.instanceOf).length < 256 := by
          rw [List.length_map]
          exact hfew c hclass
        exact absurd hnone (Group.onGroupChanged_ne_none _ hlength)
      · exact hgroup

theorem walk_queryGroup {c : AssociationClass kind} (hclass : node.classes kind = some c)
    (hsupported : c.getSupported = true) (groupIdx : UInt8) :
    (node.queryGroup kind groupIdx).walk = Function.update node.walk kind (some
      { walkState c with
        currentGroupQuery := if c.queryAll then groupIdx else c.currentGroupQuery }) := by
  rw [queryGroup, hclass]
  dsimp only
  rw [if_pos hsupported]
  exact walk_setClass _

/-- The same walks are in progress, and the thread is as before. -/
def KeepsWalks (node node' : AssociationNode) : Prop :=
  node'.looping = node.looping ∧
    ∀ kind, (node'.walk kind).map WalkState.queryAll = (node.walk kind).map WalkState.queryAll

theorem KeepsWalks.trans {node'' : AssociationNode} (h : KeepsWalks node node')
    (h' : KeepsWalks node' node'') : KeepsWalks node node'' :=
  ⟨h'.1.trans h.1, fun kind => (h'.2 kind).trans (h.2 kind)⟩

theorem KeepsWalks.idle (h : KeepsWalks node node') (hidle : node.Idle kind) : node'.Idle kind := by
  intro state' hstate'
  have hsame := h.2 kind
  rw [Option.mem_def.mp hstate'] at hsame
  obtain ⟨state, hstate, hall⟩ := Option.map_eq_some_iff.mp hsame.symm
  exact hall.symm.trans (hidle state hstate)

theorem keepsWalks_queryGroup (groupIdx : UInt8) :
    KeepsWalks node (node.queryGroup kind groupIdx) := by
  rw [queryGroup]
  cases hclass : node.classes kind with
  | none => exact ⟨rfl, fun _ => rfl⟩
  | some c =>
      dsimp only
      split
      · refine ⟨rfl, fun kind' => ?_⟩
        rw [walk_setClass]
        by_cases hkind : kind' = kind
        · subst hkind
          rw [Function.update_self, walk_eq_some hclass]
          rfl
        · rw [Function.update_of_ne hkind]
          rfl
      · exact ⟨rfl, fun _ => rfl⟩

theorem keepsWalks_sendEndPoint (cmd groupIdx targetNodeId endPoint : UInt8) :
    KeepsWalks node (node.sendEndPoint cmd groupIdx targetNodeId endPoint) := by
  rw [sendEndPoint]
  split <;> exact ⟨rfl, fun _ => rfl⟩

theorem keepsWalks_addAssociation (group : Group) (nodeId endPoint : UInt8) :
    KeepsWalks node (node.addAssociation group nodeId endPoint) := by
  rw [addAssociation]
  split
  · exact ⟨rfl, fun _ => rfl⟩
  · split
    · exact (keepsWalks_sendEndPoint _ _ _ _).trans (keepsWalks_queryGroup _)
    · split
      · have hset : KeepsWalks node
            (node.setAssociation AssociationCmd.set group.groupIdx nodeId) := ⟨rfl, fun _ => rfl⟩
        exact hset.trans (keepsWalks_queryGroup _)
      · exact ⟨rfl, fun _ => rfl⟩

theorem keepsWalks_autoAssociate : KeepsWalks node node.autoAssociate := by
  rw [autoAssociate]
  split
  · rename_i hassociate
    clear hassociate
    generalize node.allGroups = groups
    induction groups generalizing node with
    | nil => exact ⟨rfl, fun _ => rfl⟩
    | cons group groups ih =>
        rw [List.foldl_cons]
        refine KeepsWalks.trans ?_ ih
        split
        · exact keepsWalks_addAssociation _ _ _
        · exact ⟨rfl, fun _ => rfl⟩
  · exact ⟨rfl, fun _ => rfl⟩

theorem looping_modifyClass (change : AssociationClass kind → AssociationClass kind) :
    (node.modifyClass kind change).looping = node.looping := by
  rw [modifyClass]
  cases node.classes kind with
  | none => rfl
  | some c => rfl

/-- A class whose walk is ended is idle. -/
theorem idle_modifyClass {change : AssociationClass kind → AssociationClass kind}
    (hchange : ∀ c, node.classes kind = some c → (change c).queryAll = false)
    (halone : ∀ kind' ≠ kind, node.Idle kind') : ∀ kind', (node.modifyClass kind change).Idle kind' := by
  intro kind' state hstate
  rw [modifyClass] at hstate
  by_cases hkind : kind' = kind
  · subst hkind
    cases hclass : node.classes kind' with
    | none =>
        rw [hclass, walk, hclass] at hstate
        cases hstate
    | some c =>
        rw [hclass] at hstate
        dsimp only at hstate
        rw [walk_setClass, Function.update_self] at hstate
        cases hstate
        exact hchange c hclass
  · cases hclass : node.classes kind with
    | none =>
        rw [hclass] at hstate
        exact halone kind' hkind state hstate
    | some c =>
        rw [hclass] at hstate
        dsimp only at hstate
        rw [walk_setClass, Function.update_of_ne hkind] at hstate
        exact halone kind' hkind state hstate

theorem finishQueries_idle (halone : ∀ kind' ≠ kind, node.Idle kind') :
    (node.finishQueries kind).looping = node.looping ∧
      ∀ kind', (node.finishQueries kind).Idle kind' := by
  have hauto : KeepsWalks node node.autoAssociate := keepsWalks_autoAssociate
  refine ⟨(looping_modifyClass _).trans hauto.1, ?_⟩
  exact idle_modifyClass (fun _ _ => rfl) fun kind' hkind => hauto.idle (halone kind' hkind)

/-- Without a walk in progress nothing follows a report. -/
theorem queryNextGroupCalls_idle (hidle : node.Idle kind) :
    node.queryNextGroupCalls kind = (node, []) := by
  rw [queryNextGroupCalls]
  cases hclass : node.classes kind with
  | none => rfl
  | some c =>
      have hdone : c.queryAll = false := hidle _ (walk_eq_some hclass)
      dsimp only
      rw [hdone, if_neg Bool.false_ne_true]

end

/-! ## The order of the groups -/

/-- The groups in the order of the walk. -/
def order (numGroups : UInt8) : List UInt8 :=
  if numGroups = 255 then 255 :: bytesUpTo 254 else bytesUpTo numGroups.toNat

/-- The group after a group. -/
def groupAfter (groupIdx : UInt8) : UInt8 := if groupIdx + 1 = 0 then 1 else groupIdx + 1

/-- The walk comes to each of the groups from 1 on, -/
theorem mem_order {numGroups groupIdx : UInt8} :
    groupIdx ∈ order numGroups ↔ 1 ≤ groupIdx.toNat ∧ groupIdx.toNat ≤ numGroups.toNat := by
  rw [order]
  split
  · rename_i hall
    rw [hall, List.mem_cons, mem_bytesUpTo (by omega), ← UInt8.toNat_inj]
    have hbyte := groupIdx.toNat_lt
    have hlast : (255 : UInt8).toNat = 255 := rfl
    omega
  · exact mem_bytesUpTo numGroups.toNat_lt

/-- once. -/
theorem nodup_order (numGroups : UInt8) : (order numGroups).Nodup := by
  rw [order]
  split
  · rw [List.nodup_cons, mem_bytesUpTo (by omega)]
    exact ⟨by decide, nodup_bytesUpTo (by omega)⟩
  · exact nodup_bytesUpTo numGroups.toNat_lt

theorem length_order (numGroups : UInt8) : (order numGroups).length = numGroups.toNat := by
  rw [order]
  split
  · rename_i hall
    rw [hall, List.length_cons, bytesUpTo, List.length_map, List.length_range]
    rfl
  · rw [bytesUpTo, List.length_map, List.length_range]

theorem getElem?_bytesUpTo {n k : ℕ} {byte : UInt8} (hn : n < 256) :
    (bytesUpTo n)[k]? = some byte ↔ k < n ∧ byte.toNat = k + 1 := by
  rw [bytesUpTo, List.getElem?_map]
  by_cases hk : k < n
  · rw [List.getElem?_eq_getElem (by rwa [List.length_range]), List.getElem_range, Option.map_some,
      Option.some_inj, ← UInt8.toNat_inj, toNat_ofNat_succ hn hk]
    exact ⟨fun h => ⟨hk, h.symm⟩, fun h => h.2.symm⟩
  · rw [List.getElem?_eq_none (by rw [List.length_range]; omega)]
    exact ⟨nofun, fun h => absurd h.1 hk⟩

theorem getElem?_order {numGroups groupIdx : UInt8} {k : ℕ} :
    (order numGroups)[k]? = some groupIdx ↔ k < numGroups.toNat ∧
      groupIdx.toNat = if numGroups = 255 then (if k = 0 then 255 else k) else k + 1 := by
  rw [order]
  by_cases hall : numGroups = 255
  · rw [if_pos hall, if_pos hall, hall]
    have hlast : (255 : UInt8).toNat = 255 := rfl
    cases k with
    | zero => simp [← UInt8.toNat_inj, eq_comm]
    | succ k =>
        rw [List.getElem?_cons_succ, getElem?_bytesUpTo (by omega), if_neg (Nat.succ_ne_zero k)]
        omega
  · rw [if_neg hall, if_neg hall, getElem?_bytesUpTo numGroups.toNat_lt]

/-- The group after the one at place `k` is at the next place, if there is one; otherwise
its number is too large, unless the walk has come from 255 to 254. -/
theorem groupAfter_order {numGroups groupIdx : UInt8} {k : ℕ}
    (hgroup : (order numGroups)[k]? = some groupIdx) (hnot : ¬ (numGroups = 255 ∧ groupIdx = 254)) :
    if k + 1 < (order numGroups).length then
      groupAfter groupIdx ≤ numGroups ∧ (order numGroups)[k + 1]? = some (groupAfter groupIdx)
    else ¬ groupAfter groupIdx ≤ numGroups := by
  obtain ⟨hk, hplace⟩ := getElem?_order.mp hgroup
  have hnum := numGroups.toNat_lt
  have hnext : (groupAfter groupIdx).toNat =
      if groupIdx.toNat = 255 then 1 else groupIdx.toNat + 1 := by
    have hbyte := groupIdx.toNat_lt
    have hsucc : (groupIdx + 1).toNat = (groupIdx.toNat + 1) % 256 := UInt8.toNat_add ..
    rw [groupAfter]
    by_cases hwrap : groupIdx.toNat = 255
    · rw [if_pos (UInt8.toNat_inj.mp (by rw [hsucc, hwrap]; rfl)), if_pos hwrap]
      rfl
    · have hne : groupIdx + 1 ≠ 0 := by
        intro hzero
        rw [hzero] at hsucc
        have hnone : (0 : UInt8).toNat = 0 := rfl
        omega
      rw [if_neg hne, if_neg hwrap, hsucc]
      omega
  rw [length_order, getElem?_order, hnext, UInt8.le_iff_toNat_le, hnext]
  by_cases hall : numGroups = 255
  · have hlast : groupIdx.toNat ≠ 254 := fun h => hnot ⟨hall, UInt8.toNat_inj.mp h⟩
    have hcount : numGroups.toNat = 255 := congrArg UInt8.toNat hall
    rw [if_pos hall] at hplace ⊢
    grind
  · have hcount : numGroups.toNat ≠ 255 := fun h => hall (UInt8.toNat_inj.mp h)
    rw [if_neg hall] at hplace ⊢
    grind

/-! ## What the walk should do -/

/-- What a report says to the walk: to go on, or that there are no more groups. -/
inductive Answer
  | next
  | last
  deriving DecidableEq

/-- A report that leaves others to come says nothing yet. -/
def answer (kind : AssociationKind) (report : AssociationReport) : Option Answer :=
  if report.kind = kind then
    if report.data 1 = 0 then some .next
    else if report.data 2 = 0 then some .last
    else if report.data 3 ≠ 0 then none
    else some .next
  else none

/-- The walk ends when a group is not supported or all groups are reported. -/
def Ended (numGroups : UInt8) (answers : List Answer) : Prop :=
  .last ∈ answers ∨ (order numGroups).length ≤ answers.length

instance (numGroups : UInt8) (answers : List Answer) : Decidable (Ended numGroups answers) :=
  inferInstanceAs (Decidable (_ ∨ _))

/-- Each group is queried once, in order, the first one at the start and one after each report
up to the one of a group that is not supported; at the end the controller is associated. -/
def expectedCalls (numGroups : UInt8) (answers : List Answer) : List WalkCall :=
  ((order numGroups).take ((answers.takeWhile (· = .next)).length + 1)).map .queryGroup ++
    if Ended numGroups answers then [.autoAssociate] else []

/-- The number of groups that are reported before the walk is told to stop. -/
theorem numNext_append {answers : List Answer} (h : .last ∉ answers) (more : List Answer) :
    ((answers ++ more).takeWhile (· = .next)).length =
      answers.length + (more.takeWhile (· = .next)).length := by
  rw [List.takeWhile_append_of_pos, List.length_append]
  intro answer hanswer
  cases answer with
  | next => rfl
  | last => exact absurd hanswer h

theorem numNext_eq {answers : List Answer} (h : .last ∉ answers) :
    (answers.takeWhile (· = .next)).length = answers.length := by
  have hall := numNext_append h []
  rwa [List.append_nil] at hall

theorem takeWhile_append_of_last {answers : List Answer} (h : .last ∈ answers)
    (more : List Answer) :
    (answers ++ more).takeWhile (· = .next) = answers.takeWhile (· = .next) := by
  induction answers with
  | nil => cases h
  | cons answer answers ih =>
      cases answer with
      | next =>
          have hrest : .last ∈ answers := by simpa using h
          simp [ih hrest]
      | last => rfl

/-- After the end nothing is expected of further reports. -/
theorem expectedCalls_append_of_ended {numGroups : UInt8} {answers : List Answer}
    (h : Ended numGroups answers) (more : List Answer) :
    Ended numGroups (answers ++ more) ∧
      expectedCalls numGroups (answers ++ more) = expectedCalls numGroups answers := by
  have hended : Ended numGroups (answers ++ more) := by
    obtain hlast | hall := h
    · exact Or.inl (List.mem_append_left more hlast)
    · refine Or.inr (hall.trans ?_)
      rw [List.length_append]
      exact Nat.le_add_right ..
  refine ⟨hended, ?_⟩
  rw [expectedCalls, expectedCalls, if_pos hended, if_pos h]
  by_cases hlast : .last ∈ answers
  · rw [takeWhile_append_of_last hlast]
  · have hall : (order numGroups).length ≤ answers.length := h.resolve_left hlast
    rw [numNext_append hlast, numNext_eq hlast, List.take_of_length_le (by omega),
      List.take_of_length_le (by omega)]

section

variable {numGroups : UInt8} {answers : List Answer}

theorem not_ended_iff :
    ¬ Ended numGroups answers ↔
      .last ∉ answers ∧ answers.length < (order numGroups).length := by
  rw [Ended, not_or, Nat.not_le]

/-- After a report the next group is queried, -/
theorem expectedCalls_append_next (h : ¬ Ended numGroups answers) {groupIdx : UInt8}
    (hgroup : (order numGroups)[answers.length + 1]? = some groupIdx) :
    ¬ Ended numGroups (answers ++ [.next]) ∧
      expectedCalls numGroups (answers ++ [.next]) =
        expectedCalls numGroups answers ++ [.queryGroup groupIdx] := by
  obtain ⟨hlast, hless⟩ := not_ended_iff.mp h
  obtain ⟨hplace, -⟩ := List.getElem?_eq_some_iff.mp hgroup
  have hlast' : .last ∉ answers ++ [.next] := by simpa using hlast
  have hgoing : ¬ Ended numGroups (answers ++ [.next]) :=
    not_ended_iff.mpr ⟨hlast', by rwa [List.length_append, List.length_singleton]⟩
  refine ⟨hgoing, ?_⟩
  rw [expectedCalls, expectedCalls, if_neg hgoing, if_neg h, numNext_eq hlast', numNext_eq hlast,
    List.length_append, List.length_singleton, List.take_add_one (i := answers.length + 1), hgroup]
  simp

/-- unless it was the last one; -/
theorem expectedCalls_append_end (h : ¬ Ended numGroups answers)
    (hend : ¬ answers.length + 1 < (order numGroups).length) :
    Ended numGroups (answers ++ [.next]) ∧
      expectedCalls numGroups (answers ++ [.next]) =
        expectedCalls numGroups answers ++ [.autoAssociate] := by
  obtain ⟨hlast, hless⟩ := not_ended_iff.mp h
  have hended : Ended numGroups (answers ++ [.next]) :=
    Or.inr (by rw [List.length_append, List.length_singleton]; omega)
  refine ⟨hended, ?_⟩
  rw [expectedCalls, expectedCalls, if_pos hended, if_neg h, numNext_append hlast, numNext_eq hlast,
    List.take_of_length_le (by omega), List.take_of_length_le (by omega), List.append_nil]

/-- after a report of a group that is not supported none is. -/
theorem expectedCalls_append_last (h : ¬ Ended numGroups answers) :
    Ended numGroups (answers ++ [.last]) ∧
      expectedCalls numGroups (answers ++ [.last]) =
        expectedCalls numGroups answers ++ [.autoAssociate] := by
  obtain ⟨hlast, -⟩ := not_ended_iff.mp h
  have hended : Ended numGroups (answers ++ [.last]) := Or.inl (by simp)
  refine ⟨hended, ?_⟩
  rw [expectedCalls, expectedCalls, if_pos hended, if_neg h, numNext_append hlast, numNext_eq hlast,
    List.append_nil]
  rfl

end

/-! ## Runs -/

/-- A node, and what the walk has called. -/
structure Walk where
  node : AssociationNode
  calls : List WalkCall

namespace Walk

/-- `RequestAllGroups`. -/
def start (node : AssociationNode) (kind : AssociationKind) : Walk where
  node := (node.requestAllGroupsCalls kind).1
  calls := (node.requestAllGroupsCalls kind).2

/-- A report is handled, unless the thread is still in `OnGroupChanged`. -/
def step (s : Walk) (report : AssociationReport) : Walk :=
  if s.node.looping then s
  else
    { node := (s.node.handleReportCalls report).1
      calls := s.calls ++ (s.node.handleReportCalls report).2 }

end Walk

/-- A class with groups can be asked, and the other class is not being asked. -/
structure Ready (node : AssociationNode) (kind : AssociationKind) (c : AssociationClass kind) :
    Prop where
  hasClass : node.classes kind = some c
  getSupported : c.getSupported = true
  hasGroups : c.numGroups ≠ 0
  alone : ∀ kind' ≠ kind, node.Idle kind'
  running : node.looping = false

/-- A group that is not supported is only reported while the class is asked; fewer than 256
members are applied; and of 255 groups the last one is not supported. -/
structure Sound (s : Walk) (report : AssociationReport) : Prop where
  asked : report.data 1 ≠ 0 → report.data 2 = 0 → ¬ s.node.Idle report.kind
  few : Completes report.data → ∀ c, s.node.classes report.kind = some c →
    (c.pendingMembers ++ report.kind.reportedMembers report.data report.length).length < 256
  stops : s.node.WalksAt report.kind 255 254 → answer report.kind report ≠ some .next

section

variable {node : AssociationNode} {kind : AssociationKind} {numGroups groupIdx : UInt8}
  {report : AssociationReport} {s : Walk} {answers : List Answer}

theorem not_idle_of_walksAt (h : node.WalksAt kind numGroups groupIdx) : ¬ node.Idle kind := by
  intro hidle
  exact absurd (hidle _ h) Bool.noConfusion

theorem walksAt_class (h : node.WalksAt kind numGroups groupIdx) :
    ∃ c, node.classes kind = some c ∧ c.queryAll = true ∧ c.numGroups = numGroups ∧
      c.currentGroupQuery = groupIdx ∧ c.getSupported = true := by
  obtain ⟨c, hclass, hstate⟩ := Option.map_eq_some_iff.mp h
  exact ⟨c, hclass, congrArg WalkState.queryAll hstate, congrArg WalkState.numGroups hstate,
    congrArg WalkState.currentGroupQuery hstate, congrArg WalkState.getSupported hstate⟩

/-- The group after the one the walk has come to is queried, -/
theorem queryNextGroupCalls_query (h : node.WalksAt kind numGroups groupIdx)
    (hnext : groupAfter groupIdx ≤ numGroups) :
    (node.queryNextGroupCalls kind).2 = [.queryGroup (groupAfter groupIdx)] ∧
      (node.queryNextGroupCalls kind).1.looping = node.looping ∧
      (node.queryNextGroupCalls kind).1.walk =
        Function.update node.walk kind (some ⟨true, numGroups, groupAfter groupIdx, true⟩) := by
  obtain ⟨c, hclass, hall, rfl, rfl, hsupported⟩ := walksAt_class h
  have hquery : node.queryNextGroupCalls kind =
      (node.queryGroup kind (nextGroup c), node.queryCalls kind (nextGroup c)) := by
    rw [queryNextGroupCalls, hclass]
    dsimp only
    rw [if_pos hall]
    exact if_pos hnext
  rw [hquery]
  refine ⟨?_, (keepsWalks_queryGroup _).1, ?_⟩
  · dsimp only
    rw [queryCalls, hclass]
    exact if_pos hsupported
  · rw [walk_queryGroup hclass hsupported, walkState, hall, hsupported]
    rfl

/-- or the walk ends. -/
theorem queryNextGroupCalls_end (h : node.WalksAt kind numGroups groupIdx)
    (hnext : ¬ groupAfter groupIdx ≤ numGroups) (halone : ∀ kind' ≠ kind, node.Idle kind') :
    (node.queryNextGroupCalls kind).2 = [.autoAssociate] ∧
      (node.queryNextGroupCalls kind).1.looping = node.looping ∧
      ∀ kind', (node.queryNextGroupCalls kind).1.Idle kind' := by
  obtain ⟨c, hclass, hall, rfl, rfl, -⟩ := walksAt_class h
  have hend : node.queryNextGroupCalls kind =
      ((node.finishQueries kind).modifyClass kind fun c => { c with currentGroupQuery := 0 },
        [.autoAssociate]) := by
    rw [queryNextGroupCalls, hclass]
    dsimp only
    rw [if_pos hall]
    exact if_neg hnext
  obtain ⟨hlooping, hidle⟩ := finishQueries_idle halone
  rw [hend]
  refine ⟨rfl, (looping_modifyClass _).trans hlooping, ?_⟩
  apply idle_modifyClass _ fun kind' _ => hidle kind'
  exact fun c hclass => hidle kind _ (walk_eq_some hclass)

theorem few_collect {groupIdx : UInt8} {members : List kind.Member}
    (hfew : ∀ c, node.classes kind = some c → (c.pendingMembers ++ members).length < 256) :
    ∀ c, (node.modifyClass kind fun c => collect c groupIdx members).classes kind = some c →
      c.pendingMembers.length < 256 := by
  intro c hclass
  rw [modifyClass] at hclass
  cases hc : node.classes kind with
  | none =>
      rw [hc] at hclass
      dsimp only at hclass
      rw [hc] at hclass
      cases hclass
  | some c' =>
      rw [hc] at hclass
      dsimp only at hclass
      rw [classes_setClass_self] at hclass
      cases hclass
      exact hfew c' hc

/-- A report after which the walk goes on. -/
theorem handleReportCalls_next (hsound : Sound s report) (hrunning : s.node.looping = false)
    (hnext : answer report.kind report = some .next) :
    ∃ node : AssociationNode, node.walk = s.node.walk ∧ node.looping = false ∧
      s.node.handleReportCalls report = node.queryNextGroupCalls report.kind := by
  rw [answer, if_pos rfl] at hnext
  rw [handleReportCalls]
  dsimp only
  by_cases hgroup : report.data 1 = 0
  · exact ⟨s.node, rfl, hrunning, if_pos hgroup⟩
  · rw [if_neg hgroup] at hnext ⊢
    by_cases hmax : report.data 2 = 0
    · rw [if_pos hmax] at hnext
      cases hnext
    · rw [if_neg hmax] at hnext ⊢
      by_cases hfollow : report.data 3 = 0
      · have hcompletes : Completes report.data := ⟨report.isReport, hgroup, hmax, hfollow⟩
        let collected := s.node.modifyClass report.kind fun c =>
          collect c (report.data 1) (report.kind.reportedMembers report.data report.length)
        have hwalk : collected.walk = s.node.walk := walk_modifyClass fun _ => rfl
        have hlooping : (collected.applyMembers report.kind (report.data 1)
            (report.data 2)).looping = false :=
          looping_applyMembers ((looping_modifyClass _).trans hrunning)
            (few_collect (hsound.few hcompletes))
        rw [if_neg (not_not.mpr hfollow), hlooping, if_neg Bool.false_ne_true]
        exact ⟨_, (walk_applyMembers _ _).trans hwalk, hlooping, rfl⟩
      · rw [if_pos hfollow] at hnext
        cases hnext

/-- A report that leaves others to come changes nothing about the walk. -/
theorem handleReportCalls_none (hrunning : s.node.looping = false)
    (hnone : answer report.kind report = none) :
    (s.node.handleReportCalls report).2 = [] ∧
      (s.node.handleReportCalls report).1.looping = false ∧
      (s.node.handleReportCalls report).1.walk = s.node.walk := by
  rw [answer, if_pos rfl] at hnone
  split at hnone
  · cases hnone
  · rename_i hgroup
    split at hnone
    · cases hnone
    · rename_i hmax
      split at hnone
      · rename_i hfollow
        rw [handleReportCalls]
        dsimp only
        rw [if_neg hgroup, if_neg hmax, if_pos hfollow]
        exact ⟨rfl, (looping_modifyClass _).trans hrunning, walk_modifyClass fun _ => rfl⟩
      · cases hnone

/-- A report of a group that is not supported ends the walk. -/
theorem handleReportCalls_last (hlast : answer report.kind report = some .last)
    (halone : ∀ kind' ≠ report.kind, s.node.Idle kind') :
    (s.node.handleReportCalls report).2 = [.autoAssociate] ∧
      (s.node.handleReportCalls report).1.looping = s.node.looping ∧
      ∀ kind', (s.node.handleReportCalls report).1.Idle kind' := by
  rw [answer, if_pos rfl] at hlast
  split at hlast
  · cases hlast
  · rename_i hgroup
    split at hlast
    · rename_i hmax
      obtain ⟨hlooping, hidle⟩ := finishQueries_idle halone
      rw [handleReportCalls]
      dsimp only
      rw [if_neg hgroup, if_pos hmax, queryNextGroupCalls_idle (hidle report.kind)]
      exact ⟨rfl, hlooping, hidle⟩
    · split at hlast <;> cases hlast

/-- A class that is not asked calls nothing. -/
theorem handleReportCalls_idle (hsound : Sound s report) (hrunning : s.node.looping = false)
    (hidle : s.node.Idle report.kind) :
    (s.node.handleReportCalls report).2 = [] ∧
      (s.node.handleReportCalls report).1.looping = false ∧
      (s.node.handleReportCalls report).1.walk = s.node.walk := by
  cases hanswer : answer report.kind report with
  | none => exact handleReportCalls_none hrunning hanswer
  | some answered =>
      cases answered with
      | next =>
          obtain ⟨node, hwalk, hlooping, hcalls⟩ := handleReportCalls_next hsound hrunning hanswer
          have hidle' : node.Idle report.kind := by
            rw [Idle, hwalk]
            exact hidle
          rw [hcalls, queryNextGroupCalls_idle hidle']
          exact ⟨rfl, hlooping, hwalk⟩
      | last =>
          rw [answer, if_pos rfl] at hanswer
          split at hanswer
          · cases hanswer
          · rename_i hgroup
            split at hanswer
            · rename_i hmax
              exact absurd hidle (hsound.asked hgroup hmax)
            · split at hanswer <;> cases hanswer

end

/-- What has been called after the answers is what is expected, and the walk is in progress
until it has ended. -/
structure Tracks (kind : AssociationKind) (numGroups : UInt8) (answers : List Answer) (s : Walk) :
    Prop where
  running : s.node.looping = false
  alone : ∀ kind' ≠ kind, s.node.Idle kind'
  calls : s.calls = expectedCalls numGroups answers
  ended : Ended numGroups answers → s.node.Idle kind
  walks : ¬ Ended numGroups answers →
    ∃ groupIdx, (order numGroups)[answers.length]? = some groupIdx ∧
      s.node.WalksAt kind numGroups groupIdx

/-- The answers that the reports bring to the walk of a class. -/
def answers (kind : AssociationKind) (reports : List AssociationReport) : List Answer :=
  reports.filterMap (answer kind)

section

variable {node : AssociationNode} {kind : AssociationKind} {numGroups : UInt8} {s : Walk}
  {past : List Answer} {report : AssociationReport}

theorem Tracks.congr (h : Tracks kind numGroups past s) {s' : Walk}
    (hrunning : s'.node.looping = false) (hcalls : s'.calls = s.calls)
    (hwalk : s'.node.walk = s.node.walk) : Tracks kind numGroups past s' where
  running := hrunning
  alone := by
    intro kind' hkind
    rw [Idle, hwalk]
    exact h.alone kind' hkind
  calls := hcalls.trans h.calls
  ended := by
    rw [Idle, hwalk]
    exact h.ended
  walks := by
    simp only [WalksAt, hwalk]
    exact h.walks

/-- After the end further answers change nothing. -/
theorem Tracks.append (h : Tracks kind numGroups past s) (hended : Ended numGroups past)
    (more : List Answer) : Tracks kind numGroups (past ++ more) s where
  running := h.running
  alone := h.alone
  calls := h.calls.trans (expectedCalls_append_of_ended hended more).2.symm
  ended := fun _ => h.ended hended
  walks := fun hgoing => absurd (expectedCalls_append_of_ended hended more).1 hgoing

theorem Tracks.of_ended {past' : List Answer} (hended : Ended numGroups past')
    (hrunning : s.node.looping = false) (hidle : ∀ kind, s.node.Idle kind)
    (hcalls : s.calls = expectedCalls numGroups past') : Tracks kind numGroups past' s where
  running := hrunning
  alone := fun kind' _ => hidle kind'
  calls := hcalls
  ended := fun _ => hidle kind
  walks := fun hgoing => absurd hended hgoing

/-- After a report the walk goes on to the next group, if there is one. -/
theorem Tracks.next (h : Tracks kind numGroups past s) (hgoing : ¬ Ended numGroups past)
    {node : AssociationNode} (hwalk : node.walk = s.node.walk) (hlooping : node.looping = false)
    (hstops : ¬ s.node.WalksAt kind 255 254) :
    Tracks kind numGroups (past ++ [.next])
      { node := (node.queryNextGroupCalls kind).1
        calls := s.calls ++ (node.queryNextGroupCalls kind).2 } := by
  obtain ⟨groupIdx, hgroup, hat⟩ := h.walks hgoing
  have hnode : node.WalksAt kind numGroups groupIdx := by rwa [WalksAt, hwalk]
  have halone : ∀ kind' ≠ kind, node.Idle kind' := by
    simp only [Idle, hwalk]
    exact h.alone
  have hafter := groupAfter_order hgroup (by rintro ⟨rfl, rfl⟩; exact hstops hat)
  by_cases hmore : past.length + 1 < (order numGroups).length
  · rw [if_pos hmore] at hafter
    obtain ⟨hcalls, hrunning, hwalk'⟩ := queryNextGroupCalls_query hnode hafter.1
    obtain ⟨hgoing', hexpected⟩ := expectedCalls_append_next hgoing hafter.2
    refine ⟨hrunning.trans hlooping, ?_, ?_, fun hended => absurd hended hgoing', fun _ => ?_⟩
    · intro kind' hkind
      rw [Idle, hwalk', Function.update_of_ne hkind]
      exact halone kind' hkind
    · rw [hcalls, hexpected, h.calls]
    · refine ⟨groupAfter groupIdx, ?_, ?_⟩
      · rw [List.length_append, List.length_singleton]
        exact hafter.2
      · rw [WalksAt, hwalk', Function.update_self]
  · rw [if_neg hmore] at hafter
    obtain ⟨hcalls, hrunning, hidle⟩ := queryNextGroupCalls_end hnode hafter halone
    obtain ⟨hended, hexpected⟩ := expectedCalls_append_end hgoing hmore
    exact .of_ended hended (hrunning.trans hlooping) hidle (by rw [hcalls, hexpected, h.calls])

/-- What one report preserves. -/
theorem Tracks.step (h : Tracks kind numGroups past s) (hsound : Sound s report) :
    Tracks kind numGroups (past ++ (answer kind report).toList) (s.step report) := by
  rw [Walk.step, h.running, if_neg Bool.false_ne_true]
  by_cases hidle : s.node.Idle report.kind
  · obtain ⟨hcalls, hrunning, hwalk⟩ := handleReportCalls_idle hsound h.running hidle
    have hsame : Tracks kind numGroups past
        { node := (s.node.handleReportCalls report).1
          calls := s.calls ++ (s.node.handleReportCalls report).2 } :=
      h.congr hrunning (by rw [hcalls, List.append_nil]) hwalk
    by_cases hended : Ended numGroups past
    · exact hsame.append hended _
    · have hother : report.kind ≠ kind := by
        rintro rfl
        obtain ⟨groupIdx, -, hat⟩ := h.walks hended
        exact not_idle_of_walksAt hat hidle
      rwa [answer, if_neg hother, Option.toList_none, List.append_nil]
  · obtain rfl : report.kind = kind := by
      by_contra hother
      exact hidle (h.alone _ hother)
    have hgoing : ¬ Ended numGroups past := fun hended => hidle (h.ended hended)
    cases hanswer : answer report.kind report with
    | none =>
        obtain ⟨hcalls, hrunning, hwalk⟩ := handleReportCalls_none h.running hanswer
        rw [Option.toList_none, List.append_nil]
        exact h.congr hrunning (by rw [hcalls, List.append_nil]) hwalk
    | some answered =>
        rw [Option.toList_some]
        cases answered with
        | next =>
            obtain ⟨node, hwalk, hlooping, hcalls⟩ :=
              handleReportCalls_next hsound h.running hanswer
            rw [hcalls]
            exact h.next hgoing hwalk hlooping fun hat => hsound.stops hat hanswer
        | last =>
            obtain ⟨hcalls, hlooping, hidle'⟩ := handleReportCalls_last hanswer h.alone
            obtain ⟨hended, hexpected⟩ := expectedCalls_append_last hgoing
            exact .of_ended hended (hlooping.trans h.running) hidle'
              (by rw [hcalls, hexpected, h.calls])

/-- The walk starts with the first group. -/
theorem tracks_start {c : AssociationClass kind} (h : node.Ready kind c) :
    Tracks kind c.numGroups [] (Walk.start node kind) := by
  obtain ⟨hclass, hsupported, hgroups, halone, hrunning⟩ := h
  let asked := node.setClass kind { c with queryAll := true }
  let first : UInt8 := if c.numGroups = 0xff then 0xff else 1
  have hasked : asked.classes kind = some { c with queryAll := true } := classes_setClass_self _
  have hstart : node.requestAllGroupsCalls kind =
      (asked.queryGroup kind first, asked.queryCalls kind first) := by
    rw [requestAllGroupsCalls, hclass]
  have hcalls : asked.queryCalls kind first = [.queryGroup first] := by
    rw [queryCalls, hasked]
    exact if_pos hsupported
  have hwalk : (asked.queryGroup kind first).walk =
      Function.update node.walk kind (some ⟨true, c.numGroups, first, true⟩) := by
    rw [walk_queryGroup hasked hsupported, walk_setClass, Function.update_idem, walkState,
      hsupported]
    rfl
  have hpos : 0 < c.numGroups.toNat := by
    rw [Nat.pos_iff_ne_zero]
    exact fun hzero => hgroups (UInt8.toNat_inj.mp hzero)
  have hfirst : (order c.numGroups)[0]? = some first := by
    rw [getElem?_order]
    refine ⟨hpos, ?_⟩
    rw [apply_ite UInt8.toNat]
    rfl
  have hgoing : ¬ Ended c.numGroups [] :=
    not_ended_iff.mpr ⟨List.not_mem_nil, by rwa [length_order]⟩
  rw [Walk.start, hstart]
  refine ⟨(keepsWalks_queryGroup _).1.trans hrunning, ?_, ?_, fun hended => absurd hended hgoing,
    fun _ => ⟨first, hfirst, ?_⟩⟩
  · intro kind' hkind
    rw [Idle, hwalk, Function.update_of_ne hkind]
    exact halone kind' hkind
  · rw [expectedCalls, if_neg hgoing, List.append_nil, List.takeWhile_nil, List.take_add_one,
      List.length_nil, hfirst, hcalls]
    rfl
  · rw [WalksAt, hwalk, Function.update_self]

theorem answers_append (past : List AssociationReport) :
    answers kind (past ++ [report]) = answers kind past ++ (answer kind report).toList := by
  rw [answers, List.filterMap_append]
  congr 1

/-- A walk over the groups of a class that has some: each is queried once, in order, up to one
that is not supported; when the last one is reported, or one is not supported, the walk ends
and the controller is associated. -/
theorem walk_exact {c : AssociationClass kind} (hready : node.Ready kind c)
    (reports : List AssociationReport) (hsound : Along Walk.step Sound (.start node kind) reports) :
    (run Walk.step (.start node kind) reports).calls =
        expectedCalls c.numGroups (answers kind reports) ∧
      ((run Walk.step (.start node kind) reports).node.Idle kind ↔
        Ended c.numGroups (answers kind reports)) := by
  have htracks : Tracks kind c.numGroups (answers kind ([] ++ reports))
      (run Walk.step (.start node kind) reports) := by
    have hstart : Tracks kind c.numGroups (answers kind []) (.start node kind) :=
      tracks_start hready
    apply run_history_invariant (I := fun reports s => Tracks kind c.numGroups
      (answers kind reports) s) _ hstart hsound
    intro past s report h hmeets
    rw [answers_append]
    exact h.step hmeets
  refine ⟨htracks.calls, ?_, htracks.ended⟩
  intro hidle
  by_contra hgoing
  obtain ⟨groupIdx, -, hat⟩ := htracks.walks hgoing
  exact not_idle_of_walksAt hat hidle

/-- A report of one member to the Association class. -/
def memberReport (groupIdx member : UInt8) : AssociationReport where
  kind := .association
  data := fun i => [AssociationCmd.report, groupIdx, 5, 0, member].getD i 0
  length := 6
  isReport := rfl

/-- A report of a group that is not supported. -/
def unsupportedReport (groupIdx : UInt8) : AssociationReport where
  kind := .association
  data := fun i => [AssociationCmd.report, groupIdx].getD i 0
  length := 5
  isReport := rfl

/-- The lamp with another number of groups. -/
def lampWith (numGroups : UInt8) : AssociationNode :=
  lamp.modifyClass .association fun c => { c with numGroups := numGroups }

theorem ready_lamp : ∃ c, lamp.Ready .association c ∧ c.numGroups = 2 := by
  refine ⟨_, ⟨rfl, rfl, by decide, fun kind' hkind => ?_, rfl⟩, rfl⟩
  cases kind' with
  | association => exact absurd rfl hkind
  | multiChannelAssociation => exact nofun

theorem walk_exact_lamp :
    (run Walk.step (.start lamp .association) [memberReport 1 2, memberReport 2 4]).calls =
      [.queryGroup 1, .queryGroup 2, .autoAssociate] := by
  obtain ⟨c, hready, hgroups⟩ := ready_lamp
  have hmax : ∀ groupIdx member, (memberReport groupIdx member).data 2 ≠ 0 := by
    intro groupIdx member h
    exact absurd (show (5 : UInt8) = 0 from h) (by decide)
  have hsound : Along Walk.step Sound (.start lamp .association)
      [memberReport 1 2, memberReport 2 4] := by
    refine ⟨⟨fun _ h => absurd h (hmax _ _), ?_, fun h => ?_⟩,
      ⟨fun _ h => absurd h (hmax _ _), ?_, fun h => ?_⟩, trivial⟩
    · intro _ c hclass
      cases hclass
      decide
    · cases h
    · intro _ c hclass
      cases hclass
      decide
    · cases h
  rw [(walk_exact hready _ hsound).1, hgroups]
  decide

/-- A lamp that reports no groups is asked for group 1, and of a lamp with one group the
controller is associated again when group 2 is reported as not supported. -/
theorem walk_fails :
    (Walk.start (lampWith 0) .association).calls ≠ expectedCalls 0 [] ∧
      (run Walk.step (.start (lampWith 1) .association)
        [memberReport 1 2, unsupportedReport 2]).calls ≠
        expectedCalls 1 (answers .association [memberReport 1 2, unsupportedReport 2]) := by
  decide

end

end AssociationNode

end OpenZWave
