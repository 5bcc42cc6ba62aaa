import OpenZWave.GroupMembership
import OpenZWave.Lib.Checked
import OpenZWave.WellFormedRequests

/-!
# The commands of an association

A group keeps under each member the commands that are sent to it. A report of
`AssociationCommandConfiguration` lists some of them, each behind its length. What
`HandleMsg` does with a report is compared with what the report says.
-/

namespace OpenZWave

open Checked

namespace AssociationMap

/-- `Group::ClearCommands`. -/
def clearCommands (associations : AssociationMap) (nodeId : UInt8) (endPoint : UInt8 := 0) :
    AssociationMap × Bool :=
  let member : InstanceAssociation := { nodeId := nodeId, endPoint := endPoint }
  if member ∈ associations then (associations.insert member [], true) else (associations, false)

/-- `Group::AddCommand`: the element is a copy of a temporary, and with the temporary the
bytes of both are deleted. -/
def addCommand (associations : AssociationMap) (nodeId : UInt8) (_data : List UInt8)
    (endPoint : UInt8 := 0) : AssociationMap × Bool :=
  let member : InstanceAssociation := { nodeId := nodeId, endPoint := endPoint }
  match associations[member]? with
  | some commands => (associations.insert member (commands ++ [none]), true)
  | none => (associations, false)

/-- The commands of a node. -/
def commandsOf (associations : AssociationMap) (nodeId : UInt8) : List AssociationCommand :=
  (associations[({ nodeId := nodeId, endPoint := 0 } : InstanceAssociation)]?).getD []

end AssociationMap

namespace AssociationCommandConfiguration

def cmdReport : UInt8 := 0x05

/-- What ends `HandleMsg` early. -/
inductive Fault
  | outsideReport
  | missingGroup
  deriving DecidableEq

/-- The loop over the commands. The group is a pointer, and is followed as it is. -/
def addCommands (report : List UInt8) (nodeIdx : UInt8) :
    ℕ → ℕ → Option AssociationMap → Except Fault (Option AssociationMap)
  | 0, _, group => return group
  | numReports + 1, start, group => do
      let length ← readAt report start .outsideReport
      let associations ← follow group .missingGroup
      let data ← window report (start + 1) length.toNat .outsideReport
      addCommands report nodeIdx numReports (start + length.toNat)
        (some (associations.addCommand nodeIdx data).1)

/-- `HandleMsg`: `group` is `GetGroup(groupIdx)`. A report of the supported records only
refreshes values. -/
def handleMsg (groups : UInt8 → Option AssociationMap) (report : List UInt8) :
    Except Fault (UInt8 → Option AssociationMap) := do
  let cmd ← readAt report 0 .outsideReport
  if cmd = cmdReport then
    let groupIdx ← readAt report 1 .outsideReport
    let nodeIdx ← readAt report 2 .outsideReport
    let flags ← readAt report 3 .outsideReport
    let firstReports := flags &&& 0x80 ≠ 0
    let numReports := flags &&& 0x0f
    let group := groups groupIdx
    if group.isNone then
      let group ← if firstReports then do
          let associations ← follow group .missingGroup
          pure (some (associations.clearCommands nodeIdx).1)
        else pure group
      let group ← addCommands report nodeIdx numReports.toNat 4 group
      return Function.update groups groupIdx group
    else return groups
  else return groups

/-! ## What a report says -/

/-- The commands that are complete, each behind its length. -/
def listedCommands : ℕ → List UInt8 → List (List UInt8)
  | 0, _ => []
  | _ + 1, [] => []
  | n + 1, length :: bytes =>
      if length.toNat ≤ bytes.length then
        bytes.take length.toNat :: listedCommands n (bytes.drop length.toNat)
      else []

/-- The header and the commands of a report. -/
def groupOf (report : List UInt8) : UInt8 := report.getD 1 0
def nodeOf (report : List UInt8) : UInt8 := report.getD 2 0
def isFirst (report : List UInt8) : Prop := report.getD 3 0 &&& 0x80 ≠ 0
def numReportsOf (report : List UInt8) : UInt8 := report.getD 3 0 &&& 0x0f
def commandsListed (report : List UInt8) : List (List UInt8) :=
  listedCommands (numReportsOf report).toNat (report.drop 4)

instance (report : List UInt8) : Decidable (isFirst report) := inferInstanceAs (Decidable (_ ≠ _))

/-- What a report changes in a group: the commands of its node become those that it lists, behind the
ones of earlier reports. -/
structure Stores (report : List UInt8) (associations associations' : AssociationMap) : Prop where
  own : associations'.commandsOf (nodeOf report) =
    (if isFirst report then [] else associations.commandsOf (nodeOf report)) ++
      (commandsListed report).map some
  others : ∀ member : InstanceAssociation, member ≠ { nodeId := nodeOf report, endPoint := 0 } →
    associations'[member]? = associations[member]?

/-- The report is stored in its group, if there is one, without a fault. -/
def StoresExactly (groups : UInt8 → Option AssociationMap) (report : List UInt8) : Prop :=
  ∃ groups', handleMsg groups report = .ok groups' ∧
    match groups (groupOf report) with
    | none => groups' = groups
    | some associations => ∃ associations', Stores report associations associations' ∧
        groups' = Function.update groups (groupOf report) (some associations')

/-- The report changes nothing: without its group it lists nothing, and in its group it lists
nothing more, or what is there. -/
def ChangesNothing (groups : UInt8 → Option AssociationMap) (report : List UInt8) : Prop :=
  match groups (groupOf report) with
  | none => ¬ isFirst report ∧ numReportsOf report = 0
  | some associations =>
      if isFirst report then
        associations.commandsOf (nodeOf report) = (commandsListed report).map some
      else commandsListed report = []

section

variable {groups : UInt8 → Option AssociationMap} {report : List UInt8}

theorem handleMsg_eq_ok_iff {groups' : UInt8 → Option AssociationMap}
    (hreport : report.head? = some cmdReport) :
    handleMsg groups report = .ok groups' ↔ 4 ≤ report.length ∧
      if (groups (groupOf report)).isNone then
        (do
          let group ← if isFirst report then do
              let associations ← follow (groups (groupOf report)) Fault.missingGroup
              pure (some (associations.clearCommands (nodeOf report)).1)
            else pure (groups (groupOf report))
          let group ← addCommands report (nodeOf report) (numReportsOf report).toNat 4 group
          return Function.update groups (groupOf report) group) = .ok groups'
      else groups = groups' := by
  obtain ⟨rest, rfl⟩ := List.head?_eq_some_iff.mp hreport
  rw [handleMsg, readAt_bind_eq_ok 0, List.getD_cons_zero, if_pos rfl, readAt_bind_eq_ok 0,
    readAt_bind_eq_ok 0, readAt_bind_eq_ok 0]
  have hheader : 4 ≤ (cmdReport :: rest).length ↔
      0 < (cmdReport :: rest).length ∧ 1 < (cmdReport :: rest).length ∧
        2 < (cmdReport :: rest).length ∧ 3 < (cmdReport :: rest).length := by
    omega
  rw [hheader, and_assoc, and_assoc, and_assoc]
  refine and_congr_right fun _ => and_congr_right fun _ => and_congr_right fun _ =>
    and_congr_right fun _ => ?_
  change (if (groups (groupOf (cmdReport :: rest))).isNone then _ else _) = _ ↔ _
  split
  · rfl
  · exact iff_of_eq (Except.ok.injEq ..)

/-- A report with its header, in a group that there is, is not looked at. -/
theorem handleMsg_some_iff {associations : AssociationMap} {groups' : UInt8 → Option AssociationMap}
    (hreport : report.head? = some cmdReport) (hgroup : groups (groupOf report) = some associations) :
    handleMsg groups report = .ok groups' ↔ 4 ≤ report.length ∧ groups' = groups := by
  rw [handleMsg_eq_ok_iff hreport, hgroup, Option.isNone_some, if_neg Bool.false_ne_true]
  exact and_congr_right fun _ => eq_comm

/-- Without the group, a report that lists anything follows the missing pointer. -/
theorem handleMsg_none_iff {groups' : UInt8 → Option AssociationMap}
    (hreport : report.head? = some cmdReport) (hgroup : groups (groupOf report) = none) :
    handleMsg groups report = .ok groups' ↔
      4 ≤ report.length ∧ (¬ isFirst report ∧ numReportsOf report = 0) ∧ groups' = groups := by
  rw [handleMsg_eq_ok_iff hreport, hgroup, Option.isNone_none, if_pos rfl]
  apply and_congr_right
  intro _
  by_cases hfirst : isFirst report
  · rw [if_pos hfirst]
    exact iff_of_false nofun fun h => h.1.1 hfirst
  · rw [if_neg hfirst]
    by_cases hnum : numReportsOf report = 0
    · rw [hnum]
      have hsame : Function.update groups (groupOf report) none = groups := by
        rw [← hgroup, Function.update_eq_self]
      change Except.ok (Function.update groups (groupOf report) none) = Except.ok groups' ↔ _
      rw [hsame, Except.ok.injEq, eq_comm]
      exact (and_iff_right ⟨hfirst, rfl⟩).symm
    · obtain ⟨n, hn⟩ : ∃ n, (numReportsOf report).toNat = n + 1 :=
        Nat.exists_eq_succ_of_ne_zero fun hzero => hnum (UInt8.toNat_inj.mp hzero)
      refine iff_of_false (fun h => ?_) fun h => hnum h.1.2
      rw [hn] at h
      change (addCommands report (nodeOf report) (n + 1) 4 none >>= _) = _ at h
      obtain ⟨group, hadded, -⟩ := bind_eq_ok.mp h
      obtain ⟨-, hfollow⟩ := (readAt_bind_eq_ok 0).mp hadded
      cases hfollow

theorem stores_self_iff {associations : AssociationMap} :
    Stores report associations associations ↔
      if isFirst report then
        associations.commandsOf (nodeOf report) = (commandsListed report).map some
      else commandsListed report = [] := by
  constructor
  · intro h
    have hown := h.own
    split
    · rename_i hfirst
      rwa [if_pos hfirst, List.nil_append] at hown
    · rename_i hfirst
      rw [if_neg hfirst] at hown
      exact List.map_eq_nil_iff.mp (List.self_eq_append_right.mp hown)
  · intro h
    refine ⟨?_, fun _ _ => rfl⟩
    split at h
    · rename_i hfirst
      rw [if_pos hfirst, List.nil_append, h]
    · rename_i hfirst
      rw [if_neg hfirst, h, List.map_nil, List.append_nil]

/-- A report is stored exactly if it has its header and changes nothing. -/
theorem storesExactly_iff (hreport : report.head? = some cmdReport) :
    StoresExactly groups report ↔ 4 ≤ report.length ∧ ChangesNothing groups report := by
  rw [StoresExactly, ChangesNothing]
  cases hgroup : groups (groupOf report) with
  | none =>
      simp only [handleMsg_none_iff hreport hgroup]
      constructor
      · rintro ⟨groups', ⟨hlength, hnothing, -⟩, -⟩
        exact ⟨hlength, hnothing⟩
      · rintro ⟨hlength, hnothing⟩
        exact ⟨groups, ⟨hlength, hnothing, rfl⟩, rfl⟩
  | some associations =>
      simp only [handleMsg_some_iff hreport hgroup]
      rw [← stores_self_iff]
      constructor
      · rintro ⟨groups', ⟨hlength, rfl⟩, associations', hstores, hsame⟩
        have hself : some associations = some associations' := by
          rw [← hgroup, hsame, Function.update_self]
        rw [← Option.some.inj hself] at hstores
        exact ⟨hlength, hstores⟩
      · rintro ⟨hlength, hstores⟩
        refine ⟨groups, ⟨hlength, rfl⟩, associations, hstores, ?_⟩
        rw [← hgroup, Function.update_eq_self]

end

/-! ## What `SetCommand` builds -/

/-- The request can be sent, and its payload names the group and the node, and lists the
command. -/
structure DecodedAs (request : SendData) (groupIdx nodeId : UInt8) (command : List UInt8) :
    Prop where
  wellFormed : request.WellFormed
  groupIdx : (request.command.take request.declared.toNat).getD 2 0 = groupIdx
  nodeId : (request.command.take request.declared.toNat).getD 3 0 = nodeId
  command : listedCommands 1 ((request.command.take request.declared.toNat).drop 4) = [command]

/-- A command of up to 241 bytes is decoded as it was set. -/
theorem decodedAs_iff (sender : Sender) (id : ℕ) (groupIdx nodeId length : UInt8)
    (data : List UInt8) :
    DecodedAs (setCommand sender id groupIdx nodeId length data) groupIdx nodeId
      ((List.range length.toNat).map fun i => data.getD i 0) ↔ length.toNat ≤ 241 := by
  constructor
  · intro h
    exact (setCommand_wellFormed sender id groupIdx nodeId length data).mp h.wellFormed
  · intro h
    have hformed := (setCommand_wellFormed sender id groupIdx nodeId length data).mpr h
    have hall : (setCommand sender id groupIdx nodeId length data).command.take
        (setCommand sender id groupIdx nodeId length data).declared.toNat =
        (setCommand sender id groupIdx nodeId length data).command := by
      rw [hformed.counted, List.take_length]
    refine ⟨hformed, ?_, ?_, ?_⟩
    · rw [hall]
      rfl
    · rw [hall]
      rfl
    · rw [hall]
      have hlength : ((List.range length.toNat).map fun i => data.getD i 0).length =
          length.toNat := by
        rw [List.length_map, List.length_range]
      change listedCommands 1 (length :: ((List.range length.toNat).map fun i => data.getD i 0)) = _
      rw [listedCommands, if_pos hlength.ge, List.take_of_length_le hlength.le]
      rfl

/-- Exactly when a report is stored as it says, and a command is decoded as it was set. -/
theorem commandsReported_iff (groups : UInt8 → Option AssociationMap) (bytes : List UInt8)
    (sender : Sender) (id : ℕ) (groupIdx nodeId length : UInt8) (data : List UInt8) :
    (StoresExactly groups (cmdReport :: bytes) ↔
      4 ≤ (cmdReport :: bytes).length ∧ ChangesNothing groups (cmdReport :: bytes)) ∧
    (DecodedAs (setCommand sender id groupIdx nodeId length data) groupIdx nodeId
      ((List.range length.toNat).map fun i => data.getD i 0) ↔ length.toNat ≤ 241) :=
  ⟨storesExactly_iff rfl, decodedAs_iff sender id groupIdx nodeId length data⟩

/-- A first report with one command is not stored in its group, and without the group the
missing pointer is followed. -/
theorem commandsReported_fails :
    ¬ StoresExactly (fun _ => some ((∅ : AssociationMap).addMember ⟨5, 0⟩))
        [cmdReport, 2, 5, 0x81, 3, 0x20, 0x01, 0xff] ∧
      handleMsg (fun _ => none) [cmdReport, 2, 5, 0x81, 3, 0x20, 0x01, 0xff] =
        .error .missingGroup := by
  constructor
  · rw [storesExactly_iff rfl]
    rintro ⟨-, h⟩
    have hnone : (AssociationMap.addMember ∅ ⟨5, 0⟩).commandsOf 5 = [] := by
      simp [AssociationMap.commandsOf, AssociationMap.addMember]
    exact absurd (hnone.symm.trans h) (by decide)
  · rfl

end AssociationCommandConfiguration

end OpenZWave
