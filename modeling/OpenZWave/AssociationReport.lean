import OpenZWave.Association
import OpenZWave.Lib.Checked

/-!
# Reports with end points

A report of `MultiChannelAssociation` lists nodes, a marker, and pairs of a node and an
end point. `HandleMsg` walks over it with one index. Here each access is checked against the
report, whose bytes are `_data[0]` to `_data[_length - 2]`; what the walk appends is
compared with what the report lists.
-/

namespace OpenZWave

open Checked

namespace MultiChannelAssociation

/-- Access to `_data[i]` of a report, or the index when it lies outside. -/
def byteAt (data : Nat → UInt8) (length : UInt32) (i : Nat) : Except Nat UInt8 := do
  check (i + 1 < length.toNat) i
  return data i

/-- The loop over the members from index `i` on: what it appends. -/
def appendMembers (data : Nat → UInt8) (length : UInt32) (i : Nat) (pastMarker : Bool) :
    Except Nat (List InstanceAssociation) :=
  if i < (length - 5).toNat then do
    let node ← byteAt data length (i + 4)
    if node = 0 then appendMembers data length (i + 1) true
    else if pastMarker then
      let endPoint ← byteAt data length (i + 5)
      let members ← appendMembers data length (i + 2) true
      return { nodeId := node, endPoint := endPoint } :: members
    else
      let members ← appendMembers data length (i + 1) false
      return { nodeId := node, endPoint := 0 } :: members
  else return []
  termination_by (length - 5).toNat - i

/-- `HandleMsg`, as far as it appends members to `m_pendingMembers`. -/
def handleMsg (data : Nat → UInt8) (length : UInt32) : Except Nat (List InstanceAssociation) := do
  let cmd ← byteAt data length 0
  if cmd = AssociationCmd.groupingsReport then
    let _numGroups ← byteAt data length 1
    return []
  else if cmd = AssociationCmd.report then
    let groupIdx ← byteAt data length 1
    let maxAssociations ← byteAt data length 2
    let _numReportsToFollow ← byteAt data length 3
    if groupIdx ≠ 0 ∧ maxAssociations ≠ 0 ∧ 5 ≤ length then appendMembers data length 0 false
    else return []
  else return []

theorem byteAt_bind {data : Nat → UInt8} {length : UInt32} {i : Nat} (h : i + 1 < length.toNat)
    {α : Type} (k : UInt8 → Except Nat α) : (byteAt data length i >>= k) = k (data i) := by
  rw [byteAt, bind_assoc, check_bind h]
  rfl

theorem byteAt_bind_eq_ok {data : Nat → UInt8} {length : UInt32} {i : Nat} {α : Type}
    {k : UInt8 → Except Nat α} {a : α} :
    (byteAt data length i >>= k) = .ok a ↔ i + 1 < length.toNat ∧ k (data i) = .ok a := by
  rw [byteAt, bind_assoc, check_bind_eq_ok]
  rfl

theorem bind_cons_eq_ok {x : Except Nat (List InstanceAssociation)} {member : InstanceAssociation}
    {members : List InstanceAssociation} :
    (do return member :: (← x)) = .ok (member :: members) ↔ x = .ok members := by
  rw [bind_eq_ok]
  constructor
  · rintro ⟨rest, hx, h⟩
    cases h
    exact hx
  · intro hx
    exact ⟨members, hx, rfl⟩

theorem inside {length : UInt32} {i : Nat} (hi : i < (length - 5).toNat) (hlength : 5 ≤ length) :
    i + 5 < length.toNat := by
  rw [UInt32.toNat_sub_of_le _ _ hlength] at hi
  have hfive : (5 : UInt32).toNat = 5 := rfl
  omega

section

variable {data : Nat → UInt8} {length : UInt32}

/-- While no access leaves the report, the checks change nothing. -/
theorem readMembers_of_ok {i : Nat} {pastMarker : Bool} {members : List InstanceAssociation}
    (h : appendMembers data length i pastMarker = .ok members) :
    readMembers data (length - 5).toNat i pastMarker = members := by
  rw [appendMembers] at h
  rw [readMembers]
  split at h
  · rename_i hi
    rw [if_pos hi]
    obtain ⟨-, h⟩ := byteAt_bind_eq_ok.mp h
    split at h
    · rename_i hmarker
      rw [if_pos hmarker]
      exact readMembers_of_ok h
    · rename_i hnode
      rw [if_neg hnode]
      split at h
      · rename_i hpast
        obtain ⟨-, h⟩ := byteAt_bind_eq_ok.mp h
        obtain ⟨rest, hrest, h⟩ := bind_eq_ok.mp h
        rw [if_pos hpast, readMembers_of_ok hrest]
        exact Except.ok.inj h
      · rename_i hpast
        obtain ⟨rest, hrest, h⟩ := bind_eq_ok.mp h
        rw [if_neg hpast, readMembers_of_ok hrest]
        exact Except.ok.inj h
  · rename_i hi
    rw [if_neg hi]
    exact Except.ok.inj h
  termination_by (length - 5).toNat - i

/-- A node that is 0 is never read as a member. -/
theorem readMembers_nodeId_ne_zero (data : Nat → UInt8) (count i : Nat) (pastMarker : Bool) :
    ∀ member ∈ readMembers data count i pastMarker, member.nodeId ≠ 0 := by
  induction i, pastMarker using readMembers.induct data count with
  | case1 i pastMarker hi hmarker ih => rwa [readMembers, if_pos hi, if_pos hmarker]
  | case2 i hi hnode ih =>
      rw [readMembers, if_pos hi, if_neg hnode, if_pos rfl]
      exact List.forall_mem_cons.mpr ⟨hnode, ih⟩
  | case3 i pastMarker hi hnode hpast ih =>
      rw [readMembers, if_pos hi, if_neg hnode, if_neg hpast]
      exact List.forall_mem_cons.mpr ⟨hnode, ih⟩
  | case4 i pastMarker hi =>
      rw [readMembers, if_neg hi]
      exact List.forall_mem_nil _

end

/-! ## What a report lists -/

/-- The complete pairs. -/
def pairs : List UInt8 → List InstanceAssociation
  | nodeId :: endPoint :: rest => { nodeId := nodeId, endPoint := endPoint } :: pairs rest
  | _ => []

/-- The bytes after the first marker. -/
def afterMarker (bytes : List UInt8) : List UInt8 := (bytes.dropWhile (· ≠ 0)).tail

/-- Nodes up to the marker, and the complete pairs after it. -/
def listedMembers (bytes : List UInt8) : List InstanceAssociation :=
  (bytes.takeWhile (· ≠ 0)).map (fun nodeId => { nodeId := nodeId, endPoint := 0 }) ++
    pairs (afterMarker bytes)

/-- The nodes of the pairs are not 0, and what remains after the pairs is at most one more
marker. -/
def Aligned : List UInt8 → Prop
  | [] => True
  | [last] => last = 0
  | nodeId :: _ :: rest => nodeId ≠ 0 ∧ Aligned rest

instance : (bytes : List UInt8) → Decidable (Aligned bytes)
  | [] => isTrue trivial
  | [last] => inferInstanceAs (Decidable (last = 0))
  | nodeId :: _ :: rest =>
      have : Decidable (Aligned rest) := instDecidableAligned rest
      inferInstanceAs (Decidable (nodeId ≠ 0 ∧ Aligned rest))

/-- The bytes of a report behind its header. -/
def memberBytes (data : Nat → UInt8) (length : UInt32) : List UInt8 :=
  (List.range (length.toNat - 5)).map fun i => data (i + 4)

section

variable {data : Nat → UInt8} {length : UInt32}

theorem appendMembers_marker {i : Nat} (hlength : 5 ≤ length) (hi : i < (length - 5).toNat)
    (hmarker : data (i + 4) = 0) (pastMarker : Bool) :
    appendMembers data length i pastMarker = appendMembers data length (i + 1) true := by
  have hinside := inside hi hlength
  rw [appendMembers, if_pos hi, byteAt_bind (by omega), if_pos hmarker]

theorem appendMembers_pairs {bytes : List UInt8} {i : Nat} (hlength : 5 ≤ length)
    (hcount : (length - 5).toNat = i + bytes.length) (hdata : Holds data i bytes) :
    appendMembers data length i true = .ok (pairs bytes) ↔ Aligned bytes := by
  induction bytes using pairs.induct generalizing i with
  | case1 nodeId endPoint rest ih =>
      rw [List.length_cons, List.length_cons] at hcount
      have hi : i < (length - 5).toNat := by omega
      have hnode : data (i + 4) = nodeId := hdata.head
      by_cases hmarker : nodeId = 0
      · rw [appendMembers_marker hlength hi (hnode.trans hmarker)]
        refine iff_of_false (fun h => ?_) fun haligned => haligned.1 hmarker
        have hmem := readMembers_nodeId_ne_zero data (length - 5).toNat (i + 1) true
        rw [readMembers_of_ok h] at hmem
        exact hmem _ (List.mem_cons_self ..) hmarker
      · have hinside := inside (i := i + 1) (by omega) hlength
        have hend : data (i + 5) = endPoint := hdata.tail.head
        rw [appendMembers, if_pos hi, byteAt_bind (by omega), hnode, if_neg hmarker, if_pos rfl,
          byteAt_bind (by omega), hend, pairs, Aligned, ← ih (by omega) hdata.tail.tail,
          bind_cons_eq_ok]
        exact (and_iff_right hmarker).symm
  | case2 bytes hbytes =>
      cases bytes with
      | nil =>
          rw [List.length_nil] at hcount
          rw [appendMembers, if_neg (by omega)]
          exact iff_of_true rfl trivial
      | cons last rest =>
          cases rest with
          | cons endPoint rest => exact absurd rfl (hbytes last endPoint rest)
          | nil =>
              rw [List.length_singleton] at hcount
              have hi : i < (length - 5).toNat := by omega
              have hlast : data (i + 4) = last := hdata.head
              by_cases hmarker : last = 0
              · rw [appendMembers_marker hlength hi (hlast.trans hmarker), appendMembers,
                  if_neg (by omega)]
                exact iff_of_true rfl hmarker
              · have hinside := inside hi hlength
                have hend : length.toNat = i + 6 := by
                  rw [UInt32.toNat_sub_of_le _ _ hlength] at hcount
                  have hfive : (5 : UInt32).toNat = 5 := rfl
                  omega
                rw [appendMembers, if_pos hi, byteAt_bind (by omega), hlast, if_neg hmarker,
                  if_pos rfl, byteAt_bind_eq_ok]
                exact iff_of_false (fun h => absurd h.1 (by omega)) hmarker

theorem appendMembers_listed {bytes : List UInt8} {i : Nat} (hlength : 5 ≤ length)
    (hcount : (length - 5).toNat = i + bytes.length) (hdata : Holds data i bytes) :
    appendMembers data length i false = .ok (listedMembers bytes) ↔
      Aligned (afterMarker bytes) := by
  induction bytes generalizing i with
  | nil =>
      rw [List.length_nil] at hcount
      rw [appendMembers, if_neg (by omega)]
      exact iff_of_true rfl trivial
  | cons node bytes ih =>
      rw [List.length_cons] at hcount
      have hi : i < (length - 5).toNat := by omega
      have hnode : data (i + 4) = node := hdata.head
      by_cases hmarker : node = 0
      · rw [appendMembers_marker hlength hi (hnode.trans hmarker)]
        have hrest := appendMembers_pairs hlength (by omega) hdata.tail
        simpa [listedMembers, afterMarker, hmarker] using hrest
      · have hinside := inside hi hlength
        have hlisted : listedMembers (node :: bytes) =
            { nodeId := node, endPoint := 0 } :: listedMembers bytes := by
          simp [listedMembers, afterMarker, hmarker]
        have hafter : afterMarker (node :: bytes) = afterMarker bytes := by
          simp [afterMarker, hmarker]
        rw [appendMembers, if_pos hi, byteAt_bind (by omega), hnode, if_neg hmarker,
          if_neg Bool.false_ne_true, hlisted, hafter, bind_cons_eq_ok]
        exact ih (by omega) hdata.tail

theorem count_memberBytes (hlength : 5 ≤ length) :
    (length - 5).toNat = 0 + (memberBytes data length).length := by
  rw [UInt32.toNat_sub_of_le _ _ hlength, memberBytes, List.length_map, List.length_range,
    Nat.zero_add]
  rfl

theorem holds_memberBytes (data : Nat → UInt8) (length : UInt32) :
    Holds data 0 (memberBytes data length) := by
  intro j hj
  simp [memberBytes]

/-- A report whose header is complete is handled up to its members. -/
theorem handleMsg_report (hreport : data 0 = AssociationCmd.report) (hlength : 5 ≤ length) :
    handleMsg data length =
      if data 1 ≠ 0 ∧ data 2 ≠ 0 ∧ 5 ≤ length then appendMembers data length 0 false
      else .ok [] := by
  have hfive : 5 ≤ length.toNat := UInt32.le_iff_toNat_le.mp hlength
  rw [handleMsg, byteAt_bind (by omega), hreport, if_neg (by decide), if_pos rfl,
    byteAt_bind (by omega), byteAt_bind (by omega), byteAt_bind (by omega)]
  rfl

theorem le_of_handleMsg {members : List InstanceAssociation}
    (hreport : data 0 = AssociationCmd.report) (h : handleMsg data length = .ok members) :
    5 ≤ length := by
  obtain ⟨-, h⟩ := byteAt_bind_eq_ok.mp h
  rw [hreport, if_neg (by decide), if_pos rfl] at h
  obtain ⟨-, h⟩ := byteAt_bind_eq_ok.mp h
  obtain ⟨-, h⟩ := byteAt_bind_eq_ok.mp h
  exact UInt32.le_iff_toNat_le.mpr (byteAt_bind_eq_ok.mp h).1

/-- What a report of a group appends is what it lists, if its header is complete and its pairs
are aligned. -/
theorem handleMsg_eq_iff (hreport : data 0 = AssociationCmd.report) (hgroup : data 1 ≠ 0)
    (hmax : data 2 ≠ 0) :
    handleMsg data length = .ok (listedMembers (memberBytes data length)) ↔
      5 ≤ length ∧ Aligned (afterMarker (memberBytes data length)) := by
  have hlisted : ∀ hlength : 5 ≤ length, _ := fun hlength =>
    appendMembers_listed (i := 0) hlength (count_memberBytes hlength) (holds_memberBytes data length)
  constructor
  · intro h
    have hlength := le_of_handleMsg hreport h
    rw [handleMsg_report hreport hlength, if_pos ⟨hgroup, hmax, hlength⟩] at h
    exact ⟨hlength, (hlisted hlength).mp h⟩
  · rintro ⟨hlength, haligned⟩
    rw [handleMsg_report hreport hlength, if_pos ⟨hgroup, hmax, hlength⟩]
    exact (hlisted hlength).mpr haligned

/-- When no access leaves the report, the members are those that are collected. -/
theorem reportedMembers_of_ok {members : List InstanceAssociation}
    (hreport : data 0 = AssociationCmd.report) (hgroup : data 1 ≠ 0) (hmax : data 2 ≠ 0)
    (h : handleMsg data length = .ok members) : reportedMembers data length = members := by
  have hlength := le_of_handleMsg hreport h
  rw [handleMsg_report hreport hlength, if_pos ⟨hgroup, hmax, hlength⟩] at h
  rw [reportedMembers, if_pos hlength]
  exact readMembers_of_ok h

end

/-! ## Commands with a member -/

/-- A report of a group with the bytes behind its header. -/
def reportOf (groupIdx maxAssociations : UInt8) (bytes : List UInt8) : Nat → UInt8 :=
  fun i => ([AssociationCmd.report, groupIdx, maxAssociations, 0] ++ bytes).getD i 0

/-- The node is sent one command, whose bytes for the member are read as the member in a
report of any group. -/
def ParsedBack (cmd groupIdx : UInt8) (member : InstanceAssociation)
    (node node' : AssociationNode) : Prop :=
  ∃ bytes, node'.sent = (node.send ([ClassId.multiChannelAssociation, cmd, groupIdx] ++
      bytes)).sent ∧
    ∀ groupIdx ≠ 0, ∀ maxAssociations ≠ 0, handleMsg (reportOf groupIdx maxAssociations bytes)
      (UInt32.ofNat (5 + bytes.length)) = .ok [member]

theorem send_inj {node : AssociationNode} {command command' : List UInt8}
    (h : (node.send command).sent = (node.send command').sent) : command = command' := by
  have hframe := List.singleton_inj.mp (List.append_cancel_left h)
  have hbody := List.append_cancel_right hframe
  exact (List.append_inj hbody rfl).2

theorem memberBytes_reportOf (groupIdx maxAssociations : UInt8) {bytes : List UInt8}
    (hshort : 5 + bytes.length < 2 ^ 32) :
    memberBytes (reportOf groupIdx maxAssociations bytes) (UInt32.ofNat (5 + bytes.length)) =
      bytes := by
  rw [memberBytes, UInt32.toNat_ofNat_of_lt' hshort, Nat.add_sub_cancel_left]
  apply List.ext_getElem
  · simp
  · intro i hi hbytes
    simp [reportOf, hbytes]

theorem handleMsg_reportOf {groupIdx maxAssociations : UInt8} (hgroup : groupIdx ≠ 0)
    (hmax : maxAssociations ≠ 0) {bytes : List UInt8} (hshort : 5 + bytes.length < 2 ^ 32) :
    handleMsg (reportOf groupIdx maxAssociations bytes) (UInt32.ofNat (5 + bytes.length)) =
      .ok (listedMembers bytes) ↔ Aligned (afterMarker bytes) := by
  have hread := @handleMsg_eq_iff (reportOf groupIdx maxAssociations bytes)
    (UInt32.ofNat (5 + bytes.length)) rfl hgroup hmax
  rw [memberBytes_reportOf groupIdx maxAssociations hshort] at hread
  have hfive : 5 ≤ UInt32.ofNat (5 + bytes.length) := by
    rw [UInt32.le_iff_toNat_le, UInt32.toNat_ofNat_of_lt' hshort]
    exact Nat.le_add_right 5 _
  rw [hread]
  exact and_iff_right hfive

theorem parsedBack_iff {node node' : AssociationNode} {cmd groupIdx : UInt8}
    {member : InstanceAssociation} {bytes : List UInt8} (hshort : 5 + bytes.length < 2 ^ 32)
    (hsent : node'.sent =
      (node.send ([ClassId.multiChannelAssociation, cmd, groupIdx] ++ bytes)).sent)
    (hlisted : listedMembers bytes = [member]) :
    ParsedBack cmd groupIdx member node node' ↔ Aligned (afterMarker bytes) := by
  constructor
  · rintro ⟨bytes', hsent', hread⟩
    obtain rfl := List.append_cancel_left (send_inj (hsent.symm.trans hsent'))
    have hone : (1 : UInt8) ≠ 0 := by decide
    rw [← handleMsg_reportOf hone hone hshort, hlisted]
    exact hread 1 hone 1 hone
  · intro haligned
    refine ⟨bytes, hsent, fun groupIdx hgroup maxAssociations hmax => ?_⟩
    rw [(handleMsg_reportOf hgroup hmax hshort).mpr haligned, hlisted]

/-- Node 0 is the marker; every other member is read back. -/
theorem parsedBack_sendEndPoint_iff (node : AssociationNode)
    (cmd groupIdx nodeId endPoint : UInt8) :
    ParsedBack cmd groupIdx { nodeId := nodeId, endPoint := endPoint } node
      (node.sendEndPoint cmd groupIdx nodeId endPoint) ↔ nodeId ≠ 0 := by
  rw [AssociationNode.sendEndPoint]
  by_cases hend : endPoint = 0
  · subst hend
    rw [if_pos rfl]
    by_cases hnode : nodeId = 0
    · subst hnode
      refine iff_of_false ?_ (not_not.mpr rfl)
      rintro ⟨bytes, hsent, hread⟩
      obtain rfl : [0] = bytes := @List.append_cancel_left _
        [ClassId.multiChannelAssociation, cmd, groupIdx] _ _ (send_inj hsent)
      have hone : (1 : UInt8) ≠ 0 := by decide
      have hmarker : handleMsg (reportOf 1 1 [0]) (UInt32.ofNat (5 + [0].length)) = .ok [] :=
        (handleMsg_reportOf hone hone (by simp)).mpr trivial
      exact absurd (Except.ok.inj (hmarker.symm.trans (hread 1 hone 1 hone))) (by decide)
    · have hlisted : listedMembers [nodeId] = [{ nodeId := nodeId, endPoint := 0 }] := by
        simp [listedMembers, afterMarker, hnode, pairs]
      refine (parsedBack_iff (by simp) rfl hlisted).trans ?_
      simp [afterMarker, hnode, Aligned]
  · rw [if_neg hend]
    have hlisted : listedMembers [0, nodeId, endPoint] =
        [{ nodeId := nodeId, endPoint := endPoint }] := by
      simp [listedMembers, afterMarker, pairs]
    refine (parsedBack_iff (by simp) rfl hlisted).trans ?_
    simp [afterMarker, Aligned]

/-- Exactly when reports and commands are parsed as they are listed and encoded. `Set` takes
end point 1 for end point 0 of the controller if the device forces instances. -/
theorem membersParsed_iff (data : Nat → UInt8) (length : UInt32)
    (hreport : data 0 = AssociationCmd.report) (hgroup : data 1 ≠ 0) (hmax : data 2 ≠ 0)
    (node : AssociationNode) (groupIdx nodeId endPoint : UInt8) :
    (handleMsg data length = .ok (listedMembers (memberBytes data length)) ↔
      5 ≤ length ∧ Aligned (afterMarker (memberBytes data length))) ∧
    (ParsedBack AssociationCmd.set groupIdx
      { nodeId := nodeId
        endPoint :=
          if node.forceInstances ∧ endPoint = 0 ∧ nodeId = node.controllerNodeId then 1
          else endPoint } node (node.setEndPoint groupIdx nodeId endPoint) ↔ nodeId ≠ 0) ∧
    (ParsedBack AssociationCmd.remove groupIdx { nodeId := nodeId, endPoint := endPoint } node
      (node.sendEndPoint AssociationCmd.remove groupIdx nodeId endPoint) ↔ nodeId ≠ 0) :=
  ⟨handleMsg_eq_iff hreport hgroup hmax, parsedBack_sendEndPoint_iff ..,
    parsedBack_sendEndPoint_iff ..⟩

/-- Two nodes, the marker and a pair. -/
theorem membersParsed_pair :
    handleMsg (reportOf 2 5 [3, 4, 0, 7, 1]) 10 = .ok [⟨3, 0⟩, ⟨4, 0⟩, ⟨7, 1⟩] :=
  (membersParsed_iff (reportOf 2 5 [3, 4, 0, 7, 1]) 10 rfl (by decide) (by decide)
    AssociationNode.lamp 2 7 1).1.mpr (by decide)

/-- A node without an end point after the marker: the byte behind the report is read. -/
theorem membersParsed_fails :
    handleMsg (reportOf 2 5 [3, 0, 7]) 8 ≠
      .ok (listedMembers (memberBytes (reportOf 2 5 [3, 0, 7]) 8)) := by
  intro h
  have haligned := (handleMsg_eq_iff rfl (by decide) (by decide)).mp h
  exact absurd haligned.2 (by decide)

end MultiChannelAssociation

end OpenZWave
