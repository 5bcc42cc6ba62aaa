import Mathlib.Tactic.Common
import OpenZWave.Association
import OpenZWave.Lib.ByteLoop

/-!
# The members of a group

`Group` keeps its members in a map that is ordered by node and end point, and under
each member the commands that are sent to it. `OnGroupChanged` makes the
members equal to a reported list: it decides by the sizes whether they change.
-/

namespace OpenZWave

open ByteLoop

namespace InstanceAssociation

/-- `classcomp`. -/
def classcomp (lhs rhs : InstanceAssociation) : Bool :=
  if lhs.nodeId = rhs.nodeId then lhs.endPoint < rhs.endPoint else lhs.nodeId < rhs.nodeId

/-- The order of the map: by node, then by end point. -/
def order : InstanceAssociation → InstanceAssociation → Ordering :=
  compareLex (compareOn nodeId) (compareOn endPoint)

instance : Std.TransCmp order := inferInstanceAs (Std.TransCmp (compareLex _ _))

instance : Std.LawfulEqCmp order where
  eq_of_compare := by
    rintro ⟨nodeId, endPoint⟩ ⟨nodeId', endPoint'⟩ h
    obtain ⟨hnode, hend⟩ := compareLex_eq_eq.mp h
    rw [InstanceAssociation.mk.injEq]
    exact ⟨Std.LawfulEqCmp.eq_of_compare hnode, Std.LawfulEqCmp.eq_of_compare hend⟩

theorem order_eq_lt_iff (lhs rhs : InstanceAssociation) :
    order lhs rhs = .lt ↔ classcomp lhs rhs = true := by
  rw [order, compareLex, Ordering.then_eq_lt, compareOn, compareOn, classcomp]
  by_cases hnode : lhs.nodeId = rhs.nodeId
  · simp [hnode, Std.compare_eq_lt]
  · simp [hnode, Std.compare_eq_lt]

end InstanceAssociation

/-- `AssociationCommand`: the bytes at `m_data`, unless they are deleted. -/
abbrev AssociationCommand := Option (List UInt8)

/-- `m_associations`. -/
abbrev AssociationMap :=
  Std.ExtTreeMap InstanceAssociation (List AssociationCommand) InstanceAssociation.order

namespace AssociationMap

/-- The keys as a set. -/
def members (associations : AssociationMap) : Finset InstanceAssociation :=
  associations.keys.toFinset

@[simp] theorem mem_members {associations : AssociationMap} {member : InstanceAssociation} :
    member ∈ associations.members ↔ member ∈ associations := by
  rw [members, List.mem_toFinset, Std.ExtTreeMap.mem_keys]

@[simp] theorem card_members (associations : AssociationMap) :
    associations.members.card = associations.size := by
  rw [members, List.toFinset_card_of_nodup Std.ExtTreeMap.nodup_keys, Std.ExtTreeMap.length_keys]

@[simp] theorem members_empty : members ∅ = ∅ := by
  ext member
  simp

/-- `m_associations[member] = AssociationCommandVec()`. -/
def addMember (associations : AssociationMap) (member : InstanceAssociation) : AssociationMap :=
  associations.insert member []

@[simp] theorem members_addMember (associations : AssociationMap) (member : InstanceAssociation) :
    (associations.addMember member).members = insert member associations.members := by
  ext other
  simp [addMember, eq_comm (a := other)]

theorem members_foldl_addMember (associations : AssociationMap)
    (reported : List InstanceAssociation) :
    (reported.foldl addMember associations).members =
      Group.addAll associations.members reported := by
  induction reported generalizing associations with
  | nil => rfl
  | cons member reported ih => rw [List.foldl_cons, ih, members_addMember]; rfl

end AssociationMap

/-- What `OnGroupChanged` asks of the node and of the options. -/
structure GroupOptions where
  commandConfiguration : Bool
  performReturnRoutes : Bool

/-- A group that was changed: its members, the nodes that commands are requested for,
and whether watchers are notified and routes are updated. -/
structure GroupUpdate where
  associations : AssociationMap
  requestedCommands : List UInt8
  notified : Bool
  routesUpdated : Bool

namespace GroupUpdate

/-- The end of `OnGroupChanged`. -/
def finish (options : GroupOptions) (associations : AssociationMap) (notify : Bool) :
    GroupUpdate where
  associations := associations
  requestedCommands :=
    if notify ∧ options.commandConfiguration then
      associations.keys.map InstanceAssociation.nodeId
    else []
  notified := notify
  routesUpdated := notify ∧ options.performReturnRoutes

end GroupUpdate

namespace Group

/-- The reported members become the members, and watchers are notified if they are others, or
if there were and are none. -/
def Exact (associations : Finset InstanceAssociation) (reported : List InstanceAssociation)
    (associations' : Finset InstanceAssociation) (notified : Bool) : Prop :=
  associations' = reported.toFinset ∧
    (notified = true ↔
      associations ≠ reported.toFinset ∨ associations = ∅ ∧ reported.toFinset = ∅)

/-- As many entries as members are never only some of the members; another number of
entries is never just the members, some of them more than once. -/
def NumberTells (associations : Finset InstanceAssociation)
    (reported : List InstanceAssociation) : Prop :=
  if reported.length = associations.card then ¬ reported.toFinset ⊂ associations
  else reported.toFinset ≠ associations

instance (associations : Finset InstanceAssociation) (reported : List InstanceAssociation) :
    Decidable (NumberTells associations reported) :=
  inferInstanceAs (Decidable (ite _ _ _))

variable {group group' : Group} {reported : List InstanceAssociation} {notify : Bool}

theorem length_lt (h : group.onGroupChanged reported = some (group', notify)) :
    reported.length < 256 := by
  by_contra hmany
  rw [onGroupChanged, if_pos (Nat.le_of_not_lt hmany)] at h
  cases h

theorem exact_iff (h : group.onGroupChanged reported = some (group', notify)) :
    Exact group.associations reported group'.associations notify ↔
      NumberTells group.associations reported := by
  have hlength := length_lt h
  rw [onGroupChanged, if_neg (Nat.not_le_of_lt hlength)] at h
  dsimp only at h
  simp only [addAll_eq, Finset.empty_union] at h
  by_cases hnumber : reported.length = group.associations.card
  · rw [NumberTells, if_pos hnumber]
    rw [if_neg (not_not.mpr hnumber)] at h
    split at h
    · rename_i hgrown
      cases h
      have hbeyond : ¬ reported.toFinset ⊆ group.associations :=
        fun hsubset => hgrown.2 (by rw [Finset.union_eq_left.mpr hsubset])
      have hother : group.associations ≠ reported.toFinset :=
        fun heq => hbeyond heq.ge
      exact iff_of_true ⟨rfl, by simp [hother]⟩ fun hssubset => hbeyond hssubset.1
    · rename_i hgrown
      cases h
      by_cases hnone : reported = []
      · subst hnone
        have hempty : group.associations = ∅ := Finset.card_eq_zero.mp hnumber.symm
        simp [Exact, hempty]
      · have hpos : reported.length ≠ 0 := mt List.length_eq_zero_iff.mp hnone
        have hsame : group.associations.card = (group.associations ∪ reported.toFinset).card := by
          by_contra hne
          exact hgrown ⟨fun hnotify => hnotify.elim (absurd hnumber) (absurd · hpos), hne⟩
        have hunion : group.associations ∪ reported.toFinset = group.associations :=
          (Finset.eq_of_subset_of_card_le Finset.subset_union_left hsame.ge).symm
        have hsubset := Finset.union_eq_left.mp hunion
        have hsome : reported.toFinset ≠ ∅ := mt (List.toFinset_eq_empty_iff _).mp hnone
        constructor
        · rintro ⟨hexact, -⟩ hssubset
          exact hssubset.ne (hunion.symm.trans hexact).symm
        · intro hnot
          have heq : group.associations = reported.toFinset := by
            by_contra hne
            exact hnot (hsubset.ssubset_of_ne (Ne.symm hne))
          refine ⟨hunion.trans heq, ?_⟩
          simp [hnumber, heq, hsome]
  · rw [NumberTells, if_neg hnumber]
    rw [if_pos hnumber, if_neg fun hgrown => hgrown.1 (Or.inl hnumber)] at h
    cases h
    have hnone : ¬ (group.associations = ∅ ∧ reported.toFinset = ∅) := by
      rintro ⟨hempty, hreported⟩
      rw [List.toFinset_eq_empty_iff] at hreported
      exact hnumber (by rw [hempty, hreported]; rfl)
    rw [Exact, decide_eq_true (Or.inl hnumber)]
    simp only [Finset.empty_union, true_and, true_iff, hnone, or_false]
    exact ne_comm

end Group

namespace AssociationMap

/-- `OnGroupChanged`, with loops of at most `turns` turns. -/
def onGroupChanged (options : GroupOptions) (turns : ℕ) (associations : AssociationMap)
    (reported : List InstanceAssociation) : Option GroupUpdate := do
  let differs := reported.length ≠ associations.size
  let old := if differs then ∅ else associations
  let notify := differs ∨ reported.length = 0 ∧ associations.size = 0
  let oldSize := UInt8.ofNat old.size
  let added ← loop addMember reported turns 0 old
  if ¬ notify ∧ oldSize.toNat ≠ added.size then
    let added ← loop addMember reported turns 0 ∅
    return .finish options added true
  else return .finish options added notify

/-- The overload for nodes without end points. -/
def onNodesChanged (options : GroupOptions) (turns : ℕ) (associations : AssociationMap)
    (reported : List UInt8) : Option GroupUpdate := do
  let members ← loop (fun members nodeId =>
    members ++ [({ nodeId := nodeId, endPoint := 0 } : InstanceAssociation)]) reported turns 0 []
  associations.onGroupChanged options turns members

section

variable {options : GroupOptions} {turns : ℕ} {associations : AssociationMap}
  {reported : List InstanceAssociation}

/-- What is returned is what becomes of the set of members. -/
theorem onGroupChanged_refines {update : GroupUpdate} (group : Group)
    (hmembers : group.associations = associations.members)
    (h : associations.onGroupChanged options turns reported = some update) :
    group.onGroupChanged reported =
      some ({ group with associations := update.associations.members }, update.notified) := by
  obtain ⟨added, hadded, h⟩ := Option.bind_eq_some_iff.mp h
  obtain ⟨hlength, rfl⟩ := loop_eq_some hadded
  rw [Group.onGroupChanged, if_neg (Nat.not_le_of_lt hlength), hmembers, card_members]
  dsimp only
  by_cases hdiffers : reported.length = associations.size
  · have hsize : (UInt8.ofNat associations.size).toNat = associations.size :=
      UInt8.toNat_ofNat_of_lt' (hdiffers ▸ hlength)
    have hnotify : reported.length ≠ associations.size ∨
        reported.length = 0 ∧ associations.size = 0 ↔
        reported.length ≠ associations.size ∨ reported.length = 0 := by
      rw [← hdiffers, and_self]
    rw [if_neg (not_not.mpr hdiffers), hsize] at h
    rw [if_neg (not_not.mpr hdiffers), card_members, ← members_foldl_addMember, card_members]
    simp only [hnotify] at h
    split at h
    · rename_i hgrown
      obtain ⟨added, hadded, h⟩ := Option.bind_eq_some_iff.mp h
      obtain ⟨-, rfl⟩ := loop_eq_some hadded
      cases h
      rw [if_pos hgrown, ← members_empty, ← members_foldl_addMember]
      rfl
    · rename_i hgrown
      cases h
      rw [if_neg hgrown]
      rfl
  · rw [if_pos hdiffers] at h ⊢
    rw [if_neg (fun hgrown => hgrown.1 (Or.inl hdiffers))] at h ⊢
    cases h
    rw [← members_empty, ← members_foldl_addMember]
    simp [GroupUpdate.finish, hdiffers]

/-- Fewer than 256 entries are worked off. -/
theorem exists_onGroupChanged (options : GroupOptions) (associations : AssociationMap)
    (h : reported.length < 256) :
    ∃ update, associations.onGroupChanged options (reported.length + 1) reported = some update := by
  have hloop : ∀ associations, loop addMember reported (reported.length + 1) 0 associations =
      some (reported.foldl addMember associations) :=
    fun associations => loop_of_lt h (Nat.zero_le _) (Nat.lt_succ_self _) associations
  simp only [onGroupChanged, hloop, Option.bind_eq_bind, Option.bind_some]
  split_ifs <;> exact ⟨_, rfl⟩

/-- Nodes are members with end point 0. -/
theorem onNodesChanged_eq (options : GroupOptions) (associations : AssociationMap)
    {nodes : List UInt8} {turns : ℕ} (hfew : nodes.length < 256) (hturns : nodes.length < turns) :
    associations.onNodesChanged options turns nodes =
      associations.onGroupChanged options turns
        (nodes.map (AssociationKind.instanceOf .association)) := by
  have hmembers : ∀ (nodes : List UInt8) (members : List InstanceAssociation),
      nodes.foldl (fun members nodeId => members ++ [{ nodeId := nodeId, endPoint := 0 }]) members =
        members ++ nodes.map (AssociationKind.instanceOf .association) := by
    intro nodes
    induction nodes with
    | nil => exact fun members => (List.append_nil members).symm
    | cons node nodes ih =>
        intro members
        rw [List.foldl_cons, ih, List.map_cons, List.append_assoc]
        rfl
  rw [onNodesChanged, loop_of_lt hfew (Nat.zero_le _) hturns, UInt8.toNat_zero, List.drop_zero,
    hmembers, List.nil_append]
  rfl

/-- The update ends, and is exact. -/
def UpdatesExactly (options : GroupOptions) (associations : AssociationMap)
    (reported : List InstanceAssociation) : Prop :=
  ∃ turns update, associations.onGroupChanged options turns reported = some update ∧
    Group.Exact associations.members reported update.associations.members update.notified

theorem numberTells_of_updatesExactly (h : associations.UpdatesExactly options reported) :
    reported.length < 256 ∧ Group.NumberTells associations.members reported := by
  obtain ⟨turns, update, hupdate, hexact⟩ := h
  have hgroup := onGroupChanged_refines
    { Group.new 0 0 with associations := associations.members } rfl hupdate
  exact ⟨Group.length_lt hgroup, (Group.exact_iff hgroup).mp hexact⟩

/-- The update is exact for fewer than 256 entries whose number tells whether they are others
than the members. -/
theorem updatesExactly_iff (options : GroupOptions) (associations : AssociationMap)
    (reported : List InstanceAssociation) :
    associations.UpdatesExactly options reported ↔
      reported.length < 256 ∧ Group.NumberTells associations.members reported := by
  constructor
  · exact numberTells_of_updatesExactly
  · rintro ⟨hlength, htells⟩
    obtain ⟨update, hupdate⟩ := exists_onGroupChanged options associations hlength
    have hgroup := onGroupChanged_refines
      { Group.new 0 0 with associations := associations.members } rfl hupdate
    exact ⟨_, update, hupdate, (Group.exact_iff hgroup).mpr htells⟩

/-- Two members, one of which is reported twice: both are kept. -/
theorem updatesExactly_fails :
    ¬ AssociationMap.UpdatesExactly ⟨false, false⟩
      (((∅ : AssociationMap).addMember ⟨5, 0⟩).addMember ⟨6, 0⟩) [⟨5, 0⟩, ⟨5, 0⟩] := by
  intro h
  have htells := (numberTells_of_updatesExactly h).2
  rw [members_addMember, members_addMember, members_empty] at htells
  revert htells
  decide

end

end AssociationMap

end OpenZWave
