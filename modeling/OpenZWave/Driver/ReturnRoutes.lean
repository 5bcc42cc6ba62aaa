import OpenZWave.Driver.BegunCommands
import OpenZWave.GroupMembership
import OpenZWave.Lib.FirstDistinct
import OpenZWave.Lib.GuardedLoop

/-!
# Return routes

`UpdateNodeRoutes` looks for up to five nodes in the groups of a routing slave. When they are
others than the last time, the controller is asked to delete the return routes of the slave
and to assign one to each of them.
-/

namespace OpenZWave

open FirstDistinct Transition

/-- Why no nodes are chosen: a loop does not end, or a write is past `nodes`. -/
inductive RouteFault
  | endless
  | pastNodes
  deriving DecidableEq

/-- `numNodes` and `nodes`. -/
@[ext] structure RouteNodes where
  numNodes : UInt8
  nodes : Vector UInt8 5
  deriving DecidableEq

/-- What `UpdateNodeRoutes` uses of a node, beside what the driver has of it: `routes` are
`m_numRouteNodes` and `m_routeNodes`. -/
structure RoutedNode where
  basic : UInt8
  groups : UInt8 → Option AssociationMap
  routes : RouteNodes

namespace RouteNodes

/-- The entries in use. -/
def toList (chosen : RouteNodes) : List UInt8 := chosen.nodes.toList.take chosen.numNodes.toNat

/-- `nodes[i] = nodeId`. -/
def store (nodes : Vector UInt8 5) (i : ℕ) (nodeId : UInt8) : Except RouteFault (Vector UInt8 5) :=
  if h : i < 5 then .ok (nodes.set i nodeId h) else .error .pastNodes

/-- The innermost loop: where a node stands among the chosen ones, or their number. -/
def find (chosen : RouteNodes) (nodeId : UInt8) : ℕ := chosen.toList.findIdx (· == nodeId)

/-- The body of the loop over the members. -/
def add (chosen : RouteNodes) (member : InstanceAssociation) : Except RouteFault RouteNodes := do
  if chosen.numNodes.toNat ≤ chosen.find member.nodeId ∧ chosen.numNodes.toNat < 5 then
    let nodes ← store chosen.nodes chosen.numNodes.toNat member.nodeId
    return { numNodes := chosen.numNodes + 1, nodes := nodes }
  else return chosen

/-- The body after the members before. -/
def addTo (chosen : Except RouteFault RouteNodes) (member : InstanceAssociation) :
    Except RouteFault RouteNodes := chosen.bind fun chosen => chosen.add member

/-- The array that holds a list, and zeros after it. -/
def ofList (nodeIds : List UInt8) : RouteNodes where
  numNodes := UInt8.ofNat nodeIds.length
  nodes := Vector.ofFn fun i => nodeIds.getD i 0

/-- There are at most five entries, and zeros after them. -/
def Padded (chosen : RouteNodes) : Prop :=
  chosen.numNodes.toNat ≤ 5 ∧
    ∀ i, chosen.numNodes.toNat ≤ i → ∀ h : i < 5, chosen.nodes[i] = 0

section

variable {nodeIds : List UInt8} (hroom : nodeIds.length ≤ 5)

include hroom

theorem toNat_numNodes_ofList : (ofList nodeIds).numNodes.toNat = nodeIds.length :=
  UInt8.toNat_ofNat_of_lt' (Nat.lt_of_le_of_lt hroom (by decide))

theorem toList_ofList : (ofList nodeIds).toList = nodeIds := by
  rw [toList, toNat_numNodes_ofList hroom]
  apply List.ext_getElem
  · simpa using hroom
  · intro i hi hi'
    simp [ofList, hi']

theorem padded_ofList : (ofList nodeIds).Padded := by
  rw [Padded, toNat_numNodes_ofList hroom]
  refine ⟨hroom, fun i hle h => ?_⟩
  simp [ofList, List.getElem?_eq_none hle]

theorem find_ofList (nodeId : UInt8) :
    nodeIds.length ≤ (ofList nodeIds).find nodeId ↔ nodeId ∉ nodeIds := by
  rw [find, toList_ofList hroom]
  constructor
  · intro hle hmem
    have hlt : nodeIds.findIdx (· == nodeId) < nodeIds.length :=
      List.findIdx_lt_length_of_exists ⟨nodeId, hmem, beq_self_eq_true nodeId⟩
    exact Nat.not_lt_of_le hle hlt
  · intro hnot
    refine Nat.le_of_eq (List.findIdx_eq_length_of_false fun other hother => ?_).symm
    exact beq_false_of_ne fun heq => hnot (heq ▸ hother)

/-- A turn of the loop over the members: no write is past the array. -/
theorem add_ofList (member : InstanceAssociation) :
    (ofList nodeIds).add member = .ok (ofList (pick 5 nodeIds member.nodeId)) := by
  simp only [add, toNat_numNodes_ofList hroom, find_ofList hroom, pick]
  by_cases hpicked : member.nodeId ∈ nodeIds ∨ 5 ≤ nodeIds.length
  · rw [if_pos hpicked, if_neg (by rwa [not_and_or, not_not, Nat.not_lt])]
    rfl
  · have hnew := not_or.mp hpicked
    have hbelow : nodeIds.length < 5 := Nat.lt_of_not_le hnew.2
    rw [if_neg hpicked, if_pos ⟨hnew.1, hbelow⟩, store, dif_pos hbelow]
    refine congrArg Except.ok ?_
    rw [RouteNodes.mk.injEq]
    constructor
    · simp [ofList, UInt8.ofNat_add]
    · refine Vector.ext fun i hi => ?_
      rcases Nat.lt_trichotomy i nodeIds.length with hlt | rfl | hgt
      · simp [ofList, hlt.ne', List.getElem?_append_left hlt]
      · simp [ofList]
      · have hlong : (nodeIds ++ [member.nodeId]).length ≤ i := by
          rw [List.length_append]
          exact hgt
        simp [ofList, hgt.ne, List.getElem?_eq_none hgt.le, List.getElem?_eq_none hlong]

/-- The stored entries are written as such an array exactly if they are padded. -/
theorem ofList_eq_iff {stored : RouteNodes} :
    ofList nodeIds = stored ↔ nodeIds = stored.toList ∧ stored.Padded := by
  constructor
  · rintro rfl
    exact ⟨(toList_ofList hroom).symm, padded_ofList hroom⟩
  · rintro ⟨hlist, hfew, hzero⟩
    have hlength : nodeIds.length = stored.numNodes.toNat := by
      rw [hlist, toList, List.length_take, Vector.length_toList, Nat.min_eq_left hfew]
    rw [RouteNodes.mk.injEq]
    constructor
    · exact UInt8.toNat.inj ((toNat_numNodes_ofList hroom).trans hlength)
    · refine Vector.ext fun i hi => ?_
      rcases Nat.lt_or_ge i stored.numNodes.toNat with hlt | hge
      · simp [ofList, hlist, toList, hlt, Vector.getElem?_eq_getElem hi]
      · rw [hzero i hge hi]
        simp [ofList, List.getElem?_eq_none (hlength.trans_le hge)]

end

end RouteNodes

namespace RoutedNode

variable (routed : RoutedNode)

/-- `GetNumGroups`. -/
def numGroups : UInt8 :=
  UInt8.ofNat ((List.range 256).countP fun i => (routed.groups (UInt8.ofNat i)).isSome)

/-- `GetAssociations`, in the order of the map. -/
def getAssociations (groupIdx : UInt8) : List InstanceAssociation :=
  match routed.groups groupIdx with
  | none => []
  | some associations => associations.keys

/-- The body of the loop over the groups: the loop over the members of a group. -/
def searchGroup (turns : ℕ) (state : UInt8 × RouteNodes) : Except RouteFault (UInt8 × RouteNodes) :=
  match ByteLoop.loop RouteNodes.addTo (routed.getAssociations state.1) turns 0 (.ok state.2) with
  | none => .error .endless
  | some (.error fault) => .error fault
  | some (.ok chosen) => .ok (state.1 + 1, chosen)

/-- The guard of the loop over the groups. -/
def searches (state : UInt8 × RouteNodes) : Prop :=
  state.1 ≤ routed.numGroups ∧ state.2.numNodes.toNat < 5

instance : DecidablePred routed.searches :=
  fun state => inferInstanceAs (Decidable (state.1 ≤ routed.numGroups ∧ _))

/-- "Determine up to 5 destinations", with loops of at most `turns` turns: the index after
the last group, and the nodes. -/
def chooseNodes (turns : ℕ) : Except RouteFault (UInt8 × RouteNodes) :=
  GuardedLoop.loop routed.searches (routed.searchGroup turns) .endless turns
    (1, { numNodes := 0, nodes := Vector.replicate 5 0 })

/-! ## The nodes that are chosen -/

/-- The nodes of the members of a group. -/
def nodeIds (groupIdx : UInt8) : List UInt8 :=
  (routed.getAssociations groupIdx).map InstanceAssociation.nodeId

/-- The nodes of all groups, in group and member order. -/
def associated : List UInt8 :=
  (List.range 256).flatMap fun i => routed.nodeIds (UInt8.ofNat i)

/-- The first five distinct associated nodes. -/
def destinations : List UInt8 := firstDistinct 5 routed.associated

/-- The nodes of the first groups the loop looks at: 1, 2, and so on. -/
def searched (groups : ℕ) : List UInt8 :=
  (List.range groups).flatMap fun k => routed.nodeIds (UInt8.ofNat (k + 1))

/-- The groups after which the loop finds nothing new: with 255 groups the index goes on with
group 0. -/
def turns : ℕ := if routed.numGroups = 255 then 256 else routed.numGroups.toNat

/-- The state before a turn of the loop over the groups. -/
def stateBefore (k : ℕ) : UInt8 × RouteNodes :=
  (UInt8.ofNat (k + 1), .ofList (firstDistinct 5 (routed.searched k)))

theorem searched_succ (k : ℕ) :
    routed.searched (k + 1) = routed.searched k ++ routed.nodeIds (UInt8.ofNat (k + 1)) := by
  rw [searched, List.range_succ, List.flatMap_append, List.flatMap_singleton]
  rfl

variable {routed}

theorem foldl_addTo {chosen : List UInt8} (members : List InstanceAssociation)
    (hroom : chosen.length ≤ 5) :
    members.foldl RouteNodes.addTo (.ok (RouteNodes.ofList chosen)) =
      .ok (RouteNodes.ofList ((members.map InstanceAssociation.nodeId).foldl (pick 5) chosen)) := by
  induction members generalizing chosen with
  | nil => rfl
  | cons member members ih =>
      have hnext : (pick 5 chosen member.nodeId).length ≤ 5 := by
        rw [pick]
        split
        · exact hroom
        · rename_i hnew
          rw [List.length_append]
          exact Nat.lt_of_not_le (not_or.mp hnew).2
      rw [List.foldl_cons, List.map_cons, List.foldl_cons, ← ih hnext]
      exact congrArg (List.foldl _ · members) (RouteNodes.add_ofList hroom member)

/-- The loop over the members of the group of a turn. -/
theorem foldl_stateBefore (k : ℕ) :
    (routed.getAssociations (routed.stateBefore k).1).foldl RouteNodes.addTo
        (.ok (routed.stateBefore k).2) =
      .ok (routed.stateBefore (k + 1)).2 := by
  dsimp only [stateBefore]
  rw [foldl_addTo _ (length_firstDistinct_le 5 _), foldl_pick, searched_succ]
  rfl

theorem fst_stateBefore_succ (k : ℕ) :
    (routed.stateBefore k).1 + 1 = (routed.stateBefore (k + 1)).1 := by
  simp only [stateBefore, UInt8.ofNat_add]
  rfl

theorem of_searchGroup {turns k : ℕ} {state : UInt8 × RouteNodes}
    (h : routed.searchGroup turns (routed.stateBefore k) = .ok state) :
    (routed.nodeIds (UInt8.ofNat (k + 1))).length < 256 ∧ state = routed.stateBefore (k + 1) := by
  rw [searchGroup] at h
  split at h
  · cases h
  · cases h
  · rename_i chosen hloop
    obtain ⟨hfew, hfold⟩ := ByteLoop.loop_eq_some hloop
    rw [foldl_stateBefore] at hfold
    refine ⟨(List.length_map _).trans_lt hfew, ?_⟩
    rw [← Except.ok.inj h, ← Except.ok.inj hfold, fst_stateBefore_succ]

theorem searchGroup_stateBefore {turns k : ℕ}
    (hfew : (routed.nodeIds (UInt8.ofNat (k + 1))).length < 256) (hturns : 256 ≤ turns) :
    routed.searchGroup turns (routed.stateBefore k) = .ok (routed.stateBefore (k + 1)) := by
  have hmembers : (routed.getAssociations (routed.stateBefore k).1).length < 256 :=
    (List.length_map _).symm.trans_lt hfew
  rw [searchGroup, ByteLoop.loop_of_lt hmembers (Nat.zero_le _) (hmembers.trans_le hturns)]
  rw [UInt8.toNat_zero, List.drop_zero, foldl_stateBefore]
  exact congrArg (fun i => Except.ok (i, (routed.stateBefore (k + 1)).2)) (fst_stateBefore_succ k)

/-- Both loops end: the groups that are looked at before five nodes are found have fewer than
256 members, and of 255 groups not all are left with fewer than five nodes. -/
structure LoopsEnd (routed : RoutedNode) : Prop where
  few : ∀ k < routed.turns, (firstDistinct 5 (routed.searched k)).length < 5 →
    (routed.nodeIds (UInt8.ofNat (k + 1))).length < 256
  found : routed.numGroups = 255 → 5 ≤ (firstDistinct 5 (routed.searched 256)).length

theorem searches_stateBefore_iff (k : ℕ) :
    routed.searches (routed.stateBefore k) ↔
      UInt8.ofNat (k + 1) ≤ routed.numGroups ∧
        (firstDistinct 5 (routed.searched k)).length < 5 := by
  rw [searches, stateBefore, RouteNodes.toNat_numNodes_ofList (length_firstDistinct_le 5 _)]

theorem searches_iff_of_lt {k : ℕ} (hk : k < routed.turns) :
    routed.searches (routed.stateBefore k) ↔
      (firstDistinct 5 (routed.searched k)).length < 5 := by
  rw [searches_stateBefore_iff, and_iff_right]
  rw [UInt8.le_iff_toNat_le, UInt8.toNat_ofNat']
  rw [turns] at hk
  split at hk
  · rename_i hall
    rw [hall]
    exact Nat.le_of_lt_succ (Nat.mod_lt (k + 1) (by decide))
  · have hle := Nat.mod_le (k + 1) (2 ^ 8)
    omega

/-- After the last turn the guard is only met when the index has been around without five
nodes. -/
theorem not_searches_turns
    (hfound : routed.numGroups = 255 → 5 ≤ (firstDistinct 5 (routed.searched 256)).length) :
    ¬ routed.searches (routed.stateBefore routed.turns) := by
  rw [searches_stateBefore_iff, turns]
  split
  · rename_i hall
    exact fun h => Nat.not_lt_of_le (hfound hall) h.2
  · rename_i hfewer
    have hlt := routed.numGroups.toNat_lt
    have hne : routed.numGroups.toNat ≠ 255 := fun h => hfewer (UInt8.toNat.inj h)
    rintro ⟨hindex, -⟩
    have hnext : routed.numGroups.toNat + 1 < UInt8.size := by
      rw [UInt8.size]
      omega
    rw [UInt8.le_iff_toNat_le, UInt8.toNat_ofNat_of_lt' hnext] at hindex
    omega

/-- Once five nodes are found the choice stays. -/
theorem firstDistinct_searched_of_le {n k : ℕ} (hle : n ≤ k)
    (hfull : 5 ≤ (firstDistinct 5 (routed.searched n)).length) :
    firstDistinct 5 (routed.searched k) = firstDistinct 5 (routed.searched n) := by
  induction k, hle using Nat.le_induction with
  | base => rfl
  | succ k hle ih =>
      rw [searched_succ, firstDistinct_append_of_full 5 (ih.symm ▸ hfull), ih]

/-- The first 256 groups the loop looks at are all groups there are. -/
theorem nodeIds_subset_searched (groupIdx : UInt8) :
    routed.nodeIds groupIdx ⊆ routed.searched 256 := by
  intro nodeId hmem
  have hback : UInt8.ofNat ((groupIdx - 1).toNat + 1) = groupIdx := by
    rw [UInt8.ofNat_add, UInt8.ofNat_toNat]
    exact UInt8.sub_add_cancel groupIdx 1
  refine List.mem_flatMap.mpr ⟨(groupIdx - 1).toNat, ?_, hback.symm ▸ hmem⟩
  exact List.mem_range.mpr (groupIdx - 1).toNat_lt

/-- The loop over the groups stops within the turns. -/
theorem le_turns_of_stops {n : ℕ} (hstop : ¬ routed.searches (routed.stateBefore n))
    (hbefore : ∀ m < n, routed.searches (routed.stateBefore m)) : n ≤ routed.turns := by
  by_contra hlt
  have hsearches := hbefore routed.turns (Nat.lt_of_not_le hlt)
  by_cases hall : routed.numGroups = 255
  · have hturns : routed.turns = 256 := if_pos hall
    rw [hturns] at hlt hsearches
    have hsame : ∀ k, 256 ≤ k →
        firstDistinct 5 (routed.searched k) = firstDistinct 5 (routed.searched 256) := by
      intro k hk
      induction k, hk using Nat.le_induction with
      | base => rfl
      | succ k hk ih =>
          have hsubset : routed.nodeIds (UInt8.ofNat (k + 1)) ⊆ routed.searched k := by
            refine fun nodeId hmem => ?_
            obtain ⟨m, hm, hnode⟩ := List.mem_flatMap.mp (nodeIds_subset_searched _ hmem)
            exact List.mem_flatMap.mpr
              ⟨m, List.mem_range.mpr ((List.mem_range.mp hm).trans_le hk), hnode⟩
          rw [searched_succ, firstDistinct_append_of_subset 5 hsubset, ih]
    apply hstop
    rw [searches_stateBefore_iff, hall, hsame n (Nat.le_of_lt (Nat.lt_of_not_le hlt))]
    refine ⟨?_, ((searches_stateBefore_iff 256).mp hsearches).2⟩
    exact UInt8.le_iff_toNat_le.mpr (Nat.le_of_lt_succ (UInt8.toNat_lt _))
  · exact not_searches_turns (fun h => absurd h hall) hsearches

/-- With enough turns the loops return exactly if they end, and then the first five distinct
nodes of the groups that are looked at are chosen. -/
theorem exists_chooseNodes_iff {chosen : RouteNodes} :
    (∃ turns i, routed.chooseNodes turns = .ok (i, chosen)) ↔
      routed.LoopsEnd ∧
        chosen = .ofList (firstDistinct 5 (routed.searched routed.turns)) := by
  have hstart : ((1 : UInt8), ({ numNodes := 0, nodes := Vector.replicate 5 0 } : RouteNodes)) =
      routed.stateBefore 0 := by
    rfl
  constructor
  · rintro ⟨turns, i, h⟩
    rw [chooseNodes, hstart] at h
    obtain ⟨n, -, hstop, hbefore, heq⟩ := GuardedLoop.stops_of_loop
      (fun k state _ hbody => of_searchGroup hbody) h
    have hle : n ≤ routed.turns :=
      le_turns_of_stops hstop fun m hm => (hbefore m (Nat.zero_le m) hm).1
    have hchosen : chosen = .ofList (firstDistinct 5 (routed.searched n)) := congrArg Prod.snd heq
    have hfull : n < routed.turns → 5 ≤ (firstDistinct 5 (routed.searched n)).length := by
      intro hlt
      exact Nat.le_of_not_lt fun hshort => hstop ((searches_iff_of_lt hlt).mpr hshort)
    have hsame : firstDistinct 5 (routed.searched routed.turns) =
        firstDistinct 5 (routed.searched n) := by
      rcases Nat.eq_or_lt_of_le hle with rfl | hlt
      · rfl
      · exact firstDistinct_searched_of_le hle (hfull hlt)
    refine ⟨⟨fun k hk hshort => ?_, fun hall => ?_⟩, hsame ▸ hchosen⟩
    · refine (hbefore k (Nat.zero_le k) (Nat.lt_of_not_le fun hnk => ?_)).2
      have hfound := hfull (hnk.trans_lt hk)
      rw [firstDistinct_searched_of_le hnk hfound] at hshort
      exact Nat.not_lt_of_le hfound hshort
    · have hturns : routed.turns = 256 := if_pos hall
      rw [hturns] at hsame hle hfull
      rw [hsame]
      rcases Nat.eq_or_lt_of_le hle with rfl | hlt
      · refine Nat.le_of_not_lt fun hshort => hstop ?_
        rw [searches_stateBefore_iff, hall]
        exact ⟨by decide, hshort⟩
      · exact hfull hlt
  · rintro ⟨⟨hfew, hfound⟩, rfl⟩
    have hexists : ∃ n, ¬ routed.searches (routed.stateBefore n) :=
      ⟨routed.turns, not_searches_turns hfound⟩
    have hstop := Nat.find_spec hexists
    have hle : Nat.find hexists ≤ routed.turns := Nat.find_min' hexists (not_searches_turns hfound)
    have hbefore : ∀ m < Nat.find hexists, routed.searches (routed.stateBefore m) :=
      fun m hm => not_not.mp (Nat.find_min hexists hm)
    have hsame : firstDistinct 5 (routed.searched routed.turns) =
        firstDistinct 5 (routed.searched (Nat.find hexists)) := by
      rcases Nat.eq_or_lt_of_le hle with heq | hlt
      · rw [heq]
      · refine firstDistinct_searched_of_le hle (Nat.le_of_not_lt fun hshort => hstop ?_)
        exact (searches_iff_of_lt hlt).mpr hshort
    refine ⟨256 + routed.turns + 1, UInt8.ofNat (Nat.find hexists + 1), ?_⟩
    rw [chooseNodes, hstart, hsame]
    refine GuardedLoop.loop_of_stops (Nat.zero_le _) (by omega) hstop fun m _ hm => ?_
    have hsearches := hbefore m hm
    have hlt : m < routed.turns := hm.trans_le hle
    exact ⟨hsearches, searchGroup_stateBefore (hfew m hlt ((searches_iff_of_lt hlt).mp hsearches))
      (by omega)⟩

/-- The groups that are looked at are enough: the nodes of group 0, which comes first in the
map, are found first, and unless five nodes are found the groups with an index above the
number of groups have no other nodes. -/
structure GroupsSearched (routed : RoutedNode) : Prop where
  front : firstDistinct 5 (routed.nodeIds 0) <+: firstDistinct 5 (routed.searched routed.turns)
  beyond : 5 ≤ (firstDistinct 5 (routed.searched routed.turns)).length ∨
    ∀ i, routed.numGroups < i → routed.nodeIds i ⊆ routed.searched routed.turns

/-- Groups that are numbered from 1 on are enough. -/
theorem groupsSearched_of_numbered
    (h : ∀ i, routed.groups i ≠ none → 0 < i ∧ i ≤ routed.numGroups) : routed.GroupsSearched := by
  have hnone : ∀ i, ¬ (0 < i ∧ i ≤ routed.numGroups) → routed.nodeIds i = [] := by
    intro i hi
    have hmissing : routed.groups i = none := not_not.mp (mt (h i) hi)
    rw [nodeIds, getAssociations, hmissing]
    rfl
  refine ⟨?_, Or.inr fun i hi => ?_⟩
  · rw [hnone 0 fun h => absurd h.1 (by decide), firstDistinct_nil]
    exact List.nil_prefix
  · rw [hnone i fun h => UInt8.not_le.mpr hi h.2]
    exact List.nil_subset _

variable (routed) in
/-- The nodes of the groups with an index above the number of groups. -/
def beyond : List UInt8 :=
  (List.range (255 - routed.numGroups.toNat)).flatMap fun k =>
    routed.nodeIds (UInt8.ofNat (routed.numGroups.toNat + k + 1))

theorem beyond_subset_iff {nodeIds : List UInt8} :
    routed.beyond ⊆ nodeIds ↔ ∀ i, routed.numGroups < i → routed.nodeIds i ⊆ nodeIds := by
  constructor
  · intro h i hi nodeId hmem
    rw [UInt8.lt_iff_toNat_lt] at hi
    have hlt := i.toNat_lt
    have hindex : routed.numGroups.toNat + (i.toNat - routed.numGroups.toNat - 1) + 1 = i.toNat := by
      omega
    refine h (List.mem_flatMap.mpr ⟨i.toNat - routed.numGroups.toNat - 1, ?_, ?_⟩)
    · exact List.mem_range.mpr (by omega)
    · rwa [hindex, UInt8.ofNat_toNat]
  · intro h nodeId hmem
    obtain ⟨k, hk, hmem⟩ := List.mem_flatMap.mp hmem
    have hk := List.mem_range.mp hk
    have hsize : routed.numGroups.toNat + k + 1 < UInt8.size := by
      rw [UInt8.size]
      omega
    refine h _ (UInt8.lt_iff_toNat_lt.mpr ?_) hmem
    rw [UInt8.toNat_ofNat_of_lt' hsize]
    omega

theorem associated_eq : routed.associated = routed.nodeIds 0 ++ routed.searched 255 := by
  rw [associated, List.range_succ_eq_map, List.flatMap_cons, List.flatMap_map]
  rfl

theorem searched_eq :
    routed.searched 255 = routed.searched routed.numGroups.toNat ++ routed.beyond := by
  have hsum : 255 = routed.numGroups.toNat + (255 - routed.numGroups.toNat) := by
    have := routed.numGroups.toNat_lt
    omega
  rw [searched, hsum, List.range_add, List.flatMap_append, List.flatMap_map]
  rfl

theorem destinations_eq :
    routed.destinations =
      firstDistinct 5 (routed.nodeIds 0 ++ (routed.searched routed.turns ++ routed.beyond)) := by
  rw [destinations, associated_eq, turns]
  split
  · rename_i hall
    have hnone : routed.beyond = [] := by
      rw [beyond, hall]
      rfl
    have hagain : UInt8.ofNat (255 + 1) = 0 := rfl
    rw [hnone, List.append_nil, searched_succ routed 255, hagain, ← List.append_assoc]
    exact (firstDistinct_append_of_subset 5 (List.subset_append_left _ _)).symm
  · rw [← searched_eq]

/-- The first five nodes of the groups that are looked at are those of all groups exactly if
these groups are enough. -/
theorem firstDistinct_searched_eq_iff :
    firstDistinct 5 (routed.searched routed.turns) = routed.destinations ↔
      routed.GroupsSearched := by
  rw [destinations_eq, eq_comm, firstDistinct_around_eq_iff, beyond_subset_iff]
  exact ⟨fun h => ⟨h.1, h.2⟩, fun h => ⟨h.front, h.beyond⟩⟩

end RoutedNode

/-- The command for a route of a node, as `BeginControllerCommand` makes it without a
callback. -/
def routeCommand (command : ControllerCommand) (nodeId arg : UInt8) : ControllerCommandItem where
  state := .normal
  stateChanged := false
  done := false
  command := command
  callback := none
  returnError := .none
  highPower := true
  added := false
  node := nodeId
  arg := arg

/-- The commands that make these nodes the destinations of the routes of a node. -/
def routeCommands (nodeId : UInt8) (destinations : List UInt8) : List ControllerCommandItem :=
  routeCommand .deleteAllReturnRoutes nodeId 0 ::
    destinations.map (routeCommand .assignReturnRoute nodeId)

/-- The pending queue tells one assignment at most apart. -/
theorem pairwise_routeCommands_iff {nodeId : UInt8} {destinations : List UInt8} :
    (routeCommands nodeId destinations).Pairwise ControllerCommandItem.Differs ↔
      destinations.length ≤ 1 := by
  constructor
  · intro h
    match destinations, h with
    | [], _ => exact Nat.zero_le 1
    | [_], _ => exact Nat.le_refl 1
    | first :: second :: rest, h =>
        have hassigns := (List.pairwise_cons.mp h).2
        rw [List.map_cons, List.map_cons] at hassigns
        exact absurd ⟨rfl, rfl⟩ ((List.pairwise_cons.mp hassigns).1 _ List.mem_cons_self)
  · intro h
    match destinations, h with
    | [], _ => exact List.pairwise_singleton _ _
    | [_], _ => exact List.pairwise_pair.mpr fun hsame => nomatch hsame.1

namespace Driver

/-- `UpdateNodeRoutes`. -/
def updateNodeRoutes (d : Driver) (turns : ℕ) (nodeId : UInt8) (routed : RoutedNode)
    (doUpdate : Bool) : Except RouteFault (Driver × RoutedNode) := do
  if (d.nodes nodeId).isSome ∧ routed.basic = 0x04 then
    let (_, chosen) ← routed.chooseNodes turns
    if doUpdate ∨ chosen.numNodes ≠ routed.routes.numNodes ∨ chosen.nodes ≠ routed.routes.nodes then
      let d := d.beginControllerCommand (routeCommand .deleteAllReturnRoutes nodeId 0)
      let d := chosen.toList.foldl (fun d destination =>
        d.beginControllerCommand (routeCommand .assignReturnRoute nodeId destination)) d
      return (d, { routed with routes := chosen })
    else return (d, routed)
  else return (d, routed)

/-- The addresses of the commands that are begun between two states. -/
def begunBetween (d d' : Driver) : List CciRef := List.range' d.nextCci (d'.nextCci - d.nextCci)

/-- What is asked of an update of the routes of a node: the first five nodes are chosen, the
commands for them are begun if they are not the stored ones or an update is forced, and
they are all queued or pending when the node goes to sleep. -/
structure RoutesUpdated (d : Driver) (nodeId : UInt8) (routed : RoutedNode) (doUpdate : Bool)
    (chosen : RouteNodes) (d' : Driver) : Prop where
  first : chosen.toList = routed.destinations
  commands : (begunBetween d d').map d'.ccis =
    if doUpdate = true ∨ chosen.toList ≠ routed.routes.toList then
      routeCommands nodeId chosen.toList
    else []
  queued : d'.msgQueue .controller =
    d.msgQueue .controller ++ (begunBetween d d').map .controller
  kept : ∀ cci ∈ begunBetween d d', (d'.moveMessagesToWakeUpQueue nodeId true).1.Queued nodeId cci

/-- `UpdateNodeRoutes` returns, no write is past the array, and the update is as asked. -/
def SelectsRoutes (d : Driver) (nodeId : UInt8) (routed : RoutedNode) (doUpdate : Bool) : Prop :=
  ∃ turns i chosen d' routed', routed.chooseNodes turns = .ok (i, chosen) ∧
    d.updateNodeRoutes turns nodeId routed doUpdate = .ok (d', routed') ∧
    RoutesUpdated d nodeId routed doUpdate chosen d'

/-- The loops end, the groups they look at are enough, the stored nodes are compared as a list,
and a node that sleeps has one destination at most. -/
structure RoutesFit (d : Driver) (nodeId : UInt8) (node : Node) (routed : RoutedNode)
    (doUpdate : Bool) : Prop where
  ends : routed.LoopsEnd
  searched : routed.GroupsSearched
  stored : doUpdate = true ∨ routed.destinations ≠ routed.routes.toList ∨ routed.routes.Padded
  kept : doUpdate = false ∧ routed.destinations = routed.routes.toList ∨
    ¬ sleeps nodeId d node ∨ routed.destinations.length ≤ 1

section

variable {d d' : Driver} {nodeId : UInt8} {routed : RoutedNode} {doUpdate : Bool}
  {chosen : List UInt8}

theorem updateNodeRoutes_eq {turns : ℕ} {i : UInt8} (hnode : (d.nodes nodeId).isSome)
    (hbasic : routed.basic = 0x04) (hroom : chosen.length ≤ 5)
    (hchosen : routed.chooseNodes turns = .ok (i, .ofList chosen)) :
    d.updateNodeRoutes turns nodeId routed doUpdate =
      if doUpdate = true ∨ RouteNodes.ofList chosen ≠ routed.routes then
        .ok (d.beginCommands (routeCommands nodeId chosen),
          { routed with routes := .ofList chosen })
      else .ok (d, routed) := by
  have hdiffers : (RouteNodes.ofList chosen).numNodes ≠ routed.routes.numNodes ∨
      (RouteNodes.ofList chosen).nodes ≠ routed.routes.nodes ↔
      RouteNodes.ofList chosen ≠ routed.routes := by
    rw [← not_and_or, ← RouteNodes.ext_iff]
  have hbegun : (RouteNodes.ofList chosen).toList.foldl (fun d destination =>
      d.beginControllerCommand (routeCommand .assignReturnRoute nodeId destination))
        (d.beginControllerCommand (routeCommand .deleteAllReturnRoutes nodeId 0)) =
      d.beginCommands (routeCommands nodeId chosen) := by
    rw [RouteNodes.toList_ofList hroom]
    exact List.foldl_map.symm
  rw [updateNodeRoutes, if_pos ⟨hnode, hbasic⟩, hchosen]
  by_cases hbegins : doUpdate = true ∨ RouteNodes.ofList chosen ≠ routed.routes
  · rw [if_pos hbegins, ← hbegun]
    exact if_pos (hbegins.imp_right hdiffers.mpr)
  · rw [if_neg hbegins]
    exact if_neg fun h => hbegins (h.imp_right hdiffers.mp)

theorem begun_routeCommands (d : Driver) (nodeId : UInt8) (chosen : List UInt8) :
    Begun d (routeCommands nodeId chosen) (d.beginCommands (routeCommands nodeId chosen)) := by
  refine begun_beginCommands d ?_
  rw [routeCommands, List.forall_mem_cons, List.forall_mem_map]
  exact ⟨nofun, fun _ _ => nofun⟩

theorem begunBetween_of_begun {items : List ControllerCommandItem} (hbegun : Begun d items d') :
    begunBetween d d' = List.range' d.nextCci items.length := by
  rw [begunBetween, hbegun.next, Nat.add_sub_cancel_left]

/-- What the commands of an update become when the node goes to sleep. -/
theorem kept_routeCommands_iff (hsignals : d.Signals) {node : Node}
    (hnode : d.nodes nodeId = some node) :
    (∀ cci ∈ begunBetween d (d.beginCommands (routeCommands nodeId chosen)),
      ((d.beginCommands (routeCommands nodeId chosen)).moveMessagesToWakeUpQueue nodeId true).1.Queued
        nodeId cci) ↔
      ¬ sleeps nodeId d node ∨ chosen.length ≤ 1 := by
  have hbegun := begun_routeCommands d nodeId chosen
  have hafter := signals_beginCommands hsignals (routeCommands nodeId chosen)
  generalize d.beginCommands (routeCommands nodeId chosen) = e at hbegun hafter ⊢
  have hnode' : e.nodes nodeId = some node := hbegun.nodes ▸ hnode
  have hsleeps : sleeps nodeId e node ↔ sleeps nodeId d node := by
    rw [sleeps, sleeps, hbegun.controller]
  rw [begunBetween_of_begun hbegun, ← hsleeps]
  by_cases hsleep : sleeps nodeId e node
  · obtain ⟨-, hmoved, hrequeued⟩ := moved_moveMessagesToWakeUpQueue nodeId hnode' hsleep
    have hitems : ∀ item ∈ routeCommands nodeId chosen, item.node = nodeId := by
      rw [routeCommands, List.forall_mem_cons, List.forall_mem_map]
      exact ⟨rfl, fun _ _ => rfl⟩
    rw [queued_of_moved_iff hbegun hafter.commands hitems hmoved hrequeued,
      pairwise_routeCommands_iff, or_iff_right (not_not.mpr hsleep)]
  · refine iff_of_true (fun cci hcci => Or.inl ?_) (Or.inl hsleep)
    have hqueue : (e.moveMessagesToWakeUpQueue nodeId true).1.msgQueue = e.msgQueue := by
      rcases moveMessagesToWakeUpQueue_cases nodeId e true with
        hsame | ⟨other, -, hasleep⟩ | ⟨-, other, hother, hsleepOther, -⟩
      · rw [hsame]
      · obtain ⟨nodes, notifications, heq, -⟩ := setAsleep_eq nodeId e other
        rw [hasleep, heq]
      · cases hnode'.symm.trans hother
        exact absurd hsleepOther hsleep
    rw [hqueue, hbegun.queued]
    exact List.mem_append_right _ (List.mem_map_of_mem hcci)

/-- What an update of chosen nodes meets. -/
theorem routesUpdated_iff (hsignals : d.Signals) {node : Node} (hnode : d.nodes nodeId = some node)
    (hroom : chosen.length ≤ 5) :
    RoutesUpdated d nodeId routed doUpdate (.ofList chosen)
        (if doUpdate = true ∨ RouteNodes.ofList chosen ≠ routed.routes then
          d.beginCommands (routeCommands nodeId chosen)
        else d) ↔
      chosen = routed.destinations ∧
        (doUpdate = true ∨ chosen ≠ routed.routes.toList ∨ routed.routes.Padded) ∧
        (doUpdate = false ∧ chosen = routed.routes.toList ∨
          ¬ sleeps nodeId d node ∨ chosen.length ≤ 1) := by
  have hlist := RouteNodes.toList_ofList hroom
  have hbegun := begun_routeCommands d nodeId chosen
  have hcreated := hbegun.created
  rw [← begunBetween_of_begun hbegun] at hcreated
  have hsame : (routeCommands nodeId chosen).map ControllerCommandItem.begun =
      routeCommands nodeId chosen := by
    simp [routeCommands, routeCommand, ControllerCommandItem.begun]
  by_cases hasked : doUpdate = true ∨ chosen ≠ routed.routes.toList
  · -- the commands are asked for, and they are begun
    have hbegins : doUpdate = true ∨ RouteNodes.ofList chosen ≠ routed.routes :=
      hasked.imp_right fun hne heq => hne ((RouteNodes.ofList_eq_iff hroom).mp heq).1
    have hkept := @kept_routeCommands_iff d nodeId chosen hsignals node hnode
    rw [if_pos hbegins]
    constructor
    · intro h
      exact ⟨hlist.symm.trans h.first, hasked.imp_right Or.inl, Or.inr (hkept.mp h.kept)⟩
    · rintro ⟨hfirst, -, hstays⟩
      refine ⟨hlist.trans hfirst, ?_, ?_, hkept.mpr (hstays.resolve_left ?_)⟩
      · rw [hlist, if_pos hasked, hcreated, hsame]
      · rw [begunBetween_of_begun hbegun]
        exact hbegun.queued
      · rintro ⟨hforced, hstored⟩
        exact hasked.elim (fun h => Bool.false_ne_true (hforced.symm.trans h)) fun hne => hne hstored
  · -- nothing is asked for: the stored nodes have to be padded
    obtain ⟨hforced, hstored⟩ := not_or.mp hasked
    have hforced := Bool.eq_false_iff.mpr hforced
    have hstored := not_not.mp hstored
    have heq : RouteNodes.ofList chosen = routed.routes ↔ routed.routes.Padded :=
      (RouteNodes.ofList_eq_iff hroom).trans (and_iff_right hstored)
    by_cases hpadded : routed.routes.Padded
    · have hstays : ¬ (doUpdate = true ∨ RouteNodes.ofList chosen ≠ routed.routes) := by
        rw [hforced]
        exact fun h => h.elim nofun fun hne => hne (heq.mpr hpadded)
      have hnone : begunBetween d d = [] := by
        rw [begunBetween, Nat.sub_self]
        rfl
      rw [if_neg hstays]
      constructor
      · intro h
        exact ⟨hlist.symm.trans h.first, Or.inr (Or.inr hpadded), Or.inl ⟨hforced, hstored⟩⟩
      · rintro ⟨hfirst, -, -⟩
        refine ⟨hlist.trans hfirst, ?_, ?_, ?_⟩
        · rw [hlist, if_neg hasked, hnone]
          rfl
        · rw [hnone]
          exact (List.append_nil _).symm
        · rw [hnone]
          exact fun _ => nofun
    · have hbegins : doUpdate = true ∨ RouteNodes.ofList chosen ≠ routed.routes :=
        Or.inr (mt heq.mp hpadded)
      rw [if_pos hbegins]
      refine iff_of_false (fun h => ?_) fun h => ?_
      · have hnothing := h.commands
        rw [hlist, if_neg hasked, hcreated, hsame] at hnothing
        exact List.cons_ne_nil _ _ hnothing
      · rcases h.2.1 with hforce | hne | hpad
        · exact Bool.false_ne_true (hforced.symm.trans hforce)
        · exact hne hstored
        · exact hpadded hpad

theorem selectsRoutes_iff_of_signals (hsignals : d.Signals) {node : Node}
    (hnode : d.nodes nodeId = some node) (hbasic : routed.basic = 0x04) :
    d.SelectsRoutes nodeId routed doUpdate ↔ RoutesFit d nodeId node routed doUpdate := by
  have hroom := length_firstDistinct_le 5 (routed.searched routed.turns)
  have hresult := fun turns i => @updateNodeRoutes_eq d nodeId routed doUpdate _ turns i
    (hnode ▸ rfl) hbasic hroom
  have hupdated := @routesUpdated_iff d nodeId routed doUpdate _ hsignals node hnode hroom
  rw [RoutedNode.firstDistinct_searched_eq_iff] at hupdated
  constructor
  · rintro ⟨turns, i, chosen, d', routed', hchosen, hupdate, hmeets⟩
    obtain ⟨hends, rfl⟩ := RoutedNode.exists_chooseNodes_iff.mp ⟨turns, i, hchosen⟩
    rw [hresult turns i hchosen] at hupdate
    have hd : d' = if doUpdate = true ∨ RouteNodes.ofList
        (firstDistinct 5 (routed.searched routed.turns)) ≠ routed.routes then
          d.beginCommands (routeCommands nodeId (firstDistinct 5 (routed.searched routed.turns)))
        else d := by
      split at hupdate
      · rename_i hbegins
        rw [if_pos hbegins]
        exact (congrArg Prod.fst (Except.ok.inj hupdate)).symm
      · rename_i hstays
        rw [if_neg hstays]
        exact (congrArg Prod.fst (Except.ok.inj hupdate)).symm
    rw [hd] at hmeets
    obtain ⟨hsearched, hstored, hkept⟩ := hupdated.mp hmeets
    rw [RoutedNode.firstDistinct_searched_eq_iff.mpr hsearched] at hstored hkept
    exact ⟨hends, hsearched, hstored, hkept⟩
  · rintro ⟨hends, hsearched, hstored, hkept⟩
    obtain ⟨turns, i, hchosen⟩ := RoutedNode.exists_chooseNodes_iff.mpr ⟨hends, rfl⟩
    rw [← RoutedNode.firstDistinct_searched_eq_iff.mpr hsearched] at hstored hkept
    have hmeets := hupdated.mpr ⟨hsearched, hstored, hkept⟩
    have hupdate := hresult turns i hchosen
    split at hupdate
    · rename_i hbegins
      rw [if_pos hbegins] at hmeets
      exact ⟨turns, i, _, _, _, hchosen, hupdate, hmeets⟩
    · rename_i hstays
      rw [if_neg hstays] at hmeets
      exact ⟨turns, i, _, _, _, hchosen, hupdate, hmeets⟩

end

/-- In every state of every run, for a routing slave: the routes are selected exactly if they
fit. -/
theorem selectsRoutes_iff (homeId : UInt32) (controllerNodeId : UInt8) (events : List Event)
    (nodeId : UInt8) (node : Node) (routed : RoutedNode) (doUpdate : Bool)
    (hnode : (run step (new homeId controllerNodeId) events).nodes nodeId = some node)
    (hbasic : routed.basic = 0x04) :
    (run step (new homeId controllerNodeId) events).SelectsRoutes nodeId routed doUpdate ↔
      RoutesFit (run step (new homeId controllerNodeId) events) nodeId node routed doUpdate :=
  selectsRoutes_iff_of_signals (signals_after homeId controllerNodeId events) hnode hbasic

/-- A routing slave without groups. -/
def ungrouped : RoutedNode where
  basic := 0x04
  groups := fun _ => none
  routes := { numNodes := 0, nodes := Vector.replicate 5 0 }

/-- Its routes are deleted when an update is forced. -/
theorem selectsRoutes_ungrouped :
    (run step (new 1 1) [.call (.newNode 5 sleeper)]).SelectsRoutes 5 ungrouped true := by
  have hnone : ungrouped.numGroups = 0 := by decide +kernel
  have hturns : ungrouped.turns = 0 := by
    rw [RoutedNode.turns, hnone]
    rfl
  have hdestinations : ungrouped.destinations = [] := by
    have hassociated : ungrouped.associated = [] := List.flatMap_eq_nil_iff.mpr fun _ _ => rfl
    rw [RoutedNode.destinations, hassociated, firstDistinct_nil]
  refine (selectsRoutes_iff 1 1 [.call (.newNode 5 sleeper)] 5 sleeper ungrouped true rfl rfl).mpr
    ⟨⟨fun k hk => ?_, fun hall => ?_⟩, ⟨List.nil_prefix, Or.inr fun _ _ => List.nil_subset _⟩,
      Or.inl rfl, Or.inr (Or.inr ?_)⟩
  · rw [hturns] at hk
    exact absurd hk (Nat.not_lt_zero k)
  · rw [hnone] at hall
    exact absurd hall (by decide)
  · rw [hdestinations]
    exact Nat.zero_le 1

/-- A routing slave whose only group is group 255, with node 2 in it. -/
def lifelineOnly : RoutedNode :=
  { ungrouped with
    groups := fun i =>
      if i = 255 then some (AssociationMap.addMember ∅ { nodeId := 2, endPoint := 0 }) else none }

/-- Node 2 is not among its destinations. -/
theorem selectsRoutes_fails :
    ¬ (run step (new 1 1) [.call (.newNode 5 sleeper)]).SelectsRoutes 5 lifelineOnly false := by
  have hone : lifelineOnly.numGroups = 1 := by decide +kernel
  have hturns : lifelineOnly.turns = 1 := by
    rw [RoutedNode.turns, hone]
    rfl
  have hsearched : lifelineOnly.searched lifelineOnly.turns = [] := by
    rw [hturns]
    rfl
  have hmember : 2 ∈ lifelineOnly.nodeIds 255 := by
    refine List.mem_map.mpr ⟨{ nodeId := 2, endPoint := 0 }, ?_, rfl⟩
    exact Std.ExtTreeMap.mem_keys.mpr Std.ExtTreeMap.mem_insert_self
  intro hselects
  obtain ⟨-, hsearches, -, -⟩ :=
    (selectsRoutes_iff_of_signals (signals_after 1 1 _) rfl rfl).mp hselects
  rcases hsearches.beyond with hfull | hnone
  · rw [hsearched] at hfull
    exact absurd hfull (by decide)
  · have hmem := hnone 255 (by rw [hone]; decide) hmember
    rw [hsearched] at hmem
    cases hmem

end Driver

end OpenZWave
