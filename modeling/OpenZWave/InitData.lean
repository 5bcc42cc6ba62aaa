import Mathlib.Data.Nat.Bitwise
import Mathlib.Tactic.IntervalCases
import OpenZWave.Lib.BitField
import OpenZWave.Lib.Sweep
import OpenZWave.Node
import OpenZWave.NodeQueries

/-!
# The nodes of the network

The controller answers with one bit for each node it knows. The driver goes through
these bits and makes its table of nodes agree: new nodes are created, those that are gone
are deleted. Virtual nodes, which the controller plays itself, are not created.
-/

namespace OpenZWave

open BitField Sweep

/-- The notifications of the modelled functions. -/
inductive TableNotice
  | driverFailed
  | driverReset
  | nodeAdded (nodeId : UInt8)
  | nodeNew (nodeId : UInt8)
  | nodeRemoved (nodeId : UInt8)
  deriving DecidableEq

namespace Node

/-- The constructor. -/
def create (nodeId : UInt8) : Node :=
  ({ nodeId := nodeId
     commandClassMap := fun _ => none
     queryStage := .none
     listening := true
     frequentListening := false
     nodeAlive := true
     wakeUp := { awake := true, pendingQueue := [] } } : Node)
    |>.addCommandClass ClassId.noOperation |>.addCommandClass ClassId.manufacturerSpecific

/-- `SetQueryStage`; `advanceQueries` is what `AdvanceQueries` makes of the node. -/
def setQueryStage (advanceQueries : Node → Node) (stage : QueryStage) (node : Node) : Node :=
  advanceQueries
    (if stage.number < node.queryStage.number then { node with queryStage := stage } else node)

end Node

/-- What the response reads and writes: the table of nodes, the notifications, and the
calls of `InitNode`. `stopped` says that the driver thread has been stopped. -/
structure NodeTable where
  homeId : UInt32
  controllerNodeId : UInt8
  init : Bool
  initVersion : UInt8
  initCaps : UInt8
  driverReady : Bool
  stopped : Bool
  virtualNeighbors : List UInt8
  nodes : UInt8 → Option Node
  notices : List TableNotice
  initNodes : List UInt8

namespace NodeTable

/-- `QueueNotification`. -/
def queueNotification (t : NodeTable) (notice : TableNotice) : NodeTable :=
  { t with notices := t.notices ++ [notice] }

def setNode (t : NodeTable) (nodeId : UInt8) (node : Option Node) : NodeTable :=
  { t with nodes := Function.update t.nodes nodeId node }

/-- `IsVirtualNode`. -/
def isVirtualNode (t : NodeTable) (nodeId : UInt8) : Bool :=
  t.virtualNeighbors.getD ((nodeId - 1) >>> 3).toNat 0 &&& (1 <<< ((nodeId - 1) &&& 0x07)) ≠ 0

/-- `ReadCache`: the nodes that the file has, as they are read. -/
def readCache (cache : List Node) (t : NodeTable) : NodeTable :=
  cache.foldl (fun t node =>
    (t.setNode node.nodeId (some node)).queueNotification (.nodeAdded node.nodeId)) t

/-- `InitNode` without protocol info. -/
def initNode (advanceQueries : Node → Node) (t : NodeTable) (nodeId : UInt8) : NodeTable :=
  let t := { t with initNodes := t.initNodes ++ [nodeId] }
  let t :=
    match t.nodes nodeId with
    | some _ => (t.setNode nodeId none).queueNotification (.nodeRemoved nodeId)
    | none => t
  let t := t.queueNotification (.nodeAdded nodeId)
  t.setNode nodeId (some ((Node.create nodeId).setQueryStage advanceQueries .protocolInfo))

/-- A bit of the response. -/
def bitOf (data : List UInt8) (i j : ℕ) : Bool :=
  data.getD (i + 5) 0 &&& (1 <<< UInt8.ofNat j) ≠ 0

/-- The body of the loops over the bytes and their bits. -/
def syncNode (advanceQueries : Node → Node) (data : List UInt8) (t : NodeTable) (i j : ℕ) :
    NodeTable :=
  let nodeId := UInt8.ofNat (i * 8 + j + 1)
  if bitOf data i j then
    if t.isVirtualNode nodeId then t
    else
      match t.nodes nodeId with
      | some node =>
          if !t.init then
            t.setNode nodeId (some (node.setQueryStage advanceQueries .cacheLoad))
          else t
      | none => (t.queueNotification (.nodeNew nodeId)).initNode advanceQueries nodeId
  else
    match t.nodes nodeId with
    | some _ => (t.setNode nodeId none).queueNotification (.nodeRemoved nodeId)
    | none => t

/-- `HandleSerialAPIGetInitDataResponse` up to the bitmap: at the first response the cache
is read. -/
def opened (cache : List Node) (t : NodeTable) : NodeTable :=
  if !t.init then readCache cache { t with driverReady := true }
  else t.queueNotification .driverReset

/-- `HandleSerialAPIGetInitDataResponse`. -/
def handleSerialAPIGetInitDataResponse (advanceQueries : Node → Node) (cache : List Node)
    (data : List UInt8) (t : NodeTable) : NodeTable :=
  if t.homeId = 0 ∨ t.controllerNodeId = 255 ∨ t.controllerNodeId = 0 then
    { t.queueNotification .driverFailed with stopped := true }
  else
    let t := { t.opened cache with initVersion := data.getD 2 0, initCaps := data.getD 3 0 }
    let t :=
      if (data.getD 4 0).toNat = numNodeBitfieldBytes then
        (List.range numNodeBitfieldBytes).foldl (fun t i =>
          (List.range 8).foldl (fun t j => t.syncNode advanceQueries data i j) t) t
      else t
    { t with init := true }

/-! ## What the response is for -/

/-- The bit of a node: bit `k` of byte `i` stands for node `8 * i + k + 1`. -/
def InNetwork (data : List UInt8) (nodeId : UInt8) : Prop :=
  (data.getD (5 + (nodeId.toNat - 1) / 8) 0).toNat.testBit ((nodeId.toNat - 1) % 8) = true

/-- The ids that have a bit. -/
def HasBit (nodeId : UInt8) : Prop := 1 ≤ nodeId.toNat ∧ nodeId.toNat ≤ 232

instance (data : List UInt8) (nodeId : UInt8) : Decidable (InNetwork data nodeId) := by
  unfold InNetwork
  infer_instance

instance (nodeId : UInt8) : Decidable (HasBit nodeId) := by
  unfold HasBit
  infer_instance

/-- The table agrees with the bits, and notifications and calls of `InitNode` tell the
difference to the table before. -/
structure Synced (advanceQueries : Node → Node) (data : List UInt8) (before after : NodeTable) :
    Prop where
  agrees : ∀ id, HasBit id → before.isVirtualNode id = false →
    ((after.nodes id).isSome = true ↔ InNetwork data id)
  kept : ∀ id, HasBit id → InNetwork data id → ∀ node, before.nodes id = some node →
    after.nodes id = some (if before.init = false ∧ before.isVirtualNode id = false then
      node.setQueryStage advanceQueries .cacheLoad else node)
  gone : ∀ id, HasBit id → ¬ InNetwork data id → after.nodes id = none
  notCreated : ∀ id, HasBit id → before.isVirtualNode id = true → before.nodes id = none →
    after.nodes id = none
  removals : ∀ id, after.notices.count (.nodeRemoved id) = before.notices.count (.nodeRemoved id) +
    if HasBit id ∧ (before.nodes id).isSome = true ∧ ¬ InNetwork data id then 1 else 0
  news : ∀ id, after.notices.count (.nodeNew id) = before.notices.count (.nodeNew id) +
    if HasBit id ∧ before.nodes id = none ∧ InNetwork data id ∧ before.isVirtualNode id = false
    then 1 else 0
  inits : ∀ id, after.initNodes.count id = before.initNodes.count id +
    if HasBit id ∧ before.nodes id = none ∧ InNetwork data id ∧ before.isVirtualNode id = false
    then 1 else 0
  untouched : ∀ id, ¬ HasBit id → after.nodes id = before.nodes id

/-- Nothing of the table has changed. -/
structure Unchanged (before after : NodeTable) : Prop where
  nodes : after.nodes = before.nodes
  notices : after.notices = before.notices
  initNodes : after.initNodes = before.initNodes

/-! ## The loops as one sweep -/

section

variable {advanceQueries : Node → Node} {data : List UInt8} {t : NodeTable}

/-- The ids in the order of their bits. -/
def ids : List UInt8 := bytesUpTo 232

/-- The visit of an id. -/
def visit (advanceQueries : Node → Node) (data : List UInt8) (t : NodeTable) (id : UInt8) :
    NodeTable :=
  t.syncNode advanceQueries data ((id.toNat - 1) / 8) ((id.toNat - 1) % 8)

theorem mem_ids {id : UInt8} : id ∈ ids ↔ HasBit id := mem_bytesUpTo (by decide)

theorem nodup_ids : ids.Nodup := nodup_bytesUpTo (by decide)

/-- The loops visit the ids one after the other. -/
theorem loops_eq (t : NodeTable) :
    (List.range 29).foldl (fun t i =>
      (List.range 8).foldl (fun t j => t.syncNode advanceQueries data i j) t) t =
      ids.foldl (visit advanceQueries data) t := by
  have hpairs : (List.range 29).flatMap (fun i => (List.range 8).map fun j => (i, j)) =
      (List.range 232).map fun k => (k / 8, k % 8) := nested_loops (by omega) 29
  have hnested : (List.range 29).foldl (fun t i =>
      (List.range 8).foldl (fun t j => t.syncNode advanceQueries data i j) t) t =
        ((List.range 29).flatMap fun i => (List.range 8).map fun j => (i, j)).foldl
          (fun t p => t.syncNode advanceQueries data p.1 p.2) t := by
    rw [List.foldl_flatMap]
    simp only [List.foldl_map]
  rw [hnested, hpairs, List.foldl_map, ids, bytesUpTo, List.foldl_map]
  apply List.foldl_ext
  intro t k hk
  rw [visit, toNat_ofNat_succ (by decide) (List.mem_range.mp hk), Nat.add_sub_cancel]

/-! ## The visit of a node -/

theorem toNat_ofNat_id {id : UInt8} (h : HasBit id) :
    UInt8.ofNat ((id.toNat - 1) / 8 * 8 + (id.toNat - 1) % 8 + 1) = id := by
  obtain ⟨hlow, -⟩ := h
  rw [Nat.mul_comm, Nat.div_add_mod, Nat.sub_add_cancel hlow, UInt8.ofNat_toNat]

theorem bitOf_iff (i j : ℕ) (hj : j < 8) :
    bitOf data i j = true ↔ (data.getD (5 + i) 0).toNat.testBit j = true := by
  have hshift : ((1 : UInt8) <<< UInt8.ofNat j).toNat = 2 ^ j := by
    interval_cases j <;> rfl
  rw [bitOf, Nat.add_comm i 5, decide_eq_true_iff, ne_eq, ← UInt8.toNat_inj, UInt8.toNat_and,
    hshift, Nat.and_two_pow]
  cases (data.getD (5 + i) 0).toNat.testBit j with
  | false => simp
  | true =>
      have hpos : 0 < 2 ^ j := Nat.two_pow_pos j
      simp

/-- The entry of a node after its visit. -/
def synced (advanceQueries : Node → Node) (data : List UInt8) (before : NodeTable) (id : UInt8) :
    Option Node → Option Node
  | some node =>
      if InNetwork data id then
        some (if before.init = false ∧ before.isVirtualNode id = false then
          node.setQueryStage advanceQueries .cacheLoad else node)
      else none
  | none =>
      if InNetwork data id ∧ before.isVirtualNode id = false then
        some ((Node.create id).setQueryStage advanceQueries .protocolInfo)
      else none

/-- The notifications of a visit. -/
def syncNotices (data : List UInt8) (before : NodeTable) (id : UInt8) :
    Option Node → List TableNotice
  | some _ => if InNetwork data id then [] else [.nodeRemoved id]
  | none =>
      if InNetwork data id ∧ before.isVirtualNode id = false then [.nodeNew id, .nodeAdded id]
      else []

/-- The call of `InitNode` of a visit. -/
def syncInits (data : List UInt8) (before : NodeTable) (id : UInt8) : Option Node → List UInt8
  | some _ => []
  | none => if InNetwork data id ∧ before.isVirtualNode id = false then [id] else []

/-- What a visit reads and does not change. -/
structure Same (before t : NodeTable) : Prop where
  init : t.init = before.init
  virtualNeighbors : t.virtualNeighbors = before.virtualNeighbors

/-- What a visit does, in a table that agrees with the one before the loops on what it
reads besides the entry. -/
structure Visited (advanceQueries : Node → Node) (data : List UInt8) (before t : NodeTable)
    (id : UInt8) (after : NodeTable) : Prop where
  same : Same before after
  nodes : after.nodes =
    Function.update t.nodes id (synced advanceQueries data before id (t.nodes id))
  notices : after.notices = t.notices ++ syncNotices data before id (t.nodes id)
  initNodes : after.initNodes = t.initNodes ++ syncInits data before id (t.nodes id)

variable {before : NodeTable} {id : UInt8}

/-- An entry that stays leaves the table as it is. -/
theorem visited_self (hsame : Same before t)
    (hentry : synced advanceQueries data before id (t.nodes id) = t.nodes id)
    (hnotices : syncNotices data before id (t.nodes id) = [])
    (hinits : syncInits data before id (t.nodes id) = []) :
    Visited advanceQueries data before t id t where
  same := hsame
  nodes := by rw [hentry, Function.update_eq_self]
  notices := by rw [hnotices, List.append_nil]
  initNodes := by rw [hinits, List.append_nil]

theorem initNode_of_none (hnone : t.nodes id = none) :
    t.initNode advanceQueries id =
      { t with
        nodes := Function.update t.nodes id
          (some ((Node.create id).setQueryStage advanceQueries .protocolInfo))
        notices := t.notices ++ [.nodeAdded id]
        initNodes := t.initNodes ++ [id] } := by
  simp only [initNode, hnone]
  rfl

theorem visited_visit (hsame : Same before t) (h : HasBit id) :
    Visited advanceQueries data before t id (visit advanceQueries data t id) := by
  have hbit : bitOf data ((id.toNat - 1) / 8) ((id.toNat - 1) % 8) = true ↔ InNetwork data id :=
    bitOf_iff _ _ (Nat.mod_lt _ (by decide))
  have hvirtual : t.isVirtualNode id = before.isVirtualNode id := by
    rw [isVirtualNode, hsame.virtualNeighbors]
    rfl
  rw [visit, syncNode]
  simp only [toNat_ofNat_id h, hvirtual, hsame.init]
  split
  · rename_i hset
    have hin := hbit.mp hset
    split
    · rename_i hplayed
      apply visited_self hsame
      · cases hnode : t.nodes id <;> simp [synced, hin, hplayed]
      · cases hnode : t.nodes id <;> simp [syncNotices, hin, hplayed]
      · cases hnode : t.nodes id <;> simp [syncInits, hplayed]
    · rename_i hplayed
      have hreal := Bool.eq_false_of_not_eq_true hplayed
      split
      · rename_i node hnode
        split
        · rename_i hfirst
          have hinit : before.init = false := by simpa using hfirst
          refine ⟨⟨hsame.init, hsame.virtualNeighbors⟩, ?_, ?_, ?_⟩
          · rw [hnode, synced, if_pos hin, if_pos ⟨hinit, hreal⟩]
            rfl
          · rw [hnode, syncNotices, if_pos hin, List.append_nil]
            rfl
          · rw [hnode, syncInits, List.append_nil]
            rfl
        · rename_i hlater
          have hinit : ¬ (before.init = false ∧ before.isVirtualNode id = false) := fun hboth =>
            hlater (by rw [hboth.1]; rfl)
          apply visited_self hsame
          · rw [hnode, synced, if_pos hin, if_neg hinit]
          · rw [hnode, syncNotices, if_pos hin]
          · rw [hnode, syncInits]
      · rename_i hnone
        have hnew : (t.queueNotification (.nodeNew id)).nodes id = none := hnone
        rw [initNode_of_none hnew]
        refine ⟨⟨hsame.init, hsame.virtualNeighbors⟩, ?_, ?_, ?_⟩
        · rw [hnone, synced, if_pos ⟨hin, hreal⟩]
          rfl
        · rw [hnone, syncNotices, if_pos ⟨hin, hreal⟩]
          exact List.append_assoc _ _ _
        · rw [hnone, syncInits, if_pos ⟨hin, hreal⟩]
          rfl
  · rename_i hclear
    have hout : ¬ InNetwork data id := fun hin => hclear (hbit.mpr hin)
    split
    · rename_i node hnode
      refine ⟨⟨hsame.init, hsame.virtualNeighbors⟩, ?_, ?_, ?_⟩
      · rw [hnode, synced, if_neg hout]
        rfl
      · rw [hnode, syncNotices, if_neg hout]
        rfl
      · rw [hnode, syncInits, List.append_nil]
        rfl
    · rename_i hnone
      apply visited_self hsame
      · rw [hnone, synced, if_neg fun hboth => hout hboth.1]
      · rw [hnone, syncNotices, if_neg fun hboth => hout hboth.1]
      · rw [hnone, syncInits, if_neg fun hboth => hout hboth.1]

/-! ## The sweep -/

theorem visits_notices (before : NodeTable) :
    Visits (Same before) (fun t id => t.nodes id) NodeTable.notices (visit advanceQueries data)
      (synced advanceQueries data before) (syncNotices data before) ids where
  keeps t hsame id hid := (visited_visit hsame (mem_ids.mp hid)).same
  own t hsame id hid := by
    rw [(visited_visit hsame (mem_ids.mp hid)).nodes, Function.update_self]
  other t hsame id hid id' hne := by
    rw [(visited_visit hsame (mem_ids.mp hid)).nodes, Function.update_of_ne hne]
  logs _ hsame _ hid := (visited_visit hsame (mem_ids.mp hid)).notices

theorem visits_initNodes (before : NodeTable) :
    Visits (Same before) (fun t id => t.nodes id) NodeTable.initNodes (visit advanceQueries data)
      (synced advanceQueries data before) (syncInits data before) ids where
  keeps := (visits_notices before).keeps
  own := (visits_notices before).own
  other := (visits_notices before).other
  logs _ hsame _ hid := (visited_visit hsame (mem_ids.mp hid)).initNodes

theorem count_syncNotices (before : NodeTable) (id : UInt8) (entry : Option Node) :
    (syncNotices data before id entry).count (.nodeRemoved id) =
        (if entry.isSome = true ∧ ¬ InNetwork data id then 1 else 0) ∧
      (syncNotices data before id entry).count (.nodeNew id) =
        if entry = none ∧ InNetwork data id ∧ before.isVirtualNode id = false then 1 else 0 := by
  cases entry with
  | some node =>
      by_cases hin : InNetwork data id <;> simp [syncNotices, hin]
  | none =>
      rw [syncNotices]
      by_cases hboth : InNetwork data id ∧ before.isVirtualNode id = false
      · simp [hboth]
      · simp [hboth]

theorem count_syncInits (before : NodeTable) (id : UInt8) (entry : Option Node) :
    (syncInits data before id entry).count id =
      if entry = none ∧ InNetwork data id ∧ before.isVirtualNode id = false then 1 else 0 := by
  cases entry with
  | some node => simp [syncInits]
  | none =>
      rw [syncInits]
      by_cases hboth : InNetwork data id ∧ before.isVirtualNode id = false
      · simp [hboth]
      · simp [hboth]

/-- A visit tells of its own node only. -/
theorem mem_syncNotices {entry : Option Node} {notice : TableNotice}
    (h : notice ∈ syncNotices data before id entry) :
    notice = .nodeRemoved id ∨ notice = .nodeNew id ∨ notice = .nodeAdded id := by
  rw [syncNotices.eq_def] at h
  split at h
  · split at h
    · cases h
    · exact Or.inl (List.mem_singleton.mp h)
  · split at h
    · rcases List.mem_cons.mp h with hnew | hadded
      · exact Or.inr (Or.inl hnew)
      · exact Or.inr (Or.inr (List.mem_singleton.mp hadded))
    · cases h

theorem mem_syncInits {entry : Option Node} {id' : UInt8}
    (h : id' ∈ syncInits data before id entry) : id' = id := by
  rw [syncInits.eq_def] at h
  split at h
  · cases h
  · split at h
    · exact List.mem_singleton.mp h
    · cases h

/-- How often something is logged that only the visit of one id logs. -/
theorem count_ids {L : Type} [DecidableEq L] {f : UInt8 → List L} {l : L} {n : ℕ}
    (h : ∀ id', id' ≠ id → l ∉ f id') (hn : (f id).count l = n) :
    (ids.flatMap f).count l = if HasBit id then n else 0 := by
  split
  · rename_i hid
    rw [count_flatMap nodup_ids (mem_ids.mpr hid) fun id' _ hne => h id' hne, hn]
  · rename_i hid
    rw [List.count_eq_zero]
    intro hl
    obtain ⟨id', hid', hl⟩ := List.mem_flatMap.mp hl
    exact h id' (fun heq => hid (mem_ids.mp (heq ▸ hid'))) hl

theorem ite_hasBit (p : Prop) [Decidable p] :
    (if HasBit id then if p then 1 else 0 else 0) = if HasBit id ∧ p then 1 else 0 := by
  by_cases hid : HasBit id <;> simp [hid]

/-- After the loops the table agrees with the bits. -/
theorem synced_loops (advanceQueries : Node → Node) (data : List UInt8) (before : NodeTable) :
    Synced advanceQueries data before (ids.foldl (visit advanceQueries data) before) := by
  have hsame : Same before before := ⟨rfl, rfl⟩
  have hvisits : Visits (Same before) (fun t id => t.nodes id) NodeTable.notices
    (visit advanceQueries data) _ _ ids := visits_notices before
  have hinits : Visits (Same before) (fun t id => t.nodes id) NodeTable.initNodes
    (visit advanceQueries data) _ _ ids := visits_initNodes before
  have hown : ∀ id, HasBit id → (ids.foldl (visit advanceQueries data) before).nodes id =
      synced advanceQueries data before id (before.nodes id) := fun id hid =>
    hvisits.foldl_own hsame nodup_ids (mem_ids.mpr hid)
  have hnotice : ∀ id (n : ℕ) (notice : TableNotice),
      (notice = .nodeRemoved id ∨ notice = .nodeNew id) →
      (syncNotices data before id (before.nodes id)).count notice = n →
      (ids.foldl (visit advanceQueries data) before).notices.count notice =
        before.notices.count notice + if HasBit id then n else 0 := by
    intro id n notice hkind hn
    rw [hvisits.foldl_log hsame nodup_ids, List.count_append]
    refine congrArg _ (count_ids (fun id' hne hmem => ?_) hn)
    rcases mem_syncNotices hmem with rfl | rfl | rfl <;> rcases hkind with h | h <;>
      simp only [TableNotice.nodeRemoved.injEq, TableNotice.nodeNew.injEq, reduceCtorEq] at h <;>
      exact hne h
  refine ⟨fun id hid hreal => ?_, fun id hid hin node hnode => ?_, fun id hid hout => ?_,
    fun id hid hvirtual hnone => ?_, fun id => ?_, fun id => ?_, fun id => ?_, fun id hid => ?_⟩
  · rw [hown id hid]
    cases before.nodes id <;> by_cases hin : InNetwork data id <;> simp [synced, hin, hreal]
  · rw [hown id hid, hnode, synced, if_pos hin]
  · rw [hown id hid]
    cases before.nodes id <;> simp [synced, hout]
  · rw [hown id hid, hnone, synced, if_neg (by rw [hvirtual]; simp)]
  · rw [hnotice id _ _ (Or.inl rfl) (count_syncNotices before id _).1, ite_hasBit]
  · rw [hnotice id _ _ (Or.inr rfl) (count_syncNotices before id _).2, ite_hasBit]
  · rw [hinits.foldl_log hsame nodup_ids, List.count_append]
    refine congrArg _ ?_
    rw [count_ids (fun id' hne hmem => hne (mem_syncInits hmem).symm) (count_syncInits before id _),
      ite_hasBit]
  · exact hvisits.foldl_other hsame fun hmem => hid (mem_ids.mp hmem)

/-! ## The response -/

end

/-- With a bitmap of 29 bytes the table agrees with the bits after the response; with
another length the response changes nothing. The table before is the one with the nodes of
the cache, if this is the first response. -/
theorem synced_handleSerialAPIGetInitDataResponse (advanceQueries : Node → Node) (cache : List Node)
    (data : List UInt8) (t : NodeTable) (hhome : t.homeId ≠ 0)
    (hcontroller : t.controllerNodeId ≠ 255 ∧ t.controllerNodeId ≠ 0) :
    (t.init = true → (t.opened cache).nodes = t.nodes) ∧
      ((data.getD 4 0).toNat = 29 → Synced advanceQueries data (t.opened cache)
        (handleSerialAPIGetInitDataResponse advanceQueries cache data t)) ∧
      ((data.getD 4 0).toNat ≠ 29 → Unchanged (t.opened cache)
        (handleSerialAPIGetInitDataResponse advanceQueries cache data t)) := by
  have hknown : ¬ (t.homeId = 0 ∨ t.controllerNodeId = 255 ∨ t.controllerNodeId = 0) := by
    rintro (h | h | h)
    · exact hhome h
    · exact hcontroller.1 h
    · exact hcontroller.2 h
  refine ⟨fun hinit => ?_, fun hbytes => ?_, fun hbytes => ?_⟩
  · rw [opened, hinit]
    rfl
  · have hloops := synced_loops advanceQueries data
      { t.opened cache with initVersion := data.getD 2 0, initCaps := data.getD 3 0 }
    have hafter : handleSerialAPIGetInitDataResponse advanceQueries cache data t =
        { ids.foldl (visit advanceQueries data)
            { t.opened cache with initVersion := data.getD 2 0, initCaps := data.getD 3 0 } with
          init := true } := by
      simp only [handleSerialAPIGetInitDataResponse, if_neg hknown, numNodeBitfieldBytes,
        if_pos hbytes, loops_eq]
    rw [hafter]
    exact ⟨hloops.agrees, hloops.kept, hloops.gone, hloops.notCreated, hloops.removals, hloops.news,
      hloops.inits, hloops.untouched⟩
  · have hafter : handleSerialAPIGetInitDataResponse advanceQueries cache data t =
        { t.opened cache with
          initVersion := data.getD 2 0, initCaps := data.getD 3 0, init := true } := by
      have hother : ¬ (data.getD 4 0).toNat = numNodeBitfieldBytes := hbytes
      simp only [handleSerialAPIGetInitDataResponse, if_neg hknown, if_neg hother]
    rw [hafter]
    exact ⟨rfl, rfl, rfl⟩

/-- A restarted controller: node 5 is in the table, and the bits are those of nodes 1 and 2. -/
def restarted : NodeTable where
  homeId := 0xC0DE
  controllerNodeId := 1
  init := true
  initVersion := 5
  initCaps := 8
  driverReady := true
  stopped := false
  virtualNeighbors := List.replicate 29 0
  nodes := Function.update (fun _ => none) 5 (some (Node.create 5))
  notices := []
  initNodes := []

def initData : List UInt8 := [1, 2, 5, 8, 29, 3] ++ List.replicate 28 0

theorem synced_restarted :
    (restarted.init = true → (restarted.opened []).nodes = restarted.nodes) ∧
      ((initData.getD 4 0).toNat = 29 → Synced id initData (restarted.opened [])
        (handleSerialAPIGetInitDataResponse id [] initData restarted)) ∧
      ((initData.getD 4 0).toNat ≠ 29 → Unchanged (restarted.opened [])
        (handleSerialAPIGetInitDataResponse id [] initData restarted)) :=
  synced_handleSerialAPIGetInitDataResponse id [] initData restarted (by decide) (by decide)

end NodeTable

end OpenZWave
