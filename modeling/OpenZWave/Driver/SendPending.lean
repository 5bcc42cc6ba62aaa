import OpenZWave.Driver.Calls

/-!
# Sending what waits for a node

`WakeUp::SendPending` takes the items of the pending queue one by one. The loop
holds an iterator into the list of the Wake Up object, and after each item it
erases the one the iterator points to. A reload of the node deletes that object.
-/

namespace OpenZWave

/-- The object of a member function that is still running has been deleted. -/
inductive Dangling
  | wakeUp (nodeId : UInt8)
  deriving DecidableEq

def MsgQueueItem.isReload : MsgQueueItem → Bool
  | .reloadNode _ => true
  | _ => false

/-- `Node` as its constructor leaves it. -/
def Node.new (nodeId : UInt8) : Node where
  nodeId := nodeId
  commandClassMap := fun id =>
    if id = ClassId.noOperation ∨ id = ClassId.manufacturerSpecific then some CommandClass.new
    else none
  queryStage := .none
  listening := true
  frequentListening := false
  nodeAlive := true
  wakeUp := { awake := true, pendingQueue := [] }

/-- The message of `SendNoMoreInfo`. -/
def noMoreInformation (id : Nat) (nodeId transmitOptions : UInt8) : Msg :=
  (Msg.new id nodeId REQUEST FuncId.sendData true).appendArray
    [nodeId, 2, ClassId.wakeUp, wakeUpNoMoreInformation, transmitOptions]

namespace Driver

/-- `m_pendingQueue` of the Wake Up object of a node. -/
def pendingQueue (d : Driver) (nodeId : UInt8) : List MsgQueueItem :=
  match d.nodes nodeId with
  | none => []
  | some node => node.wakeUp.pendingQueue

/-- `m_pendingQueue.erase(it)`: the iterator is always at the first item. -/
def erasePending (d : Driver) (nodeId : UInt8) : Driver :=
  match d.nodes nodeId with
  | none => d
  | some node =>
      d.setWakeUp nodeId node { node.wakeUp with pendingQueue := node.wakeUp.pendingQueue.tail }

/-- `ReloadNode`, without the cache file: the node is made anew and asks for its
protocol information. -/
def reloadNode (d : Driver) (nodeId : UInt8) (calls : List DriverCall) : Driver :=
  let d :=
    match d.nodes nodeId with
    | none => d
    | some _ => d.removeQueues nodeId
  (d.setNode nodeId (some (Node.new nodeId))).calls calls

/-- The branches of the loop. -/
def dispatchPending (d : Driver) (reloads : UInt8 → List DriverCall) : MsgQueueItem → Driver
  | .reloadNode nodeId => d.reloadNode nodeId (reloads nodeId)
  | item => d.sendPendingItem item

/-- The loop of `SendPending`, for at most so many items. -/
def sendPendingLoop (nodeId : UInt8) (reloads : UInt8 → List DriverCall) :
    Nat → Driver → Except Dangling Driver
  | 0, d => .ok d
  | items + 1, d =>
      match d.pendingQueue nodeId with
      | [] => .ok d
      | item :: _ =>
          let d := d.dispatchPending reloads item
          if item = .reloadNode nodeId then .error (.wakeUp nodeId)
          else sendPendingLoop nodeId reloads items (d.erasePending nodeId)

/-- What follows the loop: the node is sent back to sleep, now or by a timer. -/
def sendToSleep (d : Driver) (nodeId : UInt8) (reloading delayed : Bool) (farewell : Msg) :
    Driver :=
  match d.nodes nodeId with
  | none => d
  | some node =>
      if node.queryStage = .complete ∧ reloading = false ∧ delayed = false then
        d.sendMsg farewell .wakeUp
      else d

/-- `SendPending`: `farewell` is the message of `SendNoMoreInfo`. -/
def sendPending (d : Driver) (nodeId : UInt8) (reloads : UInt8 → List DriverCall)
    (delayed : Bool) (farewell : Msg) : Except Dangling Driver :=
  match d.nodes nodeId with
  | none => .ok d
  | some node => do
      let pending := node.wakeUp.pendingQueue
      let woken := d.setWakeUp nodeId node { node.wakeUp with awake := true }
      let d ← sendPendingLoop nodeId reloads pending.length woken
      return d.sendToSleep nodeId (pending.any MsgQueueItem.isReload) delayed farewell

end Driver

/-! ## What is handed over -/

/-- An item as it is put into the pending queue of a node. -/
def MsgQueueItem.Belongs (d : Driver) (nodeId : UInt8) : MsgQueueItem → Prop
  | .sendMsg msg => msg.targetNodeId = nodeId ∧ msg.bFinal = true
  | .queryStageComplete nodeId' _ _ => nodeId' = nodeId
  | .controller cci => cci < d.nextCci ∧ (d.ccis cci).command ≠ .none
  | .reloadNode nodeId' => nodeId' = nodeId

/-- An item that is neither a reload nor the marker of a stage to be repeated. -/
def MsgQueueItem.Sendable : MsgQueueItem → Prop
  | .reloadNode _ => False
  | .queryStageComplete _ _ retry => retry = false
  | _ => True

namespace Driver

/-- The message of an item, as `SendMsg` queues it. -/
def messageOf (d : Driver) : MsgQueueItem → Option MsgQueueItem
  | .sendMsg msg => some (.sendMsg (d.prepare msg))
  | _ => none

/-- The marker of a query stage. -/
def stageOf : MsgQueueItem → Option MsgQueueItem
  | .queryStageComplete nodeId stage retry => some (.queryStageComplete nodeId stage retry)
  | _ => none

/-- A marker without its flag. -/
def forgotten : MsgQueueItem → MsgQueueItem
  | .queryStageComplete nodeId stage _ => .queryStageComplete nodeId stage false
  | item => item

/-- A controller command as it is when it begins. -/
def begun (item : ControllerCommandItem) : ControllerCommandItem :=
  { item with
    state := .normal, stateChanged := false, done := false, returnError := .none, added := false }

/-- The command of an item, to begin again. -/
def commandOf (d : Driver) : MsgQueueItem → Option ControllerCommandItem
  | .controller cci => some (begun (d.ccis cci))
  | _ => none

/-- Every item is in the send queue it belongs to, once and in the order in which
the items waited, and none waits any more. -/
structure HandedOver (d d' : Driver) (nodeId : UInt8) (items farewell : List MsgQueueItem) :
    Prop where
  pending : d'.pendingQueue nodeId = []
  messages : d'.msgQueue .wakeUp = d.msgQueue .wakeUp ++ items.filterMap d.messageOf ++ farewell
  stages : d'.msgQueue .query = d.msgQueue .query ++ items.filterMap stageOf
  commands : ∃ ccis : List CciRef,
    d'.msgQueue .controller = d.msgQueue .controller ++ ccis.map MsgQueueItem.controller ∧
      ccis.map d'.ccis = items.filterMap d.commandOf
  queues : ∀ q, q ≠ .wakeUp → q ≠ .query → q ≠ .controller → d'.msgQueue q = d.msgQueue q

/-! ## The loop -/

/-- The loop after the items `done`, with `rest` still waiting. The markers have
lost their flag. -/
structure Sending (d₀ d : Driver) (nodeId : UInt8) (node : Node) (done rest : List MsgQueueItem) :
    Prop where
  node : d.nodes nodeId = some { node with wakeUp := { awake := true, pendingQueue := rest } }
  homeId : d.homeId = d₀.homeId
  counter : d.nextCallbackId = d₀.nextCallbackId
  messages : d.msgQueue .wakeUp = d₀.msgQueue .wakeUp ++ done.filterMap d₀.messageOf
  stages : d.msgQueue .query = d₀.msgQueue .query ++ (done.filterMap stageOf).map forgotten
  commands : ∃ ccis : List CciRef,
    d.msgQueue .controller = d₀.msgQueue .controller ++ ccis.map MsgQueueItem.controller ∧
      ccis.map d.ccis = done.filterMap d₀.commandOf ∧ ∀ cci ∈ ccis, cci < d.nextCci
  queues : ∀ q, q ≠ .wakeUp → q ≠ .query → q ≠ .controller → d.msgQueue q = d₀.msgQueue q
  heap : ∀ cci, cci < d₀.nextCci → d.ccis cci = d₀.ccis cci
  next : d₀.nextCci ≤ d.nextCci

section

variable {d₀ d : Driver} {nodeId : UInt8} {node : Node} {done rest : List MsgQueueItem}

theorem Sending.asleep (h : Sending d₀ d nodeId node done rest) : d.asleep nodeId = none := by
  have hawake : ∀ wakeUp, Node.getWakeUp { node with
      wakeUp := { awake := true, pendingQueue := rest } } = some wakeUp → wakeUp.awake = true := by
    intro wakeUp hwakeUp
    rw [Node.getWakeUp] at hwakeUp
    split at hwakeUp
    · rw [← Option.some.inj hwakeUp]
    · cases hwakeUp
  rw [Driver.asleep, h.node]
  dsimp only
  split
  · rfl
  · split
    · rfl
    · rename_i wakeUp hwakeUp
      exact if_pos (hawake wakeUp hwakeUp)

/-- The message of an item does not depend on what has been sent before it. -/
theorem Sending.prepare (h : Sending d₀ d nodeId node done rest) {all : List MsgQueueItem}
    (hstart : Sending d₀ d₀ nodeId node [] all) {msg : Msg} (htarget : msg.targetNodeId = nodeId) :
    d.prepare msg = d₀.prepare msg := by
  have hencrypts : ∀ m : Msg, m.targetNodeId = nodeId → d.encrypts m = d₀.encrypts m := by
    rintro m rfl
    rw [encrypts, encrypts, h.node, hstart.node]
    rfl
  rw [Driver.prepare, Driver.prepare, h.homeId, h.counter]
  rw [hencrypts ((msg.setHomeId d₀.homeId).finalize d₀.nextCallbackId).1
    ((Msg.targetNodeId_finalize _ _).trans htarget)]

theorem Sending.erase {item : MsgQueueItem} (h : Sending d₀ d nodeId node done (item :: rest)) :
    Sending d₀ (d.erasePending nodeId) nodeId node done rest := by
  rw [erasePending, h.node]
  refine ⟨?_, h.homeId, h.counter, h.messages, h.stages, h.commands, h.queues, h.heap, h.next⟩
  exact Function.update_self ..

/-- A message goes to the Wake Up queue. -/
theorem Sending.sendMsg (h : Sending d₀ d nodeId node done rest) {all : List MsgQueueItem}
    (hstart : Sending d₀ d₀ nodeId node [] all) {msg : Msg} (htarget : msg.targetNodeId = nodeId)
    (hfinal : msg.bFinal = true) :
    Sending d₀ (d.sendMsg msg .wakeUp) nodeId node (done ++ [.sendMsg msg]) rest := by
  have hcounter : (msg.setHomeId d.homeId).finalize d.nextCallbackId =
      (msg.setHomeId d.homeId, d.nextCallbackId) := if_pos hfinal
  have hpushed := appended_sendMsg d msg .wakeUp (htarget ▸ h.asleep)
  rw [h.prepare hstart htarget] at hpushed
  have hsent := sendMsg_of_awake d msg .wakeUp (htarget ▸ h.asleep)
  have hnext : (d.sendMsg msg .wakeUp).nextCci = d.nextCci := by
    rw [hsent]
    rfl
  obtain ⟨ccis, hqueue, hbegun, hlow⟩ := h.commands
  constructor
  case node => rw [hpushed.nodes, h.node]
  case homeId => exact (congrArg Driver.homeId hsent).trans h.homeId
  case counter =>
      rw [hcounter] at hsent
      exact (congrArg nextCallbackId hsent).trans h.counter
  case messages =>
      rw [hpushed.last, h.messages, List.filterMap_append, List.append_assoc]
      rfl
  case stages =>
      rw [hpushed.queues .query (by decide), h.stages, List.filterMap_append]
      simp only [List.filterMap_cons, stageOf, List.filterMap_nil, List.append_nil]
  case commands =>
      refine ⟨ccis, ?_, ?_, ?_⟩
      · rw [hpushed.queues .controller (by decide), hqueue]
      · rw [hpushed.commands, hbegun, List.filterMap_append]
        simp only [List.filterMap_cons, commandOf, List.filterMap_nil, List.append_nil]
      · rw [hnext]
        exact hlow
  case queues =>
      intro q hw hq hc
      rw [hpushed.queues q hw, h.queues q hw hq hc]
  case heap =>
      rw [hpushed.commands]
      exact h.heap
  case next =>
      rw [hnext]
      exact h.next

/-- A marker goes to the Query queue, always without its flag. -/
theorem Sending.sendQueryStageComplete (h : Sending d₀ d nodeId node done rest)
    (stage : QueryStage) (retry : Bool) :
    Sending d₀ (d.sendQueryStageComplete nodeId stage) nodeId node
      (done ++ [.queryStageComplete nodeId stage retry]) rest := by
  have hsent : d.sendQueryStageComplete nodeId stage =
      d.pushBack .query (.queryStageComplete nodeId stage false) := by
    rw [Driver.sendQueryStageComplete, h.node]
    dsimp only
    rw [h.asleep]
  have hpushed := appended_pushBack d .query (.queryStageComplete nodeId stage false)
  obtain ⟨ccis, hqueue, hbegun, hlow⟩ := h.commands
  rw [hsent]
  constructor
  case node => exact h.node
  case homeId => exact h.homeId
  case counter => exact h.counter
  case messages =>
      rw [hpushed.queues .wakeUp (by decide), h.messages, List.filterMap_append]
      simp only [List.filterMap_cons, messageOf, List.filterMap_nil, List.append_nil]
  case stages =>
      rw [hpushed.last, h.stages, List.filterMap_append, List.map_append, List.append_assoc]
      rfl
  case commands =>
      refine ⟨ccis, ?_, ?_, hlow⟩
      · rw [hpushed.queues .controller (by decide), hqueue]
      · rw [hpushed.commands, hbegun, List.filterMap_append]
        simp only [List.filterMap_cons, commandOf, List.filterMap_nil, List.append_nil]
  case queues =>
      intro q hw hq hc
      rw [hpushed.queues q hq, h.queues q hw hq hc]
  case heap => exact h.heap
  case next => exact h.next

/-- A controller command is begun again, as a new object. -/
theorem Sending.beginControllerCommand (h : Sending d₀ d nodeId node done rest) {cci : CciRef}
    (hcci : cci < d₀.nextCci) (hcommand : (d₀.ccis cci).command ≠ .none) :
    Sending d₀ (d.beginControllerCommand (d.ccis cci)) nodeId node (done ++ [.controller cci])
      rest := by
  have hsame : d.ccis cci = d₀.ccis cci := h.heap cci hcci
  have hsent : d.beginControllerCommand (d.ccis cci) =
      (d.newCommand (begun (d₀.ccis cci))).1.pushBack .controller (.controller d.nextCci) := by
    rw [Driver.beginControllerCommand, hsame, if_neg hcommand]
    rfl
  have hpushed := appended_pushBack (d.newCommand (begun (d₀.ccis cci))).1 .controller
    (.controller d.nextCci)
  have hheap : ((d.newCommand (begun (d₀.ccis cci))).1.pushBack .controller
      (.controller d.nextCci)).ccis = Function.update d.ccis d.nextCci (begun (d₀.ccis cci)) := rfl
  obtain ⟨ccis, hqueue, hbegun, hlow⟩ := h.commands
  have hold : ccis.map (Function.update d.ccis d.nextCci (begun (d₀.ccis cci))) =
      ccis.map d.ccis := by
    apply List.map_congr_left
    intro other hother
    exact Function.update_of_ne (Nat.ne_of_lt (hlow other hother)) _ _
  rw [hsent]
  constructor
  case node => exact h.node
  case homeId => exact h.homeId
  case counter => exact h.counter
  case messages =>
      rw [hpushed.queues .wakeUp (by decide), List.filterMap_append]
      simp only [List.filterMap_cons, messageOf, List.filterMap_nil, List.append_nil]
      exact h.messages
  case stages =>
      rw [hpushed.queues .query (by decide), List.filterMap_append]
      simp only [List.filterMap_cons, stageOf, List.filterMap_nil, List.append_nil]
      exact h.stages
  case commands =>
      refine ⟨ccis ++ [d.nextCci], ?_, ?_, ?_⟩
      · rw [hpushed.last, List.map_append, ← List.append_assoc, ← hqueue]
        rfl
      · rw [hheap, List.map_append, hold, hbegun, List.filterMap_append, List.map_singleton,
          Function.update_self]
        rfl
      · intro other hother
        rcases List.mem_append.mp hother with hold | hnew
        · exact Nat.lt_succ_of_lt (hlow other hold)
        · rw [List.mem_singleton.mp hnew]
          exact Nat.lt_succ_self _
  case queues =>
      intro q hw hq hc
      rw [hpushed.queues q hc]
      exact h.queues q hw hq hc
  case heap =>
      intro other hother
      rw [hheap, Function.update_of_ne (Nat.ne_of_lt (Nat.lt_of_lt_of_le hother h.next))]
      exact h.heap other hother
  case next => exact Nat.le_succ_of_le h.next

/-- One item of the loop, unless it is a reload. -/
theorem Sending.dispatch (h : Sending d₀ d nodeId node done rest) {all : List MsgQueueItem}
    (hstart : Sending d₀ d₀ nodeId node [] all) {item : MsgQueueItem}
    (hbelongs : item.Belongs d₀ nodeId) (hitem : item ≠ .reloadNode nodeId)
    (reloads : UInt8 → List DriverCall) :
    Sending d₀ (d.dispatchPending reloads item) nodeId node (done ++ [item]) rest := by
  cases item with
  | sendMsg msg => exact h.sendMsg hstart hbelongs.1 hbelongs.2
  | queryStageComplete nodeId' stage retry =>
      obtain rfl : nodeId' = nodeId := hbelongs
      exact h.sendQueryStageComplete stage retry
  | controller cci => exact h.beginControllerCommand hbelongs.1 hbelongs.2
  | reloadNode nodeId' => exact absurd (congrArg MsgQueueItem.reloadNode hbelongs) hitem

/-- Without a reload the loop ends when every item has been sent. -/
theorem Sending.loop (h : Sending d₀ d nodeId node done rest) {all : List MsgQueueItem}
    (hstart : Sending d₀ d₀ nodeId node [] all)
    (hbelongs : ∀ item ∈ rest, item.Belongs d₀ nodeId)
    (hreload : .reloadNode nodeId ∉ rest) (reloads : UInt8 → List DriverCall) :
    ∃ d', sendPendingLoop nodeId reloads rest.length d = .ok d' ∧
      Sending d₀ d' nodeId node (done ++ rest) [] := by
  induction rest generalizing d done with
  | nil => exact ⟨d, rfl, (List.append_nil done).symm ▸ h⟩
  | cons item rest ih =>
      obtain ⟨hitem, hrest⟩ := List.forall_mem_cons.mp hbelongs
      have hne : item ≠ .reloadNode nodeId := fun heq => hreload (heq ▸ List.mem_cons_self)
      have hnext := (h.dispatch hstart hitem hne reloads).erase
      obtain ⟨d', hloop, hsent⟩ := ih hnext hrest fun hmem => hreload (List.mem_cons_of_mem _ hmem)
      have hqueue : d.pendingQueue nodeId = item :: rest := by
        rw [Driver.pendingQueue, h.node]
      refine ⟨d', ?_, ?_⟩
      · rw [List.length_cons, sendPendingLoop, hqueue]
        exact (if_neg hne).trans hloop
      · rw [List.append_assoc] at hsent
        exact hsent

/-- A reload ends in the deleted object. -/
theorem Sending.loop_reload (h : Sending d₀ d nodeId node done rest) {all : List MsgQueueItem}
    (hstart : Sending d₀ d₀ nodeId node [] all)
    (hbelongs : ∀ item ∈ rest, item.Belongs d₀ nodeId)
    (hreload : .reloadNode nodeId ∈ rest) (reloads : UInt8 → List DriverCall) :
    sendPendingLoop nodeId reloads rest.length d = .error (.wakeUp nodeId) := by
  induction rest generalizing d done with
  | nil => cases hreload
  | cons item rest ih =>
      obtain ⟨hitem, hrest⟩ := List.forall_mem_cons.mp hbelongs
      have hqueue : d.pendingQueue nodeId = item :: rest := by
        rw [Driver.pendingQueue, h.node]
      rw [List.length_cons, sendPendingLoop, hqueue]
      by_cases hne : item = .reloadNode nodeId
      · exact if_pos hne
      · have hnext := (h.dispatch hstart hitem hne reloads).erase
        have hmem : .reloadNode nodeId ∈ rest :=
          (List.mem_cons.mp hreload).resolve_left fun heq => hne heq.symm
        exact (if_neg hne).trans (ih hnext hrest hmem)

/-! ## The whole function -/

/-- The message that sends the node back to sleep, when it is sent at once. -/
def farewellOf (d : Driver) (node : Node) (delayed : Bool) (farewell : Msg) : List MsgQueueItem :=
  if node.queryStage = .complete ∧ delayed = false then [.sendMsg (d.prepare farewell)] else []

/-- Before the first item. -/
theorem sending_start (d : Driver) (nodeId : UInt8) (node : Node) :
    Sending (d.setWakeUp nodeId node { node.wakeUp with awake := true })
      (d.setWakeUp nodeId node { node.wakeUp with awake := true }) nodeId node []
      node.wakeUp.pendingQueue where
  node := Function.update_self ..
  homeId := rfl
  counter := rfl
  messages := (List.append_nil _).symm
  stages := (List.append_nil _).symm
  commands := ⟨[], (List.append_nil _).symm, rfl, by rintro cci ⟨⟩⟩
  queues := fun _ _ _ _ => rfl
  heap := fun _ _ => rfl
  next := Nat.le_refl _

/-- Waking a node up does not change what becomes of a message. -/
theorem prepare_setWakeUp (hnode : d.nodes nodeId = some node) (wakeUp : WakeUp) (msg : Msg) :
    (d.setWakeUp nodeId node wakeUp).prepare msg = d.prepare msg := by
  have hencrypts : ∀ m : Msg, (d.setWakeUp nodeId node wakeUp).encrypts m = d.encrypts m := by
    intro m
    rw [encrypts, encrypts]
    by_cases htarget : m.targetNodeId = nodeId
    · have hwoken : (d.setWakeUp nodeId node wakeUp).nodes m.targetNodeId =
          some { node with wakeUp } := by
        rw [htarget]
        exact Function.update_self ..
      rw [hwoken, htarget, hnode]
      rfl
    · have hother : (d.setWakeUp nodeId node wakeUp).nodes m.targetNodeId =
          d.nodes m.targetNodeId := Function.update_of_ne htarget ..
      rw [hother]
  rw [prepare, prepare, hencrypts]
  rfl

/-- No marker loses its flag exactly when none has one. -/
theorem map_forgotten_iff (items : List MsgQueueItem) :
    (items.filterMap stageOf).map forgotten = items.filterMap stageOf ↔
      ∀ nodeId stage retry, .queryStageComplete nodeId stage retry ∈ items → retry = false := by
  have hfixed : (items.filterMap stageOf).map forgotten = items.filterMap stageOf ↔
      ∀ marker ∈ items.filterMap stageOf, forgotten marker = marker := by
    have hmap := List.map_inj_left (l := items.filterMap stageOf) (f := forgotten) (g := id)
    rwa [List.map_id] at hmap
  rw [hfixed]
  constructor
  · intro h nodeId stage retry hmem
    have hmarker := h (.queryStageComplete nodeId stage retry)
      (List.mem_filterMap.mpr ⟨_, hmem, rfl⟩)
    exact (MsgQueueItem.queryStageComplete.inj hmarker).2.2.symm
  · intro h marker hmarker
    obtain ⟨item, hmem, hstage⟩ := List.mem_filterMap.mp hmarker
    cases item with
    | queryStageComplete nodeId stage retry =>
        rw [← Option.some.inj hstage, h nodeId stage retry hmem]
        rfl
    | sendMsg msg => cases hstage
    | controller cci => cases hstage
    | reloadNode nodeId => cases hstage

theorem sendable_iff (items : List MsgQueueItem) (hbelongs : ∀ item ∈ items, item.Belongs d nodeId) :
    (∀ item ∈ items, item.Sendable) ↔
      .reloadNode nodeId ∉ items ∧ (items.filterMap stageOf).map forgotten =
        items.filterMap stageOf := by
  rw [map_forgotten_iff]
  constructor
  · intro h
    exact ⟨fun hmem => h _ hmem, fun _ _ _ hmem => h _ hmem⟩
  · rintro ⟨hreload, hretry⟩ item hmem
    cases item with
    | sendMsg msg => trivial
    | queryStageComplete nodeId' stage retry => exact hretry nodeId' stage retry hmem
    | controller cci => trivial
    | reloadNode nodeId' =>
        obtain rfl : nodeId' = nodeId := hbelongs _ hmem
        exact hreload hmem

/-- What follows the loop only adds the farewell. -/
theorem sendToSleep_spec {d₀ d' : Driver} {items : List MsgQueueItem}
    (h : Sending d₀ d' nodeId node items []) (delayed : Bool) {farewell : Msg}
    (hfarewell : farewell.targetNodeId = nodeId) :
    (d'.sendToSleep nodeId false delayed farewell).nodes = d'.nodes ∧
      (d'.sendToSleep nodeId false delayed farewell).ccis = d'.ccis ∧
      (d'.sendToSleep nodeId false delayed farewell).msgQueue .wakeUp =
        d'.msgQueue .wakeUp ++ d'.farewellOf node delayed farewell ∧
      ∀ q, q ≠ .wakeUp →
        (d'.sendToSleep nodeId false delayed farewell).msgQueue q = d'.msgQueue q := by
  have hsleep : d'.sendToSleep nodeId false delayed farewell =
      if node.queryStage = .complete ∧ delayed = false then d'.sendMsg farewell .wakeUp else d' := by
    rw [sendToSleep, h.node]
    exact if_congr (and_congr_right fun _ => and_iff_right rfl) rfl rfl
  rw [hsleep, farewellOf]
  split
  · have hpushed := appended_sendMsg d' farewell .wakeUp (hfarewell ▸ h.asleep)
    exact ⟨hpushed.nodes, hpushed.commands, hpushed.last, hpushed.queues⟩
  · exact ⟨rfl, rfl, (List.append_nil _).symm, fun _ _ => rfl⟩

theorem handedOver_sendToSleep (hnode : d.nodes nodeId = some node)
    {d' : Driver} {items all : List MsgQueueItem}
    (hstart : Sending (d.setWakeUp nodeId node { node.wakeUp with awake := true })
      (d.setWakeUp nodeId node { node.wakeUp with awake := true }) nodeId node [] all)
    (h : Sending (d.setWakeUp nodeId node { node.wakeUp with awake := true }) d' nodeId node items [])
    (delayed : Bool) {farewell : Msg} (hfarewell : farewell.targetNodeId = nodeId) :
    d.HandedOver (d'.sendToSleep nodeId false delayed farewell) nodeId items
        (d.farewellOf node delayed farewell) ↔
      (items.filterMap stageOf).map forgotten = items.filterMap stageOf := by
  obtain ⟨hnodes, hccis, hwakeUp, hqueues⟩ := sendToSleep_spec h delayed hfarewell
  have hprepare := prepare_setWakeUp hnode { node.wakeUp with awake := true }
  have hmessage : (d.setWakeUp nodeId node { node.wakeUp with awake := true }).messageOf =
      d.messageOf := by
    funext item
    cases item with
    | sendMsg msg => exact congrArg (fun m => some (MsgQueueItem.sendMsg m)) (hprepare msg)
    | _ => rfl
  have hlast : d'.farewellOf node delayed farewell = d.farewellOf node delayed farewell := by
    rw [farewellOf, farewellOf, h.prepare hstart hfarewell, hprepare]
  have hstages : (d'.sendToSleep nodeId false delayed farewell).msgQueue .query =
      d.msgQueue .query ++ (items.filterMap stageOf).map forgotten :=
    (hqueues .query (by decide)).trans h.stages
  constructor
  · intro hhanded
    exact List.append_cancel_left (hstages.symm.trans hhanded.stages)
  · intro hflags
    obtain ⟨ccis, hqueue, hbegun, -⟩ := h.commands
    constructor
    case pending => rw [pendingQueue, hnodes, h.node]
    case messages =>
        rw [hwakeUp, h.messages, hlast, hmessage]
        rfl
    case stages => rw [hstages, hflags]
    case commands => exact ⟨ccis, (hqueues .controller (by decide)).trans hqueue, hccis ▸ hbegun⟩
    case queues =>
        intro q hw hq hc
        exact (hqueues q hw).trans (h.queues q hw hq hc)

end

/-- Whatever waits for a node: all of it is handed over exactly when there is no
reload among it and no marker of a stage to be repeated. -/
theorem sendPending_handedOver_iff (d : Driver) (nodeId : UInt8) (node : Node)
    (reloads : UInt8 → List DriverCall) (delayed : Bool) (farewell : Msg)
    (hnode : d.nodes nodeId = some node) (hfarewell : farewell.targetNodeId = nodeId)
    (hbelongs : ∀ item ∈ node.wakeUp.pendingQueue, item.Belongs d nodeId) :
    (∃ d', d.sendPending nodeId reloads delayed farewell = .ok d' ∧
      d.HandedOver d' nodeId node.wakeUp.pendingQueue (d.farewellOf node delayed farewell)) ↔
      ∀ item ∈ node.wakeUp.pendingQueue, item.Sendable := by
  have hstart := sending_start d nodeId node
  have hbelongs' : ∀ item ∈ node.wakeUp.pendingQueue, item.Belongs
      (d.setWakeUp nodeId node { node.wakeUp with awake := true }) nodeId := by
    intro item hmem
    have hitem := hbelongs item hmem
    cases item <;> exact hitem
  rw [sendable_iff _ hbelongs]
  by_cases hreload : .reloadNode nodeId ∈ node.wakeUp.pendingQueue
  · have hloop := hstart.loop_reload hstart hbelongs' hreload reloads
    have herror : d.sendPending nodeId reloads delayed farewell = .error (.wakeUp nodeId) := by
      rw [sendPending, hnode]
      dsimp only
      rw [hloop]
      rfl
    rw [herror]
    constructor
    · rintro ⟨d', hok, -⟩
      cases hok
    · rintro ⟨hnone, -⟩
      exact absurd hreload hnone
  · obtain ⟨d', hloop, hsent⟩ := hstart.loop hstart hbelongs' hreload reloads
    rw [List.nil_append] at hsent
    have hreloading : node.wakeUp.pendingQueue.any MsgQueueItem.isReload = false := by
      rw [List.any_eq_false]
      intro item hmem
      cases item with
      | reloadNode nodeId' =>
          obtain rfl : nodeId' = nodeId := hbelongs _ hmem
          exact absurd hmem hreload
      | _ => exact Bool.false_ne_true
    have hok : d.sendPending nodeId reloads delayed farewell =
        .ok (d'.sendToSleep nodeId false delayed farewell) := by
      rw [sendPending, hnode]
      dsimp only
      rw [hloop, hreloading]
      rfl
    rw [hok, and_iff_right hreload, ← handedOver_sendToSleep hnode hstart hsent delayed hfarewell]
    constructor
    · rintro ⟨_, hd, hhanded⟩
      rw [Except.ok.inj hd]
      exact hhanded
    · intro hhanded
      exact ⟨_, rfl, hhanded⟩

/-- A node with items waiting. -/
def wakingNode5 (pending : List MsgQueueItem) : Driver :=
  { Driver.new 1 1 with
    nodes := fun n =>
      if n = 5 then some { sleeper with wakeUp := { awake := false, pendingQueue := pending } }
      else none }

/-- A marker and a message. -/
theorem sendPending_handedOver_wakingNode5 :
    (∃ d', (wakingNode5 [.queryStageComplete 5 .dynamic false]).sendPending 5 (fun _ => []) false
        (noMoreInformation 9 5 0x25) = .ok d' ∧
      (wakingNode5 [.queryStageComplete 5 .dynamic false]).HandedOver d' 5
        [.queryStageComplete 5 .dynamic false]
        ((wakingNode5 [.queryStageComplete 5 .dynamic false]).farewellOf sleeper false
          (noMoreInformation 9 5 0x25))) ↔
      ∀ item ∈ [MsgQueueItem.queryStageComplete 5 .dynamic false], item.Sendable :=
  sendPending_handedOver_iff (wakingNode5 [.queryStageComplete 5 .dynamic false]) 5
    { sleeper with
      wakeUp := { awake := false, pendingQueue := [.queryStageComplete 5 .dynamic false] } }
    (fun _ => []) false (noMoreInformation 9 5 0x25) rfl rfl
    (List.forall_mem_singleton.mpr rfl)

/-- A reload in front of a marker leaves the loop in a deleted object; a marker of
a stage to be repeated comes out as one of a stage that is complete. -/
theorem sendPending_loses :
    (wakingNode5 [.reloadNode 5, .queryStageComplete 5 .dynamic false]).sendPending 5
        (fun _ => []) false (noMoreInformation 9 5 0x25) = .error (.wakeUp 5) ∧
      ∃ d', (wakingNode5 [.queryStageComplete 5 .dynamic true]).sendPending 5 (fun _ => []) true
          (noMoreInformation 9 5 0x25) = .ok d' ∧
        d'.msgQueue .query = [.queryStageComplete 5 .dynamic false] :=
  ⟨rfl, _, rfl, rfl⟩

end Driver

end OpenZWave
