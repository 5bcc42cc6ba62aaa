import OpenZWave.Driver.ReadMsg

/-!
# No missing pointer while receiving

No call takes the current controller command away, and none but the deletion of
a node empties a place of `m_nodes`. So a pointer that a handler has tested is
still there when the handler uses it, and what is left are the handlers that do
not test. The last section follows this through the runs.
-/

namespace OpenZWave

open Checked

namespace Receive

/-! ## What stays -/

/-- The controller command in progress and the nodes of `d` are there in `d'`. -/
structure Keeps (d d' : Driver) : Prop where
  command : d.currentControllerCommand.isSome = true → d'.currentControllerCommand.isSome = true
  node : ∀ nodeId, (d.nodes nodeId).isSome = true → (d'.nodes nodeId).isSome = true

theorem Keeps.refl (d : Driver) : Keeps d d := ⟨id, fun _ => id⟩

theorem Keeps.trans {d d' d'' : Driver} (h : Keeps d d') (h' : Keeps d' d'') : Keeps d d'' :=
  ⟨h'.command ∘ h.command, fun nodeId => h'.node nodeId ∘ h.node nodeId⟩

theorem keeps_of_eq {d d' : Driver}
    (hcommand : d'.currentControllerCommand = d.currentControllerCommand)
    (hnodes : d'.nodes = d.nodes) : Keeps d d' := by
  refine ⟨fun h => ?_, fun nodeId h => ?_⟩
  · rw [hcommand]
    exact h
  · rw [hnodes]
    exact h

theorem keeps_setNode (d : Driver) (nodeId : UInt8) (node : Node) :
    Keeps d (d.setNode nodeId (some node)) := by
  refine ⟨id, fun n h => ?_⟩
  show (Function.update d.nodes nodeId (some node) n).isSome = true
  rcases eq_or_ne n nodeId with rfl | hne
  · rw [Function.update_self]
    rfl
  · rw [Function.update_of_ne hne]
    exact h

theorem keeps_setWakeUp (d : Driver) (nodeId : UInt8) (node : Node) (wakeUp : WakeUp) :
    Keeps d (d.setWakeUp nodeId node wakeUp) :=
  keeps_setNode d nodeId { node with wakeUp }

theorem keeps_queueForWakeUp (d : Driver) (nodeId : UInt8) (node : Node) (item : MsgQueueItem) :
    Keeps d (d.queueForWakeUp nodeId node item) :=
  keeps_setWakeUp d nodeId node _

theorem keeps_updateControllerState (d : Driver) (state : ControllerState)
    (error : ControllerError) : Keeps d (d.updateControllerState state error) :=
  keeps_of_eq (by simp) (by simp)

theorem keeps_sendMsg (d : Driver) (msg : Msg) (queue : MsgQueue) :
    Keeps d (d.sendMsg msg queue) := by
  unfold Driver.sendMsg
  dsimp only
  generalize hnumbered : ({ d with nextCallbackId := _ } : Driver) = numbered
  have hsame : Keeps d numbered := by
    subst hnumbered
    exact ⟨id, fun _ => id⟩
  apply hsame.trans
  split
  · exact ⟨id, fun _ => id⟩
  · split
    · exact keeps_queueForWakeUp numbered _ _ _
    · generalize hcopied : numbered.newCommand _ = copied
      have hnew : Keeps numbered copied.1 := by
        subst hcopied
        exact ⟨id, fun _ => id⟩
      exact (hnew.trans (keeps_updateControllerState _ _ _)).trans (keeps_queueForWakeUp _ _ _ _)

theorem keeps_sendQueryStageComplete (d : Driver) (nodeId : UInt8) (stage : QueryStage) :
    Keeps d (d.sendQueryStageComplete nodeId stage) := by
  unfold Driver.sendQueryStageComplete
  split
  · exact Keeps.refl d
  · split
    · exact keeps_queueForWakeUp d _ _ _
    · exact ⟨id, fun _ => id⟩

theorem keeps_beginControllerCommand (d : Driver) (item : ControllerCommandItem) :
    Keeps d (d.beginControllerCommand item) := by
  unfold Driver.beginControllerCommand
  split
  · exact Keeps.refl d
  · exact ⟨id, fun _ => id⟩

theorem keeps_checkCompletedNodeQueries (d : Driver) : Keeps d d.checkCompletedNodeQueries := by
  unfold Driver.checkCompletedNodeQueries
  split
  · exact Keeps.refl d
  · dsimp only
    split
    · exact ⟨id, fun _ => id⟩
    · split
      · exact ⟨id, fun _ => id⟩
      · exact Keeps.refl d

theorem keeps_setAsleep (d : Driver) (nodeId : UInt8) (node : Node) :
    Keeps d (d.setAsleep nodeId node) := by
  unfold Driver.setAsleep
  split
  · exact (keeps_setWakeUp d nodeId node _).trans ⟨id, fun _ => id⟩
  · exact Keeps.refl d

theorem keeps_moveMessages (d : Driver) (target : UInt8) (node : Node) :
    Keeps d (d.moveMessages target node) := by
  have hmoved := Driver.moved_moveMessages target d node
  refine ⟨fun h => ?_, fun nodeId h => ?_⟩
  · obtain ⟨cci, hcci⟩ := Option.isSome_iff_exists.mp h
    obtain ⟨copy, hcopy, -⟩ := hmoved.busy cci hcci
    rw [hcopy]
    rfl
  · rcases eq_or_ne nodeId target with rfl | hne
    · rw [hmoved.pending]
      rfl
    · rw [hmoved.nodes nodeId hne]
      exact h

theorem keeps_moveMessagesToWakeUpQueue (d : Driver) (target : UInt8) (move : Bool) :
    Keeps d (d.moveMessagesToWakeUpQueue target move).1 := by
  unfold Driver.moveMessagesToWakeUpQueue
  split
  · exact Keeps.refl d
  · rename_i node _
    split
    · exact Keeps.refl d
    · split
      · exact Keeps.refl d
      · have hasleep := keeps_setAsleep d target node
        generalize d.setAsleep target node = asleep at hasleep ⊢
        split
        · have hmoved := keeps_moveMessages asleep target node
          generalize asleep.moveMessages target node = moved at hmoved ⊢
          exact (hasleep.trans hmoved).trans (keeps_checkCompletedNodeQueries moved)
        · exact hasleep

theorem keeps_removeQueues (d : Driver) (nodeId : UInt8) : Keeps d (d.removeQueues nodeId) := by
  unfold Driver.removeQueues
  split
  · split
    · exact ⟨id, fun _ => id⟩
    · exact ⟨id, fun _ => id⟩
  · exact ⟨id, fun _ => id⟩

theorem keeps_sendPendingItem (d : Driver) (item : MsgQueueItem) :
    Keeps d (d.sendPendingItem item) := by
  cases item with
  | sendMsg msg => exact keeps_sendMsg d msg .wakeUp
  | queryStageComplete nodeId stage retry => exact keeps_sendQueryStageComplete d nodeId stage
  | controller cci => exact keeps_beginControllerCommand d _
  | reloadNode nodeId => exact Keeps.refl d

theorem keeps_foldl {α : Type} {f : Driver → α → Driver} (hpass : ∀ d a, Keeps d (f d a))
    (d : Driver) (l : List α) : Keeps d (l.foldl f d) := by
  induction l generalizing d with
  | nil => exact Keeps.refl d
  | cons a l ih => exact (hpass d a).trans (ih (f d a))

theorem keeps_wakeUp (d : Driver) (nodeId : UInt8) : Keeps d (d.wakeUp nodeId) := by
  unfold Driver.wakeUp
  split
  · exact Keeps.refl d
  · rename_i node _
    split
    · exact Keeps.refl d
    · dsimp only
      apply Keeps.trans _ (keeps_foldl keeps_sendPendingItem _ _)
      have hwoken := keeps_setWakeUp d nodeId node { awake := true, pendingQueue := [] }
      split
      · exact hwoken
      · exact hwoken.trans ⟨id, fun _ => id⟩

/-- One case for each call. -/
theorem keeps_call (d : Driver) {c : DriverCall} (hkeeps : ∀ nodeId, c ≠ .deleteNode nodeId) :
    Keeps d (d.call c) := by
  cases c with
  | sendMsg msg queue =>
      have hsent := keeps_sendMsg d msg queue
      rw [Driver.call]
      generalize d.sendMsg msg queue = sent at hsent
      exact hsent.trans ⟨id, fun _ => id⟩
  | sendQueryStageComplete nodeId stage => exact keeps_sendQueryStageComplete d nodeId stage
  | retryQueryStageComplete nodeId stage => exact ⟨id, fun _ => id⟩
  | beginControllerCommand item => exact keeps_beginControllerCommand d item
  | updateControllerState state error => exact keeps_updateControllerState d state error
  | moveMessagesToWakeUpQueue target move => exact keeps_moveMessagesToWakeUpQueue d target move
  | removeCurrentMsg => exact ⟨id, fun _ => id⟩
  | removeQueues nodeId => exact keeps_removeQueues d nodeId
  | wakeUp nodeId => exact keeps_wakeUp d nodeId
  | newNode nodeId node => exact keeps_setNode d nodeId _
  | changeNode nodeId node =>
      unfold Driver.call
      dsimp only
      split
      · exact Keeps.refl d
      · exact keeps_setNode d nodeId _
  | deleteNode nodeId => exact absurd rfl (hkeeps nodeId)

theorem keeps_calls (d : Driver) {calls : List DriverCall}
    (hkeeps : ∀ nodeId, DriverCall.deleteNode nodeId ∉ calls) : Keeps d (d.calls calls) := by
  unfold Driver.calls
  induction calls generalizing d with
  | nil => exact Keeps.refl d
  | cons c calls ih =>
      have hcall : ∀ nodeId, c ≠ .deleteNode nodeId := by
        rintro nodeId rfl
        exact hkeeps nodeId (List.mem_cons_self ..)
      apply (keeps_call d hcall).trans
      exact ih (d.call c) fun nodeId h => hkeeps nodeId (List.mem_cons_of_mem c h)

theorem keeps_runs (d : Driver) (code : Stretch) : Keeps d (runs d code) :=
  keeps_calls d code.keeps

theorem keeps_handleErrorResponse (d : Driver) (error nodeId : UInt8) (sleepCheck : Bool)
    (code : Stretch) : Keeps d (handleErrorResponse d error nodeId sleepCheck code) := by
  have hmoved : Keeps d (d.handleErrorResponse error sleepCheck).1 := by
    unfold Driver.handleErrorResponse
    split
    · exact Keeps.refl d
    · split
      · exact keeps_moveMessagesToWakeUpQueue d _ _
      · exact Keeps.refl d
  unfold handleErrorResponse
  dsimp only
  split
  · exact hmoved
  · split
    · exact hmoved
    · exact hmoved.trans (keeps_runs _ code)

section

variable {α : Type} {d : Driver}

end

/-! ## Nodes -/

section

variable (d : Driver) (data : List UInt8) (out : Outside)

end

/-! ## Handlers that do not -/

section

variable (d : Driver) (data : List UInt8) (out : Outside)

/-- The status bytes with which `HandleRemoveFailedNodeRequest` uses the command. -/
def removeFailedStatuses : List UInt8 := [FailedNode.ok, FailedNode.removed, FailedNode.notRemoved]

/-- The status bytes with which `CommonAddNodeStatusRequestHandler` uses the
command without a test. -/
def addNodeStatuses : List UInt8 := [AddNodeStatus.learnReady, AddNodeStatus.addingSlave]

end

/-! ## Frames -/

/-- The functions whose status bytes go to `CommonAddNodeStatusRequestHandler`. -/
def addNodeFunctions : List UInt8 :=
  [FuncId.addNodeToNetwork, FuncId.createNewPrimary, FuncId.controllerChange]

/-- The responses that need a current message. -/
def needsMsg (data : List UInt8) : Bool :=
  data.getD 1 0 == FuncId.getVersion && !isSupportedLibrary data

/-- The requests that need a controller command in progress. -/
def needsCommand (data : List UInt8) : Bool :=
  data.getD 1 0 == FuncId.removeFailedNodeId && removeFailedStatuses.contains (data.getD 3 0)
    || addNodeFunctions.contains (data.getD 1 0) && addNodeStatuses.contains (data.getD 3 0)

section

variable (d : Driver) (data : List UInt8) (out : Outside)

/-- What a frame needs that the source does not test. -/
def Supplied : Prop :=
  (data.getD 0 0 = RESPONSE → needsMsg data = true → d.currentMsg.isSome = true) ∧
    (data.getD 0 0 = REQUEST → needsCommand data = true →
      d.currentControllerCommand.isSome = true)

end

/-! ## Runs -/

namespace Link

/-- What the next call of `ReadMsg` needs that the source does not test: a
current message for a NAK, and what a frame needs. -/
def Guarded (s : Link) : Prop :=
  match s.input with
  | [] => True
  | byte :: rest =>
      (byte = NAK → s.driver.currentMsg.isSome = true) ∧
        (byte = SOF → ∀ data later, readSOF rest = .accepted data later → Supplied s.driver data)

/-- The condition of an act: only `ReadMsg` has one. -/
def Meets (s : Link) : Act → Prop
  | .read _ => s.Guarded
  | _ => True

/-- The driver as its constructor leaves it, before any byte has arrived. -/
def new (homeId : UInt32) (controllerNodeId : UInt8) : Link where
  driver := Driver.new homeId controllerNodeId
  input := []

/-- No code of nodes runs. -/
def quiet : Outside where
  nonce := Vector.replicate 8 0
  opened := .failed
  code := fun _ => { calls := [], keeps := fun _ h => nomatch h }
  virtualNeighbors := []
  controllerReplication := false
  nodeReset := fun _ => false
  sameClasses := fun _ => false

end Link

end Receive

end OpenZWave
