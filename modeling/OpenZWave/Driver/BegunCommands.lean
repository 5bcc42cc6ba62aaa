import Mathlib.Data.List.Pairwise
import OpenZWave.Driver.QueueEvents

/-!
# Several controller commands in a row

Commands that are begun one after the other stand at new addresses and are last in their
queue. When their node goes to sleep they are moved to its pending queue, which drops a
command for a later one with the same command and callback.
-/

namespace OpenZWave

/-- A command as `BeginControllerCommand` makes it. -/
def ControllerCommandItem.begun (item : ControllerCommandItem) : ControllerCommandItem :=
  { item with
    state := .normal, stateChanged := false, done := false, returnError := .none, added := false }

/-- The pending queue tells the commands apart. -/
def ControllerCommandItem.Differs (a b : ControllerCommandItem) : Prop :=
  ¬ (b.command = a.command ∧ b.callback = a.callback)

instance : Std.Symm ControllerCommandItem.Differs where
  symm _ _ h hsame := h ⟨hsame.1.symm, hsame.2.symm⟩

namespace Driver

/-- `BeginControllerCommand` for several commands in a row. -/
def beginCommands (d : Driver) (items : List ControllerCommandItem) : Driver :=
  items.foldl beginControllerCommand d

/-- The commands that are begun stand at new addresses, and are last in their queue. -/
structure Begun (d : Driver) (items : List ControllerCommandItem) (d' : Driver) : Prop where
  next : d'.nextCci = d.nextCci + items.length
  queued : d'.msgQueue .controller =
    d.msgQueue .controller ++ (List.range' d.nextCci items.length).map .controller
  queues : ∀ q, q ≠ .controller → d'.msgQueue q = d.msgQueue q
  created : (List.range' d.nextCci items.length).map d'.ccis =
    items.map ControllerCommandItem.begun
  before : ∀ cci < d.nextCci, d'.ccis cci = d.ccis cci
  nodes : d'.nodes = d.nodes
  controller : d'.controllerNodeId = d.controllerNodeId

/-- The command is in its queue, or waits for a node. -/
def Queued (d : Driver) (nodeId : UInt8) (cci : CciRef) : Prop :=
  .controller cci ∈ d.msgQueue .controller ∨
    ∃ node, d.nodes nodeId = some node ∧ .controller cci ∈ node.wakeUp.pendingQueue

variable {d d' : Driver} {items : List ControllerCommandItem}

theorem begun_beginCommands (d : Driver) (hitems : ∀ item ∈ items, item.command ≠ .none) :
    Begun d items (d.beginCommands items) := by
  induction items generalizing d with
  | nil => exact ⟨rfl, (List.append_nil _).symm, fun _ _ => rfl, rfl, fun _ _ => rfl, rfl, rfl⟩
  | cons item items ih =>
      obtain ⟨hitem, hitems⟩ := List.forall_mem_cons.mp hitems
      have hbegun := ih (d.beginControllerCommand item) hitems
      have hbegin : d.beginControllerCommand item =
          (d.newCommand item.begun).1.pushBack .controller (.controller d.nextCci) := if_neg hitem
      have hnext : (d.beginControllerCommand item).nextCci = d.nextCci + 1 := by
        rw [hbegin]
        rfl
      have hccis : (d.beginControllerCommand item).ccis =
          Function.update d.ccis d.nextCci item.begun := by
        rw [hbegin]
        rfl
      rw [show d.beginCommands (item :: items) =
        (d.beginControllerCommand item).beginCommands items from rfl]
      refine ⟨?_, ?_, fun q hq => ?_, ?_, fun cci hcci => ?_, ?_, ?_⟩
      · rw [hbegun.next, hnext, List.length_cons, Nat.add_assoc, Nat.add_comm 1]
      · rw [hbegun.queued, hnext, hbegin, List.length_cons, List.range'_succ, List.map_cons]
        simp [pushBack, setQueue, setEvent, newCommand, setCommand]
      · rw [hbegun.queues q hq, hbegin]
        simp [pushBack, setQueue, setEvent, newCommand, setCommand, hq]
      · have hfirst := hbegun.before d.nextCci (hnext ▸ Nat.lt_succ_self _)
        have hrest := hbegun.created
        rw [hnext] at hrest
        rw [List.length_cons, List.range'_succ, List.map_cons, List.map_cons, hrest, hfirst, hccis,
          Function.update_self]
      · rw [hbegun.before cci (hnext ▸ Nat.lt_succ_of_lt hcci), hccis,
          Function.update_of_ne (Nat.ne_of_lt hcci)]
      · rw [hbegun.nodes, hbegin]
        rfl
      · rw [hbegun.controller, hbegin]
        rfl

theorem signals_beginCommands (h : d.Signals) (items : List ControllerCommandItem) :
    (d.beginCommands items).Signals := by
  induction items generalizing d with
  | nil => exact h
  | cons item items ih => exact ih (signals_beginControllerCommand h item)

/-! ## When the node goes to sleep -/

theorem eq_controller_iff (ccis : CciHeap) (cci cci' : CciRef) :
    (MsgQueueItem.controller cci).eq ccis (.controller cci') = false ↔
      (ccis cci).Differs (ccis cci') := by
  rw [ControllerCommandItem.Differs, MsgQueueItem.eq, ← Bool.not_eq_true, Bool.and_eq_true,
    beq_iff_eq, beq_iff_eq]

theorem node_begun (hbegun : Begun d items d') {target : UInt8}
    (hitems : ∀ item ∈ items, item.node = target) {cci : CciRef}
    (hcci : cci ∈ List.range' d.nextCci items.length) : (d'.ccis cci).node = target := by
  have hmem : d'.ccis cci ∈ items.map ControllerCommandItem.begun := by
    rw [← hbegun.created]
    exact List.mem_map_of_mem hcci
  obtain ⟨item, hitem, heq⟩ := List.mem_map.mp hmem
  rw [← heq]
  exact hitems item hitem

/-- The commands are moved one after the other, and only items that are no commands after
them. -/
theorem movedItems_begun {target : UInt8} (hbegun : Begun d items d')
    (hcommands : d'.CommandsPlaced) (hitems : ∀ item ∈ items, item.node = target) :
    ∃ first last, movedItems target d' =
        first ++ (List.range' d.nextCci items.length).map .controller ++ last ∧
      ∀ cci, .controller cci ∉ last := by
  have hbefore : ∀ q, movedFrom d'.ccis target (d'.msgQueue q) ⊆ d'.msgQueue q :=
    fun q => List.filter_subset_self _
  have hall : movedFrom d'.ccis target ((List.range' d.nextCci items.length).map .controller) =
      (List.range' d.nextCci items.length).map .controller := by
    rw [movedFrom, List.filter_eq_self]
    rintro item hitem
    obtain ⟨cci, hcci, rfl⟩ := List.mem_map.mp hitem
    simp [MsgQueueItem.isFor, MsgQueueItem.pends, node_begun hbegun hitems hcci]
  refine ⟨currentItem target d' ++ ([MsgQueue.command, .noOp].flatMap fun q =>
      movedFrom d'.ccis target (d'.msgQueue q)) ++
      movedFrom d'.ccis target (d.msgQueue .controller),
    [MsgQueue.wakeUp, .send, .query, .poll].flatMap fun q =>
      movedFrom d'.ccis target (d'.msgQueue q), ?_, ?_⟩
  · have hqueue : movedFrom d'.ccis target (d'.msgQueue .controller) =
        movedFrom d'.ccis target (d.msgQueue .controller) ++
          (List.range' d.nextCci items.length).map .controller := by
      rw [hbegun.queued, movedFrom, List.filter_append, ← movedFrom, ← movedFrom, hall]
    simp [movedItems, MsgQueue.all, hqueue]
  · intro cci hmem
    obtain ⟨q, hq, hcci⟩ := List.mem_flatMap.mp hmem
    obtain ⟨rfl, -⟩ := hcommands.placed q cci (hbefore q hcci)
    simp at hq

/-- The commands have left their queue. -/
theorem not_mem_queue_of_moved {target : UInt8} {node : Node} {d'' : Driver}
    (hbegun : Begun d items d') (hitems : ∀ item ∈ items, item.node = target)
    (hmoved : Moved target node d' d'') (hrequeued : Requeued target d' d'') {cci : CciRef}
    (hcci : cci ∈ List.range' d.nextCci items.length) :
    .controller cci ∉ d''.msgQueue .controller := by
  have hleft : .controller cci ∉ keptIn d'.ccis target (d'.msgQueue .controller) := by
    intro hmem
    have hstays := (List.mem_filter.mp hmem).2
    simp [MsgQueueItem.isFor, node_begun hbegun hitems hcci] at hstays
  cases hcommand : d'.currentControllerCommand with
  | none => rwa [hmoved.queues .controller (Or.inr hcommand)]
  | some current =>
      obtain ⟨-, -, -, hqueue, -⟩ := hrequeued.busy current hcommand
      rw [hqueue]
      refine fun hmem => (List.mem_append.mp hmem).elim hleft fun hcopy => ?_
      obtain rfl := MsgQueueItem.controller.inj (List.mem_singleton.mp hcopy)
      rw [List.mem_range'_1, hbegun.next] at hcci
      exact Nat.lt_irrefl _ hcci.2

/-- When the node sleeps, all its new commands are still queued or pending exactly if the
pending queue tells them apart. -/
theorem queued_of_moved_iff {target : UInt8} {node : Node} {d'' : Driver}
    (hbegun : Begun d items d') (hcommands : d'.CommandsPlaced)
    (hitems : ∀ item ∈ items, item.node = target) (hmoved : Moved target node d' d'')
    (hrequeued : Requeued target d' d'') :
    (∀ cci ∈ List.range' d.nextCci items.length, d''.Queued target cci) ↔
      items.Pairwise ControllerCommandItem.Differs := by
  obtain ⟨first, last, hitemsMoved, hlast⟩ := movedItems_begun hbegun hcommands hitems
  have hpending : ∀ cci, d''.Queued target cci ↔
      .controller cci ∈ d''.msgQueue .controller ∨
        .controller cci ∈ (movedItems target d').foldl (queueMsg d'.ccis)
          node.wakeUp.pendingQueue := by
    intro cci
    rw [Queued, hmoved.pending]
    simp
  have hfold : (movedItems target d').foldl (queueMsg d'.ccis) node.wakeUp.pendingQueue = _ :=
    (foldl_queueMsg_eq_arrive d'.ccis _ _).trans (Requeue.foldl_arrive _ _ _)
  have hpairwise : items.Pairwise ControllerCommandItem.Differs ↔
      (List.range' d.nextCci items.length).Pairwise fun cci cci' =>
        (d'.ccis cci).Differs (d'.ccis cci') := by
    have hmap := @List.pairwise_map _ _ d'.ccis ControllerCommandItem.Differs
      (List.range' d.nextCci items.length)
    rw [← hmap, hbegun.created, List.pairwise_map]
    rfl
  rw [hpairwise]
  constructor
  · intro hqueued
    have hlastOf : ∀ cci ∈ List.range' d.nextCci items.length,
        .controller cci ∈ Requeue.lastOf (MsgQueueItem.eq d'.ccis)
          ((movedItems target d').map MsgQueueItem.resetAttempts) := by
      intro cci hcci
      have hmovedItem : .controller cci ∈
          (movedItems target d').map MsgQueueItem.resetAttempts := by
        refine List.mem_map.mpr ⟨.controller cci, ?_, rfl⟩
        rw [hitemsMoved]
        exact List.mem_append_left _ (List.mem_append_right _ (List.mem_map_of_mem hcci))
      rcases (hpending cci).mp (hqueued cci hcci) with hqueue | hpends
      · exact absurd hqueue (not_mem_queue_of_moved hbegun hitems hmoved hrequeued hcci)
      · rw [hfold] at hpends
        rcases List.mem_append.mp hpends with hold | hlast
        · -- a moved command would have removed itself from the old items
          have hnot := List.all_eq_true.mp (List.mem_filter.mp hold).2 _ hmovedItem
          simp [MsgQueueItem.eq] at hnot
        · exact hlast
    refine List.Nodup.pairwise_of_forall_ne List.nodup_range' fun cci hcci cci' hcci' hne => ?_
    let Apart := fun a b : MsgQueueItem => ∀ c c', a = .controller c → b = .controller c' →
      (d'.ccis c).Differs (d'.ccis c')
    have hsymm : Std.Symm Apart :=
      ⟨fun a b hab c c' hc hc' => Std.Symm.symm _ _ (hab c' c hc' hc)⟩
    have hapart : (Requeue.lastOf (MsgQueueItem.eq d'.ccis)
        ((movedItems target d').map MsgQueueItem.resetAttempts)).Pairwise Apart := by
      refine (Requeue.pairwise_lastOf (MsgQueueItem.eq d'.ccis) _).imp fun {a b} hab c c' hc hc' => ?_
      subst hc hc'
      exact (eq_controller_iff d'.ccis c c').mp hab
    exact hapart.forall (hlastOf cci hcci) (hlastOf cci' hcci')
      (fun heq => hne (MsgQueueItem.controller.inj heq)) cci cci' rfl rfl
  · intro hdiffers cci hcci
    refine (hpending cci).mpr (Or.inr ?_)
    obtain ⟨before, after, hsplit⟩ := List.append_of_mem hcci
    rw [hsplit, List.pairwise_append] at hdiffers
    rw [hfold, hitemsMoved, hsplit]
    refine List.mem_append_right _ ?_
    simp only [List.map_append, List.map_cons, List.append_assoc, List.cons_append]
    rw [← List.append_assoc]
    refine Requeue.mem_lastOf_append _ fun item hitem => ?_
    rcases List.mem_append.mp hitem with hlater | hother
    · obtain ⟨later, hmem, rfl⟩ := List.mem_map.mp hlater
      obtain ⟨cci', hcci', rfl⟩ := List.mem_map.mp hmem
      exact (eq_controller_iff d'.ccis cci cci').mpr
        ((List.pairwise_cons.mp hdiffers.2.1).1 cci' hcci')
    · obtain ⟨other, hmem, rfl⟩ := List.mem_map.mp hother
      cases other with
      | controller cci' => exact absurd hmem (hlast cci')
      | _ => rfl

end Driver

end OpenZWave
