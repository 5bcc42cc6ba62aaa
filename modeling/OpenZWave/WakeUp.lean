import OpenZWave.Framing
import OpenZWave.Lib.Requeue

/-!
# Queue items and the Wake Up pending queue

`MsgQueueItem` and `ControllerCommandItem` are those of `Driver.h`, `queueMsg`
is `WakeUp::QueueMsg`. A controller command is an object that a queue item and
the driver may both point to, so an item holds a reference into the heap of
commands. The theorems compare `QueueMsg` with a queue that keeps one item for
each request.
-/

namespace OpenZWave

open ByteBuffer

/-- `ControllerCommandItem`. The callback is a function pointer, `none` for
`NULL`. -/
structure ControllerCommandItem where
  state : ControllerState
  stateChanged : Bool
  done : Bool
  command : ControllerCommand
  callback : Option Nat
  returnError : ControllerError
  highPower : Bool
  added : Bool
  node : UInt8
  arg : UInt8
  deriving DecidableEq, Inhabited

/-- The address of a controller command. -/
abbrev CciRef := Nat

/-- The controller commands in memory. -/
abbrev CciHeap := CciRef → ControllerCommandItem

/-- `MsgQueueItem`, by `m_command`. -/
inductive MsgQueueItem
  | sendMsg (msg : Msg)
  | queryStageComplete (nodeId : UInt8) (stage : QueryStage) (retry : Bool)
  | controller (cci : CciRef)
  | reloadNode (nodeId : UInt8)
  deriving DecidableEq

namespace MsgQueueItem

/-- `MsgQueueItem::operator==`: the messages are compared from the other side. -/
def eq (ccis : CciHeap) : MsgQueueItem → MsgQueueItem → Bool
  | .sendMsg msg, .sendMsg other => other.eq msg
  | .queryStageComplete nodeId stage _, .queryStageComplete nodeId' stage' _ =>
      nodeId' == nodeId && stage' == stage
  | .controller cci, .controller cci' =>
      (ccis cci').command == (ccis cci).command && (ccis cci').callback == (ccis cci).callback
  | .reloadNode nodeId, .reloadNode nodeId' => nodeId' == nodeId
  | _, _ => false

/-- `SetSendAttempts(0)` on the message of a queued item. -/
def resetAttempts : MsgQueueItem → MsgQueueItem
  | .sendMsg msg => .sendMsg (msg.setSendAttempts 0)
  | item => item

end MsgQueueItem

/-- `WakeUp::QueueMsg` on the pending queue. -/
def queueMsg (ccis : CciHeap) (pendingQueue : List MsgQueueItem) (item : MsgQueueItem) :
    List MsgQueueItem :=
  pendingQueue.filter (fun queued => !queued.eq ccis item) ++ [item.resetAttempts]

/-- The pending queue after a history of `QueueMsg` calls. -/
def pendingAfter (ccis : CciHeap) (history : List MsgQueueItem) : List MsgQueueItem :=
  history.foldl (queueMsg ccis) []

/-! ## Requests -/

/-- The bytes of a message that do not change when it is sent again. -/
def Msg.content (m : Msg) : List UInt8 := first m.buffer m.comparedLength.toNat

/-- What a queue item asks for. -/
inductive Request
  | message (target : UInt8) (content : List UInt8)
  | queryStage (nodeId : UInt8) (stage : QueryStage)
  | controller (command : ControllerCommand) (node arg : UInt8)
  | reload (nodeId : UInt8)
  deriving DecidableEq

/-- The request an item denotes. -/
def MsgQueueItem.request (ccis : CciHeap) : MsgQueueItem → Request
  | .sendMsg msg => .message msg.targetNodeId msg.content
  | .queryStageComplete nodeId stage _ => .queryStage nodeId stage
  | .controller cci => .controller (ccis cci).command (ccis cci).node (ccis cci).arg
  | .reloadNode nodeId => .reload nodeId

/-- A finalized message whose length byte counts all but SOF and checksum. -/
structure Msg.Framed (m : Msg) : Prop where
  final : m.bFinal = true
  long : 4 + (if m.bCallbackRequired then 2 else 1) ≤ m.length.toNat
  declared : (peek m.buffer 1).toNat = m.length.toNat - 2

/-- The items of a history whose equality tells requests apart: messages of one
function agree on the callback byte, equal contents go to one node, and the
callback of a controller command belongs to its node and argument. -/
structure Distinguishable (ccis : CciHeap) (items : List MsgQueueItem) : Prop where
  framed : ∀ m, MsgQueueItem.sendMsg m ∈ items → m.Framed
  callback : ∀ m m', MsgQueueItem.sendMsg m ∈ items → MsgQueueItem.sendMsg m' ∈ items →
    peek m.buffer 3 = peek m'.buffer 3 → m.bCallbackRequired = m'.bCallbackRequired
  target : ∀ m m', MsgQueueItem.sendMsg m ∈ items → MsgQueueItem.sendMsg m' ∈ items →
    m.content = m'.content → m.targetNodeId = m'.targetNodeId
  command : ∀ c c', MsgQueueItem.controller c ∈ items → MsgQueueItem.controller c' ∈ items →
    (ccis c).command = (ccis c').command →
    ((ccis c).callback = (ccis c').callback ↔
      (ccis c).node = (ccis c').node ∧ (ccis c).arg = (ccis c').arg)

namespace Msg

theorem toNat_comparedLength {m : Msg} (h : m.Framed) :
    m.comparedLength.toNat = m.length.toNat - (if m.bCallbackRequired then 2 else 1) := by
  have hlong := h.long
  unfold comparedLength
  cases hc : m.bCallbackRequired with
  | true =>
      simp only [hc, if_true] at hlong ⊢
      rw [UInt8.toNat_sub_of_le]
      · rfl
      · rw [UInt8.le_iff_toNat_le]
        exact Nat.le_trans (by decide) hlong
  | false =>
      simp only [hc, Bool.false_eq_true, if_false] at hlong ⊢
      rw [UInt8.toNat_sub_of_le]
      · rfl
      · rw [UInt8.le_iff_toNat_le]
        exact Nat.le_trans (by decide) hlong

theorem four_le_comparedLength {m : Msg} (h : m.Framed) : 4 ≤ m.comparedLength.toNat := by
  have hlong := h.long
  rw [toNat_comparedLength h]
  omega

theorem length_content (m : Msg) : m.content.length = m.comparedLength.toNat :=
  length_first _ (Nat.le_of_lt m.comparedLength.toNat_lt)

/-- Frames that agree on their header bytes have one length. -/
theorem comparedLength_eq {m m' : Msg} (h : m.Framed) (h' : m'.Framed)
    (hdeclared : peek m.buffer 1 = peek m'.buffer 1)
    (hcallback : m.bCallbackRequired = m'.bCallbackRequired) :
    m.comparedLength = m'.comparedLength := by
  have hl := h.long
  have hl' := h'.long
  have hd := h.declared
  have hd' := h'.declared
  rw [hdeclared] at hd
  apply UInt8.toNat.inj
  rw [toNat_comparedLength h, toNat_comparedLength h', hcallback]
  omega

/-- `operator==` compares contents. -/
theorem eq_iff_content {m m' : Msg} (h : m.Framed) (h' : m'.Framed)
    (hcallback : peek m.buffer 3 = peek m'.buffer 3 →
      m.bCallbackRequired = m'.bCallbackRequired) :
    m.eq m' = true ↔ m.content = m'.content := by
  have hfour := four_le_comparedLength h
  have hlt := m.comparedLength.toNat_lt
  have hunfold : m.eq m' = true ↔
      first m.buffer m.comparedLength.toNat = first m'.buffer m.comparedLength.toNat := by
    simp [eq, h.final, h'.final]
  rw [hunfold]
  constructor
  · intro hfirst
    have hcell : ∀ i, i < 4 → peek m.buffer i = peek m'.buffer i := by
      intro i hi
      rw [← getD_first m.buffer (k := m.comparedLength.toNat) (by omega), hfirst,
        getD_first m'.buffer (by omega)]
    have hlength := comparedLength_eq h h' (hcell 1 (by decide)) (hcallback (hcell 3 (by decide)))
    unfold content
    rw [hfirst, hlength]
  · intro hcontent
    have hlength : m.comparedLength.toNat = m'.comparedLength.toNat := by
      rw [← length_content m, ← length_content m', hcontent]
    rw [hlength, ← content, ← hcontent, content, hlength]

/-- Finalizing yields such a frame, and refreshing the callback id keeps it one. -/
theorem framed_finished {m : Msg} (hnew : Fresh m) (data : List UInt8) (next : UInt8)
    (resends : List UInt8) (hfit : m.totalLength data.length ≤ 255) :
    (m.finished data next resends).Framed := by
  obtain ⟨hsealed, hlength, -⟩ := carries_finished hnew data next resends hfit
  have hsum : 4 + data.length + m.inserted.length + (if m.bCallbackRequired then 1 else 0) + 1
      ≤ 255 := hfit
  rw [toNat_length_encapsulated hnew data (by omega)] at hlength
  refine ⟨bFinal_finished m data next resends, ?_, hsealed.declared⟩
  split
  · rename_i hc
    rw [if_pos hc] at hlength
    omega
  · omega

end Msg

namespace MsgQueueItem

@[simp] theorem request_resetAttempts (ccis : CciHeap) (item : MsgQueueItem) :
    item.resetAttempts.request ccis = item.request ccis := by
  cases item <;> rfl

@[simp] theorem eq_resetAttempts (ccis : CciHeap) (item other : MsgQueueItem) :
    item.resetAttempts.eq ccis other = item.eq ccis other := by
  cases item <;> cases other <;> rfl

/-- Item equality is equality of requests among distinguishable items. -/
theorem eq_iff_request {ccis : CciHeap} {items : List MsgQueueItem}
    (h : Distinguishable ccis items) {a b : MsgQueueItem} (ha : a ∈ items) (hb : b ∈ items) :
    a.eq ccis b = true ↔ a.request ccis = b.request ccis := by
  cases a with
  | sendMsg m =>
      cases b with
      | sendMsg m' =>
          have hcontent := Msg.eq_iff_content (h.framed m' hb) (h.framed m ha)
            (h.callback m' m hb ha)
          simp only [eq, request, Request.message.injEq, hcontent]
          constructor
          · intro heq
            exact ⟨h.target m m' ha hb heq.symm, heq.symm⟩
          · rintro ⟨-, heq⟩
            exact heq.symm
      | _ => simp [eq, request]
  | queryStageComplete nodeId stage retry =>
      cases b with
      | queryStageComplete nodeId' stage' retry' =>
          simp only [eq, request, Bool.and_eq_true, beq_iff_eq, Request.queryStage.injEq]
          constructor
          · rintro ⟨hn, hs⟩
            exact ⟨hn.symm, hs.symm⟩
          · rintro ⟨hn, hs⟩
            exact ⟨hn.symm, hs.symm⟩
      | _ => simp [eq, request]
  | controller c =>
      cases b with
      | controller c' =>
          simp only [eq, request, Bool.and_eq_true, beq_iff_eq, Request.controller.injEq]
          constructor
          · rintro ⟨hc, hb'⟩
            exact ⟨hc.symm, (h.command c c' ha hb hc.symm).mp hb'.symm⟩
          · rintro ⟨hc, hargs⟩
            exact ⟨hc.symm, ((h.command c c' ha hb hc).mpr hargs).symm⟩
      | _ => simp [eq, request]
  | reloadNode nodeId =>
      cases b with
      | reloadNode nodeId' =>
          simp only [eq, request, beq_iff_eq, Request.reload.injEq]
          exact eq_comm
      | _ => simp [eq, request]

end MsgQueueItem

/-! ## The pending queue keeps one item for each request -/

/-- One call of `QueueMsg` is one arrival at a queue without repetition. -/
theorem queueMsg_eq_requeue {ccis : CciHeap} {items pendingQueue : List MsgQueueItem}
    (h : Distinguishable ccis items)
    (hqueue : ∀ queued ∈ pendingQueue, ∃ a ∈ items, queued = a.resetAttempts)
    {item : MsgQueueItem} (hitem : item ∈ items) :
    queueMsg ccis pendingQueue item =
      Requeue.requeue (MsgQueueItem.request ccis) pendingQueue item.resetAttempts := by
  unfold queueMsg Requeue.requeue
  congr 1
  apply List.filter_congr
  intro queued hqueued
  obtain ⟨a, ha, rfl⟩ := hqueue queued hqueued
  rw [MsgQueueItem.eq_resetAttempts, MsgQueueItem.request_resetAttempts,
    MsgQueueItem.request_resetAttempts]
  have hiff := MsgQueueItem.eq_iff_request h ha hitem
  cases heq : a.eq ccis item with
  | true => simp [hiff.mp heq]
  | false =>
      have hne : a.request ccis ≠ item.request ccis := by
        intro hreq
        rw [hiff.mpr hreq] at heq
        cases heq
      simp [hne]

/-- Every pending item comes from the history. -/
theorem mem_foldl_queueMsg {ccis : CciHeap} {history pendingQueue : List MsgQueueItem}
    {queued : MsgQueueItem} (h : queued ∈ history.foldl (queueMsg ccis) pendingQueue) :
    queued ∈ pendingQueue ∨ ∃ a ∈ history, queued = a.resetAttempts := by
  induction history generalizing pendingQueue with
  | nil => exact Or.inl h
  | cons a history ih =>
      rcases ih h with hmem | ⟨b, hb, rfl⟩
      · rcases List.mem_append.mp hmem with hold | hnew
        · exact Or.inl (List.mem_of_mem_filter hold)
        · rw [List.mem_singleton] at hnew
          exact Or.inr ⟨a, List.mem_cons_self, hnew⟩
      · exact Or.inr ⟨b, List.mem_cons_of_mem _ hb, rfl⟩

/-- A history of calls is a history of arrivals. -/
theorem foldl_queueMsg_eq {ccis : CciHeap} {items : List MsgQueueItem}
    (h : Distinguishable ccis items) {history pendingQueue : List MsgQueueItem}
    (hqueue : ∀ queued ∈ pendingQueue, ∃ a ∈ items, queued = a.resetAttempts)
    (hhistory : ∀ a ∈ history, a ∈ items) :
    history.foldl (queueMsg ccis) pendingQueue =
      (history.map MsgQueueItem.resetAttempts).foldl
        (Requeue.requeue (MsgQueueItem.request ccis)) pendingQueue := by
  induction history generalizing pendingQueue with
  | nil => rfl
  | cons item history ih =>
      have hitem := hhistory item List.mem_cons_self
      rw [List.foldl_cons, List.map_cons, List.foldl_cons, ← queueMsg_eq_requeue h hqueue hitem]
      apply ih
      · intro queued hqueued
        rcases List.mem_append.mp hqueued with hold | hnew
        · exact hqueue queued (List.mem_of_mem_filter hold)
        · rw [List.mem_singleton] at hnew
          exact ⟨item, hitem, hnew⟩
      · intro a ha
        exact hhistory a (List.mem_cons_of_mem _ ha)

/-- The pending requests are those of the history, each at its last occurrence. -/
theorem requests_pendingAfter {ccis : CciHeap} {history : List MsgQueueItem}
    (h : Distinguishable ccis history) :
    (pendingAfter ccis history).map (MsgQueueItem.request ccis) =
      (history.map (MsgQueueItem.request ccis)).dedup := by
  have hnone : ∀ queued ∈ ([] : List MsgQueueItem), ∃ a ∈ history, queued = a.resetAttempts :=
    fun queued hqueued => absurd hqueued List.not_mem_nil
  have hmap : (history.map MsgQueueItem.resetAttempts).map (MsgQueueItem.request ccis) =
      history.map (MsgQueueItem.request ccis) := by
    rw [List.map_map]
    exact List.map_congr_left (fun a _ => MsgQueueItem.request_resetAttempts ccis a)
  have hempty : (([] : List MsgQueueItem).map (MsgQueueItem.request ccis)).Nodup := List.nodup_nil
  rw [pendingAfter, foldl_queueMsg_eq h hnone (fun _ ha => ha),
    Requeue.map_foldl_requeue _ _ _ hempty, List.map_nil, List.nil_append, hmap]

/-- After every history of distinguishable items, no request is pending twice,
the last one stands at the newest position, the others are those that were
pending before, in the order they had, and every request of the history is
pending. -/
theorem queueMsg_history (ccis : CciHeap) (history : List MsgQueueItem) (item : MsgQueueItem)
    (h : Distinguishable ccis (history ++ [item])) :
    ((pendingAfter ccis (history ++ [item])).map (MsgQueueItem.request ccis)).Nodup ∧
    pendingAfter ccis (history ++ [item]) =
      (pendingAfter ccis history).filter
        (fun queued => queued.request ccis ≠ item.request ccis) ++ [item.resetAttempts] ∧
    (pendingAfter ccis (history ++ [item])).map (MsgQueueItem.request ccis) =
      ((history ++ [item]).map (MsgQueueItem.request ccis)).dedup := by
  have hrequests := requests_pendingAfter h
  refine ⟨?_, ?_, hrequests⟩
  · rw [hrequests]
    exact List.nodup_dedup _
  · have hlast : pendingAfter ccis (history ++ [item]) =
        queueMsg ccis (pendingAfter ccis history) item := by
      rw [pendingAfter, List.foldl_append]
      rfl
    have hpending : ∀ queued ∈ pendingAfter ccis history,
        ∃ a ∈ history ++ [item], queued = a.resetAttempts := by
      intro queued hqueued
      rcases mem_foldl_queueMsg hqueued with hnil | ⟨a, ha, heq⟩
      · exact absurd hnil List.not_mem_nil
      · exact ⟨a, List.mem_append_left _ ha, heq⟩
    rw [hlast, queueMsg_eq_requeue h hpending (List.mem_append_right _ List.mem_cons_self),
      Requeue.requeue, MsgQueueItem.request_resetAttempts]

/-- A Basic Get to node 5. -/
def basicGet : Msg :=
  (Msg.new 1 5 REQUEST FuncId.sendData true).finished [5, 2, 0x20, 0x02, 0x25] 10 []

/-- The same Basic Get asked for twice, around the end of a query stage. -/
theorem queueMsg_history_basicGet :
    ((pendingAfter (fun _ => default) ([.sendMsg basicGet, .queryStageComplete 5 .static false]
      ++ [.sendMsg basicGet])).map (MsgQueueItem.request fun _ => default)).Nodup := by
  have hframed : basicGet.Framed := by
    apply Msg.framed_finished (Msg.fresh_new 1 5 REQUEST FuncId.sendData true true 0 0)
    rw [Msg.totalLength_new]
    decide
  have hmsg : ∀ m, MsgQueueItem.sendMsg m ∈
      ([.sendMsg basicGet, .queryStageComplete 5 .static false] ++ [.sendMsg basicGet]) →
      m = basicGet := by
    intro m hm
    simpa using hm
  refine (queueMsg_history (fun _ => default) [.sendMsg basicGet,
    .queryStageComplete 5 .static false] (.sendMsg basicGet) ?_).1
  refine ⟨?_, ?_, ?_, ?_⟩
  · intro m hm
    rw [hmsg m hm]
    exact hframed
  · intro m m' hm hm' _
    rw [hmsg m hm, hmsg m' hm']
  · intro m m' hm hm' _
    rw [hmsg m hm, hmsg m' hm']
  · intro c c' hc
    simp at hc

/-- The route assignments of `UpdateNodeRoutes` for node 5, as
`BeginControllerCommand` allocates them: the address stands for the destination. -/
def routeAssignments : CciHeap := fun cci =>
  { (default : ControllerCommandItem) with
    command := .assignReturnRoute, highPower := true, node := 5, arg := UInt8.ofNat cci }

/-- The second assignment drops the first, though it has another destination. -/
theorem routeAssignment_dropped :
    (MsgQueueItem.controller 2).request routeAssignments ≠
      (MsgQueueItem.controller 3).request routeAssignments ∧
    pendingAfter routeAssignments [.controller 2, .controller 3] = [.controller 3] := by
  decide

end OpenZWave
