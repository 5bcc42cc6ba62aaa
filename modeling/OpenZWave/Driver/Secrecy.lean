import OpenZWave.Driver.Held

/-!
# Messages of secured classes

`SendMsg` marks a message as encrypted when its sending class is secured. The
class is read after `Finalize`, so for a wrapped command it is the class of the
wrapper. A marked message stays marked wherever it goes, and its bytes are not
written as they are.
-/

namespace OpenZWave

open ByteBuffer

namespace Msg

/-! ## The class that is read -/

/-- Closing a message leaves what stands between its function and its end. -/
theorem peek_closed (m : Msg) (next : UInt8) {i : Nat} (hlow : 2 ≤ i) (hi : i < m.length.toNat) :
    peek (m.closed next).1.buffer i = peek m.buffer i := by
  have hlt := m.length.toNat_lt
  have hcallback : m.length.toNat ≠ i := by omega
  have hchecksum : (m.length + 1).toNat ≠ i := by
    rw [UInt8.toNat_add]
    simp only [UInt8.toNat_ofNat]
    omega
  have hdeclared : 1 ≠ i := by omega
  rw [closed]
  split
  · calc peek (poke (poke (poke m.buffer 1 m.length) m.length.toNat (nextId next))
          (m.length + 1).toNat _) i
        = peek (poke (poke m.buffer 1 m.length) m.length.toNat (nextId next)) i :=
          peek_poke_ne hchecksum
      _ = peek (poke m.buffer 1 m.length) i := peek_poke_ne hcallback
      _ = peek m.buffer i := peek_poke_ne hdeclared
  · calc peek (poke (poke m.buffer 1 (m.length - 1)) m.length.toNat _) i
        = peek (poke m.buffer 1 (m.length - 1)) i := peek_poke_ne hcallback
      _ = peek m.buffer i := peek_poke_ne hdeclared

/-- `Finalize` will wrap the message. -/
def Wrapped (m : Msg) : Prop := m.flags &&& (multiChannel ||| multiInstance) ≠ 0

instance (m : Msg) : Decidable m.Wrapped := inferInstanceAs (Decidable (_ ≠ _))

/-- The sending class of a finalized message is that of its wrapper. -/
theorem getSendingCommandClass_finalize (m : Msg) (next : UInt8) (hnew : m.bFinal = false)
    (hsend : peek m.buffer 3 = FuncId.sendData) (hlong : 7 ≤ m.length.toNat)
    (hfit : m.Wrapped → m.length.toNat + m.encapHeader.length ≤ 255) :
    (m.finalize next).1.getSendingCommandClass =
      if m.Wrapped then ClassId.multiInstance else peek m.buffer 6 := by
  have hinserted : m.inserted = if m.Wrapped then m.encapHeader else [] := by
    rw [inserted]
    exact if_congr (and_iff_left hsend) rfl rfl
  have hlength : m.length.toNat ≤ m.encapsulated.length.toNat ∧
      m.length.toNat + m.inserted.length ≤ 256 := by
    rw [length_encapsulated, hinserted]
    split
    · rename_i hwrapped
      have hin := hfit hwrapped
      rw [toNat_add_ofNat hin]
      omega
    · have := m.length.toNat_lt
      simp
      omega
  rw [finalize_eq_closed m next hnew, getSendingCommandClass, peek_closed _ _ (by decide) (by omega),
    peek_closed _ _ (by decide) (by omega), peek_encapsulated m hlength.2,
    peek_encapsulated m hlength.2, if_pos (Or.inr (by decide)), if_pos hsend, hinserted]
  split
  · rename_i hwrapped
    have hpos := length_encapHeader_pos m
    have hne : m.encapHeader ≠ [] := List.ne_nil_of_length_pos hpos
    rw [if_neg (by simp [hne]), if_neg (by decide), if_pos (by omega), encapHeader]
    split <;> rfl
  · rw [if_pos (Or.inl rfl)]

end Msg

/-- A SEND_DATA message that a secured class of the node has built. It has not
been sent yet. -/
structure BuiltSecured (msg : Msg) (node : Node) : Prop where
  unsent : msg.bFinal = false
  function : peek msg.buffer 3 = FuncId.sendData
  command : 7 ≤ msg.length.toNat
  security : (node.getCommandClass ClassId.security).isSome
  secured : node.isSecured (peek msg.buffer 6) = true

/-- The message is not wrapped, or it is wrapped by a class that is secured too
and still fits the buffer. -/
def WrapSecured (msg : Msg) (node : Node) : Prop :=
  msg.Wrapped →
    node.isSecured ClassId.multiInstance = true ∧
      msg.length.toNat + msg.encapHeader.length ≤ 255

namespace Driver

/-- Whether `SendMsg` marks such a message depends on the wrapper. -/
theorem encrypted_prepare_iff {d : Driver} {msg : Msg} {node : Node}
    (hnode : d.nodes msg.targetNodeId = some node) (hbuilt : BuiltSecured msg node)
    (hplain : msg.encrypted = false)
    (hfit : msg.Wrapped → msg.length.toNat + msg.encapHeader.length ≤ 255) :
    (d.prepare msg).encrypted = true ↔
      (msg.Wrapped → node.isSecured ClassId.multiInstance = true) := by
  have hclass := Msg.getSendingCommandClass_finalize (msg.setHomeId d.homeId) d.nextCallbackId
    hbuilt.unsent hbuilt.function hbuilt.command hfit
  have hencrypts : d.encrypts ((msg.setHomeId d.homeId).finalize d.nextCallbackId).1 =
      node.isSecured (if msg.Wrapped then ClassId.multiInstance else peek msg.buffer 6) := by
    have htarget : (msg.setHomeId d.homeId).targetNodeId = msg.targetNodeId := rfl
    rw [encrypts, Msg.targetNodeId_finalize, hclass, htarget, hnode]
    exact (congrArg (· && _) hbuilt.security).trans (Bool.true_and _)
  have hmark : (d.prepare msg).encrypted =
      d.encrypts ((msg.setHomeId d.homeId).finalize d.nextCallbackId).1 := by
    rw [prepare]
    split
    · rename_i hmarks
      exact hmarks.symm
    · rename_i hunmarked
      rw [Msg.encrypted_finalize, eq_false_of_ne_true hunmarked]
      exact hplain
  rw [hmark, hencrypts]
  split
  · rename_i hwrapped
    exact ⟨fun hsecured _ => hsecured, fun hsecured => hsecured hwrapped⟩
  · rename_i hbare
    exact ⟨fun _ hwrapped => absurd hwrapped hbare, fun _ => hbuilt.secured⟩

end Driver

/-! ## Marks -/

/-- The message, if it is the one of this request, is marked. -/
def Msg.Marked (t : Nat) (m : Msg) : Prop := m.id = t → m.encrypted = true

def MsgQueueItem.Marked (t : Nat) : MsgQueueItem → Prop
  | .sendMsg msg => msg.Marked t
  | _ => True

/-- Wherever the message is held it is marked, and its bytes have not been
written. -/
structure Driver.Veiled (t : Nat) (d : Driver) : Prop where
  queues : ∀ q, ∀ item ∈ d.msgQueue q, item.Marked t
  pending : ∀ n node, d.nodes n = some node → ∀ item ∈ node.wakeUp.pendingQueue, item.Marked t
  current : ∀ msg, d.currentMsg = some msg → msg.Marked t
  written : ∀ bytes, Written.clear t bytes ∉ d.written

section

variable {t : Nat}

/-- Only a message without the mark is written as it is. -/
theorem Msg.Marked.written_ne {msg : Msg} (h : msg.Marked t) (bytes : List UInt8) :
    msg.written ≠ .clear t bytes := by
  rw [Msg.written]
  split
  · rintro ⟨⟩
  · rename_i hplain
    intro heq
    exact hplain (h (Written.clear.inj heq).1)

/-- If it is for this message, the request was built by a secured class, and if
the message was wrapped, then securely. -/
def CoveredRequest (t : Nat) (request : Msg × Option Node) : Prop :=
  request.1.id = t →
    ∃ node, request.2 = some node ∧ BuiltSecured request.1 node ∧ WrapSecured request.1 node

/-- Every message of this request was built by a secured class, and if it was
wrapped, then securely. -/
def Covered (t : Nat) (requests : List (Msg × Option Node)) : Prop :=
  ∀ request ∈ requests, request.1.id = t →
    ∃ node, request.2 = some node ∧ BuiltSecured request.1 node ∧ WrapSecured request.1 node

namespace Driver

/-- The message that is asked for is marked by `SendMsg`. -/
theorem marked_of_covered {d : Driver} {msg : Msg}
    (hcovered : CoveredRequest t (msg, d.nodes msg.targetNodeId)) : (d.prepare msg).Marked t := by
  intro hid
  rw [id_prepare] at hid
  obtain ⟨node, hnode, hbuilt, hwrap⟩ := hcovered hid
  cases hmarked : msg.encrypted with
  | true => exact (descends_prepare d msg).mark hmarked
  | false =>
      exact (encrypted_prepare_iff hnode hbuilt hmarked fun hwrapped => (hwrap hwrapped).2).mpr
        fun hwrapped => (hwrap hwrapped).1

theorem clear_not_mem_append {frames : List Written} {frame : Written}
    (h : ∀ bytes, Written.clear t bytes ∉ frames) (hframe : ∀ bytes, frame ≠ .clear t bytes) :
    ∀ bytes, Written.clear t bytes ∉ frames ++ [frame] := by
  intro bytes hmem
  rcases List.mem_append.mp hmem with hold | hnew
  · exact h bytes hold
  · exact hframe bytes (List.mem_singleton.mp hnew).symm

/-- The message is marked, and its bytes are not written. -/
def veils (t : Nat) : Policy where
  msg := Msg.Marked t
  written frames := ∀ bytes, Written.clear t bytes ∉ frames
  request := CoveredRequest t
  descends hdescends hmarked hid := hdescends.mark (hmarked (hdescends.id ▸ hid))
  admits hcovered := marked_of_covered hcovered
  nonceGet _ h := clear_not_mem_append h nofun
  nonceReport _ _ h := clear_not_mem_append h nofun
  frame hmarked _ h := clear_not_mem_append h hmarked.written_ne

theorem allowed_veils_iff (item : MsgQueueItem) : item.Allowed (veils t) ↔ item.Marked t := by
  cases item <;> exact Iff.rfl

theorem veiled_of_held {d : Driver} (h : Held (veils t) d) : Veiled t d where
  queues q item hmem := (allowed_veils_iff item).mp (h.queues q item hmem)
  pending n node hnode item hmem := (allowed_veils_iff item).mp (h.pending n node hnode item hmem)
  current := h.current
  written := h.written

/-! ## Runs -/

theorem marked_setNonce (msg : Msg) (nonce : Vector UInt8 8) (next : UInt8) (h : msg.Marked t) :
    (msg.setNonce nonce next).1.Marked t := by
  rw [Msg.setNonce, Msg.updateCallbackId]
  split <;> exact h

theorem evolves_veils_step (d : Driver) (e : Event) : Evolves (veils t) d (d.step e) := by
  cases hreport : e.isNonceReport with
  | false => exact evolves_step d e hreport
  | true =>
      cases e with
      | frame f =>
          have hstep : d.step (.frame f) = d.receiveNonce f.reported :=
            processMsg_of_isNonceReport d hreport
          rw [hstep]
          exact (tends_receiveNonce marked_setNonce d f.reported).evolves
      | _ => cases hreport

theorem held_new (t : Nat) (homeId : UInt32) (controllerNodeId : UInt8) :
    Held (veils t) (Driver.new homeId controllerNodeId) where
  queues := by rintro q item ⟨⟩
  pending := by rintro n node ⟨⟩
  current := by rintro msg ⟨⟩
  written := by rintro bytes ⟨⟩

/-- Whatever happens: as long as every message of a request comes from a secured
class, and none is wrapped by a class that is not secured, they are marked
wherever they are and their bytes have never been written. -/
theorem veiled_run (homeId : UInt32) (controllerNodeId : UInt8) (events : List Event) (t : Nat)
    (hcovered :
      Covered t (Transition.run step (Driver.new homeId controllerNodeId) events).requests) :
    Veiled t (Transition.run step (Driver.new homeId controllerNodeId) events) := by
  have hrun := Transition.run_invariant step (I := Evolves (veils t) (Driver.new homeId controllerNodeId))
    (fun d e h => h.trans (evolves_veils_step d e)) (Tends.refl _).evolves events
  exact veiled_of_held (hrun.held hcovered (held_new t homeId controllerNodeId))

end Driver

end

/-- A lock with the Security class. Its second lock is at endpoint 1, and its
Multi Channel class is not secured. -/
def securedLock : Node where
  nodeId := 5
  commandClassMap := fun id =>
    if id = ClassId.security then some CommandClass.new
    else if id = ClassId.multiInstance then some { CommandClass.new with version := 3 }
    else if id = 0x62 then
      some { CommandClass.new with
        version := 1
        secured := true
        endPointMap := fun inst => if inst = 2 then some 1 else none }
    else none
  queryStage := .complete
  listening := true
  frequentListening := false
  nodeAlive := true
  wakeUp := { awake := true, pendingQueue := [] }

/-- A Door Lock Set, for an instance of the lock. -/
def doorLockSet (inst : UInt8) : Msg :=
  match securedLock.getCommandClass 0x62 with
  | none => Msg.new 1 5 REQUEST FuncId.sendData true
  | some cc =>
      ((Msg.new 1 5 REQUEST FuncId.sendData true).setInstance
        (securedLock.getCommandClass ClassId.multiInstance) cc inst).appendArray
          [5, 3, 0x62, 0x01, 0xff, 0x25]

/-- The lock is there, the message is sent and taken from its queue. -/
def lockEvents (inst : UInt8) : List Event :=
  [.call (.newNode 5 securedLock), .call (.sendMsg (doorLockSet inst) .send),
    .writeNext .send (Vector.replicate 8 0) true]

namespace Driver

theorem builtSecured_doorLockSet : BuiltSecured (doorLockSet 2) securedLock where
  unsent := rfl
  function := by decide +kernel
  command := by decide
  security := rfl
  secured := by decide +kernel

set_option maxRecDepth 2000 in
/-- The message to the first lock is not wrapped. -/
theorem veiled_run_doorLockSet :
    Veiled 1 (Transition.run step (Driver.new 1 1) (lockEvents 1)) := by
  apply veiled_run
  intro request hmem _
  have hsent : request = (doorLockSet 1, some securedLock) := List.mem_singleton.mp hmem
  subst hsent
  refine ⟨securedLock, rfl, ⟨rfl, ?_, ?_, rfl, ?_⟩, fun hwrapped => absurd hwrapped ?_⟩
  · decide
  · decide
  · decide
  · decide

/-- The message to the second lock is wrapped, not marked, and written as it is. -/
theorem doorLockSet_not_veiled :
    BuiltSecured (doorLockSet 2) securedLock ∧
      (Transition.run step (Driver.new 1 1) (lockEvents 2)).written =
        [.clear 1 [SOF, 14, REQUEST, FuncId.sendData, 5, 7, ClassId.multiInstance,
          MultiInstanceCmd.channelEncap, 1, 1, 0x62, 0x01, 0xff, 0x25, 10, 0x3e]] :=
  ⟨builtSecured_doorLockSet, by decide +kernel⟩

end Driver

end OpenZWave
