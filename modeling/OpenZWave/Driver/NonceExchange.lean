import OpenZWave.Driver.Secrecy

/-!
# The exchange of nonces for a message that is sent

For an encrypted message `WriteMsg` asks the target for a nonce, and the nonce
report that arrives lets `ProcessMsg` encrypt and write the message. The log
below keeps what the controller is told of this and what it reports; the last
entry stands first.
-/

namespace OpenZWave

open Transition

/-- One step of an exchange. -/
inductive Exchange
  /-- A nonce request is written. -/
  | requested (nodeId : UInt8)
  /-- A nonce report is received. -/
  | reported (nodeId : UInt8) (nonce : Vector UInt8 8)
  /-- A message is written encrypted, under a nonce; the last field is the current
  message. -/
  | encrypted (id : Nat) (nodeId : UInt8) (nonce : Vector UInt8 8) (current : Option Msg)
  deriving DecidableEq

namespace Exchange

/-- What a written frame has to do with it. -/
def ofFrame (current : Option Msg) : Written → Option Exchange
  | .nonceGet nodeId => some (.requested nodeId)
  | .encapsulated id nodeId nonce => some (.encrypted id nodeId nonce current)
  | _ => none

/-- A request to the node has been written, and no frame has been encrypted since. -/
def Requested (nodeId : UInt8) : List Exchange → Prop
  | [] => False
  | .requested nodeId' :: past => nodeId' = nodeId ∨ Requested nodeId past
  | .reported _ _ :: past => Requested nodeId past
  | .encrypted _ _ _ _ :: _ => False

/-- What is written encrypted is the current message, which is marked. Its nonce
has just been reported by the target of the message, after a request that no
other frame has used. -/
def InOrder : Exchange → List Exchange → Prop
  | .encrypted id nodeId nonce current, past =>
      (∃ msg, current = some msg ∧ msg.id = id ∧ msg.targetNodeId = nodeId ∧
        msg.encrypted = true) ∧
      ∃ before, past = .reported nodeId nonce :: before ∧ Requested nodeId before
  | _, _ => True

end Exchange

/-- The driver and the log. -/
structure Traced where
  driver : Driver
  log : List Exchange

namespace Traced

/-- The report in an event. -/
def reports : Event → List Exchange
  | .frame f =>
      if f.isNonceReport then [.reported (f.data.getD 3 0) f.reported] else []
  | _ => []

/-- One event: what it reports, and then the frames that are written. -/
def step (s : Traced) (e : Event) : Traced :=
  let d := s.driver.step e
  let frames := d.written.drop s.driver.written.length
  { driver := d
    log := (frames.filterMap (Exchange.ofFrame d.currentMsg)).reverse ++ (reports e ++ s.log) }

/-- The log does not change what the driver does. -/
theorem driver_run (s : Traced) (events : List Event) :
    (run step s events).driver = run Driver.step s.driver events := by
  induction events generalizing s with
  | nil => rfl
  | cons e events ih => exact ih (s.step e)

/-- A nonce that arrives for an encrypted message comes from its target, which
has been asked for it. -/
def Solicited (s : Traced) (e : Event) : Prop :=
  ∀ f, e = .frame f → f.isNonceReport = true →
    ∀ msg, s.driver.currentMsg = some msg → msg.encrypted = true →
      f.data.getD 3 0 = msg.targetNodeId ∧ Exchange.Requested msg.targetNodeId s.log

end Traced

/-! ## No message holds a nonce -/

def Written.isEncapsulated : Written → Bool
  | .encapsulated _ _ _ => true
  | _ => false

theorem new_append {frames base : List Written} {frame : Written}
    (h : ∃ new, frames = base ++ new ∧ ∀ frame ∈ new, frame.isEncapsulated = false)
    (hframe : frame.isEncapsulated = false) :
    ∃ new, frames ++ [frame] = base ++ new ∧ ∀ frame ∈ new, frame.isEncapsulated = false := by
  obtain ⟨new, rfl, hnew⟩ := h
  refine ⟨new ++ [frame], List.append_assoc _ _ _, ?_⟩
  intro written hmem
  rcases List.mem_append.mp hmem with hold | hlast
  · exact hnew written hold
  · rw [List.mem_singleton.mp hlast]
    exact hframe

/-- Messages hold no nonce, and from `base` on nothing was written encrypted. -/
def withoutNonce (base : List Written) : Policy where
  msg m := m.nonceRecvd = false
  written frames :=
    ∃ new, frames = base ++ new ∧ ∀ frame ∈ new, frame.isEncapsulated = false
  request r := r.1.nonceRecvd = false
  descends hdescends hnone :=
    eq_false_of_ne_true fun h => ne_true_of_eq_false hnone (hdescends.nonce h)
  admits {d m} hnone :=
    eq_false_of_ne_true fun h =>
      ne_true_of_eq_false hnone ((Driver.descends_prepare d m).nonce h)
  nonceGet _ h := new_append h rfl
  nonceReport _ _ h := new_append h rfl
  frame {_ m} hnone hnonce h := by
    refine new_append h ?_
    rw [Msg.written]
    split
    · rename_i hencrypted
      exact absurd (hnonce hencrypted) (ne_true_of_eq_false hnone)
    · rfl

namespace Driver

/-- No message that is held has a nonce. -/
def NonceFree (d : Driver) : Prop := Held (withoutNonce d.written) d

theorem nonceFree_of_held {d : Driver} {base : List Written} (h : Held (withoutNonce base) d) :
    NonceFree d where
  queues q item hmem := by
    have hitem := h.queues q item hmem
    cases item <;> exact hitem
  pending n node hnode item hmem := by
    have hitem := h.pending n node hnode item hmem
    cases item <;> exact hitem
  current := h.current
  written := ⟨[], (List.append_nil _).symm, by rintro frame ⟨⟩⟩

/-- Every request is for a message without a nonce. -/
def RequestsNonceFree (d : Driver) : Prop := ∀ request ∈ d.requests, request.1.nonceRecvd = false

theorem nonceFree_new (homeId : UInt32) (controllerNodeId : UInt8) :
    NonceFree (Driver.new homeId controllerNodeId) where
  queues := by rintro q item ⟨⟩
  pending := by rintro n node ⟨⟩
  current := by rintro msg ⟨⟩
  written := ⟨[], rfl, by rintro frame ⟨⟩⟩

/-- The message a nonce report writes. -/
theorem setNonce_fields (msg : Msg) (nonce : Vector UInt8 8) (next : UInt8) :
    (msg.setNonce nonce next).1.id = msg.id ∧
      (msg.setNonce nonce next).1.targetNodeId = msg.targetNodeId ∧
      (msg.setNonce nonce next).1.encrypted = msg.encrypted ∧
      (msg.setNonce nonce next).1.nonce = nonce := by
  rw [Msg.setNonce, Msg.updateCallbackId]
  split <;> exact ⟨rfl, rfl, rfl, rfl⟩

/-- A nonce report has the current message written, and takes its nonce away. -/
theorem receiveNonce_of_current {d : Driver} {msg : Msg} (h : d.currentMsg = some msg)
    (nonce : Vector UInt8 8) :
    ∃ msg' : Msg, msg'.id = msg.id ∧ msg'.targetNodeId = msg.targetNodeId ∧
      msg'.encrypted = msg.encrypted ∧ msg'.nonce = nonce ∧
      (d.receiveNonce nonce).written = d.written ++ [msg'.written] ∧
      (d.receiveNonce nonce).currentMsg = some msg'.clearNonce ∧
      (d.receiveNonce nonce).msgQueue = d.msgQueue ∧ (d.receiveNonce nonce).nodes = d.nodes ∧
      (d.receiveNonce nonce).requests = d.requests := by
  obtain ⟨hid, htarget, hencrypted, hnonce⟩ := setNonce_fields msg nonce d.nextCallbackId
  refine ⟨_, hid, htarget, hencrypted, hnonce, ?_⟩
  rw [receiveNonce, h]
  exact ⟨rfl, rfl, rfl, rfl, rfl⟩

theorem nonceFree_receiveNonce {d : Driver} (h : NonceFree d) (nonce : Vector UInt8 8) :
    NonceFree (d.receiveNonce nonce) := by
  cases hcurrent : d.currentMsg with
  | none =>
      rw [receiveNonce, hcurrent]
      exact h
  | some msg =>
      obtain ⟨msg', -, -, -, -, -, hmsg, hqueue, hnodes, -⟩ := receiveNonce_of_current hcurrent nonce
      constructor
      case queues =>
          rw [hqueue]
          intro q item hmem
          have hitem := h.queues q item hmem
          cases item <;> exact hitem
      case pending =>
          rw [hnodes]
          intro n node hnode item hmem
          have hitem := h.pending n node hnode item hmem
          cases item <;> exact hitem
      case current =>
          intro held hheld
          rw [hmsg] at hheld
          rw [← Option.some.inj hheld]
          rfl
      case written => exact ⟨[], (List.append_nil _).symm, by rintro frame ⟨⟩⟩

theorem requests_receiveNonce (d : Driver) (nonce : Vector UInt8 8) :
    (d.receiveNonce nonce).requests = d.requests := by
  cases hcurrent : d.currentMsg with
  | none => rw [receiveNonce, hcurrent]
  | some msg =>
      obtain ⟨_, _, _, _, _, _, _, _, _, hrequests⟩ := receiveNonce_of_current hcurrent nonce
      exact hrequests

theorem step_of_isNonceReport (d : Driver) {e : Event} (h : e.isNonceReport = true) :
    ∃ f, e = .frame f ∧ f.isNonceReport = true ∧ d.step e = d.receiveNonce f.reported := by
  cases e with
  | frame f => exact ⟨f, rfl, h, processMsg_of_isNonceReport d h⟩
  | _ => cases h

/-- No event takes a request back. -/
theorem requests_step (d : Driver) (e : Event) : d.requests <+: (d.step e).requests := by
  cases hreport : e.isNonceReport with
  | false => exact (evolves_step (p := withoutNonce d.written) d e hreport).requests
  | true =>
      obtain ⟨f, -, -, hstep⟩ := step_of_isNonceReport d hreport
      refine ⟨[], ?_⟩
      rw [hstep, requests_receiveNonce, List.append_nil]

theorem nonceFree_step {d : Driver} {e : Event} (h : NonceFree d)
    (hrequests : RequestsNonceFree (d.step e)) : NonceFree (d.step e) := by
  cases hreport : e.isNonceReport with
  | false => exact nonceFree_of_held ((evolves_step d e hreport).held hrequests h)
  | true =>
      obtain ⟨f, -, -, hstep⟩ := step_of_isNonceReport d hreport
      rw [hstep]
      exact nonceFree_receiveNonce h f.reported

end Driver

/-! ## One event -/

namespace Traced

theorem drop_append (frames new : List Written) : (frames ++ new).drop frames.length = new :=
  List.drop_left' rfl

/-- Without a nonce report only requests are written. -/
theorem ordered_step_of_not_report {s : Traced} {e : Event} (h : s.driver.NonceFree)
    (hrequests : (s.driver.step e).RequestsNonceFree) (hreport : e.isNonceReport = false) :
    Ordered Exchange.InOrder (s.step e).log ↔ Ordered Exchange.InOrder s.log := by
  have hheld := (Driver.evolves_step (p := withoutNonce s.driver.written) s.driver e hreport).held
    hrequests h
  obtain ⟨new, hwritten, hnew⟩ := hheld.written
  have hreports : reports e = [] := by
    cases e with
    | frame f => exact if_neg (ne_true_of_eq_false hreport)
    | _ => rfl
  simp only [step]
  rw [hwritten, drop_append, hreports, List.nil_append]
  apply ordered_append_iff
  intro entry hmem past
  obtain ⟨frame, hframe, hentry⟩ := List.mem_filterMap.mp (List.mem_reverse.mp hmem)
  have hplain := hnew frame hframe
  cases frame with
  | encapsulated id nodeId nonce => cases hplain
  | nonceGet nodeId =>
      rw [← Option.some.inj hentry]
      trivial
  | clear id bytes => cases hentry
  | nonceReport nodeId nonce => cases hentry

/-- What is encrypted under a nonce that has just been reported is in order when
the report came from the target and was asked for. -/
theorem inOrder_encrypted_iff {msg : Msg} {source : UInt8} {nonce : Vector UInt8 8}
    {log : List Exchange} (hencrypted : msg.encrypted = true) :
    (Exchange.encrypted msg.id msg.targetNodeId nonce (some msg)).InOrder
        (.reported source nonce :: log) ↔
      source = msg.targetNodeId ∧ Exchange.Requested msg.targetNodeId log := by
  constructor
  · rintro ⟨-, before, hpast, hrequested⟩
    obtain ⟨hreported, rfl⟩ := List.cons.inj hpast
    exact ⟨(Exchange.reported.inj hreported).1, hrequested⟩
  · rintro ⟨rfl, hrequested⟩
    exact ⟨⟨msg, rfl, rfl, rfl, hencrypted⟩, log, rfl, hrequested⟩

/-- A nonce report writes the current message, under the nonce that was reported. -/
theorem ordered_step_of_report {s : Traced} {f : Received} (hreport : f.isNonceReport = true) :
    Ordered Exchange.InOrder (s.step (.frame f)).log ↔
      Ordered Exchange.InOrder s.log ∧ s.Solicited (.frame f) := by
  have hstep : s.driver.step (.frame f) = s.driver.receiveNonce f.reported :=
    Driver.processMsg_of_isNonceReport s.driver hreport
  have hreports : reports (.frame f) = [.reported (f.data.getD 3 0) f.reported] := if_pos hreport
  have hsolicited : s.Solicited (.frame f) ↔
      ∀ msg, s.driver.currentMsg = some msg → msg.encrypted = true →
        f.data.getD 3 0 = msg.targetNodeId ∧ Exchange.Requested msg.targetNodeId s.log := by
    constructor
    · intro h
      exact h f rfl hreport
    · rintro h _ ⟨⟩ _
      exact h
  simp only [step]
  rw [hsolicited, hreports, hstep]
  cases hcurrent : s.driver.currentMsg with
  | none =>
      have hsame : s.driver.receiveNonce f.reported = s.driver := by
        rw [Driver.receiveNonce, hcurrent]
      rw [hsame, List.drop_length]
      constructor
      · rintro ⟨-, hlog⟩
        exact ⟨hlog, by rintro _ ⟨⟩⟩
      · rintro ⟨hlog, -⟩
        exact ⟨trivial, hlog⟩
  | some msg =>
      obtain ⟨msg', hid, htarget, hmark, hnonce, hwritten, hafter, -⟩ :=
        Driver.receiveNonce_of_current hcurrent f.reported
      rw [hwritten, drop_append, hafter]
      cases hencrypted : msg.encrypted with
      | false =>
          have hclear : [msg'.written].filterMap (Exchange.ofFrame (some msg'.clearNonce)) = [] := by
            rw [Msg.written, if_neg (by rw [hmark, hencrypted]; exact Bool.false_ne_true)]
            rfl
          rw [hclear]
          constructor
          · rintro ⟨-, hlog⟩
            refine ⟨hlog, ?_⟩
            rintro _ ⟨⟩ hmarked
            rw [hencrypted] at hmarked
            cases hmarked
          · rintro ⟨hlog, -⟩
            exact ⟨trivial, hlog⟩
      | true =>
          have hmarked : msg'.clearNonce.encrypted = true := hmark.trans hencrypted
          have hsealed : [msg'.written].filterMap (Exchange.ofFrame (some msg'.clearNonce)) =
              [.encrypted msg'.clearNonce.id msg'.clearNonce.targetNodeId f.reported
                (some msg'.clearNonce)] := by
            rw [Msg.written, if_pos (hmark.trans hencrypted), hnonce]
            rfl
          have horder : (Exchange.encrypted msg'.clearNonce.id msg'.clearNonce.targetNodeId
              f.reported (some msg'.clearNonce)).InOrder
                (.reported (f.data.getD 3 0) f.reported :: s.log) ↔
              f.data.getD 3 0 = msg'.clearNonce.targetNodeId ∧
                Exchange.Requested msg'.clearNonce.targetNodeId s.log :=
            inOrder_encrypted_iff hmarked
          have htarget : msg'.clearNonce.targetNodeId = msg.targetNodeId := htarget
          rw [hsealed]
          rw [htarget] at horder ⊢
          constructor
          · rintro ⟨hfirst, -, hlog⟩
            refine ⟨hlog, ?_⟩
            rintro _ ⟨⟩ -
            exact horder.mp hfirst
          · rintro ⟨hlog, hnonces⟩
            exact ⟨horder.mpr (hnonces msg rfl hencrypted), trivial, hlog⟩

theorem ordered_step {s : Traced} {e : Event} (h : s.driver.NonceFree)
    (hrequests : (s.driver.step e).RequestsNonceFree) :
    Ordered Exchange.InOrder (s.step e).log ↔
      Ordered Exchange.InOrder s.log ∧ s.Solicited e := by
  cases hreport : e.isNonceReport with
  | false =>
      have hsolicited : s.Solicited e := by
        rintro f rfl h
        exact absurd h (ne_true_of_eq_false hreport)
      exact (ordered_step_of_not_report h hrequests hreport).trans (and_iff_left hsolicited).symm
  | true =>
      obtain ⟨f, rfl, hf, -⟩ := Driver.step_of_isNonceReport s.driver hreport
      exact ordered_step_of_report hf

/-- No driver has been told of anything. -/
def new (homeId : UInt32) (controllerNodeId : UInt8) : Traced where
  driver := Driver.new homeId controllerNodeId
  log := []

/-- In any order of events, as long as no message is sent with a nonce already in
it: encrypted frames are written in order exactly when every nonce that arrives
for an encrypted message is solicited. -/
theorem ordered_run_iff (homeId : UInt32) (controllerNodeId : UInt8) (events : List Event)
    (hrequests : (run step (new homeId controllerNodeId) events).driver.RequestsNonceFree) :
    Ordered Exchange.InOrder (run step (new homeId controllerNodeId) events).log ↔
      Along step Solicited (new homeId controllerNodeId) events := by
  have hrun := run_keeps_iff_along_of (J := fun s : Traced => s.driver.NonceFree)
    (H := fun s : Traced => s.driver.RequestsNonceFree)
    (G := fun s : Traced => Ordered Exchange.InOrder s.log) (P := Solicited)
    (fun s e h request hmem => h request ((Driver.requests_step s.driver e).subset hmem))
    (fun s e h => Driver.nonceFree_step h) (fun s e h => ordered_step h)
    (Driver.nonceFree_new homeId controllerNodeId) events hrequests
  exact hrun.trans (and_iff_right trivial)

/-- A nonce from another node than the target is never in order. -/
theorem not_ordered_of_source {s : Traced} {f : Received} {target : UInt8}
    (hreport : f.isNonceReport = true)
    (hcurrent : s.driver.currentMsg.map (fun msg => (msg.targetNodeId, msg.encrypted)) =
      some (target, true))
    (hsource : f.data.getD 3 0 ≠ target) :
    ¬ Ordered Exchange.InOrder (s.step (.frame f)).log := by
  obtain ⟨msg, hmsg, hfields⟩ := Option.map_eq_some_iff.mp hcurrent
  obtain ⟨rfl, hencrypted⟩ := Prod.mk.inj hfields
  intro hordered
  have hsolicited := ((ordered_step_of_report hreport).mp hordered).2
  exact hsource (hsolicited f rfl hreport msg hmsg hencrypted).1

/-- A nonce report of a node. -/
def nonceReport (nodeId : UInt8) : Received where
  data := [REQUEST, FuncId.applicationCommandHandler, 0, nodeId, 10, ClassId.security,
    SecurityCmd.nonceReport, 1, 2, 3, 4, 5, 6, 7, 8]
  nonce := Vector.replicate 8 0
  opened := .noNonce
  calls := []

/-- A command for the lock at node 5 waits for a nonce; a node reports one. -/
def reportEvents (nodeId : UInt8) : List Event := lockEvents 1 ++ [.frame (nonceReport nodeId)]

set_option maxRecDepth 4000 in
theorem requestsNonceFree_reportEvents (nodeId : UInt8) :
    (run step (new 1 1) (reportEvents nodeId)).driver.RequestsNonceFree := by
  have hrequests : (run step (new 1 1) (reportEvents nodeId)).driver.requests =
      [(doorLockSet 1, some securedLock)] := rfl
  intro request hmem
  rw [hrequests] at hmem
  obtain rfl := List.mem_singleton.mp hmem
  rfl

/-- The lock reports the nonce itself. -/
theorem ordered_run_reportEvents :
    Ordered Exchange.InOrder (run step (new 1 1) (reportEvents 5)).log ↔
      Along step Solicited (new 1 1) (reportEvents 5) :=
  ordered_run_iff 1 1 (reportEvents 5) (requestsNonceFree_reportEvents 5)

theorem currentMsg_lockEvents :
    (run step (new 1 1) (lockEvents 1)).driver.currentMsg.map
      (fun msg => (msg.targetNodeId, msg.encrypted)) = some (5, true) := by
  decide +kernel

/-- Another node reports one, and the command for the lock is encrypted under it. -/
theorem reportEvents_not_ordered :
    (run step (new 1 1) (reportEvents 7)).driver.RequestsNonceFree ∧
      ¬ Ordered Exchange.InOrder (run step (new 1 1) (reportEvents 7)).log := by
  refine ⟨requestsNonceFree_reportEvents 7, ?_⟩
  rw [reportEvents, run_append]
  exact not_ordered_of_source (by decide) currentMsg_lockEvents (by decide)

end Traced

end OpenZWave
