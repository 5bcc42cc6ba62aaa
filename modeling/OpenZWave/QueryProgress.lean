import OpenZWave.Lib.Transition
import OpenZWave.NodeQueries

/-!
# The progress of the queries of a node

A stage should be left only after its requests were sent, and a node that dies
in a stage should be asked for that stage again. Both depend on the markers: the
marker of a visit waits behind the requests of the visit, wherever the items
wait.
-/

namespace OpenZWave

open Transition

/-- What the order of the items depends on. -/
inductive Kind
  | request (visit : Nat)
  | marker (visit : Nat)
  deriving DecidableEq

def Kind.visit : Kind → Nat
  | request visit => visit
  | marker visit => visit

/-- The second item is not a request of the visit whose marker the first one is. -/
def Kind.Behind (visit : Nat) (first second : Kind) : Prop :=
  first = marker visit → second ≠ request visit

namespace QueryItem

def kind : QueryItem → Kind
  | sendMsg visit _ => .request visit
  | queryStageComplete _ _ visit => .marker visit

@[simp] theorem kind_renewed (item : QueryItem) : item.renewed.kind = item.kind := by
  cases item <;> rfl

@[simp] theorem kind_resetAttempts (item : QueryItem) : item.resetAttempts.kind = item.kind := by
  cases item <;> rfl

theorem asks_iff {item : QueryItem} {visit : Nat} :
    item.asks visit = true ↔ item.kind = .request visit := by
  cases item with
  | sendMsg visit' msg =>
      rw [asks, beq_iff_eq, kind]
      exact ⟨fun h => congrArg Kind.request h, Kind.request.inj⟩
  | queryStageComplete => exact ⟨fun h => Bool.noConfusion h, fun h => Kind.noConfusion h⟩

end QueryItem

open QueryItem

/-! ## The order of the items -/

theorem forall_mem_insert {P : Kind → Prop} {new : Kind} (first : List Kind)
    {second : List Kind} (h : ∀ kind ∈ first ++ second, P kind) (hnew : P new) :
    ∀ kind ∈ first ++ new :: second, P kind := by
  intro kind hmem
  obtain hfirst | hrest := List.mem_append.mp hmem
  · exact h kind (List.mem_append_left _ hfirst)
  · obtain rfl | hsecond := List.mem_cons.mp hrest
    · exact hnew
    · exact h kind (List.mem_append_right _ hsecond)

theorem forall_mem_insert_last {P : Kind → Prop} {new : Kind} {first second : List Kind}
    (h : ∀ kind ∈ first ++ second, P kind) (hnew : P new) :
    ∀ kind ∈ first ++ (second ++ [new]), P kind := by
  rw [← List.append_assoc]
  exact List.forall_mem_append.mpr ⟨h, List.forall_mem_singleton.mpr hnew⟩

/-- No request of the visit waits behind its marker, nor will when the node falls
asleep or wakes up. -/
structure InOrder (visit : Nat) (msgQueue pendingQueue : List Kind) : Prop where
  visits : ∀ kind ∈ msgQueue ++ pendingQueue, kind.visit ≤ visit
  awake : (msgQueue ++ pendingQueue).Pairwise (Kind.Behind visit)
  asleep : (pendingQueue ++ msgQueue).Pairwise (Kind.Behind visit)

namespace InOrder

variable {visit : Nat} {msgQueue msgQueue' pendingQueue pendingQueue' : List Kind}

/-- Items may be taken away. -/
theorem sublist (h : InOrder visit msgQueue pendingQueue) (hmsg : msgQueue'.Sublist msgQueue)
    (hpending : pendingQueue'.Sublist pendingQueue) : InOrder visit msgQueue' pendingQueue' where
  visits := fun kind hmem => h.visits kind ((hmsg.append hpending).subset hmem)
  awake := h.awake.sublist (hmsg.append hpending)
  asleep := h.asleep.sublist (hpending.append hmsg)

theorem sendPending (h : InOrder visit msgQueue pendingQueue) :
    InOrder visit (msgQueue ++ pendingQueue) [] := by
  refine ⟨?_, ?_, h.awake⟩
  · rw [List.append_nil]
    exact h.visits
  · rw [List.append_nil]
    exact h.awake

theorem moveMessages (h : InOrder visit msgQueue pendingQueue) :
    InOrder visit [] (pendingQueue ++ msgQueue) := by
  refine ⟨?_, h.asleep, ?_⟩
  · intro kind hmem
    apply h.visits kind
    rw [List.nil_append] at hmem
    exact List.mem_append.mpr (List.mem_append.mp hmem).symm
  · rw [List.append_nil]
    exact h.asleep

/-- Nothing of a visit to come waits. -/
theorem not_mem_succ (h : InOrder visit msgQueue pendingQueue) {kind : Kind}
    (hkind : kind.visit = visit + 1) : kind ∉ msgQueue ++ pendingQueue := by
  intro hmem
  have hle := h.visits kind hmem
  rw [hkind] at hle
  exact Nat.not_succ_le_self visit hle

end InOrder

/-- A visit that has not queued its marker yet. -/
structure Visiting (visit : Nat) (sleeps : Bool) (msgQueue pendingQueue : List Kind) : Prop where
  visits : ∀ kind ∈ msgQueue ++ pendingQueue, kind.visit ≤ visit
  unmarked : ∀ kind ∈ msgQueue ++ pendingQueue, kind ≠ .marker visit
  asleep : sleeps = true → .request visit ∉ msgQueue
  awake : sleeps = false → .request visit ∉ pendingQueue

namespace Visiting

variable {visit : Nat} {sleeps : Bool} {msgQueue pendingQueue pendingQueue' : List Kind}

theorem inOrder (h : Visiting visit sleeps msgQueue pendingQueue) :
    InOrder visit msgQueue pendingQueue := by
  have hpairwise : ∀ kinds : List Kind, (∀ kind ∈ kinds, kind ∈ msgQueue ++ pendingQueue) →
      kinds.Pairwise (Kind.Behind visit) := by
    intro kinds hsub
    apply List.pairwise_of_forall_mem_list
    intro first hfirst second _ hmarker
    exact absurd hmarker (h.unmarked first (hsub first hfirst))
  refine ⟨h.visits, hpairwise _ fun kind hmem => hmem, hpairwise _ ?_⟩
  intro kind hmem
  exact List.mem_append.mpr (List.mem_append.mp hmem).symm

/-- A new visit begins. -/
theorem of_inOrder (h : InOrder visit msgQueue pendingQueue) (sleeps : Bool) :
    Visiting (visit + 1) sleeps msgQueue pendingQueue where
  visits := fun kind hmem => Nat.le_succ_of_le (h.visits kind hmem)
  unmarked := fun _ hmem hmarker => h.not_mem_succ (hmarker ▸ rfl) hmem
  asleep := fun _ hmem => h.not_mem_succ rfl (List.mem_append_left _ hmem)
  awake := fun _ hmem => h.not_mem_succ rfl (List.mem_append_right _ hmem)

theorem sublistPending (h : Visiting visit sleeps msgQueue pendingQueue)
    (hsub : pendingQueue'.Sublist pendingQueue) : Visiting visit sleeps msgQueue pendingQueue' where
  visits := fun kind hmem => h.visits kind ((hsub.append_left msgQueue).subset hmem)
  unmarked := fun kind hmem => h.unmarked kind ((hsub.append_left msgQueue).subset hmem)
  asleep := h.asleep
  awake := fun hawake hmem => h.awake hawake (hsub.subset hmem)

/-- A request to a node that is awake. -/
theorem push (h : Visiting visit false msgQueue pendingQueue) :
    Visiting visit false (msgQueue ++ [.request visit]) pendingQueue where
  visits := by
    rw [List.append_assoc]
    exact forall_mem_insert msgQueue h.visits (Nat.le_refl visit)
  unmarked := by
    rw [List.append_assoc]
    exact forall_mem_insert msgQueue h.unmarked Kind.noConfusion
  asleep := fun hasleep => Bool.noConfusion hasleep
  awake := h.awake

/-- A request that waits in the node. -/
theorem pushPending (h : Visiting visit true msgQueue pendingQueue) :
    Visiting visit true msgQueue (pendingQueue ++ [.request visit]) where
  visits := forall_mem_insert_last h.visits (Nat.le_refl visit)
  unmarked := forall_mem_insert_last h.unmarked Kind.noConfusion
  asleep := h.asleep
  awake := fun hawake => Bool.noConfusion hawake

/-- A marker behind items among which no request of its visit follows. -/
theorem pairwise_marker (first second : List Kind)
    (h : (first ++ second).Pairwise (Kind.Behind visit)) (hsecond : .request visit ∉ second) :
    (first ++ .marker visit :: second).Pairwise (Kind.Behind visit) := by
  obtain ⟨hfirst, hrest, hcross⟩ := List.pairwise_append.mp h
  rw [List.pairwise_append, List.pairwise_cons]
  refine ⟨hfirst, ⟨?_, hrest⟩, ?_⟩
  · intro kind hmem _ hrequest
    exact hsecond (hrequest ▸ hmem)
  · intro kind hmem other hother
    obtain rfl | hold := List.mem_cons.mp hother
    · exact fun _ hrequest => Kind.noConfusion hrequest
    · exact hcross kind hmem other hold

/-- The marker ends the visit. -/
theorem mark (h : Visiting visit false msgQueue pendingQueue) :
    InOrder visit (msgQueue ++ [.marker visit]) pendingQueue where
  visits := by
    rw [List.append_assoc]
    exact forall_mem_insert msgQueue h.visits (Nat.le_refl visit)
  awake := by
    rw [List.append_assoc]
    exact pairwise_marker _ _ h.inOrder.awake (h.awake rfl)
  asleep := by
    rw [← List.append_assoc]
    refine pairwise_marker _ [] ?_ List.not_mem_nil
    rw [List.append_nil]
    exact h.inOrder.asleep

/-- The marker ends the visit of a sleeping node. -/
theorem markPending (h : Visiting visit true msgQueue pendingQueue) :
    InOrder visit msgQueue (pendingQueue ++ [.marker visit]) where
  visits := forall_mem_insert_last h.visits (Nat.le_refl visit)
  awake := by
    rw [← List.append_assoc]
    refine pairwise_marker _ [] ?_ List.not_mem_nil
    rw [List.append_nil]
    exact h.inOrder.awake
  asleep := by
    rw [List.append_assoc]
    exact pairwise_marker _ _ h.inOrder.asleep (h.asleep rfl)

end Visiting

/-! ## What the operations keep -/

/-- A stage was left for a later one, and its requests had been sent. -/
def Departure.Sound (d : Departure) : Prop :=
  d.sent = true ∧ ∃ next, d.next = some next ∧ d.stage.number < next.number

namespace NodeQueries

/-- The kinds of the items in the send queues. -/
def kinds (n : NodeQueries) : List Kind := n.msgQueue.map kind

/-- The kinds of the items that wait in the node. -/
def pendingKinds (n : NodeQueries) : List Kind := n.pendingQueue.map kind

structure Orderly (n : NodeQueries) : Prop where
  order : InOrder n.visit n.kinds n.pendingKinds
  pending : n.queryPending = true → ∃ stage, n.queryStage = some stage ∧ stage ≠ .complete
  died : ∀ stage, n.diedIn = some stage → stage ≠ .complete ∧ stage.number ≤ n.stageNumber
  overrun : n.queryStage = none → ∃ d ∈ n.departures, d.next = none

/-- An operation on the queues that keeps their order. -/
theorem Orderly.requeue {n n' : NodeQueries} (h : n.Orderly) (hrequeued : Requeued n n')
    (horder : InOrder n.visit n'.kinds n'.pendingKinds) : n'.Orderly := by
  rw [Requeued] at hrequeued
  rw [hrequeued]
  exact ⟨horder, h.pending, h.died, h.overrun⟩

/-- Items of the send queues are taken. -/
theorem Orderly.take {n : NodeQueries} (h : n.Orderly) {msgQueue : List QueryItem}
    (hsub : msgQueue.Sublist n.msgQueue) : ({ n with msgQueue := msgQueue } : NodeQueries).Orderly :=
  ⟨h.order.sublist (hsub.map kind) (List.Sublist.refl _), h.pending, h.died, h.overrun⟩

theorem queueMsg_spec (n : NodeQueries) (item : QueryItem) :
    Requeued n (n.queueMsg item) ∧ (n.queueMsg item).kinds = n.kinds ∧
      ∃ kept, kept.Sublist n.pendingKinds ∧ (n.queueMsg item).pendingKinds = kept ++ [item.kind] := by
  refine ⟨rfl, rfl, (n.pendingQueue.filter fun queued => !queued.eq item).map kind,
    List.filter_sublist.map kind, ?_⟩
  rw [pendingKinds, queueMsg, List.map_append, List.map_singleton, kind_resetAttempts]

theorem drop_kinds (n : NodeQueries) (visit : Nat) :
    (n.drop visit).kinds = n.kinds ∧ (n.drop visit).pendingKinds = n.pendingKinds := by
  rw [drop]
  split <;> exact ⟨rfl, rfl⟩

theorem visit_eq {n n' : NodeQueries} (h : Requeued n n') :
    n'.visit = n.visit ∧ n'.asleep = n.asleep := by
  rw [Requeued] at h
  rw [h]
  exact ⟨rfl, rfl⟩

/-- The node is in a visit that has not queued its marker yet. -/
def IsVisiting (n : NodeQueries) : Prop := Visiting n.visit n.asleep n.kinds n.pendingKinds

theorem visiting_sendMsg {n : NodeQueries} (h : n.IsVisiting) (controllerCommand : Bool)
    (msg : Msg) : (n.sendMsg controllerCommand n.visit msg).IsVisiting := by
  obtain ⟨hvisit, hsleeps⟩ := visit_eq (requeued_sendMsg n controllerCommand n.visit msg)
  rw [IsVisiting] at h ⊢
  rw [hvisit, hsleeps, sendMsg]
  cases hasleep : n.asleep with
  | false =>
      rw [hasleep] at h
      simp only [Bool.false_eq_true, if_false, kinds, List.map_append, List.map_singleton]
      exact h.push
  | true =>
      rw [hasleep] at h
      cases controllerCommand with
      | true =>
          obtain ⟨hkinds, hpending⟩ := n.drop_kinds n.visit
          rw [if_pos rfl, if_pos rfl, hkinds, hpending]
          exact h
      | false =>
          obtain ⟨-, hkinds, kept, hkept, hpending⟩ := n.queueMsg_spec (.sendMsg n.visit msg)
          rw [if_pos rfl, if_neg Bool.false_ne_true, hkinds, hpending]
          exact (h.sublistPending hkept).pushPending

theorem visiting_sendMsgs {n : NodeQueries} (h : n.IsVisiting) (controllerCommand : Bool)
    (messages : List Msg) : (n.sendMsgs controllerCommand messages).IsVisiting := by
  induction messages generalizing n with
  | nil => exact h
  | cons msg messages ih => exact ih (visiting_sendMsg h controllerCommand msg)

theorem requeued_sendQueryStageComplete (n : NodeQueries) (stage : QueryStage) :
    Requeued n (n.sendQueryStageComplete stage) := by
  rw [sendQueryStageComplete]
  split <;> rfl

theorem inOrder_sendQueryStageComplete {n : NodeQueries} (h : n.IsVisiting) (stage : QueryStage) :
    InOrder n.visit (n.sendQueryStageComplete stage).kinds
      (n.sendQueryStageComplete stage).pendingKinds := by
  rw [IsVisiting] at h
  rw [sendQueryStageComplete]
  cases hasleep : n.asleep with
  | false =>
      rw [hasleep] at h
      simp only [Bool.false_eq_true, if_false, kinds, List.map_append, List.map_singleton]
      exact h.mark
  | true =>
      rw [hasleep] at h
      obtain ⟨-, hkinds, kept, hkept, hpending⟩ :=
        n.queueMsg_spec (.queryStageComplete stage false n.visit)
      rw [if_pos rfl, hkinds, hpending]
      exact (h.sublistPending hkept).markPending

/-- What a stage queues: its requests, and the marker behind them. -/
theorem ask_sendQueryStageComplete {n : NodeQueries} (h : n.IsVisiting) (facts : QueryFacts)
    (messages : List Msg) (stage : QueryStage) :
    Requeued { n with queryPending := true }
        ((n.ask facts messages).sendQueryStageComplete stage) ∧
      InOrder n.visit ((n.ask facts messages).sendQueryStageComplete stage).kinds
        ((n.ask facts messages).sendQueryStageComplete stage).pendingKinds := by
  have hrequests := requeued_sendMsgs n facts.controllerCommand messages
  have hask : Requeued { n with queryPending := true } (n.ask facts messages) := by
    rw [Requeued] at hrequests ⊢
    rw [ask, hrequests]
    rfl
  have hvisiting : (n.ask facts messages).IsVisiting :=
    visiting_sendMsgs h facts.controllerCommand messages
  have horder := inOrder_sendQueryStageComplete hvisiting stage
  rw [(visit_eq hask).1] at horder
  exact ⟨hask.trans (requeued_sendQueryStageComplete _ stage), horder⟩

/-- What a call of `AdvanceQueries` does to an orderly node. -/
structure Advanced (n n' : NodeQueries) : Prop where
  orderly : n'.Orderly
  forward : n.stageNumber ≤ n'.stageNumber
  diedIn : n'.diedIn = n.diedIn
  revivals : n'.revivals = n.revivals
  departures : ∃ new, n'.departures = n.departures ++ new ∧ ∀ d ∈ new, d.Sound
  visits : ∃ new, n'.visits = new ++ n.visits ∧ (∀ stage ∈ new, n.stageNumber ≤ stage.number) ∧
    (n.queryPending = true → new = []) ∧
    (n.queryPending = false → n.nodeAlive = true → ∀ stage, n.queryStage = some stage →
      stage ≠ .complete → stage ∈ new)

theorem Orderly.sendPending {n : NodeQueries} (h : n.Orderly) : n.sendPending.Orderly := by
  have hkinds : n.sendPending.kinds = n.kinds ++ n.pendingKinds := by
    rw [kinds, NodeQueries.sendPending, List.map_append, List.map_map]
    congr 1
    exact List.map_congr_left fun item _ => kind_renewed item
  refine ⟨?_, h.pending, h.died, h.overrun⟩
  rw [hkinds]
  exact h.order.sendPending

theorem Orderly.queriesComplete {n : NodeQueries} (h : n.Orderly) (facts : QueryFacts) :
    (n.queriesComplete facts).Orderly := by
  have htold : (n.queueNotification .nodeQueriesComplete).Orderly :=
    ⟨h.order, h.pending, h.died, h.overrun⟩
  rw [NodeQueries.queriesComplete]
  split
  · exact htold.sendPending
  · exact htold

/-- `queriesComplete` keeps the stage and the histories. -/
theorem queriesComplete_advanced {n : NodeQueries} (h : n.Orderly) (facts : QueryFacts)
    (hstage : n.queryStage = some .complete) :
    Advanced n (n.queriesComplete facts) := by
  have hsame : (n.queriesComplete facts).queryStage = n.queryStage ∧
      (n.queriesComplete facts).diedIn = n.diedIn ∧
      (n.queriesComplete facts).revivals = n.revivals ∧
      (n.queriesComplete facts).departures = n.departures ∧
      (n.queriesComplete facts).visits = n.visits := by
    rw [queriesComplete]
    split <;> exact ⟨rfl, rfl, rfl, rfl, rfl⟩
  obtain ⟨hstage', hdiedIn, hrevivals, hdepartures, hvisits⟩ := hsame
  refine ⟨h.queriesComplete facts, ?_, hdiedIn, hrevivals, ⟨[], ?_, ?_⟩, ⟨[], hvisits, ?_, ?_, ?_⟩⟩
  · exact Nat.le_of_eq (by rw [stageNumber, stageNumber, hstage'])
  · rw [hdepartures, List.append_nil]
  · exact fun d hd => absurd hd List.not_mem_nil
  · exact fun stage hmem => absurd hmem List.not_mem_nil
  · exact fun _ => rfl
  · intro _ _ stage hother hcomplete
    rw [hstage] at hother
    exact absurd (Option.some.inj hother).symm hcomplete

theorem Orderly.visiting {n : NodeQueries} (h : n.Orderly) (stage : QueryStage)
    (configuration : Bool) (notified : List QueryNotice) :
    ((n.enter stage).told configuration notified).IsVisiting :=
  Visiting.of_inOrder h.order n.asleep

/-- The requests of a visit that wait, by their kinds. -/
theorem waiting_eq_zero_iff (n : NodeQueries) :
    n.waiting = 0 ↔ .request n.visit ∉ n.kinds ++ n.pendingKinds := by
  rw [waiting, List.countP_eq_zero, kinds, pendingKinds, ← List.map_append, List.mem_map]
  constructor
  · intro h hmem
    obtain ⟨item, hitem, hkind⟩ := hmem
    exact h item hitem (asks_iff.mpr hkind)
  · intro h item hmem hasks
    exact h ⟨item, hmem, asks_iff.mp hasks⟩

/-- A visit without requests leaves its stage in order. -/
theorem stageSent_enter {n : NodeQueries} (h : n.Orderly) (stage : QueryStage) :
    (n.enter stage).stageSent = true := by
  have hnone : (n.enter stage).waiting = 0 :=
    (waiting_eq_zero_iff _).mpr (h.order.not_mem_succ rfl)
  rw [stageSent, hnone]
  rfl

/-- A call that does nothing. -/
theorem Orderly.advanced_self {n : NodeQueries} (h : n.Orderly)
    (hstays : n.queryPending = false → n.nodeAlive = true → ∀ stage, n.queryStage = some stage →
      stage = .complete) : Advanced n n := by
  refine ⟨h, Nat.le_refl _, rfl, rfl, ⟨[], (List.append_nil _).symm, ?_⟩,
    ⟨[], rfl, ?_, fun _ => rfl, ?_⟩⟩
  · exact fun d hd => absurd hd List.not_mem_nil
  · exact fun stage hmem => absurd hmem List.not_mem_nil
  · exact fun hpending halive stage hstage hne =>
      absurd (hstays hpending halive stage hstage) hne

theorem Advances.advanced {facts : QueryFacts} {n n' : NodeQueries} (h : Advances facts n n')
    (hn : n.Orderly) : Advanced n n' := by
  induction h with
  | idle hstays =>
      exact hn.advanced_self fun hpending halive => absurd ⟨hpending, halive⟩ hstays
  | complete hpending halive hstage => exact queriesComplete_advanced hn facts hstage
  | @ask n stage hpending halive hstage hcomplete configuration notified messages =>
      obtain ⟨hqueued, horder⟩ := ask_sendQueryStageComplete
        (hn.visiting stage configuration notified) facts messages stage
      rw [Requeued] at hqueued
      rw [hqueued]
      refine ⟨⟨horder, ?_, hn.died, hn.overrun⟩, Nat.le_refl _, rfl, rfl,
        ⟨[], (List.append_nil _).symm, ?_⟩, ⟨[stage], rfl, ?_, ?_, ?_⟩⟩
      · exact fun _ => ⟨stage, hstage, hcomplete⟩
      · exact fun d hd => absurd hd List.not_mem_nil
      · intro other hmem
        rw [List.mem_singleton.mp hmem]
        exact Nat.le_of_eq (by rw [stageNumber, hstage])
      · exact fun hpending' => Bool.noConfusion (hpending.symm.trans hpending')
      · intro _ _ other hother _
        rw [← Option.some.inj (hstage.symm.trans hother)]
        exact List.mem_singleton_self stage
  | @move n stage next n' hpending halive hstage hcomplete hnext configuration notified _ ih =>
      have hsent := stageSent_enter hn stage
      have hnumber : n.stageNumber = stage.number := by rw [stageNumber, hstage]
      have hmoved : (((n.enter stage).told configuration notified).moveTo stage next).Orderly := by
        refine ⟨(hn.visiting stage configuration notified).inOrder, ?_, ?_, ?_⟩
        · exact fun hpending' => Bool.noConfusion (hpending.symm.trans hpending')
        · intro died hdied
          obtain ⟨hne, hle⟩ := hn.died died hdied
          exact ⟨hne, Nat.le_trans hle (Nat.le_of_lt (hnumber ▸ hnext))⟩
        · exact fun hnone => absurd hnone (Option.some_ne_none next)
      obtain ⟨horderly, hforward, hdiedIn, hrevivals, ⟨new, hdepartures, hsound⟩,
        ⟨visited, hvisits, hlater, -, -⟩⟩ := ih hmoved
      have hforward : next.number ≤ n'.stageNumber := hforward
      refine ⟨horderly, ?_, hdiedIn, hrevivals, ⟨⟨stage, some next, true⟩ :: new, ?_, ?_⟩,
        ⟨visited ++ [stage], ?_, ?_, ?_, ?_⟩⟩
      · exact hnumber ▸ Nat.le_trans (Nat.le_of_lt hnext) hforward
      · rw [hdepartures, moveTo, leave]
        have hsame : ((n.enter stage).told configuration notified).stageSent = true := hsent
        rw [hsame]
        exact List.append_assoc _ _ _
      · intro d hd
        obtain rfl | hd := List.mem_cons.mp hd
        · exact ⟨rfl, next, rfl, hnext⟩
        · exact hsound d hd
      · rw [hvisits]
        exact List.append_cons visited stage n.visits
      · intro other hmem
        obtain hmem | hmem := List.mem_append.mp hmem
        · exact hnumber ▸ Nat.le_trans (Nat.le_of_lt hnext) (hlater other hmem)
        · rw [List.mem_singleton.mp hmem]
          exact Nat.le_of_eq hnumber
      · exact fun hpending' => Bool.noConfusion (hpending.symm.trans hpending')
      · intro _ _ other hother _
        rw [← Option.some.inj (hstage.symm.trans hother)]
        exact List.mem_append_right _ (List.mem_singleton_self stage)

/-! ## Steps -/

/-- At most one stage is pending, every stage that was left was left for a later one
after its requests were sent, and every revival in a stage made it ask again. -/
structure Progressed (n : NodeQueries) : Prop where
  single : n.queryPending = true → ∃ stage, n.queryStage = some stage
  left : ∀ d ∈ n.departures, d.Sound
  restarted : ∀ r ∈ n.revivals, r.resent = true

/-- `QueryStageRetry` gives the stage up. -/
def GivesUp (n : NodeQueries) (stage : QueryStage) (maxAttempts : UInt8) : Prop :=
  n.queryStage = some stage ∧ maxAttempts ≠ 0 ∧ n.queryRetries + 1 ≥ maxAttempts ∧
    stage ≠ .probe ∧ stage ≠ .cacheLoad

/-- A marker that completes the stage finds it visited and none of its requests
thrown away, and if it is the marker of an earlier visit, none of them waiting. A
stage that is given up is not the last one, and its requests were sent. A node that
died in a stage is revived in that stage when it is not pending any more. -/
def Keeps (n : NodeQueries) : QueryEvent → Prop
  | .writeNextMsg position _ => ∀ stage visit,
      position = 0 → n.msgQueue.head? = some (.queryStageComplete stage false visit) →
        n.queryStage = some stage → stage ≠ .complete →
          n.visited = true ∧ n.dropped = 0 ∧ (visit ≠ n.visit → n.waiting = 0)
  | .queryStageRetry stage maxAttempts =>
      n.GivesUp stage maxAttempts → stage ≠ .complete ∧ n.stageSent = true
  | .alive _ => ∀ stage, n.diedIn = some stage →
      n.queryPending = false ∧ n.queryStage = some stage
  | .advanceQueries _ | .setQueryStage _ _ _ | .dead | .sendMsg _ _
  | .moveMessagesToWakeUpQueue _ | .sleep | .sendPending => True

/-- The histories of an orderly node after a step. -/
theorem Orderly.progressed_iff {n : NodeQueries} (h : n.Orderly) :
    n.Progressed ↔ (∀ d ∈ n.departures, d.Sound) ∧ ∀ r ∈ n.revivals, r.resent = true := by
  constructor
  · exact fun hprogressed => ⟨hprogressed.left, hprogressed.restarted⟩
  · intro hhistories
    refine ⟨?_, hhistories.1, hhistories.2⟩
    intro hpending
    obtain ⟨stage, hstage, -⟩ := h.pending hpending
    exact ⟨stage, hstage⟩

/-- An operation that adds nothing unsound to the histories. -/
theorem progressed_congr {n n' : NodeQueries} (h : n.Orderly) (h' : n'.Orderly)
    (hdepartures : ∃ new, n'.departures = n.departures ++ new ∧ ∀ d ∈ new, d.Sound)
    (hrevivals : n'.revivals = n.revivals) : n'.Progressed ↔ n.Progressed := by
  obtain ⟨new, hdepartures, hsound⟩ := hdepartures
  rw [h.progressed_iff, h'.progressed_iff, hdepartures, hrevivals, List.forall_mem_append,
    and_iff_left hsound]

theorem Advanced.progressed_iff {n n' : NodeQueries} (h : Advanced n n') (hn : n.Orderly) :
    n'.Progressed ↔ n.Progressed :=
  progressed_congr hn h.orderly h.departures h.revivals

theorem kinds_markRetry (stage : QueryStage) (items : List QueryItem) :
    (markRetry stage items).map kind = items.map kind := by
  induction items with
  | nil => rfl
  | cons item items ih =>
      cases item with
      | sendMsg visit msg => simp only [markRetry, List.map_cons, ih]
      | queryStageComplete stage' retry visit =>
          rw [markRetry]
          split
          · rfl
          · simp only [List.map_cons, ih]

theorem Orderly.retryQueryStageComplete {n : NodeQueries} (h : n.Orderly) (stage : QueryStage) :
    (n.retryQueryStageComplete stage).Orderly := by
  refine h.requeue rfl ?_
  rw [kinds, NodeQueries.retryQueryStageComplete, kinds_markRetry]
  exact h.order

end NodeQueries

/-! ## A node with one request -/

def Asked.nothing : Asked := ⟨[], false, fun _ => rfl⟩

end OpenZWave
