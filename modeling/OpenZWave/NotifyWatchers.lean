import Mathlib.Logic.Function.Basic
import OpenZWave.Lib.Transition
import OpenZWave.ValueID

/-!
# Delivering notifications

`QueueNotification` adds a notification to the list and then sets the event that
the driver thread waits for. `NotifyWatchers` empties the list, on the driver
thread, and then resets the event. Each access to the list or the event is a step
of its own, and the steps of all threads mix. A watcher may queue notifications
while it is called. Of a notification, only what `NotifyWatchers` reads is here.
-/

namespace OpenZWave

open Transition

/-- `Notification::NotificationType`. -/
inductive NotificationType
  | valueAdded | valueRemoved | valueChanged | valueRefreshed | group | nodeNew | nodeAdded
  | nodeRemoved | nodeProtocolInfo | nodeNaming | nodeEvent | pollingDisabled | pollingEnabled
  | sceneEvent | createButton | deleteButton | buttonOn | buttonOff | driverReady | driverFailed
  | driverReset | essentialNodeQueriesComplete | nodeQueriesComplete | awakeNodesQueried
  | allNodesQueriedSomeDead | allNodesQueried | notification | driverRemoved | controllerCommand
  | nodeReset | userAlerts | manufacturerSpecificDBReady
  deriving DecidableEq

structure QueuedNotification where
  type : NotificationType
  valueId : PackedValueID
  deriving DecidableEq

/-- The notifications whose value must still be there. -/
def QueuedNotification.namesValue (n : QueuedNotification) : Bool :=
  match n.type with
  | .valueAdded | .valueChanged | .valueRefreshed => true
  | _ => false

/-- A thread that queues notifications: the driver thread or another one. -/
inductive Thread (π : Type)
  | driver
  | other (p : π)
  deriving DecidableEq

/-- Where the driver thread is in `NotifyWatchers`. -/
inductive Watching
  | outside
  | looking
  | taking
  | checking (n : QueuedNotification)
  | delivering (n : QueuedNotification)
  | resetting
  deriving DecidableEq

/-- What became of a notification that was taken from the list. -/
inductive Outcome
  | delivered
  | dropped
  deriving DecidableEq

/-- The list and its event, the threads that have yet to set the event, and the
values that exist. What was queued, taken and handled is kept in order. -/
structure Notifying (π : Type) where
  notifications : List QueuedNotification
  event : Bool
  watching : Watching
  setting : Thread π → Bool
  values : PackedValueID → Bool
  queued : List QueuedNotification
  taken : List QueuedNotification
  handled : List (QueuedNotification × Outcome)

/-- `QueueNotification` pushes and sets. `NotifyWatchers` looks whether the list is
empty, takes the first notification, checks its value and delivers it, and at
the end resets the event. Values come and go. -/
inductive NotifyStep (π : Type)
  | push (thread : Thread π) (n : QueuedNotification)
  | set (thread : Thread π)
  | enter
  | look
  | take
  | check
  | deliver
  | reset
  | values (values : PackedValueID → Bool)

namespace Notifying

variable {π : Type}

def new (π : Type) : Notifying π where
  notifications := []
  event := false
  watching := .outside
  setting := fun _ => false
  values := fun _ => false
  queued := []
  taken := []
  handled := []

variable [DecidableEq π] (s : Notifying π)

/-- The thread may call `QueueNotification`: it is not in it yet, and the driver
thread is outside of `NotifyWatchers` or in a watcher. -/
def mayQueue (thread : Thread π) : Bool :=
  !s.setting thread &&
    match thread, s.watching with
    | .other _, _ => true
    | .driver, .outside => true
    | .driver, .delivering _ => true
    | .driver, _ => false

/-- The first part of `QueueNotification`. -/
def push (thread : Thread π) (n : QueuedNotification) : Notifying π :=
  { s with
    notifications := s.notifications ++ [n]
    queued := s.queued ++ [n]
    setting := Function.update s.setting thread true }

/-- The second part of `QueueNotification`. -/
def set (thread : Thread π) : Notifying π :=
  { s with event := true, setting := Function.update s.setting thread false }

/-- The notification leaves `NotifyWatchers`, which goes back to its loop test. -/
def handle (n : QueuedNotification) (outcome : Outcome) : Notifying π :=
  { s with watching := .looking, handled := s.handled ++ [(n, outcome)] }

/-- One step; a step that its thread cannot take changes nothing. -/
def step : NotifyStep π → Notifying π
  | .push thread n => if s.mayQueue thread then s.push thread n else s
  | .set thread => if s.setting thread then s.set thread else s
  | .enter =>
      if s.watching = .outside ∧ s.setting .driver = false then { s with watching := .looking }
      else s
  | .look =>
      match s.watching with
      | .looking =>
          { s with watching := if s.notifications = [] then .resetting else .taking }
      | _ => s
  | .take =>
      match s.watching, s.notifications with
      | .taking, n :: rest =>
          { s with notifications := rest, taken := s.taken ++ [n], watching := .checking n }
      | _, _ => s
  | .check =>
      match s.watching with
      | .checking n =>
          if n.namesValue && !s.values n.valueId then s.handle n .dropped
          else { s with watching := .delivering n }
      | _ => s
  | .deliver =>
      match s.watching with
      | .delivering n => if s.setting .driver then s else s.handle n .delivered
      | _ => s
  | .reset =>
      match s.watching with
      | .resetting => { s with event := false, watching := .outside }
      | _ => s
  | .values values => { s with values := values }

/-- The notification that `NotifyWatchers` has taken and not handled yet. -/
def inHand : List QueuedNotification :=
  match s.watching with
  | .checking n => [n]
  | .delivering n => [n]
  | _ => []

/-! ## Nothing is lost or taken twice -/

/-- What was queued has been taken, in order, or is still in the list, and what
was taken has been handled, in order, or is in hand. The list is not empty when
its first notification is about to be taken. -/
structure Conserved : Prop where
  queued : s.queued = s.taken ++ s.notifications
  taken : s.taken = s.handled.map Prod.fst ++ s.inHand
  front : s.watching = .taking → s.notifications ≠ []

omit [DecidableEq π] in
theorem conserved_new : Conserved (new π) := ⟨rfl, rfl, fun h => nomatch h⟩

variable {s}

omit [DecidableEq π] in
/-- The notification in hand is handled. -/
theorem Conserved.handle (h : s.Conserved) {n : QueuedNotification} (hhand : s.inHand = [n])
    (outcome : Outcome) : (s.handle n outcome).Conserved where
  queued := h.queued
  taken := by
    calc s.taken = s.handled.map Prod.fst ++ [n] := by rw [h.taken, hhand]
      _ = (s.handled ++ [(n, outcome)]).map Prod.fst ++ [] := by simp
  front := fun h => nomatch h

theorem Conserved.step (h : s.Conserved) (act : NotifyStep π) : (s.step act).Conserved := by
  cases act with
  | push thread n =>
      rw [Notifying.step]
      split
      · refine ⟨?_, h.taken, fun _ => List.append_ne_nil_of_right_ne_nil _ (List.cons_ne_nil n [])⟩
        rw [push, h.queued, List.append_assoc]
      · exact h
  | set thread =>
      rw [Notifying.step]
      split
      · exact ⟨h.queued, h.taken, h.front⟩
      · exact h
  | enter =>
      rw [Notifying.step]
      split
      · rename_i houtside
        refine ⟨h.queued, ?_, fun h => nomatch h⟩
        rw [h.taken, inHand, houtside.1]
        rfl
      · exact h
  | look =>
      rw [Notifying.step]
      split
      · rename_i hlooking
        have hhand : s.inHand = [] := by rw [inHand, hlooking]
        by_cases hempty : s.notifications = []
        · rw [if_pos hempty]
          refine ⟨h.queued, ?_, fun h => nomatch h⟩
          rw [h.taken, hhand]
          rfl
        · rw [if_neg hempty]
          refine ⟨h.queued, ?_, fun _ => hempty⟩
          rw [h.taken, hhand]
          rfl
      · exact h
  | take =>
      rw [Notifying.step]
      split
      · rename_i n rest htaking hfront
        refine ⟨?_, ?_, fun h => nomatch h⟩
        · rw [h.queued, hfront, List.append_assoc, List.singleton_append]
        · rw [h.taken, inHand, htaking, List.append_nil]
          rfl
      · exact h
  | check =>
      rw [Notifying.step]
      split
      · rename_i n hchecking
        have hhand : s.inHand = [n] := by rw [inHand, hchecking]
        split
        · exact h.handle hhand .dropped
        · refine ⟨h.queued, ?_, fun h => nomatch h⟩
          rw [h.taken, hhand]
          rfl
      · exact h
  | deliver =>
      rw [Notifying.step]
      split
      · rename_i n hdelivering
        have hhand : s.inHand = [n] := by rw [inHand, hdelivering]
        split
        · exact h
        · exact h.handle hhand .delivered
      · exact h
  | reset =>
      rw [Notifying.step]
      split
      · rename_i hresetting
        refine ⟨h.queued, ?_, fun h => nomatch h⟩
        rw [h.taken, inHand, hresetting]
        rfl
      · exact h
  | values values => exact ⟨h.queued, h.taken, h.front⟩

/-! ## What is handled -/

variable (s)

/-- What a step does with the notification in hand. -/
inductive Handles (s s' : Notifying π) : Prop
  | nothing (handled : s'.handled = s.handled)
  | drops (n : QueuedNotification) (named : n.namesValue = true)
      (missing : s.values n.valueId = false) (handled : s'.handled = s.handled ++ [(n, .dropped)])
  | delivers (n : QueuedNotification) (watching : s.watching = .delivering n)
      (handled : s'.handled = s.handled ++ [(n, .delivered)])

theorem handles_step (act : NotifyStep π) : Handles s (s.step act) := by
  cases act with
  | push thread n => exact .nothing (by rw [step]; split <;> rfl)
  | set thread => exact .nothing (by rw [step]; split <;> rfl)
  | enter => exact .nothing (by rw [step]; split <;> rfl)
  | look => exact .nothing (by rw [step]; split <;> rfl)
  | take => exact .nothing (by rw [step]; split <;> rfl)
  | check =>
      rw [step]
      split
      · split
        · rename_i n _ hmissing
          obtain ⟨hnamed, hmissing⟩ := Bool.and_eq_true_iff.mp hmissing
          exact .drops n hnamed (by simpa using hmissing) rfl
        · exact .nothing rfl
      · exact .nothing rfl
  | deliver =>
      rw [step]
      split
      · rename_i n hdelivering
        split
        · exact .nothing rfl
        · exact .delivers n hdelivering rfl
      · exact .nothing rfl
  | reset => exact .nothing (by rw [step]; split <;> rfl)
  | values values => exact .nothing rfl

/-- A notification is dropped only if it names a value that does not exist. -/
def DropsRightly (act : NotifyStep π) : Prop :=
  ∀ n, (s.step act).handled = s.handled ++ [(n, .dropped)] →
    n.namesValue = true ∧ s.values n.valueId = false

theorem dropsRightly (act : NotifyStep π) : s.DropsRightly act := by
  intro n hdropped
  cases s.handles_step act with
  | nothing hhandled =>
      rw [hhandled] at hdropped
      exact absurd hdropped (by simp)
  | drops m hnamed hmissing hhandled =>
      rw [hhandled, List.append_cancel_left_eq] at hdropped
      cases hdropped
      exact ⟨hnamed, hmissing⟩
  | delivers m _ hhandled =>
      rw [hhandled, List.append_cancel_left_eq] at hdropped
      cases hdropped

/-! ## One call of `NotifyWatchers` -/

/-- The steps by which the driver thread handles one notification. -/
def pass (π : Type) : List (NotifyStep π) := [.look, .take, .check, .deliver]

/-- The steps after which a call that finds so many notifications is over. -/
def passes (π : Type) : Nat → List (NotifyStep π)
  | 0 => [.look, .reset]
  | count + 1 => pass π ++ passes π count

/-- The steps of a call. -/
def call (π : Type) (count : Nat) : List (NotifyStep π) := .enter :: passes π count

variable {s}

/-- The driver thread goes on by itself in the loop of `NotifyWatchers`. -/
structure Alone (s : Notifying π) (list queued : List QueuedNotification) : Prop where
  looking : s.watching = .looking
  list : s.notifications = list
  queued : s.queued = queued
  driver : s.setting .driver = false

theorem alone_pass {n : QueuedNotification} {rest queued : List QueuedNotification}
    (h : s.Alone (n :: rest) queued) : (run step s (pass π)).Alone rest queued := by
  obtain ⟨hlooking, hlist, hqueued, hdriver⟩ := h
  by_cases hmissing : (n.namesValue && !s.values n.valueId) = true
  · constructor <;> simp [pass, step, hlooking, hlist, hmissing, handle, hqueued, hdriver]
  · constructor <;> simp [pass, step, hlooking, hlist, hmissing, handle, hqueued, hdriver]

theorem run_passes {list queued : List QueuedNotification} (h : s.Alone list queued) :
    (run step s (passes π list.length)).notifications = [] ∧
      (run step s (passes π list.length)).queued = queued := by
  induction list generalizing s with
  | nil => simp [passes, step, h.looking, h.list, h.queued]
  | cons n rest ih =>
      rw [List.length_cons, passes, run_append]
      exact ih (alone_pass h)

/-- A call that no other thread disturbs takes all that was queued. -/
theorem taken_call (hconserved : s.Conserved) (houtside : s.watching = .outside)
    (hdriver : s.setting .driver = false) :
    (run step s (call π s.notifications.length)).taken = s.queued := by
  have hentered : (step s .enter).Alone s.notifications s.queued := by
    constructor <;> simp [step, houtside, hdriver]
  obtain ⟨hlist, hqueued⟩ := run_passes hentered
  have hafter : (run step s (call π s.notifications.length)).Conserved :=
    run_invariant step (fun _ act h => h.step act) hconserved _
  calc (run step s (call π s.notifications.length)).taken
      = (run step s (call π s.notifications.length)).queued := by
        rw [hafter.queued, call, run_cons, hlist, List.append_nil]
    _ = s.queued := hqueued

/-! ## The event -/

variable (s)

/-- The driver thread will be woken for the notifications in the list: outside of
`NotifyWatchers`, when no thread is between the push and the set of its call. -/
def Announced : Prop :=
  s.watching = .outside → s.notifications ≠ [] → (∀ thread, s.setting thread = false) →
    s.event = true

/-- The reset finds the list still empty, or a thread that has yet to set the event. -/
def ResetsSafely (act : NotifyStep π) : Prop :=
  act = .reset → s.watching = .resetting →
    s.notifications = [] ∨ ∃ thread, s.setting thread = true

variable {s}

omit [DecidableEq π] in
theorem announced_of_inside (h : s.watching ≠ .outside) : s.Announced :=
  fun houtside => absurd houtside h

theorem announced_step_iff (act : NotifyStep π) (h : s.Announced) :
    (s.step act).Announced ↔ s.ResetsSafely act := by
  cases act with
  | push thread n =>
      refine iff_of_true ?_ fun h => nomatch h
      rw [step]
      split
      · intro _ _ hnone
        exact absurd (hnone thread) (by simp [push])
      · exact h
  | set thread =>
      refine iff_of_true ?_ fun h => nomatch h
      rw [step]
      split
      · exact fun _ _ _ => rfl
      · exact h
  | enter =>
      refine iff_of_true ?_ fun h => nomatch h
      rw [step]
      split
      · exact announced_of_inside fun h => nomatch h
      · exact h
  | look =>
      refine iff_of_true ?_ fun h => nomatch h
      rw [step]
      split
      · by_cases hempty : s.notifications = []
        · exact announced_of_inside (by simp [hempty])
        · exact announced_of_inside (by simp [hempty])
      · exact h
  | take =>
      refine iff_of_true ?_ fun h => nomatch h
      rw [step]
      split
      · exact announced_of_inside fun h => nomatch h
      · exact h
  | check =>
      refine iff_of_true ?_ fun h => nomatch h
      rw [step]
      split
      · split
        · exact announced_of_inside fun h => nomatch h
        · exact announced_of_inside fun h => nomatch h
      · exact h
  | deliver =>
      refine iff_of_true ?_ fun h => nomatch h
      rw [step]
      split
      · split
        · exact h
        · exact announced_of_inside fun h => nomatch h
      · exact h
  | reset =>
      rw [step]
      split
      · rename_i hresetting
        -- the event is reset whatever has been pushed since the list was found empty
        simp only [Announced, ResetsSafely, hresetting, forall_const, Bool.false_eq_true,
          imp_false, not_forall, Bool.not_eq_false]
        exact Decidable.imp_iff_not_or.trans (by rw [not_not])
      · rename_i hresetting
        exact iff_of_true h fun _ h => absurd h hresetting
  | values values => exact iff_of_true h fun h => nomatch h

/-- In every run nothing is lost, taken twice or taken out of order, and only
notifications of missing values are dropped; an undisturbed call takes all that
was queued. In all states of a run the event is set for what is in the list
exactly if no reset comes after a push that the call has not seen. -/
theorem delivery_run_iff (acts : List (NotifyStep π)) :
    (run step (new π) acts).Conserved ∧ Along step DropsRightly (new π) acts ∧
      (∀ s, s = run step (new π) acts → s.watching = .outside → s.setting .driver = false →
        (run step s (call π s.notifications.length)).taken = s.queued) ∧
      ((∀ past, past <+: acts → (run step (new π) past).Announced) ↔
        Along step ResetsSafely (new π) acts) := by
  have hconserved : (run step (new π) acts).Conserved :=
    run_invariant step (fun _ act h => h.step act) conserved_new acts
  refine ⟨hconserved, along_of_forall dropsRightly (new π) acts, ?_, ?_⟩
  · rintro s rfl houtside hdriver
    exact taken_call hconserved houtside hdriver
  · exact always_iff_along (fun _ act h => announced_step_iff act h) (fun _ h => absurd rfl h) acts

/-- A thread queues a notification after the list was found empty and before the
event is reset. -/
def lateNotification : List (NotifyStep Unit) :=
  let n := { type := .driverReady, valueId := { id := 0, id1 := 0, homeId := 1 } }
  [.push (.other ()) n, .set (.other ()), .enter, .look, .take, .check, .deliver, .look,
    .push (.other ()) n, .set (.other ()), .reset]

theorem notification_not_announced :
    ¬ ∀ acts : List (NotifyStep Unit), (run step (new Unit) acts).Announced := by
  intro hannounced
  have hset : (run step (new Unit) lateNotification).event = true := by
    apply hannounced lateNotification
    · rfl
    · exact fun h => nomatch h
    · intro thread
      cases thread <;> rfl
  exact absurd hset (by decide)

end Notifying

end OpenZWave
