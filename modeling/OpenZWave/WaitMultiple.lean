import Mathlib.Data.List.Basic
import Mathlib.Data.List.Infix
import Mathlib.Logic.Function.Basic
import OpenZWave.Lib.Transition

/-!
# Waiting for one of several objects

`Wait::Multiple` puts a watcher into the list of each object, sleeps on an event
of its own, then looks which object is signalled and removes the watchers. Other
threads set, reset and notify at the same time. A state has any number of objects
and of calls; an action is one atomic step of one thread: what a mutex protects,
or one access to `m_isSignaled`. An action that is not possible in a state, for
one that its mutex is taken, leaves the state as it is, so every list of actions
is an interleaving.
-/

namespace OpenZWave

open Transition

/-- Where a call of `Wait::Multiple` stands. -/
inductive WaitPhase
  | idle
  /-- `AddWatcher` of object `i` comes next. -/
  | adding (i : Nat)
  /-- The watcher is in the list of object `i`, which is asked for `IsSignalled` next. -/
  | added (i : Nat)
  /-- Object `i` was signalled; the callback comes next. -/
  | calling (i : Nat)
  /-- Before the mutex of `EventImpl::Wait`. -/
  | entering
  /-- In `pthread_cond_wait` or `pthread_cond_timedwait`. -/
  | asleep
  /-- Back from there, before the loop tests `m_isSignaled` again. -/
  | awake
  | scanning (i : Nat) (res : Int)
  | removing (i : Nat) (res : Int)
  | done (res : Int)
  deriving DecidableEq

/-- The arguments and locals of a call: `waitEvent` is `none` while the event does
not exist, else its `m_isSignaled`. -/
structure WaitCall (O : Type*) where
  objects : List O
  timeout : Int
  waitEvent : Option Bool
  phase : WaitPhase

/-- The objects with their watchers, and the calls. `pending` counts the threads
between `EventImpl::Set` and `Notify` of an object, `notifying` is what the
`Notify` that holds its critical section has still to call. -/
structure WaitState (O W : Type*) where
  signalled : O → Bool
  watchers : O → List W
  pending : O → Nat
  notifying : O → Option (List W)
  call : W → WaitCall O
  /-- A callback was given an event that does not exist. -/
  dangling : Bool

inductive WaitAction (O W : Type*)
  | set (o : O)
  | reset (o : O)
  | beginNotify (o : O)
  | callback (o : O)
  | endNotify (o : O)
  | start (w : W) (objects : List O) (timeout : Int)
  | advance (w : W)
  /-- `pthread_cond_wait` may return without a broadcast. -/
  | wake (w : W)
  /-- `pthread_cond_timedwait` returns `ETIMEDOUT`. -/
  | timedOut (w : W)
  deriving DecidableEq

variable {O W : Type*}

/-- `EventImpl::Set` of the wait event: its broadcast wakes the thread. -/
def WaitCall.set (c : WaitCall O) : WaitCall O :=
  { c with
    waitEvent := some true
    phase := if c.phase = .asleep then .awake else c.phase }

/-- `EventImpl::Wait` with the mutex held, before it sleeps. -/
def WaitCall.enter (c : WaitCall O) : WaitPhase :=
  if c.waitEvent = some true then .scanning 0 (-1)
  else if c.timeout = 0 then .removing 0 (-1)
  else .asleep

/-- The condition of the loop in `EventImpl::Wait`. -/
def WaitCall.retest (c : WaitCall O) : WaitPhase :=
  if c.waitEvent = some true then .scanning 0 (-1) else .asleep

namespace WaitState

variable [DecidableEq O] [DecidableEq W]

/-- Nobody watches yet. -/
def initial (signalled : O → Bool) : WaitState O W where
  signalled := signalled
  watchers := fun _ => []
  pending := fun _ => 0
  notifying := fun _ => none
  call := fun _ => { objects := [], timeout := 0, waitEvent := none, phase := .idle }
  dangling := false

def withCall (s : WaitState O W) (w : W) (c : WaitCall O) : WaitState O W :=
  { s with call := Function.update s.call w c }

def withPhase (s : WaitState O W) (w : W) (p : WaitPhase) : WaitState O W :=
  s.withCall w { s.call w with phase := p }

/-- `WaitMultipleCallback`. -/
def callback (s : WaitState O W) (w : W) : WaitState O W :=
  if (s.call w).waitEvent = none then { s with dangling := true }
  else s.withCall w (s.call w).set

/-- The next step of a call. -/
def advance (s : WaitState O W) (w : W) : WaitState O W :=
  let c := s.call w
  match c.phase with
  | .idle => s
  | .adding i =>
      match c.objects[i]? with
      | none => s.withPhase w .entering
      | some o =>
          if s.notifying o = none then
            { s with watchers := Function.update s.watchers o (s.watchers o ++ [w]) }.withPhase w
              (.added i)
          else s
  | .added i =>
      match c.objects[i]? with
      | none => s
      | some o => s.withPhase w (if s.signalled o then .calling i else .adding (i + 1))
  | .calling i => (s.callback w).withPhase w (.adding (i + 1))
  | .entering => s.withPhase w c.enter
  | .asleep => s
  | .awake => s.withPhase w c.retest
  | .scanning i res =>
      match c.objects[i]? with
      | none => s.withPhase w (.removing 0 res)
      | some o => s.withPhase w (.scanning (i + 1) (if s.signalled o ∧ res = -1 then i else res))
  | .removing i res =>
      match c.objects[i]? with
      -- `waitEvent->Release()`
      | none => s.withCall w { c with waitEvent := none, phase := .done res }
      | some o =>
          if s.notifying o = none then
            { s with watchers := Function.update s.watchers o ((s.watchers o).erase w) }.withPhase w
              (.removing (i + 1) res)
          else s
  | .done _ => s

def step (s : WaitState O W) : WaitAction O W → WaitState O W
  | .set o =>
      { s with
        signalled := Function.update s.signalled o true
        pending := Function.update s.pending o (s.pending o + 1) }
  | .reset o => { s with signalled := Function.update s.signalled o false }
  | .beginNotify o =>
      if s.pending o ≠ 0 ∧ s.notifying o = none then
        { s with
          pending := Function.update s.pending o (s.pending o - 1)
          notifying := Function.update s.notifying o (some (s.watchers o)) }
      else s
  | .callback o =>
      match s.notifying o with
      | some (w :: rest) =>
          { s with notifying := Function.update s.notifying o (some rest) }.callback w
      | _ => s
  | .endNotify o =>
      if s.notifying o = some [] then
        { s with notifying := Function.update s.notifying o none }
      else s
  | .start w objects timeout =>
      if (s.call w).phase = .idle then
        s.withCall w
          { objects := objects, timeout := timeout, waitEvent := some false, phase := .adding 0 }
      else s
  | .advance w => s.advance w
  | .wake w => if (s.call w).phase = .asleep then s.withPhase w .awake else s
  | .timedOut w =>
      if (s.call w).phase = .asleep ∧ 0 < (s.call w).timeout then
        s.withPhase w (.removing 0 (-1))
      else s

end WaitState

/-! ## The watchers -/

/-- The objects whose lists hold a watcher of the call, once for each. -/
def WaitCall.registered (c : WaitCall O) : List O :=
  match c.phase with
  | .idle | .done _ => []
  | .adding i => c.objects.take i
  | .added i | .calling i => c.objects.take (i + 1)
  | .entering | .asleep | .awake | .scanning _ _ => c.objects
  | .removing i _ => c.objects.drop i

/-- The objects for which `AddWatcher` has returned, until the call looks at its result. -/
def WaitCall.announced (c : WaitCall O) : List O :=
  match c.phase with
  | .adding i | .added i | .calling i => c.objects.take i
  | .entering | .asleep | .awake => c.objects
  | .idle | .scanning _ _ | .removing _ _ | .done _ => []

/-- The call has begun and has not returned: its event exists. -/
def WaitCall.active (c : WaitCall O) : Bool :=
  match c.phase with
  | .idle | .done _ => false
  | _ => true

namespace WaitCall

theorem active_of_registered {c : WaitCall O} {o : O} (h : o ∈ c.registered) : c.active = true := by
  cases hphase : c.phase with
  | idle => simp [registered, hphase] at h
  | done res => simp [registered, hphase] at h
  | _ => simp [active, hphase]

theorem registered_subset (c : WaitCall O) : c.registered ⊆ c.objects := by
  cases hphase : c.phase with
  | adding i => simpa only [registered, hphase] using List.take_subset i c.objects
  | added i => simpa only [registered, hphase] using List.take_subset (i + 1) c.objects
  | calling i => simpa only [registered, hphase] using List.take_subset (i + 1) c.objects
  | removing i res => simpa only [registered, hphase] using List.drop_subset i c.objects
  | _ => simp [registered, hphase]

theorem announced_subset (c : WaitCall O) : c.announced ⊆ c.registered := by
  intro o ho
  cases hphase : c.phase with
  | added i =>
      simp only [announced, hphase] at ho
      simp only [registered, hphase, List.take_add_one]
      exact List.mem_append_left _ ho
  | calling i =>
      simp only [announced, hphase] at ho
      simp only [registered, hphase, List.take_add_one]
      exact List.mem_append_left _ ho
  | _ => simp_all [announced, registered]

theorem registered_set (c : WaitCall O) : c.set.registered = c.registered := by
  by_cases h : c.phase = .asleep
  · simp only [set, registered, h, if_true]
  · simp only [set, registered, h, if_false]

theorem announced_set (c : WaitCall O) : c.set.announced = c.announced := by
  by_cases h : c.phase = .asleep
  · simp only [set, announced, h, if_true]
  · simp only [set, announced, h, if_false]

theorem phase_set_ne_asleep (c : WaitCall O) : c.set.phase ≠ .asleep := by
  by_cases h : c.phase = .asleep
  · simp [set, h]
  · simp [set, h]

end WaitCall

namespace WaitState

variable [DecidableEq O] [DecidableEq W]

/-- A `Notify` that is to come, or that is on its way to the watcher. -/
def Coming (s : WaitState O W) (o : O) (w : W) : Prop :=
  s.pending o ≠ 0 ∨ ∃ rest, s.notifying o = some rest ∧ w ∈ rest

/-- What holds between any two actions. -/
structure Sound (s : WaitState O W) : Prop where
  watched : ∀ o w, (s.watchers o).count w = (s.call w).registered.count o
  held : ∀ o rest, s.notifying o = some rest → rest <:+ s.watchers o
  owned : ∀ w, (s.call w).active = true → (s.call w).waitEvent ≠ none
  heard : ∀ w, ∀ o ∈ (s.call w).announced, s.signalled o = true →
    (s.call w).waitEvent = some true ∨ s.Coming o w
  sleeping : ∀ w, (s.call w).phase = .asleep → (s.call w).waitEvent = some false
  safe : s.dangling = false

variable {s : WaitState O W} {w : W} {o : O}

omit [DecidableEq O] in
@[simp] theorem call_withCall_self (c : WaitCall O) : (s.withCall w c).call w = c :=
  Function.update_self ..

omit [DecidableEq O] in
@[simp] theorem call_withCall_of_ne {w' : W} (h : w' ≠ w) (c : WaitCall O) :
    (s.withCall w c).call w' = s.call w' :=
  Function.update_of_ne h ..

/-- A change of one call and of the lists in which it has watchers. -/
theorem Sound.change (h : s.Sound) {watchers : O → List W} {c : WaitCall O}
    (hself : ∀ o, (watchers o).count w = c.registered.count o)
    (hothers : ∀ o, ∀ w' ≠ w, (watchers o).count w' = (s.watchers o).count w')
    (hheld : ∀ o rest, s.notifying o = some rest → rest <:+ watchers o)
    (howned : c.active = true → c.waitEvent ≠ none)
    (hheard : ∀ o ∈ c.announced, s.signalled o = true → c.waitEvent = some true ∨ s.Coming o w)
    (hsleeping : c.phase = .asleep → c.waitEvent = some false) :
    ({ s with watchers := watchers }.withCall w c).Sound := by
  refine ⟨?_, hheld, ?_, ?_, ?_, h.safe⟩
  · intro o w'
    rcases eq_or_ne w' w with rfl | hne
    · rw [call_withCall_self]
      exact hself o
    · rw [call_withCall_of_ne hne]
      exact (hothers o w' hne).trans (h.watched o w')
  · intro w'
    rcases eq_or_ne w' w with rfl | hne
    · rwa [call_withCall_self]
    · rw [call_withCall_of_ne hne]
      exact h.owned w'
  · intro w'
    rcases eq_or_ne w' w with rfl | hne
    · rwa [call_withCall_self]
    · rw [call_withCall_of_ne hne]
      exact h.heard w'
  · intro w'
    rcases eq_or_ne w' w with rfl | hne
    · rwa [call_withCall_self]
    · rw [call_withCall_of_ne hne]
      exact h.sleeping w'

/-- A change of one call that keeps its watchers. -/
theorem Sound.withCall (h : s.Sound) {c : WaitCall O}
    (hregistered : c.registered = (s.call w).registered)
    (howned : c.active = true → c.waitEvent ≠ none)
    (hheard : ∀ o ∈ c.announced, s.signalled o = true → c.waitEvent = some true ∨ s.Coming o w)
    (hsleeping : c.phase = .asleep → c.waitEvent = some false) : (s.withCall w c).Sound := by
  refine h.change ?_ ?_ h.held howned hheard hsleeping
  · intro o
    rw [hregistered]
    exact h.watched o w
  · intro _ _ _
    rfl

/-- A callback to a call that has its event. -/
theorem Sound.callback (h : s.Sound) (hevent : (s.call w).waitEvent ≠ none) :
    (s.callback w).Sound := by
  rw [WaitState.callback, if_neg hevent]
  refine h.withCall (s.call w).registered_set ?_ ?_ ?_
  · intro _
    exact Option.some_ne_none true
  · intro _ _ _
    exact .inl rfl
  · exact fun hasleep => absurd hasleep (s.call w).phase_set_ne_asleep

/-- A call that moves on, its watchers, its event and the announced objects as before. -/
theorem Sound.withPhase (h : s.Sound) {p : WaitPhase}
    (hregistered : { s.call w with phase := p }.registered = (s.call w).registered)
    (hactive : (s.call w).active = true)
    (hannounced : { s.call w with phase := p }.announced ⊆ (s.call w).announced)
    (hsleeping : p ≠ .asleep) : (s.withPhase w p).Sound := by
  refine h.withCall hregistered ?_ ?_ ?_
  · intro _
    exact h.owned w hactive
  · intro o ho
    exact h.heard w o (hannounced ho)
  · exact fun hasleep => absurd hasleep hsleeping

/-- `AddWatcher` under the mutex. -/
theorem Sound.addWatcher (h : s.Sound) {i : Nat} (hphase : (s.call w).phase = .adding i)
    (hobject : (s.call w).objects[i]? = some o) (hfree : s.notifying o = none) :
    ({ s with watchers := Function.update s.watchers o (s.watchers o ++ [w]) }.withPhase w
      (.added i)).Sound := by
  refine h.change ?_ ?_ ?_ ?_ ?_ ?_
  · intro o'
    have hcount := h.watched o' w
    simp only [WaitCall.registered, hphase] at hcount
    simp only [WaitCall.registered, List.take_add_one, hobject, Option.toList_some,
      List.count_append, ← hcount]
    rcases eq_or_ne o' o with rfl | hne
    · simp
    · rw [Function.update_of_ne hne, List.count_singleton, if_neg (by simpa using hne.symm),
        Nat.add_zero]
  · intro o' w' hne
    rcases eq_or_ne o' o with rfl | hne'
    · rw [Function.update_self, List.count_append, List.count_singleton,
        if_neg (by simpa using hne.symm), Nat.add_zero]
    · rw [Function.update_of_ne hne']
  · intro o' rest hrest
    rcases eq_or_ne o' o with rfl | hne
    · exact absurd (hfree.symm.trans hrest) (Option.some_ne_none rest).symm
    · rw [Function.update_of_ne hne]
      exact h.held o' rest hrest
  · intro _
    exact h.owned w (by simp only [WaitCall.active, hphase])
  · intro o' ho'
    refine h.heard w o' ?_
    simpa only [WaitCall.announced, hphase] using ho'
  · intro hasleep
    cases hasleep

/-- `RemoveWatcher`. -/
theorem Sound.removeWatcher (h : s.Sound) {i : Nat} {res : Int}
    (hphase : (s.call w).phase = .removing i res)
    (hobject : (s.call w).objects[i]? = some o) (hfree : s.notifying o = none) :
    ({ s with watchers := Function.update s.watchers o ((s.watchers o).erase w) }.withPhase w
      (.removing (i + 1) res)).Sound := by
  refine h.change ?_ ?_ ?_ ?_ ?_ ?_
  · intro o'
    have hcount := h.watched o' w
    obtain ⟨hlt, rfl⟩ := List.getElem?_eq_some_iff.mp hobject
    simp only [WaitCall.registered, hphase, List.drop_eq_getElem_cons hlt] at hcount
    simp only [WaitCall.registered]
    rcases eq_or_ne o' (s.call w).objects[i] with rfl | hne
    · rw [Function.update_self, List.count_erase_self, hcount, List.count_cons_self,
        Nat.add_sub_cancel]
    · rw [Function.update_of_ne hne, hcount, List.count_cons_of_ne hne.symm]
  · intro o' w' hne
    rcases eq_or_ne o' o with rfl | hne'
    · rw [Function.update_self, List.count_erase_of_ne hne]
    · rw [Function.update_of_ne hne']
  · intro o' rest hrest
    rcases eq_or_ne o' o with rfl | hne
    · exact absurd (hfree.symm.trans hrest) (Option.some_ne_none rest).symm
    · rw [Function.update_of_ne hne]
      exact h.held o' rest hrest
  · intro _
    exact h.owned w (by simp only [WaitCall.active, hphase])
  · intro o' ho'
    exact absurd ho' List.not_mem_nil
  · intro hasleep
    cases hasleep

/-- After the question for `IsSignalled` an object has been heard, for it is not signalled. -/
theorem Sound.askSignalled (h : s.Sound) {i : Nat} (hphase : (s.call w).phase = .added i)
    (hobject : (s.call w).objects[i]? = some o) (hunsignalled : s.signalled o = false) :
    (s.withPhase w (.adding (i + 1))).Sound := by
  refine h.withCall ?_ ?_ ?_ ?_
  · simp only [WaitCall.registered, hphase]
  · intro _
    exact h.owned w (by simp only [WaitCall.active, hphase])
  · intro o' ho' hsignalled
    simp only [WaitCall.announced, List.take_add_one, hobject, Option.toList_some,
      List.mem_append, List.mem_singleton] at ho'
    rcases ho' with ho' | rfl
    · refine h.heard w o' ?_ hsignalled
      simpa only [WaitCall.announced, hphase] using ho'
    · exact absurd (hsignalled.symm.trans hunsignalled) Bool.true_eq_false.mp
  · intro hasleep
    cases hasleep

/-- The callback of the call itself. -/
theorem Sound.callSelf (h : s.Sound) {i : Nat} (hphase : (s.call w).phase = .calling i) :
    ((s.callback w).withPhase w (.adding (i + 1))).Sound := by
  have hevent : (s.call w).waitEvent ≠ none :=
    h.owned w (by simp only [WaitCall.active, hphase])
  have hset : (s.callback w).call w = (s.call w).set := by
    rw [WaitState.callback, if_neg hevent, call_withCall_self]
  refine (h.callback hevent).withCall ?_ ?_ ?_ ?_
  · simp [WaitCall.registered, WaitCall.set, hset, hphase]
  · intro _
    exact (h.callback hevent).owned w (by simp [WaitCall.active, WaitCall.set, hset, hphase])
  · intro _ _ _
    rw [hset]
    exact .inl rfl
  · intro hasleep
    cases hasleep

theorem Sound.sleep (h : s.Sound) (hregistered : (s.call w).registered = (s.call w).objects)
    (hannounced : (s.call w).announced = (s.call w).objects) (hactive : (s.call w).active = true)
    (hevent : (s.call w).waitEvent ≠ some true) : (s.withPhase w .asleep).Sound := by
  have howned := h.owned w hactive
  refine h.withCall hregistered.symm ?_ ?_ ?_
  · intro _
    exact howned
  · intro o ho
    exact h.heard w o (hannounced.symm ▸ ho)
  · intro _
    cases hvalue : (s.call w).waitEvent with
    | none => exact absurd hvalue howned
    | some b =>
        cases b with
        | false => rfl
        | true => exact absurd hvalue hevent

theorem Sound.advance (h : s.Sound) : (s.advance w).Sound := by
  cases hphase : (s.call w).phase with
  | idle => simpa only [WaitState.advance, hphase] using h
  | adding i =>
      cases hobject : (s.call w).objects[i]? with
      | none =>
          have htake : (s.call w).objects.take i = (s.call w).objects :=
            List.take_of_length_le (List.getElem?_eq_none_iff.mp hobject)
          simp only [WaitState.advance, hphase, hobject]
          refine h.withPhase ?_ ?_ ?_ WaitPhase.noConfusion
          · simp only [WaitCall.registered, hphase, htake]
          · simp only [WaitCall.active, hphase]
          · simp only [WaitCall.announced, hphase, htake, List.Subset.refl]
      | some o =>
          simp only [WaitState.advance, hphase, hobject]
          by_cases hfree : s.notifying o = none
          · rw [if_pos hfree]
            exact h.addWatcher hphase hobject hfree
          · rwa [if_neg hfree]
  | added i =>
      cases hobject : (s.call w).objects[i]? with
      | none => simpa only [WaitState.advance, hphase, hobject] using h
      | some o =>
          simp only [WaitState.advance, hphase, hobject]
          cases hsignalled : s.signalled o with
          | false => exact h.askSignalled hphase hobject hsignalled
          | true =>
              refine h.withPhase ?_ ?_ ?_ ?_
              · simp only [if_true, WaitCall.registered, hphase]
              · simp only [WaitCall.active, hphase]
              · simp only [if_true, WaitCall.announced, hphase, List.Subset.refl]
              · simp
  | calling i =>
      simp only [WaitState.advance, hphase]
      exact h.callSelf hphase
  | entering =>
      simp only [WaitState.advance, hphase, WaitCall.enter]
      by_cases hevent : (s.call w).waitEvent = some true
      · rw [if_pos hevent]
        refine h.withPhase ?_ ?_ ?_ WaitPhase.noConfusion
        · simp only [WaitCall.registered, hphase]
        · simp only [WaitCall.active, hphase]
        · exact List.nil_subset _
      · rw [if_neg hevent]
        by_cases himmediate : (s.call w).timeout = 0
        · rw [if_pos himmediate]
          refine h.withPhase ?_ ?_ ?_ WaitPhase.noConfusion
          · simp only [WaitCall.registered, hphase, List.drop_zero]
          · simp only [WaitCall.active, hphase]
          · exact List.nil_subset _
        · rw [if_neg himmediate]
          refine h.sleep ?_ ?_ ?_ hevent
          · simp only [WaitCall.registered, hphase]
          · simp only [WaitCall.announced, hphase]
          · simp only [WaitCall.active, hphase]
  | asleep => simpa only [WaitState.advance, hphase] using h
  | awake =>
      simp only [WaitState.advance, hphase, WaitCall.retest]
      by_cases hevent : (s.call w).waitEvent = some true
      · rw [if_pos hevent]
        refine h.withPhase ?_ ?_ ?_ WaitPhase.noConfusion
        · simp only [WaitCall.registered, hphase]
        · simp only [WaitCall.active, hphase]
        · exact List.nil_subset _
      · rw [if_neg hevent]
        refine h.sleep ?_ ?_ ?_ hevent
        · simp only [WaitCall.registered, hphase]
        · simp only [WaitCall.announced, hphase]
        · simp only [WaitCall.active, hphase]
  | scanning i res =>
      cases hobject : (s.call w).objects[i]? with
      | none =>
          simp only [WaitState.advance, hphase, hobject]
          refine h.withPhase ?_ ?_ ?_ WaitPhase.noConfusion
          · simp only [WaitCall.registered, hphase, List.drop_zero]
          · simp only [WaitCall.active, hphase]
          · exact List.nil_subset _
      | some o =>
          simp only [WaitState.advance, hphase, hobject]
          refine h.withPhase ?_ ?_ ?_ WaitPhase.noConfusion
          · simp only [WaitCall.registered, hphase]
          · simp only [WaitCall.active, hphase]
          · exact List.nil_subset _
  | removing i res =>
      cases hobject : (s.call w).objects[i]? with
      | none =>
          have hdrop : (s.call w).objects.drop i = [] :=
            List.drop_eq_nil_of_le (List.getElem?_eq_none_iff.mp hobject)
          simp only [WaitState.advance, hphase, hobject]
          refine h.withCall ?_ ?_ ?_ WaitPhase.noConfusion
          · simp only [WaitCall.registered, hphase, hdrop]
          · intro hactive
            cases hactive
          · intro o ho
            exact absurd ho List.not_mem_nil
      | some o =>
          simp only [WaitState.advance, hphase, hobject]
          by_cases hfree : s.notifying o = none
          · rw [if_pos hfree]
            exact h.removeWatcher hphase hobject hfree
          · rwa [if_neg hfree]
  | done res => simpa only [WaitState.advance, hphase] using h

/-- A change of the objects that leaves their lists and the calls as they are. -/
theorem Sound.objects (h : s.Sound) {signalled : O → Bool} {pending : O → Nat}
    {notifying : O → Option (List W)}
    (hheld : ∀ o rest, notifying o = some rest → rest <:+ s.watchers o)
    (hheard : ∀ w, ∀ o ∈ (s.call w).announced, signalled o = true →
      (s.call w).waitEvent = some true ∨ pending o ≠ 0 ∨
        ∃ rest, notifying o = some rest ∧ w ∈ rest) :
    { s with signalled := signalled, pending := pending, notifying := notifying }.Sound :=
  ⟨h.watched, hheld, h.owned, hheard, h.sleeping, h.safe⟩

theorem Sound.set (h : s.Sound) (o : O) : (s.step (.set o)).Sound := by
  refine h.objects h.held ?_
  intro w o' ho' hsignalled
  rcases eq_or_ne o' o with rfl | hne
  · rw [Function.update_self]
    exact .inr (.inl (Nat.succ_ne_zero _))
  · rw [Function.update_of_ne hne] at hsignalled ⊢
    exact h.heard w o' ho' hsignalled

theorem Sound.reset (h : s.Sound) (o : O) : (s.step (.reset o)).Sound := by
  refine h.objects h.held ?_
  intro w o' ho' hsignalled
  rcases eq_or_ne o' o with rfl | hne
  · rw [Function.update_self] at hsignalled
    exact absurd hsignalled Bool.false_ne_true
  · rw [Function.update_of_ne hne] at hsignalled
    exact h.heard w o' ho' hsignalled

/-- An object of which `AddWatcher` has returned has the watcher. -/
theorem Sound.mem_watchers (h : s.Sound) (ho : o ∈ (s.call w).registered) : w ∈ s.watchers o := by
  rw [← List.count_pos_iff, h.watched]
  exact List.count_pos_iff.mpr ho

theorem Sound.active_of_mem_watchers (h : s.Sound) (hw : w ∈ s.watchers o) :
    (s.call w).active = true := by
  rw [← List.count_pos_iff, h.watched] at hw
  exact WaitCall.active_of_registered (List.count_pos_iff.mp hw)

theorem Sound.beginNotify (h : s.Sound) (o : O) : (s.step (.beginNotify o)).Sound := by
  by_cases hpossible : s.pending o ≠ 0 ∧ s.notifying o = none
  · rw [step, if_pos hpossible]
    refine h.objects ?_ ?_
    · intro o' rest hrest
      rcases eq_or_ne o' o with rfl | hne
      · rw [Function.update_self, Option.some.injEq] at hrest
        exact hrest ▸ List.suffix_refl _
      · rw [Function.update_of_ne hne] at hrest
        exact h.held o' rest hrest
    · intro w o' ho' hsignalled
      rcases eq_or_ne o' o with rfl | hne
      · rw [Function.update_self, Function.update_self]
        exact .inr (.inr ⟨_, rfl, h.mem_watchers ((s.call w).announced_subset ho')⟩)
      · rw [Function.update_of_ne hne, Function.update_of_ne hne]
        exact h.heard w o' ho' hsignalled
  · rwa [step, if_neg hpossible]

theorem Sound.endNotify (h : s.Sound) (o : O) : (s.step (.endNotify o)).Sound := by
  by_cases hlast : s.notifying o = some []
  · rw [step, if_pos hlast]
    refine h.objects ?_ ?_
    · intro o' rest hrest
      rcases eq_or_ne o' o with rfl | hne
      · rw [Function.update_self] at hrest
        exact absurd hrest.symm (Option.some_ne_none rest)
      · rw [Function.update_of_ne hne] at hrest
        exact h.held o' rest hrest
    · intro w o' ho' hsignalled
      rcases eq_or_ne o' o with rfl | hne
      · rcases h.heard w o' ho' hsignalled with hset | hpending | ⟨rest, hrest, hw⟩
        · exact .inl hset
        · exact .inr (.inl hpending)
        · rw [hlast, Option.some.injEq] at hrest
          exact absurd (hrest ▸ hw) List.not_mem_nil
      · rw [Function.update_of_ne hne]
        exact h.heard w o' ho' hsignalled
  · rwa [step, if_neg hlast]

/-- `Notify` calls the next watcher, which has its event: it is in the list as long as the
critical section is held. -/
theorem Sound.callNext (h : s.Sound) {rest : List W} (hnotifying : s.notifying o = some (w :: rest)) :
    ({ s with notifying := Function.update s.notifying o (some rest) }.callback w).Sound := by
  have hmem : w ∈ s.watchers o := (h.held o _ hnotifying).subset List.mem_cons_self
  have hevent : (s.call w).waitEvent ≠ none := h.owned w (h.active_of_mem_watchers hmem)
  have hcalled : (s.callback w).Sound := h.callback hevent
  rw [WaitState.callback, if_neg hevent] at hcalled ⊢
  refine hcalled.objects ?_ ?_
  · intro o' rest' hrest
    replace hrest : Function.update s.notifying o (some rest) o' = some rest' := hrest
    rcases eq_or_ne o' o with rfl | hne
    · rw [Function.update_self, Option.some.injEq] at hrest
      exact hrest ▸ (List.suffix_cons w rest).trans (h.held o' _ hnotifying)
    · rw [Function.update_of_ne hne] at hrest
      exact h.held o' rest' hrest
  · intro w' o' ho' hsignalled
    rcases eq_or_ne w' w with rfl | hne'
    · rw [call_withCall_self]
      exact .inl rfl
    · rcases hcalled.heard w' o' ho' hsignalled with hset | hpending | ⟨rest', hrest, hw⟩
      · exact .inl hset
      · exact .inr (.inl hpending)
      · refine .inr (.inr ?_)
        rcases eq_or_ne o' o with rfl | hne
        · have hwhole : w :: rest = rest' := Option.some.inj (hnotifying.symm.trans hrest)
          rw [← hwhole] at hw
          exact ⟨rest, Function.update_self .., List.mem_of_ne_of_mem hne' hw⟩
        · exact ⟨rest', (Function.update_of_ne hne ..).trans hrest, hw⟩

theorem Sound.step (h : s.Sound) (a : WaitAction O W) : (s.step a).Sound := by
  cases a with
  | set o => exact h.set o
  | reset o => exact h.reset o
  | beginNotify o => exact h.beginNotify o
  | callback o =>
      cases hnotifying : s.notifying o with
      | none => simpa only [WaitState.step, hnotifying] using h
      | some left =>
          cases left with
          | nil => simpa only [WaitState.step, hnotifying] using h
          | cons w rest =>
              simp only [WaitState.step, hnotifying]
              exact h.callNext hnotifying
  | endNotify o => exact h.endNotify o
  | start w objects timeout =>
      by_cases hidle : (s.call w).phase = .idle
      · rw [WaitState.step, if_pos hidle]
        refine h.withCall ?_ ?_ ?_ WaitPhase.noConfusion
        · simp only [WaitCall.registered, hidle, List.take_zero]
        · intro _
          exact Option.some_ne_none false
        · intro o ho
          exact absurd ho List.not_mem_nil
      · rwa [WaitState.step, if_neg hidle]
  | advance w => exact h.advance
  | wake w =>
      by_cases hasleep : (s.call w).phase = .asleep
      · rw [WaitState.step, if_pos hasleep]
        refine h.withPhase ?_ ?_ ?_ WaitPhase.noConfusion
        · simp only [WaitCall.registered, hasleep]
        · simp only [WaitCall.active, hasleep]
        · simp only [WaitCall.announced, hasleep, List.Subset.refl]
      · rwa [WaitState.step, if_neg hasleep]
  | timedOut w =>
      by_cases hasleep : (s.call w).phase = .asleep ∧ 0 < (s.call w).timeout
      · rw [WaitState.step, if_pos hasleep]
        refine h.withPhase ?_ ?_ ?_ WaitPhase.noConfusion
        · simp only [WaitCall.registered, hasleep.1, List.drop_zero]
        · simp only [WaitCall.active, hasleep.1]
        · exact List.nil_subset _
      · rwa [WaitState.step, if_neg hasleep]

theorem sound_initial (signalled : O → Bool) :
    (initial signalled : WaitState O W).Sound where
  watched _ _ := rfl
  held _ _ h := absurd h.symm (Option.some_ne_none _)
  owned _ h := absurd h Bool.false_ne_true
  heard _ _ h := absurd h List.not_mem_nil
  sleeping _ h := WaitPhase.noConfusion h
  safe := rfl

/-- A state that some interleaving leads to. -/
def Reachable (s : WaitState O W) : Prop :=
  ∃ signalled actions, s = run step (initial signalled) actions

theorem Reachable.sound (h : s.Reachable) : s.Sound := by
  obtain ⟨signalled, actions, rfl⟩ := h
  exact run_invariant step (fun _ a hsound => hsound.step a) (sound_initial signalled) actions

/-- A call sleeps on a signalled object only while a `Notify` of that object is to
come or has the watcher still ahead. -/
theorem no_lost_wakeup (hreachable : s.Reachable) (hasleep : (s.call w).phase = .asleep)
    (ho : o ∈ (s.call w).objects) (hsignalled : s.signalled o = true) : s.Coming o w := by
  have hsound : s.Sound := hreachable.sound
  have hheard := hsound.heard w o (by simpa only [WaitCall.announced, hasleep] using ho) hsignalled
  rcases hheard with hset | hcoming
  · rw [hsound.sleeping w hasleep] at hset
    exact absurd (Option.some.inj hset) Bool.false_ne_true
  · exact hcoming

/-- Object 0 is set while call 0 sleeps on it. -/
theorem no_lost_wakeup_after_set :
    (run step (initial fun _ => false : WaitState Nat Nat)
      [.start 0 [0] (-1), .advance 0, .advance 0, .advance 0, .advance 0, .set 0]).Coming 0 0 :=
  no_lost_wakeup ⟨_, _, rfl⟩ (by decide) (by decide) (by decide)

/-- No callback is given an event that does not exist, and no list or running `Notify`
still has a watcher of a call that has returned. -/
theorem no_callback_after_return (hreachable : s.Reachable) :
    s.dangling = false ∧ ∀ w, (s.call w).active = false → ∀ o, w ∉ s.watchers o ∧
      ∀ rest, s.notifying o = some rest → w ∉ rest := by
  have hsound : s.Sound := hreachable.sound
  refine ⟨hsound.safe, ?_⟩
  intro w hinactive o
  have hgone : w ∉ s.watchers o := by
    intro hmem
    exact absurd (hsound.active_of_mem_watchers hmem) (by rw [hinactive]; exact Bool.false_ne_true)
  refine ⟨hgone, ?_⟩
  intro rest hrest hmem
  exact hgone ((hsound.held o rest hrest).subset hmem)

/-- Call 0 returns at once while the `Notify` of its object is still to come. -/
theorem no_callback_after_return_at_once :
    let s : WaitState Nat Nat := run step (initial fun _ => false)
      [.set 0, .start 0 [0] 0, .advance 0, .advance 0, .advance 0, .advance 0, .advance 0,
        .advance 0, .advance 0, .advance 0, .advance 0, .beginNotify 0]
    s.dangling = false ∧ ∀ w, (s.call w).active = false → ∀ o, w ∉ s.watchers o ∧
      ∀ rest, s.notifying o = some rest → w ∉ rest :=
  no_callback_after_return ⟨_, _, rfl⟩

end WaitState

end OpenZWave
