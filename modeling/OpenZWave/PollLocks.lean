import OpenZWave.Lib.Checked
import OpenZWave.Polling

/-!
# The locks of polling

The functions of polling again, with the poll mutex and the node mutex, which one
thread may lock more than once. A lock guard releases the node mutex at the end
of its scope; the poll mutex is locked and unlocked by hand. The results are
those of the functions without the mutexes. Messages and the cache take and
release mutexes of their own; only the guard of `WriteCache` is kept.
-/

namespace OpenZWave

open Checked

/-- What must not happen: a mutex is unlocked that is not locked, the loop of
`DisablePoll` goes on from an erased entry, the front of an empty list is read. -/
inductive LockFault
  | notLocked
  | erasedIterator
  | emptyFront
  deriving DecidableEq

/-- The driver as a thread sees it that holds the mutexes so many times. -/
structure PollThread where
  driver : PollDriver
  pollMutex : Nat
  nodeMutex : Nat

/-- The waits of the poll thread after a request: for each of them, whether the
exit event is set. -/
structure ExitWaits where
  busy : List Bool
  interval : Bool

namespace PollThread

variable (t : PollThread)

/-- `m_pollMutex->Lock()`. -/
def lockPoll : PollThread := { t with pollMutex := t.pollMutex + 1 }

/-- `m_pollMutex->Unlock()`. -/
def unlockPoll : Except LockFault PollThread :=
  match t.pollMutex with
  | 0 => .error .notLocked
  | count + 1 => .ok { t with pollMutex := count }

/-- `~LockGuard`: only a mutex that is locked is unlocked. -/
def leaveGuard : PollThread :=
  match t.nodeMutex with
  | 0 => t
  | count + 1 => { t with nodeMutex := count }

/-- The scope of a `LockGuard` of the node mutex. -/
def guardNode {α : Type} (body : PollThread → Except LockFault (PollThread × α)) :
    Except LockFault (PollThread × α) := do
  let result ← body { t with nodeMutex := t.nodeMutex + 1 }
  pure (result.1.leaveGuard, result.2)

/-- `GetNode`: nothing is found unless the node mutex is locked. -/
def getNode (nodeId : UInt8) : Option (PollNode nodeId) :=
  if t.nodeMutex = 0 then none else t.driver.nodes nodeId

/-- `WriteCache`, as far as it locks. -/
def writeCache : Except LockFault PollThread := do
  let result ← t.guardNode fun t => pure (t, ())
  pure result.1

/-- `EnablePoll`. -/
def enablePoll (id : ValueID) (intensity : UInt8) : Except LockFault (PollThread × Bool) :=
  t.lockPoll.guardNode fun t =>
    match t.getNode id.nodeId with
    | none => do
        let t ← t.unlockPoll
        pure (t, false)
    | some node =>
        match node.store.getValue id with
        | none => do
            let t ← t.unlockPoll
            pure (t, false)
        | some _ =>
            let d := t.driver.setIntensity id intensity
            if d.lists id then do
              let t ← { t with driver := d }.unlockPoll
              pure (t, true)
            else do
              let d := { d with pollList := d.pollList ++ [{ id := id, pollCounter := intensity }] }
              let t ← { t with driver := d }.unlockPoll
              let d := { t.driver with notified := t.driver.notified ++ [.pollingEnabled id] }
              let t ← { t with driver := d }.writeCache
              pure (t, true)

/-- `DisablePoll`. -/
def disablePoll (id : ValueID) : Except LockFault (PollThread × Bool) :=
  t.lockPoll.guardNode fun t =>
    match t.getNode id.nodeId with
    | none => do
        let t ← t.unlockPoll
        pure (t, false)
    | some _ =>
        if t.driver.lists id then
          match (t.driver.unlist id).getValue id with
          | none => .error .erasedIterator
          | some _ => do
              let d := (t.driver.unlist id).setIntensity id 0
              let t ← { t with driver := d }.unlockPoll
              let d := { t.driver with notified := t.driver.notified ++ [.pollingDisabled id] }
              let t ← { t with driver := d }.writeCache
              pure (t, true)
        else do
          let t ← t.unlockPoll
          pure (t, false)

/-- The intensity of the value is not zero. -/
def bPolled (id : ValueID) : Bool :=
  match t.driver.getValue id with
  | none => false
  | some value => value.pollIntensity ≠ 0

/-- `isPolled`: list and intensity are compared, and only logged when they differ. -/
def isPolled (id : ValueID) : Except LockFault (PollThread × Bool) :=
  let t := t.lockPoll
  let bPolled := t.bPolled id
  t.guardNode fun t =>
    match t.getNode id.nodeId with
    | none => do
        let t ← t.unlockPoll
        pure (t, false)
    | some _ =>
        if t.driver.lists id ∧ bPolled = true then do
          let t ← t.unlockPoll
          pure (t, true)
        else do
          let t ← t.unlockPoll
          pure (t, false)

/-- `SetPollIntensity`: without the value it returns before it unlocks. -/
def setPollIntensity (id : ValueID) (intensity : UInt8) : Except LockFault (PollThread × Bool) :=
  let t := t.lockPoll
  match t.driver.getValue id with
  | none => pure (t, false)
  | some _ => do
      let t ← { t with driver := t.driver.setIntensity id intensity }.unlockPoll
      let t ← t.writeCache
      pure (t, true)

/-- The entry goes back to the end of the list, unless its value is missing. -/
def takeAgain (entry : PollEntry) (t : PollThread) : Except LockFault (PollThread × Bool) :=
  match t.driver.getValue entry.id with
  | none => pure (t, false)
  | some value =>
      let again := { entry with pollCounter := value.pollIntensity }
      let d := { t.driver with pollList := t.driver.pollList ++ [again] }
      pure ({ t with driver := d }, true)

/-- What an entry asks for when its turn has come: the request for its value, and
the waits after it. -/
def request (id : ValueID) (waits : ExitWaits) : Except LockFault (PollThread × Bool) := do
  let requested ← t.guardNode fun t =>
    match t.getNode id.nodeId with
    | none => pure (t, ())
    | some _ => pure ({ t with driver := t.driver.requestPolled id }, ())
  let t ← requested.1.unlockPoll
  pure (t, !(waits.busy.contains true || waits.interval))

/-- One iteration of `PollThreadProc`, and whether another one follows. The list is
tested before the poll mutex is locked: `seen` is the driver at that time. -/
def pollIteration (seen : PollDriver) (waits : ExitWaits) :
    Except LockFault (PollThread × Bool) :=
  if seen.awakeNodesQueried ∧ seen.pollList ≠ [] then
    let t := t.lockPoll
    match t.driver.pollList with
    | [] => .error .emptyFront
    | entry :: rest =>
        if entry.pollCounter ≠ 1 then do
          let d := { t.driver with
            pollList := rest ++ [{ entry with pollCounter := entry.pollCounter - 1 }] }
          let t ← { t with driver := d }.unlockPoll
          pure (t, true)
        else do
          let taken ← { t with driver := { t.driver with pollList := rest } }.guardNode
            (takeAgain entry)
          if taken.2 then taken.1.request entry.id waits else pure (taken.1, true)
  else pure (t, !waits.interval)

/-! ## What each function does to the driver and to the mutexes -/

section

variable (id : ValueID)

/-- The node mutex is as before after the scope of a guard whose body leaves it alone. -/
theorem guardNode_eq {α : Type} {body : PollThread → Except LockFault (PollThread × α)}
    {t t' : PollThread} {a : α}
    (hbody : body { t with nodeMutex := t.nodeMutex + 1 } =
      .ok ({ t' with nodeMutex := t.nodeMutex + 1 }, a))
    (hsame : t'.nodeMutex = t.nodeMutex) : t.guardNode body = .ok (t', a) := by
  rw [guardNode, hbody, ok_bind, leaveGuard]
  dsimp only
  rw [← hsame]
  rfl

theorem guardNode_eq_error {α : Type} {body : PollThread → Except LockFault (PollThread × α)}
    {t : PollThread} {fault : LockFault}
    (hbody : body { t with nodeMutex := t.nodeMutex + 1 } = .error fault) :
    t.guardNode body = .error fault := by
  rw [guardNode, hbody]
  rfl

@[simp] theorem getNode_guarded (d : PollDriver) (poll node : Nat) (nodeId : UInt8) :
    getNode { driver := d, pollMutex := poll, nodeMutex := node + 1 } nodeId = d.nodes nodeId :=
  if_neg (Nat.succ_ne_zero node)

@[simp] theorem unlockPoll_locked (d : PollDriver) (poll node : Nat) :
    unlockPoll { driver := d, pollMutex := poll + 1, nodeMutex := node } =
      .ok { driver := d, pollMutex := poll, nodeMutex := node } := rfl

theorem writeCache_eq : t.writeCache = .ok t := rfl

theorem enablePoll_eq (intensity : UInt8) :
    t.enablePoll id intensity =
      .ok ({ t with driver := (t.driver.enablePoll id intensity).1 },
        (t.driver.enablePoll id intensity).2) := by
  refine guardNode_eq ?_ rfl
  simp only [lockPoll, getNode_guarded, unlockPoll_locked]
  rw [PollDriver.enablePoll]
  cases hnode : t.driver.nodes id.nodeId with
  | none =>
      rw [PollDriver.getValue_of_nodes_eq_none hnode rfl]
      rfl
  | some node =>
      rw [PollDriver.getValue_of_nodes_eq hnode rfl]
      dsimp only
      cases node.store.getValue id with
      | none => rfl
      | some value =>
          dsimp only
          by_cases hlists : (t.driver.setIntensity id intensity).lists id = true
          · rw [if_pos hlists]
            exact (if_pos hlists).trans rfl
          · rw [if_neg hlists]
            exact (if_neg hlists).trans rfl

theorem disablePoll_eq :
    t.disablePoll id =
      match t.driver.disablePoll id with
      | .error _ => .error .erasedIterator
      | .ok result => .ok ({ t with driver := result.1 }, result.2) := by
  rw [PollDriver.disablePoll]
  cases hnode : t.driver.nodes id.nodeId with
  | none =>
      refine guardNode_eq ?_ rfl
      simp only [lockPoll, getNode_guarded, unlockPoll_locked, hnode]
      rfl
  | some node =>
      by_cases hlists : t.driver.lists id = true
      · dsimp only
        rw [if_pos hlists]
        cases hvalue : (t.driver.unlist id).getValue id with
        | none =>
            apply guardNode_eq_error
            simp only [lockPoll, getNode_guarded, hnode, hlists, if_true, hvalue]
        | some value =>
            refine guardNode_eq ?_ rfl
            simp only [lockPoll, getNode_guarded, unlockPoll_locked, hnode, hlists, if_true, hvalue]
            rfl
      · dsimp only
        rw [if_neg hlists]
        refine guardNode_eq ?_ rfl
        simp only [lockPoll, getNode_guarded, unlockPoll_locked, hnode]
        exact if_neg hlists

theorem isPolled_eq : t.isPolled id = .ok (t, t.driver.isPolled id) := by
  have hresult : t.driver.isPolled id = (t.driver.lists id && t.bPolled id) := by
    rw [PollDriver.isPolled, bPolled]
    cases t.driver.getValue id with
    | none => rw [Bool.and_false]
    | some value => simp [Bool.and_comm]
  rw [isPolled]
  refine guardNode_eq ?_ rfl
  simp only [lockPoll, getNode_guarded, unlockPoll_locked]
  cases hnode : t.driver.nodes id.nodeId with
  | none =>
      have hnone : t.bPolled id = false := by
        rw [bPolled, PollDriver.getValue_of_nodes_eq_none hnode rfl]
      rw [hresult, hnone, Bool.and_false]
      rfl
  | some node =>
      by_cases hpolled : t.driver.lists id = true ∧ t.bPolled id = true
      · have htrue : t.driver.isPolled id = true := hresult.trans (Bool.and_eq_true_iff.mpr hpolled)
        rw [htrue]
        exact (if_pos hpolled).trans rfl
      · have hfalse : t.driver.isPolled id = false := by
          rw [hresult, Bool.eq_false_iff, Ne, Bool.and_eq_true_iff]
          exact hpolled
        rw [hfalse]
        exact (if_neg hpolled).trans rfl

theorem setPollIntensity_eq (intensity : UInt8) :
    t.setPollIntensity id intensity =
      match t.driver.getValue id with
      | none => .ok (t.lockPoll, false)
      | some _ => .ok ({ t with driver := t.driver.setPollIntensity id intensity }, true) := by
  rw [setPollIntensity, PollDriver.setPollIntensity]
  dsimp only [lockPoll]
  cases t.driver.getValue id with
  | none => rfl
  | some value =>
      dsimp only
      rw [unlockPoll_locked, ok_bind, writeCache_eq]
      rfl

end

/-- The request, with the poll mutex locked. -/
theorem request_eq (id : ValueID) (waits : ExitWaits) (d : PollDriver) (poll node : Nat) :
    request { driver := d, pollMutex := poll + 1, nodeMutex := node } id waits =
      .ok ({ driver := d.requestPolled id, pollMutex := poll, nodeMutex := node },
        !(waits.busy.contains true || waits.interval)) := by
  have hrequested : guardNode { driver := d, pollMutex := poll + 1, nodeMutex := node } (fun t =>
      match t.getNode id.nodeId with
      | none => pure (t, ())
      | some _ => pure ({ t with driver := t.driver.requestPolled id }, ())) =
        .ok ({ driver := d.requestPolled id, pollMutex := poll + 1, nodeMutex := node }, ()) := by
    refine guardNode_eq ?_ rfl
    simp only [getNode_guarded]
    cases hnode : d.nodes id.nodeId with
    | none =>
        rw [PollDriver.requestPolled, hnode]
        rfl
    | some _ => rfl
  rw [request, hrequested, ok_bind, unlockPoll_locked]
  rfl

/-- An iteration that finds an entry does what it does without the mutexes. It
leaves the poll mutex locked when the value of the entry is missing. -/
theorem pollIteration_eq {seen : PollDriver} (waits : ExitWaits) {entry : PollEntry}
    {rest : List PollEntry} (hseen : seen.awakeNodesQueried = true ∧ seen.pollList ≠ [])
    (hlist : t.driver.pollList = entry :: rest) :
    ∃ d more, t.pollIteration seen waits =
        .ok ({ (if entry.pollCounter = 1 ∧ t.driver.getValue entry.id = none then t.lockPoll
          else t) with driver := d }, more) ∧
      (t.driver.awakeNodesQueried = true → d = t.driver.pollPass) := by
  rw [pollIteration, if_pos hseen, PollDriver.pollPass]
  simp only [lockPoll, hlist]
  by_cases hcounter : entry.pollCounter = 1
  · rw [if_neg (not_not.mpr hcounter), if_neg (not_not.mpr hcounter)]
    have hrest : { t.driver with pollList := rest }.getValue entry.id =
        t.driver.getValue entry.id := rfl
    cases hvalue : t.driver.getValue entry.id with
    | none =>
        rw [if_pos ⟨hcounter, rfl⟩]
        refine ⟨{ t.driver with pollList := rest }, true, ?_, fun hawake => (if_pos hawake).symm⟩
        have htaken : guardNode { t with
            driver := { t.driver with pollList := rest }, pollMutex := t.pollMutex + 1 }
            (takeAgain entry) = .ok ({ t with
              driver := { t.driver with pollList := rest }, pollMutex := t.pollMutex + 1 },
                false) := by
          refine guardNode_eq ?_ rfl
          dsimp only [takeAgain]
          rw [hrest, hvalue]
          rfl
        rw [htaken]
        rfl
    | some value =>
        rw [if_neg fun h => absurd h.2 (Option.some_ne_none value)]
        refine ⟨_, !(waits.busy.contains true || waits.interval), ?_,
          fun hawake => (if_pos hawake).symm⟩
        have htaken : guardNode { t with
            driver := { t.driver with pollList := rest }, pollMutex := t.pollMutex + 1 }
            (takeAgain entry) = .ok ({ t with
              driver := { t.driver with
                pollList := rest ++ [{ entry with pollCounter := value.pollIntensity }] }
              pollMutex := t.pollMutex + 1 }, true) := by
          refine guardNode_eq ?_ rfl
          dsimp only [takeAgain]
          rw [hrest, hvalue]
          rfl
        rw [htaken, ok_bind]
        exact request_eq entry.id waits _ t.pollMutex t.nodeMutex
  · rw [if_pos hcounter, if_pos hcounter, if_neg fun h => hcounter h.1]
    exact ⟨_, true, rfl, fun hawake => (if_pos hawake).symm⟩

/-! ## Every mutex that is locked is unlocked -/

/-- The functions of polling, as a thread calls them. -/
inductive PollCall
  | enablePoll (id : ValueID) (intensity : UInt8)
  | disablePoll (id : ValueID)
  | isPolled (id : ValueID)
  | setPollIntensity (id : ValueID) (intensity : UInt8)
  | pollIteration (seen : PollDriver) (waits : ExitWaits)

/-- One call. -/
def call : PollCall → Except LockFault (PollThread × Bool)
  | .enablePoll id intensity => t.enablePoll id intensity
  | .disablePoll id => t.disablePoll id
  | .isPolled id => t.isPolled id
  | .setPollIntensity id intensity => t.setPollIntensity id intensity
  | .pollIteration seen waits => t.pollIteration seen waits

/-- The call comes to an end, and both mutexes are locked as often as before. -/
def Balanced (c : PollCall) : Prop :=
  Yields (t.call c) fun result =>
    result.1.pollMutex = t.pollMutex ∧ result.1.nodeMutex = t.nodeMutex

/-- The call does not come upon a value that is missing, and an iteration that has
seen an entry in the list finds one when it has locked the mutex. -/
def FindsValue : PollCall → Prop
  | .enablePoll _ _ => True
  | .disablePoll id =>
      (t.driver.nodes id.nodeId).isSome = true → t.driver.lists id = true →
        ((t.driver.unlist id).getValue id).isSome = true
  | .isPolled _ => True
  | .setPollIntensity id _ => (t.driver.getValue id).isSome = true
  | .pollIteration seen _ =>
      seen.awakeNodesQueried = true → seen.pollList ≠ [] →
        ∃ entry rest, t.driver.pollList = entry :: rest ∧
          (entry.pollCounter = 1 → (t.driver.getValue entry.id).isSome = true)

theorem balanced_disablePoll_iff (id : ValueID) :
    t.Balanced (.disablePoll id) ↔ t.FindsValue (.disablePoll id) := by
  rw [Balanced, call, disablePoll_eq, PollDriver.disablePoll, FindsValue]
  cases t.driver.nodes id.nodeId with
  | none => simp
  | some node =>
      by_cases hlists : t.driver.lists id = true
      · cases (t.driver.unlist id).getValue id with
        | none => simp [hlists, Yields]
        | some value => simp [hlists]
      · simp [hlists]

theorem balanced_setPollIntensity_iff (id : ValueID) (intensity : UInt8) :
    t.Balanced (.setPollIntensity id intensity) ↔
      t.FindsValue (.setPollIntensity id intensity) := by
  rw [Balanced, call, setPollIntensity_eq, FindsValue]
  cases t.driver.getValue id with
  | none => simp [lockPoll]
  | some value => simp

theorem balanced_pollIteration_iff (seen : PollDriver) (waits : ExitWaits) :
    t.Balanced (.pollIteration seen waits) ↔ t.FindsValue (.pollIteration seen waits) := by
  rw [Balanced, call, FindsValue]
  by_cases hseen : seen.awakeNodesQueried = true ∧ seen.pollList ≠ []
  · rw [forall_prop_of_true hseen.1, forall_prop_of_true hseen.2]
    cases hlist : t.driver.pollList with
    | nil => simp [pollIteration, hseen, lockPoll, hlist, Yields]
    | cons entry rest =>
        obtain ⟨d, more, hiteration, -⟩ := t.pollIteration_eq waits hseen hlist
        rw [hiteration, yields_ok]
        by_cases hmissing : entry.pollCounter = 1 ∧ t.driver.getValue entry.id = none
        · rw [if_pos hmissing]
          simp [lockPoll, hmissing]
        · rw [if_neg hmissing]
          refine iff_of_true ⟨rfl, rfl⟩ ⟨entry, rest, rfl, fun hcounter => ?_⟩
          rw [Option.isSome_iff_ne_none]
          exact fun hnone => hmissing ⟨hcounter, hnone⟩
  · rw [pollIteration, if_neg hseen]
    refine iff_of_true ?_ fun hawake hlist => absurd ⟨hawake, hlist⟩ hseen
    exact yields_pure.mpr ⟨rfl, rfl⟩

/-- A call releases the mutexes as often as it acquires them exactly if it does not
come upon a value that is missing, or upon a list that has become empty. -/
theorem balanced_iff (c : PollCall) : t.Balanced c ↔ t.FindsValue c := by
  cases c with
  | enablePoll id intensity =>
      refine iff_of_true ?_ trivial
      rw [Balanced, call, enablePoll_eq, yields_ok]
      exact ⟨rfl, rfl⟩
  | disablePoll id => exact t.balanced_disablePoll_iff id
  | isPolled id =>
      refine iff_of_true ?_ trivial
      rw [Balanced, call, isPolled_eq, yields_ok]
      exact ⟨rfl, rfl⟩
  | setPollIntensity id intensity => exact t.balanced_setPollIntensity_iff id intensity
  | pollIteration seen waits => exact t.balanced_pollIteration_iff seen waits

/-- `SetPollIntensity` for a value that does not exist keeps the poll mutex. -/
theorem setPollIntensity_not_balanced :
    ¬ ∀ (t : PollThread) (c : PollCall), t.Balanced c := by
  intro hbalanced
  let id : ValueID := {
    nodeId := 5, genre := 1, commandClassId := 0x26, instanceId := 1, index := 0, type := 1 }
  let t : PollThread := {
    driver := {
      nodes := fun _ => none, pollList := [], awakeNodesQueried := true, notified := []
      requested := [] }
    pollMutex := 0, nodeMutex := 0 }
  obtain ⟨result, hresult, hpoll, -⟩ := hbalanced t (.setPollIntensity id 1)
  cases hresult
  exact absurd hpoll (by decide)

end PollThread

end OpenZWave
