import Mathlib.Data.Int.Order.Basic
import OpenZWave.Lib.Transition
import Mathlib.Logic.Function.Basic

/-!
# Central scene events

A frame of a scene sets the value of the scene, and a timer sets it back. A frame that is
sent again is recognized by its sequence number. The timers are found by the number of the
scene, and `m_TimersSet` says on which instance its value is. The log, newest entry first,
records what is observable of a run: it is compared with what should have happened.
-/

namespace OpenZWave

open Transition

/-- A `TimerEventEntry` of the class: its id and its timestamp. -/
structure SceneTimer where
  id : UInt32
  due : ℤ
  deriving DecidableEq

/-- What is observed of a run: a frame, and whether it was dropped; a value that is set by
an event, or set back to inactive; and a pass of the timer thread over its list. -/
inductive SceneEntry
  | frame (sequence : UInt8) (processed : Bool)
  | set (inst : UInt8) (sceneID : UInt32) (item : UInt8) (time timeout : ℤ)
  | cleared (inst : UInt8) (sceneID : UInt32) (time : ℤ)
  | pass (time : ℤ)

/-- The members of the class, its timers in the order of the list, the values that exist,
by instance and index, and the time in milliseconds. -/
structure CentralScene where
  sequence : UInt8
  timersSet : UInt32 → Option UInt32
  clearTimeout : Int32
  timers : List SceneTimer
  hasValue : UInt8 → UInt16 → Bool
  now : ℤ
  log : List SceneEntry

/-- The events of a run. -/
inductive SceneEvent
  | frame (inst : UInt32) (sequence keyAttributes scene : UInt8)
  | elapse (milliseconds : ℕ)
  | pass
  | setTimeout (milliseconds : Int32)

namespace CentralScene

/-- The constructor. -/
def new (hasValue : UInt8 → UInt16 → Bool) : CentralScene where
  sequence := 0
  timersSet := fun _ => none
  clearTimeout := 1000
  timers := []
  hasValue := hasValue
  now := 0
  log := []

variable (s : CentralScene)

def write (entry : SceneEntry) : CentralScene := { s with log := entry :: s.log }

/-- `TimerDelEvent`: the first timer of the id. -/
def timerDelEvent (id : UInt32) : CentralScene :=
  { s with timers := s.timers.eraseP fun te => te.id = id }

/-- `TimerSetEvent`. -/
def timerSetEvent (milliseconds : Int32) (id : UInt32) : CentralScene :=
  { s with timers := s.timers ++ [{ id := id, due := s.now + milliseconds.toInt }] }

/-- The value of the scene is set, and its timer. An instance is stored with the first event
only: `m_TimersSet` keeps the one that it has. -/
def setScene (inst : UInt32) (keyAttributes scene : UInt8) : CentralScene :=
  let keyAttribute := keyAttributes &&& 0x07
  let sceneID := scene.toUInt32
  let s := s.write (.set inst.toUInt8 sceneID (keyAttribute + 1) s.now s.clearTimeout.toInt)
  let s :=
    if s.timersSet sceneID = none then
      { s with timersSet := Function.update s.timersSet sceneID (some inst) }
    else s.timerDelEvent sceneID
  s.timerSetEvent s.clearTimeout sceneID

/-- `HandleMsg` for a `CentralSceneCmd_Set`. -/
def handleMsg (inst : UInt32) (sequence keyAttributes scene : UInt8) : CentralScene × Bool :=
  if s.sequence = sequence then (s.write (.frame sequence false), true)
  else
    let s := { s with sequence := sequence }.write (.frame sequence true)
    if s.hasValue inst.toUInt8 scene.toUInt16 then (s.setScene inst keyAttributes scene, true)
    else (s, false)

/-- `ClearScene`. -/
def clearScene (sceneID : UInt32) : CentralScene :=
  match s.timersSet sceneID with
  | none => s
  | some inst =>
      let s :=
        if s.hasValue inst.toUInt8 sceneID.toUInt16 then
          s.write (.cleared inst.toUInt8 sceneID s.now)
        else s
      { s with timersSet := Function.update s.timersSet sceneID none }

/-- `TimerFireEvent`. -/
def timerFireEvent (te : SceneTimer) : CentralScene :=
  let s := s.clearScene te.id
  { s with timers := s.timers.erase te }

/-- An entry of the list, when the thread comes to it. -/
def visit (te : SceneTimer) : CentralScene :=
  if te.due ≤ s.now then s.timerFireEvent te else s

/-- The thread goes through the list. -/
def pass : CentralScene := s.timers.foldl visit (s.write (.pass s.now))

def step : SceneEvent → CentralScene
  | .frame inst sequence keyAttributes scene => (s.handleMsg inst sequence keyAttributes scene).1
  | .elapse milliseconds => { s with now := s.now + milliseconds }
  | .pass => s.pass
  | .setTimeout milliseconds => { s with clearTimeout := milliseconds }

end CentralScene

/-! ## What should have happened -/

/-- The frames of a log and whether they were processed. -/
def sceneFrames : List SceneEntry → List (UInt8 × Bool) :=
  List.filterMap fun | .frame sequence processed => some (sequence, processed) | _ => none

/-- A frame is processed exactly if the frame before it has another sequence number, or
there is none. -/
def Deduplicated : List (UInt8 × Bool) → Prop
  | [] => True
  | (sequence, processed) :: past =>
      (processed = true ↔ past.head?.map Prod.fst ≠ some sequence) ∧ Deduplicated past

/-- What a log tells of a scene: the instance of its latest event and the time at which it
is due, the first pass from then on, and where and when it was set back since the event. -/
structure SceneOutcome where
  latest : Option (UInt8 × ℤ)
  passed : Option ℤ
  cleared : List (UInt8 × ℤ)

/-- A pass that finds the latest event due. -/
def SceneOutcome.pass (o : SceneOutcome) (time : ℤ) : SceneOutcome :=
  match o.latest, o.passed with
  | some (_, due), none => if due ≤ time then { o with passed := some time } else o
  | _, _ => o

def sceneOutcome (sceneID : UInt32) : List SceneEntry → SceneOutcome
  | [] => { latest := none, passed := none, cleared := [] }
  | .frame _ _ :: log => sceneOutcome sceneID log
  | .set inst id _ time timeout :: log =>
      if id = sceneID then { latest := some (inst, time + timeout), passed := none, cleared := [] }
      else sceneOutcome sceneID log
  | .cleared inst id time :: log =>
      let o := sceneOutcome sceneID log
      if id = sceneID then { o with cleared := o.cleared ++ [(inst, time)] } else o
  | .pass time :: log => (sceneOutcome sceneID log).pass time

/-- A scene is set back once after its latest event, on the instance of that event, by the
first pass of the thread that finds it due. -/
def SceneOutcome.SetBack (o : SceneOutcome) : Prop :=
  o.cleared = match o.latest, o.passed with
    | some (inst, _), some time => [(inst, time)]
    | _, _ => []

namespace CentralScene

/-- Duplicates are recognized, and every scene is set back. -/
structure Proper (s : CentralScene) : Prop where
  deduplicated : Deduplicated (sceneFrames s.log)
  setBack : ∀ sceneID, (sceneOutcome sceneID s.log).SetBack

/-- The first frame does not have the sequence number zero, and an event comes on the
instance of the timer that is pending for its scene. -/
def Spares (s : CentralScene) : SceneEvent → Prop
  | .frame inst sequence _ scene =>
      (sceneFrames s.log = [] → sequence ≠ 0) ∧
      (s.sequence ≠ sequence → s.hasValue inst.toUInt8 scene.toUInt16 = true →
        ∀ other, s.timersSet scene.toUInt32 = some other → other.toUInt8 = inst.toUInt8)
  | _ => True

/-! ## One scene -/

/-- What a state holds of a scene. -/
structure View where
  stored : Option UInt32
  timers : List SceneTimer
  outcome : SceneOutcome

def view (s : CentralScene) (sceneID : UInt32) : View where
  stored := s.timersSet sceneID
  timers := s.timers.filter fun te => te.id = sceneID
  outcome := sceneOutcome sceneID s.log

/-- A scene without a timer: it was set back, or it had no event. -/
structure View.Idle (v : View) : Prop where
  stored : v.stored = none
  timers : v.timers = []
  setBack : v.outcome.SetBack
  finished : v.outcome.latest = none ∨ v.outcome.passed ≠ none

/-- A scene whose timer is pending, for the latest event and on its instance. -/
structure View.Pending (v : View) (hasValue : UInt8 → UInt16 → Bool) (sceneID inst : UInt32)
    (due : ℤ) : Prop where
  stored : v.stored = some inst
  timers : v.timers = [{ id := sceneID, due := due }]
  latest : v.outcome.latest = some (inst.toUInt8, due)
  passed : v.outcome.passed = none
  cleared : v.outcome.cleared = []
  known : hasValue inst.toUInt8 sceneID.toUInt16 = true

def Tracked (s : CentralScene) (sceneID : UInt32) : Prop :=
  (s.view sceneID).Idle ∨ ∃ inst due, (s.view sceneID).Pending s.hasValue sceneID inst due

theorem View.Pending.setBack {v : View} {hasValue : UInt8 → UInt16 → Bool}
    {sceneID inst : UInt32} {due : ℤ} (h : v.Pending hasValue sceneID inst due) :
    v.outcome.SetBack := by
  rw [SceneOutcome.SetBack, h.latest, h.passed]
  exact h.cleared

theorem Tracked.setBack {s : CentralScene} {sceneID : UInt32} (h : s.Tracked sceneID) :
    (sceneOutcome sceneID s.log).SetBack := by
  obtain hidle | ⟨inst, due, hpending⟩ := h
  · exact hidle.setBack
  · exact hpending.setBack

/-! ## The thread -/

/-- What the thread leaves as it is. -/
structure Kept (s s' : CentralScene) : Prop where
  sequence : s'.sequence = s.sequence
  hasValue : s'.hasValue = s.hasValue
  now : s'.now = s.now
  frames : sceneFrames s'.log = sceneFrames s.log

theorem Kept.refl (s : CentralScene) : Kept s s := ⟨rfl, rfl, rfl, rfl⟩

theorem Kept.trans {s s' s'' : CentralScene} (h : Kept s s') (h' : Kept s' s'') : Kept s s'' :=
  ⟨h'.sequence.trans h.sequence, h'.hasValue.trans h.hasValue, h'.now.trans h.now,
    h'.frames.trans h.frames⟩

variable {s : CentralScene} {te : SceneTimer} {sceneID inst : UInt32} {due : ℤ}

theorem kept_visit (s : CentralScene) (te : SceneTimer) : Kept s (s.visit te) := by
  rw [visit]
  split
  · rw [timerFireEvent, clearScene]
    cases s.timersSet te.id with
    | none => exact ⟨rfl, rfl, rfl, rfl⟩
    | some inst =>
        dsimp only
        split <;> exact ⟨rfl, rfl, rfl, rfl⟩
  · exact .refl s

theorem kept_foldl (s : CentralScene) (timers : List SceneTimer) :
    Kept s (timers.foldl visit s) := by
  induction timers generalizing s with
  | nil => exact .refl s
  | cons te timers ih => exact (kept_visit s te).trans (ih _)

theorem filter_erase_of_ne (timers : List SceneTimer) (hne : te.id ≠ sceneID) :
    (timers.erase te).filter (fun te => te.id = sceneID) =
      timers.filter fun te => te.id = sceneID := by
  rw [← List.erase_filter]
  apply List.erase_of_not_mem
  exact fun hmem => hne (by simpa using (List.mem_filter.mp hmem).2)

theorem outcome_cleared_of_ne {id : UInt32} (hne : id ≠ sceneID) (inst : UInt8) (time : ℤ)
    (log : List SceneEntry) :
    sceneOutcome sceneID (.cleared inst id time :: log) = sceneOutcome sceneID log := if_neg hne

theorem view_clearScene_of_ne {id : UInt32} (hne : id ≠ sceneID) :
    (s.clearScene id).view sceneID = s.view sceneID := by
  have hupdate : Function.update s.timersSet id none sceneID = s.timersSet sceneID :=
    Function.update_of_ne (Ne.symm hne) _ _
  rw [clearScene]
  cases s.timersSet id with
  | none => rfl
  | some inst =>
      dsimp only
      split
      · have houtcome := outcome_cleared_of_ne hne inst.toUInt8 s.now s.log
        simp only [view, write, hupdate, houtcome]
      · simp only [view, hupdate]

/-- A timer of another scene. -/
theorem view_visit_of_ne (hne : te.id ≠ sceneID) : (s.visit te).view sceneID = s.view sceneID := by
  rw [visit]
  split
  · have hview := @view_clearScene_of_ne s sceneID te.id hne
    have htimers := filter_erase_of_ne (s.clearScene te.id).timers hne
    rw [← hview]
    simp only [timerFireEvent, view, htimers]
  · rfl

theorem view_foldl_of_ne {timers : List SceneTimer} (hne : ∀ te ∈ timers, te.id ≠ sceneID) :
    (timers.foldl visit s).view sceneID = s.view sceneID := by
  induction timers generalizing s with
  | nil => rfl
  | cons te timers ih =>
      obtain ⟨hfirst, hrest⟩ := List.forall_mem_cons.mp hne
      rw [List.foldl_cons, ih hrest, view_visit_of_ne hfirst]

/-- The timer of a scene is due, and sets it back. -/
theorem idle_visit (hinst : s.timersSet sceneID = some inst)
    (htimers : s.timers.filter (fun te => te.id = sceneID) = [{ id := sceneID, due := due }])
    (hlatest : (sceneOutcome sceneID s.log).latest = some (inst.toUInt8, due))
    (hpassed : (sceneOutcome sceneID s.log).passed = some s.now)
    (hcleared : (sceneOutcome sceneID s.log).cleared = [])
    (hvalue : s.hasValue inst.toUInt8 sceneID.toUInt16 = true) (hdue : due ≤ s.now) :
    ((s.visit { id := sceneID, due := due }).view sceneID).Idle := by
  have hcleared' : sceneOutcome sceneID (.cleared inst.toUInt8 sceneID s.now :: s.log) =
      { sceneOutcome sceneID s.log with cleared := [(inst.toUInt8, s.now)] } := by
    rw [sceneOutcome, if_pos rfl, hcleared]
    rfl
  have hleft : (s.timers.erase { id := sceneID, due := due }).filter (fun te => te.id = sceneID) =
      [] := by
    rw [← List.erase_filter, htimers, List.erase_cons_head]
  rw [visit, if_pos hdue, timerFireEvent, clearScene, hinst]
  dsimp only
  rw [if_pos hvalue]
  refine ⟨Function.update_self .., hleft, ?_, ?_⟩
  · change SceneOutcome.SetBack (sceneOutcome sceneID (.cleared inst.toUInt8 sceneID s.now :: s.log))
    rw [hcleared', SceneOutcome.SetBack]
    dsimp only
    rw [hlatest, hpassed]
  · change (sceneOutcome sceneID (.cleared inst.toUInt8 sceneID s.now :: s.log)).latest = none ∨
      (sceneOutcome sceneID (.cleared inst.toUInt8 sceneID s.now :: s.log)).passed ≠ none
    rw [hcleared']
    exact .inr (by rw [hpassed]; nofun)

theorem SceneOutcome.pass_of_idle {o : SceneOutcome} (h : o.latest = none ∨ o.passed ≠ none)
    (time : ℤ) : o.pass time = o := by
  rw [SceneOutcome.pass]
  split
  · rename_i hlatest hpassed
    obtain hnone | hsome := h
    · cases hlatest.symm.trans hnone
    · exact absurd hpassed hsome
  · rfl

theorem SceneOutcome.pass_of_pending {o : SceneOutcome} {inst : UInt8}
    (hlatest : o.latest = some (inst, due)) (hpassed : o.passed = none) (time : ℤ) :
    o.pass time = if due ≤ time then { o with passed := some time } else o := by
  rw [SceneOutcome.pass, hlatest, hpassed]

/-- The thread comes to the timer of a scene, past those of others. -/
theorem view_pass_of_pending (h : (s.view sceneID).Pending s.hasValue sceneID inst due) :
    ∃ s', Kept s s' ∧ s'.view sceneID = (s.write (.pass s.now)).view sceneID ∧
      s.pass.view sceneID = (s'.visit { id := sceneID, due := due }).view sceneID := by
  obtain ⟨before, after, hsplit, hbefore, -, hafter⟩ := List.filter_eq_cons_iff.mp h.timers
  have hbefore : ∀ te ∈ before, te.id ≠ sceneID := fun te hte => by simpa using hbefore te hte
  have hafter : ∀ te ∈ after, te.id ≠ sceneID := fun te hte => by
    simpa using List.filter_eq_nil_iff.mp hafter te hte
  refine ⟨before.foldl visit (s.write (.pass s.now)), ?_, view_foldl_of_ne hbefore, ?_⟩
  · have hwrite : Kept s (s.write (.pass s.now)) := ⟨rfl, rfl, rfl, rfl⟩
    exact hwrite.trans (kept_foldl _ _)
  · rw [pass, hsplit, List.foldl_append, List.foldl_cons, view_foldl_of_ne hafter]

/-- A pass of the thread. -/
theorem Tracked.pass (h : s.Tracked sceneID) : s.pass.Tracked sceneID := by
  have hkept : Kept (s.write (.pass s.now)) s.pass := kept_foldl _ _
  obtain hidle | ⟨inst, due, hpending⟩ := h
  · left
    have hne : ∀ te ∈ s.timers, te.id ≠ sceneID := by
      intro te hte heq
      have hmem : te ∈ s.timers.filter fun te => te.id = sceneID :=
        List.mem_filter.mpr ⟨hte, decide_eq_true heq⟩
      rw [show s.timers.filter (fun te => te.id = sceneID) = [] from hidle.timers] at hmem
      cases hmem
    have hview : (s.write (.pass s.now)).view sceneID = s.view sceneID :=
      congrArg (View.mk _ _) (SceneOutcome.pass_of_idle hidle.finished s.now)
    rw [CentralScene.pass, view_foldl_of_ne hne, hview]
    exact hidle
  · obtain ⟨s', hkept', hview, hpass⟩ := view_pass_of_pending hpending
    have houtcome := SceneOutcome.pass_of_pending hpending.latest hpending.passed s.now
    have htimers : s'.timers.filter (fun te => te.id = sceneID) =
        [{ id := sceneID, due := due }] := (congrArg View.timers hview).trans hpending.timers
    have hstored : s'.timersSet sceneID = some inst :=
      (congrArg View.stored hview).trans hpending.stored
    have hlog : sceneOutcome sceneID s'.log = (s.view sceneID).outcome.pass s.now :=
      congrArg View.outcome hview
    by_cases hdue : due ≤ s.now
    · left
      rw [if_pos hdue] at houtcome
      rw [houtcome] at hlog
      rw [hpass]
      apply idle_visit hstored htimers
      · rw [hlog]
        exact hpending.latest
      · rw [hlog, hkept'.now]
      · rw [hlog]
        exact hpending.cleared
      · rw [hkept'.hasValue]
        exact hpending.known
      · rw [hkept'.now]
        exact hdue
    · right
      rw [if_neg hdue] at houtcome
      have hsame : s.pass.view sceneID = s.view sceneID := by
        rw [hpass, visit, if_neg (by rw [hkept'.now]; exact hdue), hview]
        exact congrArg (View.mk _ _) houtcome
      have hvalues : s.pass.hasValue = s.hasValue := hkept.hasValue
      rw [hsame, hvalues]
      exact ⟨inst, due, hpending⟩

/-! ## A frame -/

theorem filter_eraseP_of_ne {id : UInt32} (hne : id ≠ sceneID) (timers : List SceneTimer) :
    (timers.eraseP fun te => te.id = id).filter (fun te => te.id = sceneID) =
      timers.filter fun te => te.id = sceneID := by
  induction timers with
  | nil => rfl
  | cons te timers ih =>
      by_cases hte : te.id = id
      · have hother : te.id ≠ sceneID := fun h => hne (hte.symm.trans h)
        rw [List.eraseP_cons_of_pos (by simpa using hte), List.filter_cons, if_neg (by simpa using hother)]
      · rw [List.eraseP_cons_of_neg (by simpa using hte), List.filter_cons, List.filter_cons, ih]

/-- The only timer of a scene is deleted. -/
theorem filter_eraseP_of_single {timers : List SceneTimer}
    (h : timers.filter (fun te => te.id = sceneID) = [te]) :
    (timers.eraseP fun te => te.id = sceneID).filter (fun te => te.id = sceneID) = [] := by
  have herase := @List.eraseP_filter SceneTimer (fun te => decide (te.id = sceneID))
    (fun te => decide (te.id = sceneID)) timers
  simp only [Bool.and_self] at herase
  have hmem : te ∈ timers.filter fun te => te.id = sceneID := by
    rw [h]
    exact List.mem_singleton_self te
  have hte : te.id = sceneID := of_decide_eq_true (List.mem_filter.mp hmem).2
  rw [← herase, h]
  simp [hte]

theorem filter_append_self {timers : List SceneTimer}
    (hnone : timers.filter (fun te => te.id = sceneID) = []) (due : ℤ) :
    (timers ++ [SceneTimer.mk sceneID due]).filter (fun te => te.id = sceneID) =
      [SceneTimer.mk sceneID due] := by
  rw [List.filter_append, hnone]
  simp

theorem filter_append_of_ne {id : UInt32} (hne : id ≠ sceneID) (timers : List SceneTimer)
    (due : ℤ) :
    (timers ++ [SceneTimer.mk id due]).filter (fun te => te.id = sceneID) =
      timers.filter fun te => te.id = sceneID := by
  rw [List.filter_append]
  simp [hne]

theorem outcome_set (inst item : UInt8) (time timeout : ℤ) (log : List SceneEntry) :
    sceneOutcome sceneID (.set inst sceneID item time timeout :: log) =
      { latest := some (inst, time + timeout), passed := none, cleared := [] } := if_pos rfl

theorem outcome_set_of_ne {id : UInt32} (hne : id ≠ sceneID) (inst item : UInt8)
    (time timeout : ℤ) (log : List SceneEntry) :
    sceneOutcome sceneID (.set inst id item time timeout :: log) = sceneOutcome sceneID log :=
  if_neg hne

/-- The scene of an event has a timer that is pending for it. -/
theorem Tracked.setScene_self {keyAttributes scene : UInt8} (h : s.Tracked scene.toUInt32)
    (hvalue : s.hasValue inst.toUInt8 scene.toUInt16 = true)
    (hsame : ∀ other, s.timersSet scene.toUInt32 = some other → other.toUInt8 = inst.toUInt8) :
    (s.setScene inst keyAttributes scene).Tracked scene.toUInt32 := by
  have hindex : scene.toUInt32.toUInt16 = scene.toUInt16 := UInt8.toUInt16_toUInt32 scene
  have houtcome := @outcome_set scene.toUInt32 inst.toUInt8 ((keyAttributes &&& 0x07) + 1) s.now
    s.clearTimeout.toInt s.log
  right
  obtain hidle | ⟨other, due, hpending⟩ := h
  · have hstored : s.timersSet scene.toUInt32 = none := hidle.stored
    refine ⟨inst, s.now + s.clearTimeout.toInt, ?_⟩
    simp only [setScene, write, hstored, if_true, timerSetEvent]
    refine ⟨Function.update_self .., filter_append_self hidle.timers _, ?_, ?_, ?_, ?_⟩
    · exact congrArg SceneOutcome.latest houtcome
    · exact congrArg SceneOutcome.passed houtcome
    · exact congrArg SceneOutcome.cleared houtcome
    · rw [hindex]
      exact hvalue
  · have hstored : s.timersSet scene.toUInt32 = some other := hpending.stored
    have hinst := hsame other hstored
    refine ⟨other, s.now + s.clearTimeout.toInt, ?_⟩
    simp only [setScene, write, hstored, reduceCtorEq, if_false, timerDelEvent, timerSetEvent]
    refine ⟨hstored, filter_append_self (filter_eraseP_of_single hpending.timers) _, ?_, ?_, ?_, ?_⟩
    · rw [hinst]
      exact congrArg SceneOutcome.latest houtcome
    · exact congrArg SceneOutcome.passed houtcome
    · exact congrArg SceneOutcome.cleared houtcome
    · exact hpending.known

/-- An event of another scene. -/
theorem view_setScene_of_ne {keyAttributes scene : UInt8} (hne : scene.toUInt32 ≠ sceneID) :
    (s.setScene inst keyAttributes scene).view sceneID = s.view sceneID := by
  have hadd := @filter_append_of_ne sceneID scene.toUInt32 hne
  have houtcome := @outcome_set_of_ne sceneID scene.toUInt32 hne
  by_cases hstored : s.timersSet scene.toUInt32 = none
  · have hupdate : Function.update s.timersSet scene.toUInt32 (some inst) sceneID =
        s.timersSet sceneID := Function.update_of_ne (Ne.symm hne) _ _
    simp only [setScene, write, hstored, if_true, timerSetEvent, view, hadd, houtcome, hupdate]
  · have hdel := filter_eraseP_of_ne hne s.timers
    simp only [setScene, write, hstored, if_false, timerDelEvent, timerSetEvent, view, hadd,
      houtcome, hdel]

theorem hasValue_setScene {keyAttributes scene : UInt8} :
    (s.setScene inst keyAttributes scene).hasValue = s.hasValue ∧
      (s.setScene inst keyAttributes scene).sequence = s.sequence ∧
      sceneFrames (s.setScene inst keyAttributes scene).log = sceneFrames s.log := by
  by_cases hstored : s.timersSet scene.toUInt32 = none
  · simp only [setScene, write, hstored, if_true, timerSetEvent]
    exact ⟨trivial, trivial, rfl⟩
  · simp only [setScene, write, hstored, if_false, timerDelEvent, timerSetEvent]
    exact ⟨trivial, trivial, rfl⟩

theorem Tracked.setScene {keyAttributes scene : UInt8} (h : ∀ sceneID, s.Tracked sceneID)
    (hvalue : s.hasValue inst.toUInt8 scene.toUInt16 = true)
    (hsame : ∀ other, s.timersSet scene.toUInt32 = some other → other.toUInt8 = inst.toUInt8) :
    ∀ sceneID, (s.setScene inst keyAttributes scene).Tracked sceneID := by
  intro sceneID
  by_cases hne : scene.toUInt32 = sceneID
  · subst hne
    exact (h scene.toUInt32).setScene_self hvalue hsame
  · rw [Tracked, view_setScene_of_ne hne, hasValue_setScene.1]
    exact h sceneID

/-! ## Runs -/

/-- What holds after every step: the sequence number is that of the last frame, and every
scene is tracked. -/
structure Inv (s : CentralScene) : Prop where
  sequence : ∀ last ∈ (sceneFrames s.log).head?, s.sequence = last.1
  fresh : sceneFrames s.log = [] → s.sequence = 0
  deduplicated : Deduplicated (sceneFrames s.log)
  tracked : ∀ sceneID, s.Tracked sceneID

theorem inv_new (hasValue : UInt8 → UInt16 → Bool) : (new hasValue).Inv where
  sequence := nofun
  fresh := fun _ => rfl
  deduplicated := trivial
  tracked := fun _ => .inl ⟨rfl, rfl, rfl, .inl rfl⟩

theorem Inv.proper (h : s.Inv) : s.Proper where
  deduplicated := h.deduplicated
  setBack := fun sceneID => (h.tracked sceneID).setBack

/-- A frame is compared with the one before it. -/
theorem Inv.head?_ne_iff (h : s.Inv) {sequence : UInt8}
    (hfirst : sceneFrames s.log = [] → sequence ≠ 0) :
    (sceneFrames s.log).head?.map Prod.fst ≠ some sequence ↔ s.sequence ≠ sequence := by
  cases hframes : sceneFrames s.log with
  | nil =>
      have hzero := h.fresh hframes
      exact iff_of_true nofun fun heq => hfirst hframes (heq.symm.trans hzero)
  | cons last past =>
      have hlast : s.sequence = last.1 := h.sequence last (by rw [hframes]; rfl)
      rw [hlast]
      simp

theorem Inv.drop (h : s.Inv) {sequence : UInt8} (hsame : s.sequence = sequence)
    (hfirst : sceneFrames s.log = [] → sequence ≠ 0) :
    (s.write (.frame sequence false)).Inv where
  sequence := by
    rintro _ ⟨⟩
    exact hsame
  fresh := nofun
  deduplicated := by
    refine ⟨iff_of_false nofun fun hne => ?_, h.deduplicated⟩
    exact (h.head?_ne_iff hfirst).mp hne hsame
  tracked := h.tracked

theorem Inv.receive (h : s.Inv) {sequence : UInt8} (hother : s.sequence ≠ sequence)
    (hfirst : sceneFrames s.log = [] → sequence ≠ 0) :
    ({ s with sequence := sequence }.write (.frame sequence true)).Inv where
  sequence := by
    rintro _ ⟨⟩
    rfl
  fresh := nofun
  deduplicated := ⟨iff_of_true rfl ((h.head?_ne_iff hfirst).mpr hother), h.deduplicated⟩
  tracked := h.tracked

theorem Inv.setScene (h : s.Inv) {keyAttributes scene : UInt8}
    (hvalue : s.hasValue inst.toUInt8 scene.toUInt16 = true)
    (hsame : ∀ other, s.timersSet scene.toUInt32 = some other → other.toUInt8 = inst.toUInt8) :
    (s.setScene inst keyAttributes scene).Inv := by
  obtain ⟨-, hsequence, hframes⟩ := @hasValue_setScene s inst keyAttributes scene
  refine ⟨?_, ?_, ?_, Tracked.setScene h.tracked hvalue hsame⟩
  · rw [hframes, hsequence]
    exact h.sequence
  · rw [hframes, hsequence]
    exact h.fresh
  · rw [hframes]
    exact h.deduplicated

theorem Inv.pass (h : s.Inv) : s.pass.Inv := by
  have hkept : Kept (s.write (.pass s.now)) s.pass := kept_foldl _ _
  have hframes : sceneFrames s.pass.log = sceneFrames s.log := hkept.frames
  have hsequence : s.pass.sequence = s.sequence := hkept.sequence
  refine ⟨?_, ?_, ?_, fun sceneID => (h.tracked sceneID).pass⟩
  · rw [hframes, hsequence]
    exact h.sequence
  · rw [hframes, hsequence]
    exact h.fresh
  · rw [hframes]
    exact h.deduplicated

theorem Inv.step (h : s.Inv) {event : SceneEvent} (hspares : s.Spares event) :
    (s.step event).Inv := by
  cases event with
  | frame inst sequence keyAttributes scene =>
      obtain ⟨hfirst, hinst⟩ := hspares
      rw [CentralScene.step, handleMsg]
      split
      · rename_i hsame
        exact h.drop hsame hfirst
      · rename_i hother
        have hreceived := h.receive hother hfirst
        dsimp only
        split
        · rename_i hvalue
          exact hreceived.setScene hvalue (hinst hother hvalue)
        · exact hreceived
  | elapse milliseconds => exact ⟨h.sequence, h.fresh, h.deduplicated, h.tracked⟩
  | pass => exact h.pass
  | setTimeout milliseconds => exact ⟨h.sequence, h.fresh, h.deduplicated, h.tracked⟩

/-- In every run whose frames are spared, duplicates are recognized and every scene is set
back. -/
theorem proper_run (hasValue : UInt8 → UInt16 → Bool) (events : List SceneEvent)
    (hspares : Along step Spares (new hasValue) events) :
    (run step (new hasValue) events).Proper :=
  (run_invariant_along (fun _ _ h hevent => h.step hevent) (inv_new hasValue) hspares).proper

/-- The value of scene five on the first two instances. -/
def twoInstances : UInt8 → UInt16 → Bool := fun inst index => decide (inst ≤ 2 ∧ index = 5)

/-- An event, the same frame again, and after the timeout a pass of the thread. -/
def repeatedFrame : List SceneEvent :=
  [.frame 1 7 0 5, .frame 1 7 0 5, .elapse 1000, .pass]

theorem proper_run_repeatedFrame : (run step (new twoInstances) repeatedFrame).Proper := by
  refine proper_run twoInstances repeatedFrame
    ⟨⟨fun _ => by decide, ?_⟩, ⟨nofun, ?_⟩, trivial, trivial, trivial⟩
  · rintro - - other ⟨⟩
  · intro h
    exact absurd rfl h

/-- The first frame has the sequence number zero and is dropped. An event on the second
instance follows one on the first: the first is set back. -/
theorem run_not_proper :
    ¬ (run step (new twoInstances) [.frame 1 0 0 5]).Proper ∧
    ¬ (run step (new twoInstances)
        [.frame 1 7 0 5, .elapse 500, .frame 2 8 0 5, .elapse 1000, .pass]).Proper := by
  constructor
  · intro h
    have hdropped := h.deduplicated.1
    exact absurd (hdropped.mpr nofun) (by decide)
  · intro h
    have hback : [((1 : UInt8), (1500 : ℤ))] = [(2, 1500)] := h.setBack 5
    exact absurd hback (by decide)

end CentralScene

end OpenZWave
