import OpenZWave.WaitMultiple

/-!
# What a wait for several objects returns

A call of `Wait::Multiple` whose objects are not reset while it runs returns the
index of a signalled object, and the lowest one of those that were signalled
before it looked. It returns -1 only when it may time out, and then no object was
signalled when it began.
-/

namespace OpenZWave

open Transition

variable {O W : Type*} [DecidableEq O] [DecidableEq W]

/-- The call has not found out yet that its event is set. -/
def WaitCall.waits (c : WaitCall O) : Bool :=
  match c.phase with
  | .adding _ | .added _ | .calling _ | .entering | .asleep | .awake => true
  | .idle | .scanning _ _ | .removing _ _ | .done _ => false

namespace WaitState

/-- The index of a signalled object, those before it outside `unseen`. -/
def Found (s : WaitState O W) (objects : List O) (unseen : O → Bool) (res : Int) : Prop :=
  ∃ (k : Nat) (o : O), res = k ∧ objects[k]? = some o ∧ s.signalled o = true ∧
    ∀ j < k, ∀ o', objects[j]? = some o' → unseen o' = false

/-- What is known at each place of a call: `early` are the objects signalled when it
began, `seen` those signalled at some moment before it looked. -/
def Progress (s : WaitState O W) (c : WaitCall O) (early seen : O → Bool) : Prop :=
  match c.phase with
  | .idle => False
  | .adding i | .added i =>
      ∀ o ∈ c.objects.take i, early o = true → c.waitEvent = some true
  | .calling i => ∃ o, c.objects[i]? = some o ∧ s.signalled o = true
  | .entering | .asleep | .awake => ∀ o ∈ c.objects, early o = true → c.waitEvent = some true
  | .scanning i res =>
      (res = -1 ∧ (∃ (k : Nat) (o : O), i ≤ k ∧ c.objects[k]? = some o ∧ s.signalled o = true) ∧
        ∀ j < i, ∀ o, c.objects[j]? = some o → seen o = false) ∨ s.Found c.objects seen res
  | .removing _ res | .done res =>
      (res = -1 ∧ 0 ≤ c.timeout ∧ ∀ o ∈ c.objects, early o = false) ∨ s.Found c.objects seen res

/-- What holds of a call from its beginning, while none of its objects is reset. -/
structure Runs (s : WaitState O W) (w : W) (objects : List O) (timeout : Int)
    (early seen : O → Bool) : Prop where
  sound : s.Sound
  objects_eq : (s.call w).objects = objects
  timeout_eq : (s.call w).timeout = timeout
  early_signalled : ∀ o ∈ objects, early o = true → s.signalled o = true
  seen_signalled : ∀ o ∈ objects, seen o = true → s.signalled o = true
  busy : ∀ o ∈ objects, s.pending o ≠ 0 ∨ s.notifying o ≠ none → s.signalled o = true
  event : (s.call w).waitEvent = some true → ∃ o ∈ objects, s.signalled o = true
  progress : s.Progress (s.call w) early seen

variable {s s' : WaitState O W} {w : W} {objects : List O} {timeout : Int} {early seen : O → Bool}

omit [DecidableEq O] [DecidableEq W] in
theorem Found.mono {res : Int} (h : s.Found objects seen res)
    (hkept : ∀ o ∈ objects, s.signalled o = true → s'.signalled o = true) :
    s'.Found objects seen res := by
  obtain ⟨k, o, hres, hobject, hsignalled, hbefore⟩ := h
  exact ⟨k, o, hres, hobject, hkept o (List.mem_of_getElem? hobject) hsignalled, hbefore⟩

omit [DecidableEq O] [DecidableEq W] in
/-- More signalled objects change nothing that is known. -/
theorem Progress.mono {c : WaitCall O} (h : s.Progress c early seen)
    (hkept : ∀ o ∈ c.objects, s.signalled o = true → s'.signalled o = true) :
    s'.Progress c early seen := by
  cases hphase : c.phase with
  | calling i =>
      simp only [Progress, hphase] at h ⊢
      obtain ⟨o, hobject, hsignalled⟩ := h
      exact ⟨o, hobject, hkept o (List.mem_of_getElem? hobject) hsignalled⟩
  | scanning i res =>
      simp only [Progress, hphase] at h ⊢
      rcases h with ⟨hres, ⟨k, o, hle, hobject, hsignalled⟩, hbefore⟩ | hfound
      · have hlater := hkept o (List.mem_of_getElem? hobject) hsignalled
        exact .inl ⟨hres, ⟨k, o, hle, hobject, hlater⟩, hbefore⟩
      · exact .inr (hfound.mono hkept)
  | removing i res =>
      simp only [Progress, hphase] at h ⊢
      exact h.imp_right fun hfound => hfound.mono hkept
  | done res =>
      simp only [Progress, hphase] at h ⊢
      exact h.imp_right fun hfound => hfound.mono hkept
  | idle => simp only [Progress, hphase] at h
  | _ => simpa only [Progress, hphase] using h

omit [DecidableEq O] [DecidableEq W] in
theorem Progress.set {c : WaitCall O} (h : s.Progress c early seen) :
    s.Progress c.set early seen := by
  cases hphase : c.phase with
  | idle => simp only [Progress, hphase] at h
  | calling i => simpa [Progress, WaitCall.set, hphase] using h
  | scanning i res => simpa [Progress, WaitCall.set, hphase] using h
  | removing i res => simpa [Progress, WaitCall.set, hphase] using h
  | done res => simpa [Progress, WaitCall.set, hphase] using h
  | _ => simp [Progress, WaitCall.set, hphase]

/-- A later state in which the objects of the call are still signalled. -/
theorem Runs.next (h : s.Runs w objects timeout early seen) (hsound : s'.Sound)
    (hobjects : (s'.call w).objects = (s.call w).objects)
    (htimeout : (s'.call w).timeout = (s.call w).timeout)
    (hkept : ∀ o ∈ objects, s.signalled o = true → s'.signalled o = true)
    (hbusy : ∀ o ∈ objects, s'.pending o ≠ 0 ∨ s'.notifying o ≠ none → s'.signalled o = true)
    (hevent : (s'.call w).waitEvent = some true →
      (s.call w).waitEvent = some true ∨ ∃ o ∈ objects, s.signalled o = true)
    (hprogress : s'.Progress (s'.call w) early seen) :
    s'.Runs w objects timeout early seen where
  sound := hsound
  objects_eq := hobjects.trans h.objects_eq
  timeout_eq := htimeout.trans h.timeout_eq
  early_signalled o ho hearly := hkept o ho (h.early_signalled o ho hearly)
  seen_signalled o ho hseen := hkept o ho (h.seen_signalled o ho hseen)
  busy := hbusy
  event hset := by
    obtain ⟨o, ho, hsignalled⟩ := (hevent hset).elim h.event id
    exact ⟨o, ho, hkept o ho hsignalled⟩
  progress := hprogress

/-- A step that does not touch the call. -/
theorem Runs.other (h : s.Runs w objects timeout early seen) (hsound : s'.Sound)
    (hcall : s'.call w = s.call w)
    (hkept : ∀ o ∈ objects, s.signalled o = true → s'.signalled o = true)
    (hbusy : ∀ o ∈ objects, s'.pending o ≠ 0 ∨ s'.notifying o ≠ none → s'.signalled o = true) :
    s'.Runs w objects timeout early seen := by
  refine h.next hsound ?_ ?_ hkept hbusy ?_ ?_
  · rw [hcall]
  · rw [hcall]
  · rw [hcall]
    exact .inl
  · rw [hcall]
    exact h.progress.mono (h.objects_eq ▸ hkept)

/-- A step of the call itself, which leaves the objects as they are. -/
theorem Runs.own (h : s.Runs w objects timeout early seen) (hsound : s'.Sound)
    (hobjects : (s'.call w).objects = (s.call w).objects)
    (htimeout : (s'.call w).timeout = (s.call w).timeout)
    (hsignalled : s'.signalled = s.signalled) (hpending : s'.pending = s.pending)
    (hnotifying : s'.notifying = s.notifying)
    (hevent : (s'.call w).waitEvent = some true →
      (s.call w).waitEvent = some true ∨ ∃ o ∈ objects, s.signalled o = true)
    (hprogress : s'.Progress (s'.call w) early seen) :
    s'.Runs w objects timeout early seen := by
  refine h.next hsound hobjects htimeout ?_ ?_ hevent hprogress
  · rw [hsignalled]
    exact fun _ _ => id
  · rw [hsignalled, hpending, hnotifying]
    exact h.busy

theorem Runs.withPhase (h : s.Runs w objects timeout early seen) {watchers : O → List W}
    {p : WaitPhase} (hsound : ({ s with watchers := watchers }.withPhase w p).Sound)
    (hprogress : s.Progress { s.call w with phase := p } early seen) :
    ({ s with watchers := watchers }.withPhase w p).Runs w objects timeout early seen := by
  refine h.own hsound ?_ ?_ rfl rfl rfl ?_ ?_
  · rw [WaitState.withPhase, call_withCall_self]
  · rw [WaitState.withPhase, call_withCall_self]
  · rw [WaitState.withPhase, call_withCall_self]
    exact .inl
  · rw [WaitState.withPhase, call_withCall_self]
    exact hprogress.mono fun _ _ => id

omit [DecidableEq O] [DecidableEq W] in
/-- A call whose event is not set has met no early object. -/
theorem not_early (hprogress : ∀ o ∈ objects, early o = true → (s.call w).waitEvent = some true)
    (hevent : (s.call w).waitEvent ≠ some true) : ∀ o ∈ objects, early o = false := by
  intro o ho
  rw [← Bool.not_eq_true]
  exact fun hearly => hevent (hprogress o ho hearly)

/-- The search begins with a signalled object ahead. -/
theorem Runs.scan (h : s.Runs w objects timeout early seen)
    (hevent : (s.call w).waitEvent = some true) :
    s.Progress { s.call w with phase := .scanning 0 (-1) } early seen := by
  obtain ⟨o, ho, hsignalled⟩ := h.event hevent
  obtain ⟨k, hobject⟩ := List.mem_iff_getElem?.mp ho
  refine .inl ⟨rfl, ⟨k, o, Nat.zero_le k, ?_, hsignalled⟩, ?_⟩
  · rw [← hobject, ← h.objects_eq]
  · exact fun j hj => absurd hj (Nat.not_lt_zero j)

theorem Runs.search (h : s.Runs w objects timeout early seen) {i : Nat} {res : Int} {o : O}
    (hphase : (s.call w).phase = .scanning i res) (hobject : (s.call w).objects[i]? = some o) :
    s.Progress { s.call w with
      phase := .scanning (i + 1) (if s.signalled o ∧ res = -1 then i else res) } early seen := by
  have hprogress := h.progress
  simp only [Progress, hphase] at hprogress ⊢
  rcases hprogress with ⟨hres, ⟨k, o', hle, hobject', hsignalled'⟩, hbefore⟩ | hfound
  · cases hsignalled : s.signalled o with
    | true =>
        rw [if_pos ⟨rfl, hres⟩]
        exact .inr ⟨i, o, rfl, hobject, hsignalled, hbefore⟩
    | false =>
        rw [if_neg (by simp)]
        refine .inl ⟨hres, ⟨k, o', ?_, hobject', hsignalled'⟩, ?_⟩
        · have hne : i ≠ k := by
            rintro rfl
            rw [hobject, Option.some.injEq] at hobject'
            rw [← hobject', hsignalled] at hsignalled'
            exact Bool.false_ne_true hsignalled'
          omega
        · intro j hj o'' hobject''
          rcases Nat.lt_succ_iff_lt_or_eq.mp hj with hlt | rfl
          · exact hbefore j hlt o'' hobject''
          · rw [hobject, Option.some.injEq] at hobject''
            subst hobject''
            rw [← Bool.not_eq_true]
            intro hseen
            have hlater := h.seen_signalled o (h.objects_eq ▸ List.mem_of_getElem? hobject) hseen
            exact absurd (hlater.symm.trans hsignalled) Bool.true_eq_false.mp
  · have hres : res ≠ -1 := by
      obtain ⟨k, _, hres, _⟩ := hfound
      omega
    rw [if_neg fun hboth => hres hboth.2]
    exact .inr hfound

theorem Runs.advance_self (h : s.Runs w objects timeout early seen) :
    (s.advance w).Runs w objects timeout early seen := by
  have hsound : (s.advance w).Sound := h.sound.advance
  have hprogress := h.progress
  cases hphase : (s.call w).phase with
  | idle => simpa only [WaitState.advance, hphase] using h
  | adding i =>
      simp only [Progress, hphase] at hprogress
      cases hobject : (s.call w).objects[i]? with
      | none =>
          have htake : (s.call w).objects.take i = (s.call w).objects :=
            List.take_of_length_le (List.getElem?_eq_none_iff.mp hobject)
          simp only [WaitState.advance, hphase, hobject] at hsound ⊢
          rw [htake] at hprogress
          exact h.withPhase hsound hprogress
      | some o =>
          simp only [WaitState.advance, hphase, hobject] at hsound ⊢
          by_cases hfree : s.notifying o = none
          · rw [if_pos hfree] at hsound ⊢
            exact h.withPhase hsound hprogress
          · rwa [if_neg hfree]
  | added i =>
      simp only [Progress, hphase] at hprogress
      cases hobject : (s.call w).objects[i]? with
      | none => simpa only [WaitState.advance, hphase, hobject] using h
      | some o =>
          simp only [WaitState.advance, hphase, hobject] at hsound ⊢
          refine h.withPhase hsound ?_
          cases hsignalled : s.signalled o with
          | true => exact ⟨o, hobject, hsignalled⟩
          | false =>
              intro o' ho' hearly
              simp only [List.take_add_one, hobject, Option.toList_some, List.mem_append,
                List.mem_singleton] at ho'
              rcases ho' with ho' | rfl
              · exact hprogress o' ho' hearly
              · have hmem := h.objects_eq ▸ List.mem_of_getElem? hobject
                have hlater := h.early_signalled o' hmem hearly
                exact absurd (hlater.symm.trans hsignalled) Bool.true_eq_false.mp
  | calling i =>
      simp only [Progress, hphase] at hprogress
      obtain ⟨o, hobject, hsignalled⟩ := hprogress
      have hevent : (s.call w).waitEvent ≠ none :=
        h.sound.owned w (by simp only [WaitCall.active, hphase])
      simp only [WaitState.advance, hphase, WaitState.callback, if_neg hevent] at hsound ⊢
      refine h.own hsound ?_ ?_ rfl rfl rfl ?_ ?_
      · simp [WaitState.withPhase, WaitCall.set]
      · simp [WaitState.withPhase, WaitCall.set]
      · exact fun _ => .inr ⟨o, h.objects_eq ▸ List.mem_of_getElem? hobject, hsignalled⟩
      · simp [WaitState.withPhase, WaitCall.set, Progress]
  | entering =>
      simp only [Progress, hphase] at hprogress
      simp only [WaitState.advance, hphase] at hsound ⊢
      refine h.withPhase hsound ?_
      by_cases hevent : (s.call w).waitEvent = some true
      · rw [WaitCall.enter, if_pos hevent]
        exact h.scan hevent
      · rw [WaitCall.enter, if_neg hevent]
        by_cases himmediate : (s.call w).timeout = 0
        · rw [if_pos himmediate]
          exact .inl ⟨rfl, Int.le_of_eq himmediate.symm, not_early hprogress hevent⟩
        · rw [if_neg himmediate]
          exact hprogress
  | asleep => simpa only [WaitState.advance, hphase] using h
  | awake =>
      simp only [Progress, hphase] at hprogress
      simp only [WaitState.advance, hphase] at hsound ⊢
      refine h.withPhase hsound ?_
      by_cases hevent : (s.call w).waitEvent = some true
      · rw [WaitCall.retest, if_pos hevent]
        exact h.scan hevent
      · rw [WaitCall.retest, if_neg hevent]
        exact hprogress
  | scanning i res =>
      cases hobject : (s.call w).objects[i]? with
      | none =>
          simp only [WaitState.advance, hphase, hobject] at hsound ⊢
          refine h.withPhase hsound (.inr ?_)
          simp only [Progress, hphase] at hprogress
          rcases hprogress with ⟨_, ⟨k, o, hle, hobject', _⟩, _⟩ | hfound
          · have hend := List.getElem?_eq_none_iff.mp hobject
            have hlt := (List.getElem?_eq_some_iff.mp hobject').1
            omega
          · exact hfound
      | some o =>
          simp only [WaitState.advance, hphase, hobject] at hsound ⊢
          exact h.withPhase hsound (h.search hphase hobject)
  | removing i res =>
      simp only [Progress, hphase] at hprogress
      cases hobject : (s.call w).objects[i]? with
      | none =>
          simp only [WaitState.advance, hphase, hobject] at hsound ⊢
          refine h.own hsound ?_ ?_ rfl rfl rfl ?_ ?_
          · rw [call_withCall_self]
          · rw [call_withCall_self]
          · rw [call_withCall_self]
            intro hevent
            cases hevent
          · rw [call_withCall_self]
            exact hprogress
      | some o =>
          simp only [WaitState.advance, hphase, hobject] at hsound ⊢
          by_cases hfree : s.notifying o = none
          · rw [if_pos hfree] at hsound ⊢
            exact h.withPhase hsound hprogress
          · rwa [if_neg hfree]
  | done res => simpa only [WaitState.advance, hphase] using h

/-- What a step of one call leaves as it is. -/
structure Frame (s s' : WaitState O W) (w : W) : Prop where
  signalled : s'.signalled = s.signalled
  pending : s'.pending = s.pending
  notifying : s'.notifying = s.notifying
  call : ∀ w' ≠ w, s'.call w' = s.call w'

omit [DecidableEq O] [DecidableEq W] in
theorem Frame.refl (s : WaitState O W) (w : W) : Frame s s w := ⟨rfl, rfl, rfl, fun _ _ => rfl⟩

omit [DecidableEq O] in
theorem frame_withCall (watchers : O → List W) (c : WaitCall O) :
    Frame s ({ s with watchers := watchers }.withCall w c) w :=
  ⟨rfl, rfl, rfl, fun _ hne => call_withCall_of_ne hne c⟩

omit [DecidableEq O] in
theorem frame_callback : Frame s (s.callback w) w := by
  by_cases hevent : (s.call w).waitEvent = none
  · rw [WaitState.callback, if_pos hevent]
    exact ⟨rfl, rfl, rfl, fun _ _ => rfl⟩
  · rw [WaitState.callback, if_neg hevent]
    exact frame_withCall s.watchers _

theorem frame_advance : Frame s (s.advance w) w := by
  cases hphase : (s.call w).phase with
  | calling i =>
      simp only [WaitState.advance, hphase]
      have hcallback : Frame s (s.callback w) w := frame_callback
      refine ⟨hcallback.signalled, hcallback.pending, hcallback.notifying, ?_⟩
      intro w' hne
      exact (call_withCall_of_ne hne _).trans (hcallback.call w' hne)
  | adding i =>
      cases hobject : (s.call w).objects[i]? with
      | none =>
          simp only [WaitState.advance, hphase, hobject]
          exact frame_withCall s.watchers _
      | some o =>
          simp only [WaitState.advance, hphase, hobject]
          split
          · exact frame_withCall _ _
          · exact Frame.refl s w
  | removing i res =>
      cases hobject : (s.call w).objects[i]? with
      | none =>
          simp only [WaitState.advance, hphase, hobject]
          exact frame_withCall s.watchers _
      | some o =>
          simp only [WaitState.advance, hphase, hobject]
          split
          · exact frame_withCall _ _
          · exact Frame.refl s w
  | added i =>
      cases hobject : (s.call w).objects[i]? with
      | none => simpa only [WaitState.advance, hphase, hobject] using Frame.refl s w
      | some o =>
          simp only [WaitState.advance, hphase, hobject]
          exact frame_withCall s.watchers _
  | scanning i res =>
      cases hobject : (s.call w).objects[i]? with
      | none =>
          simp only [WaitState.advance, hphase, hobject]
          exact frame_withCall s.watchers _
      | some o =>
          simp only [WaitState.advance, hphase, hobject]
          exact frame_withCall s.watchers _
  | entering =>
      simp only [WaitState.advance, hphase]
      exact frame_withCall s.watchers _
  | awake =>
      simp only [WaitState.advance, hphase]
      exact frame_withCall s.watchers _
  | _ => simpa only [WaitState.advance, hphase] using Frame.refl s w

/-- A step of another call. -/
theorem Runs.frame (h : s.Runs w objects timeout early seen) {w' : W} (hne : w ≠ w')
    (hframe : Frame s s' w') (hsound : s'.Sound) : s'.Runs w objects timeout early seen := by
  refine h.other hsound (hframe.call w hne) ?_ ?_
  · rw [hframe.signalled]
    exact fun _ _ => id
  · rw [hframe.signalled, hframe.pending, hframe.notifying]
    exact h.busy

theorem Runs.set (h : s.Runs w objects timeout early seen) (o : O) :
    (s.step (.set o)).Runs w objects timeout early seen := by
  refine h.other (h.sound.set o) rfl ?_ ?_
  · intro o' _ hsignalled
    rcases eq_or_ne o' o with rfl | hne
    · exact Function.update_self ..
    · exact (Function.update_of_ne hne ..).trans hsignalled
  · intro o' ho' hbusy
    rcases eq_or_ne o' o with rfl | hne
    · exact Function.update_self ..
    · simp only [WaitState.step, Function.update_of_ne hne] at hbusy ⊢
      exact h.busy o' ho' hbusy

theorem Runs.reset (h : s.Runs w objects timeout early seen) {o : O} (ho : o ∉ objects) :
    (s.step (.reset o)).Runs w objects timeout early seen := by
  have hne : ∀ o' ∈ objects, o' ≠ o := fun o' ho' heq => ho (heq ▸ ho')
  refine h.other (h.sound.reset o) rfl ?_ ?_
  · intro o' ho' hsignalled
    exact (Function.update_of_ne (hne o' ho') ..).trans hsignalled
  · intro o' ho' hbusy
    exact (Function.update_of_ne (hne o' ho') ..).trans (h.busy o' ho' hbusy)

theorem Runs.beginNotify (h : s.Runs w objects timeout early seen) (o : O) :
    (s.step (.beginNotify o)).Runs w objects timeout early seen := by
  have hsound : (s.step (.beginNotify o)).Sound := h.sound.beginNotify o
  by_cases hpossible : s.pending o ≠ 0 ∧ s.notifying o = none
  · rw [WaitState.step, if_pos hpossible] at hsound ⊢
    refine h.other hsound rfl (fun _ _ => id) ?_
    intro o' ho' hbusy
    rcases eq_or_ne o' o with rfl | hne
    · exact h.busy o' ho' (.inl hpossible.1)
    · simp only [Function.update_of_ne hne] at hbusy
      exact h.busy o' ho' hbusy
  · rwa [WaitState.step, if_neg hpossible]

theorem Runs.endNotify (h : s.Runs w objects timeout early seen) (o : O) :
    (s.step (.endNotify o)).Runs w objects timeout early seen := by
  have hsound : (s.step (.endNotify o)).Sound := h.sound.endNotify o
  by_cases hlast : s.notifying o = some []
  · rw [WaitState.step, if_pos hlast] at hsound ⊢
    refine h.other hsound rfl (fun _ _ => id) ?_
    intro o' ho' hbusy
    rcases eq_or_ne o' o with rfl | hne
    · simp only [Function.update_self, ne_eq, not_true_eq_false, or_false] at hbusy
      exact h.busy o' ho' (.inl hbusy)
    · simp only [Function.update_of_ne hne] at hbusy
      exact h.busy o' ho' hbusy
  · rwa [WaitState.step, if_neg hlast]

/-- A watcher stands only in the lists of the objects of its call. -/
theorem Sound.mem_objects (h : s.Sound) {o : O} (hw : w ∈ s.watchers o) :
    o ∈ (s.call w).objects := by
  rw [← List.count_pos_iff, h.watched] at hw
  exact (s.call w).registered_subset (List.count_pos_iff.mp hw)

/-- `Notify` calls the next watcher, of this call or of another one. -/
theorem Runs.callNext (h : s.Runs w objects timeout early seen) {o : O} {v : W} {rest : List W}
    (hnotifying : s.notifying o = some (v :: rest)) :
    ({ s with notifying := Function.update s.notifying o (some rest) }.callback v).Runs w objects
      timeout early seen := by
  have hsound := h.sound.callNext hnotifying
  have hmem : v ∈ s.watchers o := (h.sound.held o _ hnotifying).subset List.mem_cons_self
  have hevent : (s.call v).waitEvent ≠ none :=
    h.sound.owned v (h.sound.active_of_mem_watchers hmem)
  rw [WaitState.callback, if_neg hevent] at hsound ⊢
  have hbusy : ∀ o' ∈ objects, s.pending o' ≠ 0 ∨
      Function.update s.notifying o (some rest) o' ≠ none → s.signalled o' = true := by
    intro o' ho' hbusy
    rcases eq_or_ne o' o with rfl | hne
    · refine h.busy o' ho' (.inr ?_)
      rw [hnotifying]
      exact Option.some_ne_none _
    · rw [Function.update_of_ne hne] at hbusy
      exact h.busy o' ho' hbusy
  rcases eq_or_ne w v with rfl | hne
  · refine h.next hsound ?_ ?_ (fun _ _ => id) hbusy ?_ ?_
    · rw [call_withCall_self]
      rfl
    · rw [call_withCall_self]
      rfl
    · intro _
      have ho : o ∈ objects := h.objects_eq ▸ h.sound.mem_objects hmem
      refine .inr ⟨o, ho, h.busy o ho (.inr ?_)⟩
      rw [hnotifying]
      exact Option.some_ne_none _
    · rw [call_withCall_self]
      exact h.progress.set
  · exact h.other hsound (call_withCall_of_ne hne _) (fun _ _ => id) hbusy

theorem Runs.not_idle (h : s.Runs w objects timeout early seen) : (s.call w).phase ≠ .idle := by
  intro hidle
  have hprogress := h.progress
  simp only [Progress, hidle] at hprogress

/-- No action but a reset of its objects ends what holds of the call. -/
theorem Runs.step (h : s.Runs w objects timeout early seen) (a : WaitAction O W)
    (hkeep : ∀ o ∈ objects, a ≠ .reset o) : (s.step a).Runs w objects timeout early seen := by
  have hsound : (s.step a).Sound := h.sound.step a
  cases a with
  | set o => exact h.set o
  | reset o => exact h.reset fun ho => hkeep o ho rfl
  | beginNotify o => exact h.beginNotify o
  | callback o =>
      cases hnotifying : s.notifying o with
      | none => simpa only [WaitState.step, hnotifying] using h
      | some left =>
          cases left with
          | nil => simpa only [WaitState.step, hnotifying] using h
          | cons v rest =>
              simp only [WaitState.step, hnotifying]
              exact h.callNext hnotifying
  | endNotify o => exact h.endNotify o
  | start v objects' timeout' =>
      by_cases hidle : (s.call v).phase = .idle
      · have hne : w ≠ v := by
          rintro rfl
          exact h.not_idle hidle
        rw [WaitState.step, if_pos hidle] at hsound ⊢
        exact h.frame hne (frame_withCall s.watchers _) hsound
      · rwa [WaitState.step, if_neg hidle]
  | advance v =>
      rcases eq_or_ne w v with rfl | hne
      · exact h.advance_self
      · exact h.frame hne frame_advance hsound
  | wake v =>
      by_cases hasleep : (s.call v).phase = .asleep
      · rw [WaitState.step, if_pos hasleep] at hsound ⊢
        rcases eq_or_ne w v with rfl | hne
        · have hprogress := h.progress
          simp only [Progress, hasleep] at hprogress
          exact h.withPhase hsound hprogress
        · exact h.frame hne (frame_withCall s.watchers _) hsound
      · rwa [WaitState.step, if_neg hasleep]
  | timedOut v =>
      by_cases hasleep : (s.call v).phase = .asleep ∧ 0 < (s.call v).timeout
      · rw [WaitState.step, if_pos hasleep] at hsound ⊢
        rcases eq_or_ne w v with rfl | hne
        · have hprogress := h.progress
          simp only [Progress, hasleep.1] at hprogress
          have hevent : (s.call w).waitEvent ≠ some true := by
            rw [h.sound.sleeping w hasleep.1]
            exact fun h => Bool.false_ne_true (Option.some.inj h)
          exact h.withPhase hsound (.inl ⟨rfl, Int.le_of_lt hasleep.2, not_early hprogress hevent⟩)
        · exact h.frame hne (frame_withCall s.watchers _) hsound
      · rwa [WaitState.step, if_neg hasleep]

theorem Runs.after (h : s.Runs w objects timeout early seen) {actions : List (WaitAction O W)}
    (hkeep : ∀ o ∈ objects, .reset o ∉ actions) :
    (run WaitState.step s actions).Runs w objects timeout early seen := by
  induction actions generalizing s with
  | nil => exact h
  | cons a actions ih =>
      refine ih (h.step a ?_) ?_
      · rintro o ho rfl
        exact hkeep o ho List.mem_cons_self
      · exact fun o ho hmem => hkeep o ho (List.mem_cons_of_mem a hmem)

/-- The call begins, and no `Notify` of an unsignalled object is on its way. -/
theorem Sound.start (h : s.Sound) (hidle : (s.call w).phase = .idle)
    (hsettled : ∀ o ∈ objects, s.pending o ≠ 0 ∨ s.notifying o ≠ none → s.signalled o = true) :
    (s.step (.start w objects timeout)).Runs w objects timeout s.signalled s.signalled := by
  have hsound := h.step (.start w objects timeout)
  rw [WaitState.step, if_pos hidle] at hsound ⊢
  refine ⟨hsound, ?_, ?_, fun _ _ => id, fun _ _ => id, hsettled, ?_, ?_⟩
  · rw [call_withCall_self]
  · rw [call_withCall_self]
  · rw [call_withCall_self]
    exact fun h => absurd (Option.some.inj h) Bool.false_ne_true
  · rw [call_withCall_self]
    exact fun o ho => absurd ho List.not_mem_nil

end WaitState

end OpenZWave
