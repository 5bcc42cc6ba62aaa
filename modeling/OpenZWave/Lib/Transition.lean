import Mathlib.Data.List.Basic

/-!
# Runs of a deterministic system

A system is a step function on states, driven by a list of events. What a step
preserves holds after every run. The second rule is for invariants that speak
of the events so far, and for runs whose steps all meet a condition.
-/

namespace Transition

variable {σ ε : Type*} (step : σ → ε → σ)

/-- The state after the events. -/
def run (s : σ) (events : List ε) : σ := events.foldl step s

@[simp] theorem run_nil (s : σ) : run step s [] = s := rfl

@[simp] theorem run_cons (s : σ) (e : ε) (events : List ε) :
    run step s (e :: events) = run step (step s e) events := rfl

@[simp] theorem run_append (s : σ) (first second : List ε) :
    run step s (first ++ second) = run step (run step s first) second :=
  List.foldl_append

/-- A loop whose body is a run of the events of an item is a run of the events of all items. -/
theorem foldl_eq_run {α : Type*} {body : σ → α → σ} {events : α → List ε}
    (hbody : ∀ s a, body s a = run step s (events a)) (s : σ) (items : List α) :
    items.foldl body s = run step s (items.flatMap events) := by
  induction items generalizing s with
  | nil => rfl
  | cons a items ih =>
      rw [List.foldl_cons, List.flatMap_cons, run_append, hbody]
      exact ih _

/-- What every step preserves holds after every run. -/
theorem run_invariant {I : σ → Prop} (hstep : ∀ s e, I s → I (step s e)) {s : σ} (h0 : I s)
    (events : List ε) : I (run step s events) := by
  induction events generalizing s with
  | nil => exact h0
  | cons e events ih => exact ih (hstep s e h0)

/-- Every event of a run meets `P` in the state in which it happens. -/
def Along (P : σ → ε → Prop) : σ → List ε → Prop
  | _, [] => True
  | s, e :: events => P s e ∧ Along P (step s e) events

variable {step}

theorem along_append {P : σ → ε → Prop} {s : σ} {first second : List ε} :
    Along step P s (first ++ second) ↔
      Along step P s first ∧ Along step P (run step s first) second := by
  induction first generalizing s with
  | nil => simp [Along]
  | cons e first ih => simp only [List.cons_append, Along, ih, and_assoc, run_cons]

theorem along_of_forall {P : σ → ε → Prop} (h : ∀ s e, P s e) (s : σ) (events : List ε) :
    Along step P s events := by
  induction events generalizing s with
  | nil => trivial
  | cons e events ih => exact ⟨h s e, ih (step s e)⟩

/-- A condition on the events themselves may be added to the one on their states. -/
theorem Along.and_forall {P : σ → ε → Prop} {Q : ε → Prop} {s : σ} {events : List ε}
    (h : Along step P s events) (hall : ∀ e ∈ events, Q e) :
    Along step (fun s e => P s e ∧ Q e) s events := by
  induction events generalizing s with
  | nil => trivial
  | cons e events ih =>
      obtain ⟨hfirst, hrest⟩ := List.forall_mem_cons.mp hall
      exact ⟨⟨h.1, hfirst⟩, ih h.2 hrest⟩

/-- An invariant over the events so far and the state they led to. -/
theorem run_history_invariant {P : σ → ε → Prop} {I : List ε → σ → Prop}
    (hstep : ∀ past s e, I past s → P s e → I (past ++ [e]) (step s e)) {past : List ε} {s : σ}
    (h0 : I past s) {events : List ε} (halong : Along step P s events) :
    I (past ++ events) (run step s events) := by
  induction events generalizing past s with
  | nil => simpa using h0
  | cons e events ih =>
      obtain ⟨hmeets, halong⟩ := halong
      have hnext := ih (hstep past s e h0 hmeets) halong
      rwa [List.append_assoc, List.singleton_append] at hnext

/-- What every step that meets `P` preserves holds after a run of such steps. -/
theorem run_invariant_along {P : σ → ε → Prop} {I : σ → Prop}
    (hstep : ∀ s e, I s → P s e → I (step s e)) {s : σ} (h0 : I s) {events : List ε}
    (halong : Along step P s events) : I (run step s events) := by
  induction events generalizing s with
  | nil => exact h0
  | cons e events ih =>
      obtain ⟨hmeets, halong⟩ := halong
      exact ih (hstep s e h0 hmeets) halong

/-- When a step from a state with `J` meets `P` exactly if it meets `Q`, and then
leads to such a state again, the runs that meet `P` are those that meet `Q`. -/
theorem along_congr {P Q : σ → ε → Prop} {J : σ → Prop} (hiff : ∀ s e, J s → (P s e ↔ Q s e))
    (hkeeps : ∀ s e, J s → P s e → J (step s e)) {s : σ} (h0 : J s) (events : List ε) :
    Along step P s events ↔ Along step Q s events := by
  induction events generalizing s with
  | nil => rfl
  | cons e events ih =>
      constructor
      · rintro ⟨hmeets, halong⟩
        exact ⟨(hiff s e h0).mp hmeets, (ih (hkeeps s e h0 hmeets)).mp halong⟩
      · rintro ⟨hmeets, halong⟩
        have hmeets := (hiff s e h0).mpr hmeets
        exact ⟨hmeets, (ih (hkeeps s e h0 hmeets)).mpr halong⟩

/-- When a step keeps `G` exactly if it meets `P`, a run keeps `G` exactly if all
its steps meet `P`. The step lemma may assume `J`, which every step keeps, and
`H`, which holds of an earlier state when it holds of a later one. -/
theorem run_keeps_iff_along_of {P : σ → ε → Prop} {J H G : σ → Prop}
    (hback : ∀ s e, H (step s e) → H s) (hinv : ∀ s e, J s → H (step s e) → J (step s e))
    (hstep : ∀ s e, J s → H (step s e) → (G (step s e) ↔ G s ∧ P s e)) {s : σ} (h0 : J s)
    (events : List ε) (hend : H (run step s events)) :
    G (run step s events) ↔ G s ∧ Along step P s events := by
  induction events generalizing s with
  | nil => simp only [run_nil, Along, and_true]
  | cons e events ih =>
      have hlater : ∀ (rest : List ε) (s : σ), H (run step s rest) → H s := by
        intro rest
        induction rest with
        | nil => exact fun s h => h
        | cons e rest ih => exact fun s h => hback s e (ih (step s e) h)
      have hnext : H (step s e) := hlater events (step s e) hend
      calc G (run step s (e :: events))
          ↔ G (step s e) ∧ Along step P (step s e) events := ih (hinv s e h0 hnext) hend
        _ ↔ G s ∧ Along step P s (e :: events) := by rw [hstep s e h0 hnext, Along, and_assoc]

/-- The same when the step lemma needs no assumption about the end of the run. -/
theorem run_keeps_iff_along {P : σ → ε → Prop} {J G : σ → Prop} (hinv : ∀ s e, J s → J (step s e))
    (hstep : ∀ s e, J s → (G (step s e) ↔ G s ∧ P s e)) {s : σ} (h0 : J s) (events : List ε) :
    G (run step s events) ↔ G s ∧ Along step P s events :=
  run_keeps_iff_along_of (H := fun _ => True) (fun _ _ h => h) (fun s e h _ => hinv s e h)
    (fun s e h _ => hstep s e h) h0 events trivial

/-- What a step keeps exactly if it meets `P` holds of the events so far and the state they
lead to, throughout a run, exactly if all steps of the run meet `P`. -/
theorem always_history_iff_along {P : σ → ε → Prop} {A : List ε → σ → Prop}
    (hstep : ∀ past s e, A past s → (A (past ++ [e]) (step s e) ↔ P s e)) {past : List ε} {s : σ}
    (h0 : A past s) (events : List ε) :
    (∀ first, first <+: events → A (past ++ first) (run step s first)) ↔ Along step P s events := by
  induction events generalizing past s with
  | nil =>
      constructor
      · intro _
        trivial
      · intro _ first hfirst
        rw [List.prefix_nil.mp hfirst, List.append_nil]
        exact h0
  | cons e events ih =>
      have hnext : ∀ rest, past ++ e :: rest = past ++ [e] ++ rest := fun rest =>
        List.append_cons past e rest
      constructor
      · intro halways
        have hone : A (past ++ [e]) (step s e) := halways [e] (List.prefix_append [e] events)
        refine ⟨(hstep past s e h0).mp hone, (ih hone).mp ?_⟩
        intro rest hrest
        rw [← hnext]
        exact halways (e :: rest) (List.cons_prefix_cons.mpr ⟨rfl, hrest⟩)
      · rintro ⟨hmeets, halong⟩ first hfirst
        have hone : A (past ++ [e]) (step s e) := (hstep past s e h0).mpr hmeets
        cases first with
        | nil =>
            rw [List.append_nil]
            exact h0
        | cons e' rest =>
            obtain ⟨rfl, hrest⟩ := List.cons_prefix_cons.mp hfirst
            rw [hnext]
            exact (ih hone).mpr halong rest hrest

/-- The same of the states of a run alone. -/
theorem always_iff_along {P : σ → ε → Prop} {A : σ → Prop}
    (hstep : ∀ s e, A s → (A (step s e) ↔ P s e)) {s : σ} (h0 : A s) (events : List ε) :
    (∀ past, past <+: events → A (run step s past)) ↔ Along step P s events :=
  @always_history_iff_along σ ε step P (fun _ => A) (fun _ => hstep) [] s h0 events

/-! ## Logs -/

variable {α : Type*} (inOrder : α → List α → Prop)

/-- Every entry of a log, the last of which stands first, is in order after the
entries before it. -/
def Ordered : List α → Prop
  | [] => True
  | entry :: past => inOrder entry past ∧ Ordered past

instance decidableOrdered [∀ entry past, Decidable (inOrder entry past)] :
    (log : List α) → Decidable (Ordered inOrder log)
  | [] => isTrue trivial
  | entry :: past =>
      @instDecidableAnd _ _ (inferInstance : Decidable (inOrder entry past)) (decidableOrdered past)

variable {inOrder}

/-- Entries that are always in order may be added. -/
theorem ordered_append_iff {new past : List α} (h : ∀ entry ∈ new, ∀ past, inOrder entry past) :
    Ordered inOrder (new ++ past) ↔ Ordered inOrder past := by
  induction new with
  | nil => rfl
  | cons entry new ih =>
      obtain ⟨hentry, hnew⟩ := List.forall_mem_cons.mp h
      exact (and_iff_right (hentry (new ++ past))).trans (ih hnew)

end Transition
