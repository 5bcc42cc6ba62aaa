import Mathlib.Data.Nat.Basic

/-!
# Loops that may not end

A loop is the function that makes one turn: it leaves the loop with a result or goes on in
another state. The loop returns a result if enough turns give it.
-/

namespace WhileLoop

variable {σ α : Type*} (turn : σ → α ⊕ σ)

/-- The result after at most a number of turns. -/
def run : ℕ → σ → Option α
  | 0, _ => none
  | turns + 1, s =>
      match turn s with
      | .inl a => some a
      | .inr s' => run turns s'

/-- The loop ends with the result. -/
def Returns (s : σ) (a : α) : Prop := ∃ turns, run turn turns s = some a

/-- The loop ends. -/
def Terminates (s : σ) : Prop := ∃ a, Returns turn s a

variable {turn} {s s' : σ} {a b : α}

theorem returns_of_inl (h : turn s = .inl a) : Returns turn s b ↔ a = b := by
  constructor
  · rintro ⟨turns, hrun⟩
    cases turns with
    | zero => cases hrun
    | succ turns =>
        rw [run, h] at hrun
        exact Option.some.inj hrun
  · rintro rfl
    refine ⟨1, ?_⟩
    rw [run, h]

theorem returns_of_inr (h : turn s = .inr s') : Returns turn s b ↔ Returns turn s' b := by
  constructor
  · rintro ⟨turns, hrun⟩
    cases turns with
    | zero => cases hrun
    | succ turns =>
        rw [run, h] at hrun
        exact ⟨turns, hrun⟩
  · rintro ⟨turns, hrun⟩
    refine ⟨turns + 1, ?_⟩
    rw [run, h]
    exact hrun

theorem returns_congr (h : turn s = turn s') : Returns turn s b ↔ Returns turn s' b := by
  cases hturn : turn s with
  | inl a => rw [returns_of_inl hturn, returns_of_inl (h.symm.trans hturn)]
  | inr next => rw [returns_of_inr hturn, returns_of_inr (h.symm.trans hturn)]

/-- A loop has one result at most. -/
theorem returns_unique (ha : Returns turn s a) (hb : Returns turn s b) : a = b := by
  obtain ⟨turns, hrun⟩ := ha
  induction turns generalizing s with
  | zero => cases hrun
  | succ turns ih =>
      cases hturn : turn s with
      | inl c =>
          rw [run, hturn] at hrun
          exact (Option.some.inj hrun).symm.trans ((returns_of_inl hturn).mp hb)
      | inr next =>
          rw [run, hturn] at hrun
          exact ih ((returns_of_inr hturn).mp hb) hrun

theorem terminates_of_inl (h : turn s = .inl a) : Terminates turn s :=
  ⟨a, (returns_of_inl h).mpr rfl⟩

/-- A loop that goes on in every state of a set does not end there. -/
theorem not_terminates {I : σ → Prop} (hturn : ∀ s, I s → ∃ s', turn s = .inr s' ∧ I s')
    (h : I s) : ¬ Terminates turn s := by
  rintro ⟨a, turns, hrun⟩
  induction turns generalizing s with
  | zero => cases hrun
  | succ turns ih =>
      obtain ⟨s', hnext, hI⟩ := hturn s h
      rw [run, hnext] at hrun
      exact ih hI hrun

end WhileLoop
