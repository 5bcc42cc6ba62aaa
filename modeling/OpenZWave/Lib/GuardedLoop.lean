import Mathlib.Data.Nat.Basic

/-!
# Loops with a guard

`while (going s) s = body s`, for a body that may fail, with at most a given number of turns.
The states that a loop goes through are given as a sequence.
-/

namespace GuardedLoop

variable {σ ε : Type*} (going : σ → Prop) [DecidablePred going] (body : σ → Except ε σ)

/-- `endless` is reported when the turns are used up. -/
def loop (endless : ε) : ℕ → σ → Except ε σ
  | 0, _ => .error endless
  | turns + 1, s =>
      if going s then
        match body s with
        | .ok s' => loop endless turns s'
        | .error e => .error e
      else .ok s

variable {going body} {endless : ε} {states : ℕ → σ}

/-- A loop that returns has stopped in the first state that does not meet the guard, and every
body before has returned. -/
theorem stops_of_loop {returns : ℕ → Prop}
    (hbody : ∀ k s, going (states k) → body (states k) = .ok s →
      returns k ∧ s = states (k + 1))
    {turns k : ℕ} {s : σ} (h : loop going body endless turns (states k) = .ok s) :
    ∃ n, k ≤ n ∧ ¬ going (states n) ∧ (∀ m, k ≤ m → m < n → going (states m) ∧ returns m) ∧
      s = states n := by
  induction turns generalizing k with
  | zero => cases h
  | succ turns ih =>
      rw [loop] at h
      by_cases hgoing : going (states k)
      · rw [if_pos hgoing] at h
        cases hreturned : body (states k) with
        | error e =>
            rw [hreturned] at h
            cases h
        | ok s' =>
            rw [hreturned] at h
            obtain ⟨hreturns, rfl⟩ := hbody k s' hgoing hreturned
            obtain ⟨n, hle, hstop, hbefore, heq⟩ := ih h
            refine ⟨n, Nat.le_of_succ_le hle, hstop, fun m hm hlt => ?_, heq⟩
            rcases Nat.eq_or_lt_of_le hm with rfl | hm
            · exact ⟨hgoing, hreturns⟩
            · exact hbefore m hm hlt
      · rw [if_neg hgoing] at h
        exact ⟨k, Nat.le_refl k, hgoing, fun m hm hlt => absurd hm (Nat.not_le_of_lt hlt),
          (Except.ok.inj h).symm⟩

/-- With enough turns the loop goes through the states up to the first that does not meet the
guard. -/
theorem loop_of_stops {turns k n : ℕ} (hle : k ≤ n) (hturns : n < k + turns)
    (hstop : ¬ going (states n))
    (hbefore : ∀ m, k ≤ m → m < n →
      going (states m) ∧ body (states m) = .ok (states (m + 1))) :
    loop going body endless turns (states k) = .ok (states n) := by
  induction turns generalizing k with
  | zero => omega
  | succ turns ih =>
      rw [loop]
      rcases Nat.eq_or_lt_of_le hle with rfl | hlt
      · rw [if_neg hstop]
      · obtain ⟨hgoing, hbody⟩ := hbefore k (Nat.le_refl k) hlt
        rw [if_pos hgoing, hbody]
        exact ih hlt (by omega) fun m hm => hbefore m (Nat.le_of_succ_le hm)

end GuardedLoop
