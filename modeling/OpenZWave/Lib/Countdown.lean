import Mathlib.Data.Nat.Count

/-!
# A byte that counts down and is reloaded

A counter goes down by one at each tick and is reloaded at the tick where it
stands at one. It is due at those ticks. Zero wraps round, so a counter that is
reloaded with zero comes due all the same.
-/

namespace Countdown

/-- The counter after a tick. -/
def tick (reload c : UInt8) : UInt8 := if c = 1 then reload else c - 1

/-- The counter is due at a tick. -/
def Due (reload c : UInt8) (n : Nat) : Prop := (tick reload)^[n] c = 1

instance (reload c : UInt8) : DecidablePred (Due reload c) :=
  fun _ => inferInstanceAs (Decidable (_ = _))

variable {reload c : UInt8}

theorem toNat_eq_one_iff : c.toNat = 1 ↔ c = 1 := by
  rw [← UInt8.toNat_inj]
  rfl

theorem toNat_tick (h : 1 < c.toNat) : (tick reload c).toNat = c.toNat - 1 := by
  have hone : ¬ c = 1 := fun heq => by
    rw [toNat_eq_one_iff.mpr heq] at h
    omega
  rw [tick, if_neg hone]
  exact UInt8.toNat_sub_of_le _ _ (UInt8.le_iff_toNat_le.mpr (Nat.le_of_lt h))

/-- Until it is due the counter goes down. -/
theorem toNat_iterate {n : Nat} (h : n < c.toNat) :
    ((tick reload)^[n] c).toNat = c.toNat - n := by
  induction n with
  | zero => rfl
  | succ n ih =>
      have hbefore := ih (Nat.lt_of_succ_lt h)
      rw [Function.iterate_succ_apply', toNat_tick (by omega), hbefore]
      omega

theorem due_iff_of_lt {n : Nat} (h : n < c.toNat) : Due reload c n ↔ n = c.toNat - 1 := by
  rw [Due, ← toNat_eq_one_iff, toNat_iterate h]
  omega

theorem due_add (m n : Nat) : Due reload c (m + n) ↔ Due reload ((tick reload)^[m] c) n := by
  rw [Due, Due, ← Function.iterate_add_apply, Nat.add_comm]

/-- A counter that is not zero is reloaded after as many ticks as it counts. -/
theorem iterate_reloads (h : 0 < c.toNat) : (tick reload)^[c.toNat] c = reload := by
  have hdue : Due reload c (c.toNat - 1) := (due_iff_of_lt (by omega)).mpr rfl
  calc (tick reload)^[c.toNat] c
      = tick reload ((tick reload)^[c.toNat - 1] c) := by
        rw [← Function.iterate_succ_apply' (tick reload), Nat.succ_eq_add_one,
          Nat.sub_add_cancel h]
    _ = reload := if_pos hdue

/-! ## How often the counter is due -/

/-- A counter within its reload value stays there. -/
theorem le_tick (hpos : 0 < c.toNat) (hle : c.toNat ≤ reload.toNat) :
    0 < (tick reload c).toNat ∧ (tick reload c).toNat ≤ reload.toNat := by
  by_cases hone : c.toNat = 1
  · rw [tick, if_pos (toNat_eq_one_iff.mp hone)]
    omega
  · rw [toNat_tick (by omega)]
    omega

theorem le_iterate (hpos : 0 < c.toNat) (hle : c.toNat ≤ reload.toNat) (n : Nat) :
    0 < ((tick reload)^[n] c).toNat ∧ ((tick reload)^[n] c).toNat ≤ reload.toNat := by
  induction n with
  | zero => exact ⟨hpos, hle⟩
  | succ n ih =>
      rw [Function.iterate_succ_apply']
      exact le_tick ih.1 ih.2

/-- A counter is not due before it has counted down. -/
theorem count_eq_zero {n : Nat} (h : n ≤ c.toNat - 1) : Nat.count (Due reload c) n = 0 := by
  apply Nat.count_of_forall_not
  intro m hm
  rw [due_iff_of_lt (by omega)]
  omega

/-- Zero counts as the largest number. -/
theorem tick_zero : tick reload 0 = 255 := rfl

theorem count_zero_eq_zero {n : Nat} (h : n ≤ 255) : Nat.count (Due reload 0) n = 0 := by
  apply Nat.count_of_forall_not
  intro m hm
  cases m with
  | zero => exact (by decide : ¬ (0 : UInt8) = 1)
  | succ m =>
      rw [Nat.add_comm, due_add, Function.iterate_one, tick_zero,
        due_iff_of_lt (show m < (255 : UInt8).toNat by simp; omega)]
      simp
      omega

/-- A counter within its reload value is due once in as many ticks. -/
theorem count_reload (hpos : 0 < c.toNat) (hle : c.toNat ≤ reload.toNat) :
    Nat.count (Due reload c) reload.toNat = 1 := by
  have hfirst : Nat.count (Due reload c) c.toNat = 1 := by
    have hdue : Due reload c (c.toNat - 1) := (due_iff_of_lt (by omega)).mpr rfl
    calc Nat.count (Due reload c) c.toNat
        = Nat.count (Due reload c) (c.toNat - 1 + 1) := by rw [Nat.sub_add_cancel hpos]
      _ = Nat.count (Due reload c) (c.toNat - 1) + 1 := Nat.count_succ_eq_succ_count hdue
      _ = 1 := by rw [count_eq_zero (Nat.le_refl _)]
  have hrest : (fun n => Due reload c (c.toNat + n)) = Due reload reload := by
    funext n
    rw [due_add, iterate_reloads hpos]
  calc Nat.count (Due reload c) reload.toNat
      = Nat.count (Due reload c) (c.toNat + (reload.toNat - c.toNat)) := by
        rw [Nat.add_sub_cancel' hle]
    _ = 1 + Nat.count (Due reload reload) (reload.toNat - c.toNat) := by
        rw [Nat.count_add, hfirst]
        simp only [hrest]
    _ = 1 := by rw [count_eq_zero (by omega)]

/-- A counter is due once in every `reload` consecutive ticks exactly if it stands
within its reload value. -/
theorem due_once_iff (hreload : 0 < reload.toNat) :
    (∀ start, Nat.count (Due reload c) (start + reload.toNat) =
        Nat.count (Due reload c) start + 1) ↔
      0 < c.toNat ∧ c.toNat ≤ reload.toNat := by
  constructor
  · intro honce
    have hfirst : Nat.count (Due reload c) reload.toNat = 1 := by
      simpa using honce 0
    by_contra hrange
    by_cases hzero : c = 0
    · rw [hzero, count_zero_eq_zero (by have := reload.toNat_lt; omega)] at hfirst
      cases hfirst
    · have hpos : c.toNat ≠ 0 := fun h => hzero (UInt8.toNat_inj.mp h)
      rw [count_eq_zero (by omega)] at hfirst
      cases hfirst
  · rintro ⟨hpos, hle⟩ start
    have hlater : (fun n => Due reload c (start + n)) = Due reload ((tick reload)^[start] c) := by
      funext n
      rw [due_add]
    obtain ⟨hpos', hle'⟩ := le_iterate hpos hle start
    rw [Nat.count_add]
    simp only [hlater]
    rw [count_reload hpos' hle']

/-- Every counter comes due, whatever it is reloaded with. -/
theorem exists_due (reload c : UInt8) : ∃ n, Due reload c n := by
  by_cases hzero : c = 0
  · refine ⟨1 + 254, ?_⟩
    rw [hzero, due_add, Function.iterate_one, tick_zero, due_iff_of_lt (by simp)]
    rfl
  · have hpos : c.toNat ≠ 0 := fun h => hzero (UInt8.toNat_inj.mp h)
    exact ⟨c.toNat - 1, (due_iff_of_lt (by omega)).mpr rfl⟩

end Countdown
