import Mathlib.Data.List.GetD
import Mathlib.Data.ZMod.Defs

/-!
# Rotating tables

The slots of a table are filled one after the other, over and over again, so that they hold
the latest items. The slot to be filled next holds the oldest of them.
-/

namespace RotatingTable

variable {α : Type*} {n : ℕ} {slots : Vector α (n + 1)} {next : Fin (n + 1)} {blank item : α}
  {history : List α}

/-- Going back from the next slot, the slots hold the items of the history, the latest of
which stands first, and blanks where there are none. -/
def Tracks (slots : Vector α (n + 1)) (next : Fin (n + 1)) (blank : α) (history : List α) : Prop :=
  ∀ k : Fin (n + 1), slots.get (next - 1 - k) = history.getD k blank

theorem tracks_replicate (next : Fin (n + 1)) (blank : α) :
    Tracks (Vector.replicate (n + 1) blank) next blank [] := by
  intro k
  exact Vector.getElem_replicate _

/-- Every slot is some number of steps back. -/
theorem Tracks.slot (h : Tracks slots next blank history) (i : Fin (n + 1)) :
    slots.get i = history.getD (next - 1 - i : Fin (n + 1)) blank := by
  have hback := h (next - 1 - i)
  rwa [sub_sub_cancel] at hback

theorem back_ne_next {k : Fin (n + 1)} (hk : k ≠ 0) : next - k ≠ next := by
  intro h
  exact hk (sub_eq_self.mp h)

theorem get_set_of_ne {i j : Fin (n + 1)} (h : i ≠ j) (slots : Vector α (n + 1)) (item : α) :
    (slots.set i item).get j = slots.get j :=
  Vector.getElem_set_ne _ _ fun hval => h (Fin.ext hval)

/-- The next slot is filled with the next item. -/
theorem Tracks.set (h : Tracks slots next blank history) (item : α) :
    Tracks (slots.set next item) (next + 1) blank (item :: history) := by
  intro k
  rw [add_sub_cancel_right]
  induction k using Fin.cases with
  | zero =>
      rw [sub_zero]
      exact Vector.getElem_set_self _
  | succ k =>
      have hback : next - k.succ = next - 1 - k.castSucc := by
        rw [← Fin.coeSucc_eq_succ, sub_sub, add_comm 1]
      have hne : next ≠ next - k.succ := (back_ne_next (Fin.succ_ne_zero k)).symm
      calc (slots.set next item).get (next - k.succ)
          = slots.get (next - k.succ) := get_set_of_ne hne slots item
        _ = slots.get (next - 1 - k.castSucc) := by rw [hback]
        _ = (item :: history).getD k.succ blank := h k.castSucc

/-- All but the oldest of the items are in other slots than the next. -/
theorem Tracks.exists_other (h : Tracks slots next blank history) {k : ℕ} (hk : k < n) :
    ∃ i, i ≠ next ∧ slots.get i = history.getD k blank := by
  have hback : next - (Fin.succ ⟨k, hk⟩) = next - 1 - (Fin.castSucc ⟨k, hk⟩) := by
    rw [← Fin.coeSucc_eq_succ, sub_sub, add_comm 1]
  refine ⟨next - 1 - (Fin.castSucc ⟨k, hk⟩), ?_, h _⟩
  rw [← hback]
  exact back_ne_next (Fin.succ_ne_zero _)

/-- The slot to be filled next holds the oldest item. -/
theorem Tracks.oldest (h : Tracks slots next blank history) :
    slots.get next = history.getD n blank := by
  have hback := h (Fin.last n)
  have hround : 1 + Fin.last n = 0 := (add_comm _ _).trans (Fin.last_add_one n)
  have hplace : next - 1 - Fin.last n = next := by rw [sub_sub, hround, sub_zero]
  rwa [hplace] at hback

end RotatingTable
