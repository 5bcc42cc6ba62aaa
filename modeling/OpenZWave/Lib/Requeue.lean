import Mathlib.Data.List.Dedup

/-!
# Queues without repetition

A queue that keeps one item for each key: an arriving item removes the items of
its key and takes the newest position. The keys of the queue after a history
are the keys of the history, each at its last occurrence.
-/

namespace Requeue

variable {α κ : Type*} [DecidableEq κ]

/-- One arrival. -/
def requeue (key : α → κ) (queue : List α) (a : α) : List α :=
  queue.filter (fun b => key b ≠ key a) ++ [a]

theorem map_requeue (key : α → κ) (queue : List α) (a : α) :
    (requeue key queue a).map key = (queue.map key).filter (· ≠ key a) ++ [key a] := by
  rw [requeue, List.map_append, List.filter_map]
  rfl

/-- No key occurs twice after an arrival if none did before. -/
theorem nodup_requeue {key : α → κ} {queue : List α} (h : (queue.map key).Nodup) (a : α) :
    ((requeue key queue a).map key).Nodup := by
  rw [map_requeue]
  refine List.Nodup.append (h.filter _) (List.nodup_singleton _) ?_
  intro k hk hk'
  rw [List.mem_singleton] at hk'
  have hne := (List.mem_filter.mp hk).2
  exact absurd hk' (of_decide_eq_true hne)

/-- Earlier occurrences of a key that comes again do not matter. -/
theorem dedup_filter_append (l t : List κ) (k : κ) :
    (l.filter (· ≠ k) ++ k :: t).dedup = (l ++ k :: t).dedup := by
  induction l with
  | nil => rfl
  | cons x l ih =>
      rcases eq_or_ne x k with rfl | hne
      · have hmem : x ∈ l ++ x :: t := by simp
        rw [List.filter_cons_of_neg (by simp), ih, List.cons_append, List.dedup_cons_of_mem hmem]
      · have hsame : x ∈ l.filter (· ≠ k) ++ k :: t ↔ x ∈ l ++ k :: t := by
          simp [hne]
        rw [List.filter_cons_of_pos (by simpa using hne), List.cons_append, List.cons_append]
        rcases Decidable.em (x ∈ l ++ k :: t) with hmem | hmem
        · rw [List.dedup_cons_of_mem hmem, List.dedup_cons_of_mem (hsame.mpr hmem), ih]
        · rw [List.dedup_cons_of_notMem hmem,
            List.dedup_cons_of_notMem (fun h => hmem (hsame.mp h)), ih]

/-- After any number of arrivals each key stands at its last occurrence. -/
theorem map_foldl_requeue (key : α → κ) (history queue : List α) (h : (queue.map key).Nodup) :
    (history.foldl (requeue key) queue).map key = (queue.map key ++ history.map key).dedup := by
  induction history generalizing queue with
  | nil => rw [List.foldl_nil, List.map_nil, List.append_nil, h.dedup]
  | cons a history ih =>
      rw [List.foldl_cons, ih _ (nodup_requeue h a), map_requeue, List.append_assoc,
        List.singleton_append, dedup_filter_append, List.map_cons]

/-! ## Copies by a relation -/

section

variable (same : α → α → Bool)

/-- One arrival that removes the copies of an item before it. -/
def arrive (queue : List α) (a : α) : List α := queue.filter (fun b => !same b a) ++ [a]

/-- The items of which no later one is a copy. -/
def lastOf : List α → List α
  | [] => []
  | a :: l => if l.any (same a) then lastOf l else a :: lastOf l

/-- A history leaves the items of the queue that no arrival copies, and of the
arrivals the last of each copy. -/
theorem foldl_arrive (history queue : List α) :
    history.foldl (arrive same) queue =
      queue.filter (fun b => history.all fun a => !same b a) ++ lastOf same history := by
  induction history generalizing queue with
  | nil => simp [lastOf]
  | cons a history ih =>
      have hany : (history.all fun b => !same a b) = !history.any (same a) := by
        rw [List.not_any_eq_all_not]
      rw [List.foldl_cons, ih, arrive, List.filter_append, List.filter_filter, List.append_assoc,
        List.filter_singleton, hany, lastOf]
      congr 1
      · apply List.filter_congr
        intro b _
        rw [List.all_cons, Bool.and_comm]
      · cases history.any (same a) <;> rfl

theorem sublist_lastOf (l : List α) : (lastOf same l).Sublist l := by
  induction l with
  | nil => exact List.Sublist.refl []
  | cons a l ih =>
      rw [lastOf]
      split
      · exact ih.cons a
      · exact ih.cons_cons a

/-- No kept item is followed by a copy. -/
theorem pairwise_lastOf (l : List α) : (lastOf same l).Pairwise fun a b => same a b = false := by
  induction l with
  | nil => exact List.Pairwise.nil
  | cons a l ih =>
      rw [lastOf]
      split
      · exact ih
      · rename_i hany
        refine List.Pairwise.cons ?_ ih
        intro b hb
        have hmem := (sublist_lastOf same l).subset hb
        cases hab : same a b with
        | false => rfl
        | true => exact absurd (List.any_eq_true.mpr ⟨b, hmem, hab⟩) hany

/-- An item is kept unless a copy of it comes later. -/
theorem mem_lastOf_append {before after : List α} {a : α}
    (hlast : ∀ b ∈ after, same a b = false) : a ∈ lastOf same (before ++ a :: after) := by
  induction before with
  | nil =>
      have hany : after.any (same a) = false := by
        rw [List.any_eq_false]
        intro b hb
        rw [hlast b hb]
        exact Bool.false_ne_true
      rw [List.nil_append, lastOf, hany]
      exact List.mem_cons_self
  | cons x before ih =>
      rw [List.cons_append, lastOf]
      split
      · exact ih
      · exact List.mem_cons_of_mem x ih

end

end Requeue
