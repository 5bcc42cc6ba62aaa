import Mathlib.Data.List.Sort
import Mathlib.Data.List.TakeWhile

/-!
# Multimaps

A multimap is a list of entries in ascending order of their keys. A new entry goes behind
those with its key. What is found for a key is the rest of the list from its first entry.
-/

namespace Multimap

variable {E K : Type*} [LinearOrder K] (key : E → K)

def Sorted (l : List E) : Prop := l.Pairwise fun a b => key a ≤ key b

/-- Put an entry behind all that are not above it. -/
def insert (e : E) (l : List E) : List E := l.orderedInsert (fun a b => key a < key b) e

/-- The entries from the first one with a key on. -/
def find (k : K) (l : List E) : List E := l.dropWhile fun a => decide (key a ≠ k)

variable {key} {e : E} {k : K} {l : List E}

/-! ## Insertion -/

theorem perm_insert (e : E) (l : List E) : (insert key e l).Perm (e :: l) :=
  List.perm_orderedInsert _ e l

theorem mem_insert {a : E} : a ∈ insert key e l ↔ a = e ∨ a ∈ l := List.mem_orderedInsert _

theorem nodup_insert (hl : l.Nodup) (he : e ∉ l) : (insert key e l).Nodup :=
  (perm_insert e l).nodup_iff.mpr (List.nodup_cons.mpr ⟨he, hl⟩)

theorem sorted_insert (e : E) (h : Sorted key l) : Sorted key (insert key e l) := by
  induction l with
  | nil => exact List.pairwise_singleton _ e
  | cons a l ih =>
      obtain ⟨hfirst, hrest⟩ := List.pairwise_cons.mp h
      rw [insert, List.orderedInsert_cons]
      by_cases hlt : key e < key a
      · rw [if_pos hlt]
        refine List.pairwise_cons.mpr ⟨fun b hb => ?_, h⟩
        cases List.mem_cons.mp hb with
        | inl hba => exact hba ▸ le_of_lt hlt
        | inr hb => exact le_of_lt (lt_of_lt_of_le hlt (hfirst b hb))
      · rw [if_neg hlt]
        refine List.pairwise_cons.mpr ⟨fun b hb => ?_, ih hrest⟩
        cases mem_insert.mp hb with
        | inl hbe => exact hbe ▸ le_of_not_gt hlt
        | inr hb => exact hfirst b hb

/-- An entry above which there is none goes to the end. -/
theorem insert_of_le (h : ∀ a ∈ l, key a ≤ key e) : insert key e l = l ++ [e] := by
  induction l with
  | nil => rfl
  | cons a l ih =>
      obtain ⟨hfirst, hrest⟩ := List.forall_mem_cons.mp h
      rw [insert, List.orderedInsert_cons, if_neg (not_lt_of_ge hfirst), List.cons_append]
      exact congrArg (a :: ·) (ih hrest)

/-! ## Search -/

/-- When no entry is below a key, those with the key come first. -/
theorem takeWhile_eq_filter (h : Sorted key l) (hle : ∀ a ∈ l, k ≤ key a) :
    l.takeWhile (fun a => decide (key a = k)) = l.filter fun a => decide (key a = k) := by
  induction l with
  | nil => rfl
  | cons a l ih =>
      obtain ⟨hfirst, hrest⟩ := List.pairwise_cons.mp h
      obtain ⟨hka, hkl⟩ := List.forall_mem_cons.mp hle
      by_cases hkey : key a = k
      · simp [hkey, ih hrest hkl]
      · have habove : ∀ b ∈ l, ¬key b = k := by
          intro b hb
          exact ne_of_gt (lt_of_lt_of_le (lt_of_le_of_ne hka (Ne.symm hkey)) (hfirst b hb))
        have hnone : l.filter (fun b => decide (key b = k)) = [] :=
          List.filter_eq_nil_iff.mpr (by simpa using habove)
        simp [hkey, hnone]

/-- Of the entries from the first one with a key on, those with the key are all there are. -/
theorem takeWhile_find (h : Sorted key l) :
    (find key k l).takeWhile (fun a => decide (key a = k)) =
      l.filter fun a => decide (key a = k) := by
  induction l with
  | nil => rfl
  | cons a l ih =>
      obtain ⟨hfirst, hrest⟩ := List.pairwise_cons.mp h
      by_cases hkey : key a = k
      · rw [find, List.dropWhile_cons_of_neg (by simp [hkey])]
        apply takeWhile_eq_filter h
        rw [List.forall_mem_cons]
        exact ⟨le_of_eq hkey.symm, fun b hb => hkey ▸ hfirst b hb⟩
      · rw [find, List.dropWhile_cons_of_pos (by simp [hkey]),
          List.filter_cons_of_neg (by simp [hkey])]
        exact ih hrest

end Multimap
