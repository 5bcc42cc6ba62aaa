import Mathlib.Order.Lattice
import Mathlib.Data.List.Basic
import Mathlib.Order.Basic
import Mathlib.Order.Defs.LinearOrder

/-!
# Sorted tables

A list of entries in strictly ascending order of their keys is a finite map. An entry is
put in at the first key that is not below its own, in the place of the entry that has it.
-/

namespace SortedTable

variable {E K : Type*} [LinearOrder K] (key : E → K)

def Sorted (l : List E) : Prop := l.Pairwise fun a b => key a < key b

/-- The number of entries in front of a key. -/
def position (k : K) : List E → ℕ
  | [] => 0
  | a :: l => if key a < k then position k l + 1 else 0

/-- The entry with a key. -/
def lookup (k : K) (l : List E) : Option E := l.find? fun a => decide (key a = k)

/-- Put an entry in, or in the place of the one with its key. -/
def upsert (e : E) : List E → List E
  | [] => [e]
  | a :: l =>
      if key a < key e then a :: upsert e l
      else if key a = key e then e :: l
      else e :: a :: l

variable {key}

section Position

variable {k : K} {l : List E} {a : E}

@[simp] theorem position_nil (k : K) : position key k [] = 0 := rfl

theorem position_cons_of_lt (h : key a < k) (l : List E) :
    position key k (a :: l) = position key k l + 1 := if_pos h

theorem position_cons_of_not_lt (h : ¬ key a < k) (l : List E) :
    position key k (a :: l) = 0 := if_neg h

theorem position_le_length (k : K) (l : List E) : position key k l ≤ l.length := by
  induction l with
  | nil => exact Nat.le_refl 0
  | cons a l ih =>
      rw [position]
      split
      · exact Nat.succ_le_succ ih
      · exact Nat.zero_le _

theorem lookup_cons_self (h : key a = k) (l : List E) : lookup key k (a :: l) = some a :=
  List.find?_cons_of_pos (decide_eq_true h)

theorem lookup_cons_of_ne (h : key a ≠ k) (l : List E) :
    lookup key k (a :: l) = lookup key k l :=
  List.find?_cons_of_neg (by simpa using h)

/-- The key is not in a table whose keys are all above it. -/
theorem lookup_eq_none_of_lt (h : ∀ a ∈ l, k < key a) : lookup key k l = none := by
  apply List.find?_eq_none.mpr
  intro a ha heq
  exact absurd (of_decide_eq_true heq) (h a ha).ne'

/-- In a sorted table a key is at its position or nowhere. -/
theorem lookup_eq_position (h : Sorted key l) :
    lookup key k l = l[position key k l]?.filter fun a => decide (key a = k) := by
  induction l with
  | nil => rfl
  | cons a l ih =>
      obtain ⟨habove, htail⟩ := List.pairwise_cons.mp h
      rcases lt_trichotomy (key a) k with hlt | heq | hgt
      · rw [lookup_cons_of_ne hlt.ne, position_cons_of_lt hlt, ih htail, List.getElem?_cons_succ]
      · rw [lookup_cons_self heq, position_cons_of_not_lt heq.not_lt, List.getElem?_cons_zero,
          Option.filter_some, if_pos (decide_eq_true heq)]
      · have hnone : lookup key k l = none :=
          lookup_eq_none_of_lt fun b hb => hgt.trans (habove b hb)
        rw [lookup_cons_of_ne hgt.ne', hnone, position_cons_of_not_lt hgt.not_gt,
          List.getElem?_cons_zero, Option.filter_some, if_neg (by simpa using hgt.ne')]

/-- In a sorted table an entry is found under its key. -/
theorem lookup_eq_some_iff (h : Sorted key l) :
    lookup key k l = some a ↔ a ∈ l ∧ key a = k := by
  induction l with
  | nil => simp [lookup]
  | cons b l ih =>
      obtain ⟨habove, htail⟩ := List.pairwise_cons.mp h
      by_cases hb : key b = k
      · rw [lookup_cons_self hb, Option.some_inj, List.mem_cons]
        constructor
        · rintro rfl
          exact ⟨.inl rfl, hb⟩
        · rintro ⟨rfl | ha, hka⟩
          · rfl
          · exact absurd (hb.trans hka.symm) (habove a ha).ne
      · rw [lookup_cons_of_ne hb, ih htail, List.mem_cons]
        constructor
        · rintro ⟨ha, hka⟩
          exact ⟨.inr ha, hka⟩
        · rintro ⟨rfl | ha, hka⟩
          · exact absurd hka hb
          · exact ⟨ha, hka⟩

end Position

section Upsert

variable {e a : E} {l : List E}

theorem mem_upsert (h : a ∈ upsert key e l) : a = e ∨ a ∈ l := by
  induction l with
  | nil => exact .inl (List.mem_singleton.mp h)
  | cons b l ih =>
      rw [upsert] at h
      split at h
      · rcases List.mem_cons.mp h with rfl | ha
        · exact .inr List.mem_cons_self
        · exact (ih ha).imp_right (List.mem_cons_of_mem b)
      split at h
      · exact (List.mem_cons.mp h).imp_right (List.mem_cons_of_mem b)
      · exact List.mem_cons.mp h

theorem sorted_upsert (e : E) (h : Sorted key l) : Sorted key (upsert key e l) := by
  induction l with
  | nil => exact List.pairwise_singleton _ e
  | cons b l ih =>
      obtain ⟨habove, htail⟩ := List.pairwise_cons.mp h
      rw [upsert]
      split
      · rename_i hlt
        refine List.pairwise_cons.mpr ⟨fun a ha => ?_, ih htail⟩
        rcases mem_upsert ha with rfl | ha
        · exact hlt
        · exact habove a ha
      split
      · rename_i heq
        exact List.pairwise_cons.mpr ⟨fun a ha => heq ▸ habove a ha, htail⟩
      · rename_i hnot hne
        have hgt : key e < key b := lt_of_le_of_ne (not_lt.mp hnot) (Ne.symm hne)
        refine List.pairwise_cons.mpr ⟨fun a ha => ?_, h⟩
        rcases List.mem_cons.mp ha with rfl | ha
        · exact hgt
        · exact hgt.trans (habove a ha)

/-- The map has the new entry under its key, and the others as before. -/
theorem lookup_upsert (e : E) (k : K) (l : List E) :
    lookup key k (upsert key e l) = if k = key e then some e else lookup key k l := by
  induction l with
  | nil =>
      rw [upsert]
      split
      · rename_i heq
        exact lookup_cons_self heq.symm []
      · rename_i hne
        exact lookup_cons_of_ne (Ne.symm hne) []
  | cons b l ih =>
      rw [upsert]
      split
      · rename_i hlt
        by_cases hb : key b = k
        · rw [lookup_cons_self hb, lookup_cons_self hb, if_neg (hb ▸ hlt.ne)]
        · rw [lookup_cons_of_ne hb, lookup_cons_of_ne hb, ih]
      split
      · rename_i heq
        by_cases hk : k = key e
        · rw [if_pos hk, lookup_cons_self hk.symm]
        · rw [if_neg hk, lookup_cons_of_ne (Ne.symm hk), lookup_cons_of_ne (heq ▸ Ne.symm hk)]
      · by_cases hk : k = key e
        · rw [if_pos hk, lookup_cons_self hk.symm]
        · rw [if_neg hk, lookup_cons_of_ne (Ne.symm hk)]

/-- An entry whose key is there takes its place; another is inserted. -/
theorem upsert_eq (e : E) (l : List E) :
    upsert key e l =
      if l[position key (key e) l]?.any (fun a => decide (key a = key e)) = true then
        l.set (position key (key e) l) e
      else l.insertIdx (position key (key e) l) e := by
  induction l with
  | nil => rfl
  | cons b l ih =>
      rw [upsert]
      split
      · rename_i hlt
        rw [ih, position_cons_of_lt hlt, List.getElem?_cons_succ, List.set_cons_succ,
          List.insertIdx_succ_cons]
        split <;> rfl
      · rename_i hnot
        rw [position_cons_of_not_lt hnot, List.getElem?_cons_zero, Option.any_some]
        by_cases heq : key b = key e
        · rw [if_pos heq, if_pos (decide_eq_true heq)]
          rfl
        · rw [if_neg heq, if_neg (by simpa using heq)]
          rfl

/-- An entry whose key is not there is added to the others. -/
theorem perm_upsert (h : lookup key (key e) l = none) : (upsert key e l).Perm (e :: l) := by
  induction l with
  | nil => exact List.Perm.refl _
  | cons b l ih =>
      have hne : key b ≠ key e := fun heq => by
        rw [lookup_cons_self heq] at h
        cases h
      rw [lookup_cons_of_ne hne] at h
      rw [upsert, if_neg hne]
      split
      · exact ((ih h).cons b).trans (List.Perm.swap e b l)
      · exact List.Perm.refl _

theorem upsert_of_lt (h : ∀ a ∈ l, key a < key e) : upsert key e l = l ++ [e] := by
  induction l with
  | nil => rfl
  | cons b l ih =>
      obtain ⟨hb, hl⟩ := List.forall_mem_cons.mp h
      rw [upsert, if_pos hb, ih hl]
      rfl

end Upsert

theorem Sorted.eraseIdx {l : List E} (h : Sorted key l) (i : ℕ) : Sorted key (l.eraseIdx i) :=
  h.sublist (List.eraseIdx_sublist l i)

end SortedTable
