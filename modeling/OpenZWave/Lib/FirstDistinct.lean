import Mathlib.Data.List.Induction

/-!
# The first distinct items

`firstDistinct n items` are the first `n` distinct items of a list, in their order. A loop
that appends each item it has not chosen yet, as long as there is room, chooses them.
-/

namespace FirstDistinct

variable {α : Type*} [DecidableEq α] (n : ℕ)

def firstDistinct (items : List α) : List α := items.eraseDups.take n

/-- One turn: the item is appended unless it is chosen already or there is no room. -/
def pick (chosen : List α) (item : α) : List α :=
  if item ∈ chosen ∨ n ≤ chosen.length then chosen else chosen ++ [item]

@[simp] theorem firstDistinct_nil : firstDistinct n ([] : List α) = [] := List.take_nil

theorem length_firstDistinct_le (items : List α) : (firstDistinct n items).length ≤ n :=
  List.length_take_le n _

theorem mem_eraseDups {items : List α} {item : α} : item ∈ items.eraseDups ↔ item ∈ items := by
  induction items using List.reverseRecOn with
  | nil => rfl
  | append_singleton items last ih =>
      rw [List.eraseDups_append, List.mem_append, List.mem_append, ih, List.mem_singleton]
      by_cases hold : last ∈ items
      · simp only [List.removeAll, List.filter_cons, List.elem_eq_mem, hold, decide_true,
          Bool.not_true, Bool.false_eq_true, if_false, List.filter_nil, List.eraseDups_nil,
          List.not_mem_nil, or_false]
        exact ⟨Or.inl, fun h => h.elim id fun heq => heq ▸ hold⟩
      · simp [List.removeAll, hold, List.eraseDups_cons]

/-- Later items do not matter when there is no room left. -/
theorem firstDistinct_append_of_full {items : List α} (hfull : n ≤ (firstDistinct n items).length)
    (later : List α) : firstDistinct n (items ++ later) = firstDistinct n items := by
  have hlong : n ≤ items.eraseDups.length :=
    Nat.le_trans hfull (List.length_take_le' n items.eraseDups)
  rw [firstDistinct, List.eraseDups_append, List.take_append_of_le_length hlong, firstDistinct]

/-- With room left, every item is chosen. -/
theorem firstDistinct_of_room {items : List α} (hroom : (firstDistinct n items).length < n) :
    firstDistinct n items = items.eraseDups := by
  rw [firstDistinct, List.length_take] at hroom
  exact List.take_of_length_le (by omega)

theorem mem_firstDistinct_of_room {items : List α} (hroom : (firstDistinct n items).length < n)
    {item : α} : item ∈ firstDistinct n items ↔ item ∈ items := by
  rw [firstDistinct_of_room n hroom, mem_eraseDups]

/-- Items that have all occurred add nothing. -/
theorem firstDistinct_append_of_subset {items later : List α} (h : later ⊆ items) :
    firstDistinct n (items ++ later) = firstDistinct n items := by
  have hnone : later.removeAll items = [] := by
    rw [List.removeAll, List.filter_eq_nil_iff]
    intro item hitem
    simp [h hitem]
  rw [firstDistinct, List.eraseDups_append, hnone, List.eraseDups_nil, List.append_nil,
    firstDistinct]

theorem pick_firstDistinct (items : List α) (item : α) :
    pick n (firstDistinct n items) item = firstDistinct n (items ++ [item]) := by
  rcases Nat.lt_or_ge (firstDistinct n items).length n with hroom | hfull
  · by_cases hold : item ∈ items
    · have hchosen := (mem_firstDistinct_of_room n hroom).mpr hold
      rw [pick, if_pos (Or.inl hchosen), firstDistinct_append_of_subset n (by simpa using hold)]
    · have hnew : [item].removeAll items = [item] := by
        simp [List.removeAll, hold]
      have hshort : items.eraseDups.length < n := firstDistinct_of_room n hroom ▸ hroom
      have hfresh : ¬ (item ∈ firstDistinct n items ∨ n ≤ (firstDistinct n items).length) := by
        rw [mem_firstDistinct_of_room n hroom]
        exact fun h => h.elim hold (Nat.not_le_of_lt hroom)
      rw [pick, if_neg hfresh, firstDistinct_of_room n hroom, firstDistinct,
        List.eraseDups_append, hnew, List.take_of_length_le]
      · rfl
      · rw [List.length_append]
        exact hshort
  · rw [pick, if_pos (Or.inr hfull), firstDistinct_append_of_full n hfull]

/-- The loop chooses the first distinct items. -/
theorem foldl_pick (before items : List α) :
    items.foldl (pick n) (firstDistinct n before) = firstDistinct n (before ++ items) := by
  induction items generalizing before with
  | nil => rw [List.foldl_nil, List.append_nil]
  | cons item items ih =>
      rw [List.foldl_cons, pick_firstDistinct, ih, List.append_assoc, List.singleton_append]

theorem prefix_firstDistinct_append (items later : List α) :
    firstDistinct n items <+: firstDistinct n (items ++ later) := by
  rw [firstDistinct, firstDistinct, List.eraseDups_append, List.prefix_take_iff]
  exact ⟨(List.take_prefix n _).trans (List.prefix_append _ _), List.length_take_le n _⟩

/-- Later items add nothing exactly if there is no room for them or they have all occurred. -/
theorem firstDistinct_append_eq_iff {items later : List α} :
    firstDistinct n (items ++ later) = firstDistinct n items ↔
      n ≤ (firstDistinct n items).length ∨ later ⊆ items := by
  constructor
  · intro h
    rcases Nat.lt_or_ge (firstDistinct n items).length n with hroom | hfull
    · refine Or.inr fun item hitem => ?_
      rw [← mem_firstDistinct_of_room n hroom, ← h, mem_firstDistinct_of_room n (h ▸ hroom)]
      exact List.mem_append_right items hitem
    · exact Or.inl hfull
  · rintro (hfull | hsubset)
    · exact firstDistinct_append_of_full n hfull later
    · exact firstDistinct_append_of_subset n hsubset

theorem firstDistinct_append_of_eq {front items : List α}
    (h : firstDistinct n front = firstDistinct n items) :
    firstDistinct n (front ++ items) = firstDistinct n items := by
  rw [← h, firstDistinct_append_eq_iff]
  rcases Nat.lt_or_ge (firstDistinct n front).length n with hroom | hfull
  · refine Or.inr fun item hitem => ?_
    rwa [← mem_firstDistinct_of_room n hroom, h, mem_firstDistinct_of_room n (h ▸ hroom)]
  · exact Or.inl hfull

/-- Items in front do not matter exactly if their choice is a beginning of the other one. -/
theorem firstDistinct_front_eq_iff {front items : List α} :
    firstDistinct n (front ++ items) = firstDistinct n items ↔
      firstDistinct n front <+: firstDistinct n items := by
  constructor
  · intro h
    rw [← h]
    exact prefix_firstDistinct_append n front items
  · intro hbegins
    induction items using List.reverseRecOn with
    | nil =>
        rw [firstDistinct_nil] at hbegins
        have hnone := List.prefix_nil.mp hbegins
        rw [List.append_nil, hnone, firstDistinct_nil]
    | append_singleton items last ih =>
        have hstep := pick_firstDistinct n items last
        rw [← hstep, pick] at hbegins
        split at hbegins
        · rw [← List.append_assoc, ← pick_firstDistinct, ih hbegins, hstep]
        · rename_i hnew
          rcases List.prefix_concat_iff.mp hbegins with heq | hshort
          · refine firstDistinct_append_of_eq n ?_
            rw [heq, ← hstep, pick, if_neg hnew]
          · rw [← List.append_assoc, ← pick_firstDistinct, ih hshort, hstep]

/-- What stands around a list does not matter exactly if it neither comes first nor adds
anything. -/
theorem firstDistinct_around_eq_iff {front items later : List α} :
    firstDistinct n (front ++ (items ++ later)) = firstDistinct n items ↔
      firstDistinct n front <+: firstDistinct n items ∧
        (n ≤ (firstDistinct n items).length ∨ later ⊆ items) := by
  rw [← List.append_assoc]
  constructor
  · intro h
    have hbegins : firstDistinct n front <+: firstDistinct n items := by
      rw [← h, List.append_assoc]
      exact prefix_firstDistinct_append n front _
    have hfront := (firstDistinct_front_eq_iff n).mpr hbegins
    refine ⟨hbegins, ?_⟩
    rcases Nat.lt_or_ge (firstDistinct n items).length n with hroom | hfull
    · refine Or.inr fun item hitem => ?_
      rw [← mem_firstDistinct_of_room n hroom, ← h]
      rw [← h] at hroom
      exact (mem_firstDistinct_of_room n hroom).mpr (List.mem_append_right _ hitem)
    · exact Or.inl hfull
  · rintro ⟨hbegins, hlater⟩
    have hfront := (firstDistinct_front_eq_iff n).mpr hbegins
    refine Eq.trans ((firstDistinct_append_eq_iff n).mpr ?_) hfront
    rw [hfront]
    exact hlater.imp_right fun hsubset item hitem => List.mem_append_right _ (hsubset hitem)

end FirstDistinct
