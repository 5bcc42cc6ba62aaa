import Mathlib.Data.List.Nodup

/-!
# Sweeps over a table

A sweep visits keys one after the other. A visit reads and changes the entry of its own
key only, and appends to a log what this entry gave rise to. After a sweep over distinct
keys every entry has changed as if it had been visited alone, and the log holds what the
entries gave rise to before the sweep, in the order of the visits.
-/

namespace Sweep

variable {S K V L : Type*}

/-- What a visit does, in the states of an invariant. -/
structure Visits (inv : S → Prop) (get : S → K → V) (log : S → List L) (visit : S → K → S)
    (entry : K → V → V) (entries : K → V → List L) (keys : List K) : Prop where
  keeps : ∀ s, inv s → ∀ k ∈ keys, inv (visit s k)
  own : ∀ s, inv s → ∀ k ∈ keys, get (visit s k) k = entry k (get s k)
  other : ∀ s, inv s → ∀ k ∈ keys, ∀ k', k' ≠ k → get (visit s k) k' = get s k'
  logs : ∀ s, inv s → ∀ k ∈ keys, log (visit s k) = log s ++ entries k (get s k)

section

variable {inv : S → Prop} {get : S → K → V} {log : S → List L} {visit : S → K → S}
  {entry : K → V → V} {entries : K → V → List L} {keys : List K}

theorem Visits.tail {k : K} (h : Visits inv get log visit entry entries (k :: keys)) :
    Visits inv get log visit entry entries keys where
  keeps s hs k' hk' := h.keeps s hs k' (List.mem_cons_of_mem k hk')
  own s hs k' hk' := h.own s hs k' (List.mem_cons_of_mem k hk')
  other s hs k' hk' := h.other s hs k' (List.mem_cons_of_mem k hk')
  logs s hs k' hk' := h.logs s hs k' (List.mem_cons_of_mem k hk')

/-- A key that is not visited keeps its entry. -/
theorem Visits.foldl_other (h : Visits inv get log visit entry entries keys) {s : S} (hs : inv s)
    {k : K} (hk : k ∉ keys) : get (keys.foldl visit s) k = get s k := by
  induction keys generalizing s with
  | nil => rfl
  | cons k' keys ih =>
      obtain ⟨hne, hmem⟩ := not_or.mp (mt List.mem_cons.mpr hk)
      have hnext := ih h.tail (h.keeps s hs k' List.mem_cons_self) hmem
      exact hnext.trans (h.other s hs k' List.mem_cons_self k hne)

/-- A key that is visited has its entry changed once. -/
theorem Visits.foldl_own (h : Visits inv get log visit entry entries keys) {s : S} (hs : inv s)
    (hnodup : keys.Nodup) {k : K} (hk : k ∈ keys) :
    get (keys.foldl visit s) k = entry k (get s k) := by
  induction keys generalizing s with
  | nil => cases hk
  | cons k' keys ih =>
      obtain ⟨hnew, hrest⟩ := List.nodup_cons.mp hnodup
      have hinv := h.keeps s hs k' List.mem_cons_self
      rcases List.mem_cons.mp hk with rfl | hmem
      · exact (h.tail.foldl_other hinv hnew).trans (h.own s hs k List.mem_cons_self)
      · have hne : k ≠ k' := fun heq => hnew (heq ▸ hmem)
        rw [List.foldl_cons, ih h.tail hinv hrest hmem, h.other s hs k' List.mem_cons_self k hne]

theorem Visits.foldl_log (h : Visits inv get log visit entry entries keys) {s : S} (hs : inv s)
    (hnodup : keys.Nodup) :
    log (keys.foldl visit s) = log s ++ keys.flatMap fun k => entries k (get s k) := by
  induction keys generalizing s with
  | nil => exact (List.append_nil _).symm
  | cons k keys ih =>
      obtain ⟨hnew, hrest⟩ := List.nodup_cons.mp hnodup
      have hsame : keys.flatMap (fun k' => entries k' (get (visit s k) k')) =
          keys.flatMap fun k' => entries k' (get s k') := by
        apply List.flatMap_congr
        intro k' hk'
        rw [h.other s hs k List.mem_cons_self k' fun heq => hnew (heq ▸ hk')]
      rw [List.foldl_cons, ih h.tail (h.keeps s hs k List.mem_cons_self) hrest, hsame,
        h.logs s hs k List.mem_cons_self, List.flatMap_cons, List.append_assoc]

/-- What only one of the distinct keys logs is in the log as often as this key logs it. -/
theorem count_flatMap [DecidableEq L] {f : K → List L} (hnodup : keys.Nodup) {k : K} {l : L}
    (hk : k ∈ keys) (h : ∀ k' ∈ keys, k' ≠ k → l ∉ f k') :
    (keys.flatMap f).count l = (f k).count l := by
  induction keys with
  | nil => cases hk
  | cons k' keys ih =>
      obtain ⟨hnew, hrest⟩ := List.nodup_cons.mp hnodup
      rw [List.flatMap_cons, List.count_append]
      rcases List.mem_cons.mp hk with rfl | hmem
      · have hnone : (keys.flatMap f).count l = 0 := by
          rw [List.count_eq_zero]
          intro hl
          obtain ⟨k'', hk'', hl⟩ := List.mem_flatMap.mp hl
          exact h k'' (List.mem_cons_of_mem k hk'') (fun heq => hnew (heq ▸ hk'')) hl
        rw [hnone, Nat.add_zero]
      · have hne : k' ≠ k := fun heq => hnew (heq ▸ hmem)
        rw [List.count_eq_zero.mpr (h k' List.mem_cons_self hne), Nat.zero_add]
        exact ih hrest hmem fun k'' hk'' => h k'' (List.mem_cons_of_mem k' hk'')

end

/-- In what the distinct keys contribute, the first element of a key is the first that it
contributes. -/
theorem find?_flatMap {p : L → Bool} {f : K → List L} {keys : List K} (hnodup : keys.Nodup) {k : K}
    (hk : k ∈ keys) (hown : ∀ l ∈ f k, p l = true)
    (hother : ∀ k' ∈ keys, k' ≠ k → ∀ l ∈ f k', p l = false) :
    (keys.flatMap f).find? p = (f k).head? := by
  induction keys with
  | nil => cases hk
  | cons k' keys ih =>
      obtain ⟨hnew, hrest⟩ := List.nodup_cons.mp hnodup
      rw [List.flatMap_cons, List.find?_append]
      rcases List.mem_cons.mp hk with rfl | hmem
      · cases hf : f k with
        | nil =>
            simp only [List.find?_nil, List.head?_nil, Option.none_or, List.find?_eq_none]
            intro l hl
            obtain ⟨k'', hk'', hl⟩ := List.mem_flatMap.mp hl
            have hne : k'' ≠ k := fun heq => hnew (heq ▸ hk'')
            simp [hother k'' (List.mem_cons_of_mem k hk'') hne l hl]
        | cons l ls =>
            have hl := hown l (by simp [hf])
            simp [hl]
      · have hne : k' ≠ k := fun heq => hnew (heq ▸ hmem)
        have hnone : (f k').find? p = none := by
          apply List.find?_eq_none.mpr
          intro l hl
          simp [hother k' List.mem_cons_self hne l hl]
        rw [hnone, Option.none_or]
        exact ih hrest hmem fun k'' hk'' => hother k'' (List.mem_cons_of_mem k' hk'')

/-- A sweep whose visits may fail keeps what each visit keeps. -/
theorem foldlM_inv {I : Type*} (inv : S → Prop) {visit : S → I → Option S} {items : List I}
    (h : ∀ i ∈ items, ∀ s s', inv s → visit s i = some s' → inv s') {s s' : S} (hs : inv s)
    (hfold : items.foldlM visit s = some s') : inv s' := by
  induction items generalizing s with
  | nil =>
      cases hfold
      exact hs
  | cons i items ih =>
      obtain ⟨next, hnext, hrest⟩ := Option.bind_eq_some_iff.mp hfold
      have hinv := h i List.mem_cons_self s next hs hnext
      exact ih (fun j hj => h j (List.mem_cons_of_mem i hj)) hinv hrest

/-- A sweep whose visits may fail: if each entry can be changed, so can all of them, one
after the other. -/
theorem foldlM_update [DecidableEq K] {I : Type*} (key : I → K) (step : I → V → Option V)
    {visit : (K → V) → I → Option (K → V)}
    (hvisit : ∀ m i, visit m i = (step i (m (key i))).map (Function.update m (key i)))
    {items : List I} (hnodup : (items.map key).Nodup) {m : K → V} {result : I → V}
    (h : ∀ i ∈ items, step i (m (key i)) = some (result i)) :
    ∃ m', items.foldlM visit m = some m' ∧ (∀ i ∈ items, m' (key i) = result i) ∧
      ∀ k, k ∉ items.map key → m' k = m k := by
  induction items generalizing m with
  | nil => exact ⟨m, rfl, List.forall_mem_nil _, fun _ _ => rfl⟩
  | cons i items ih =>
      obtain ⟨hnew, hrest⟩ := List.nodup_cons.mp hnodup
      have hfirst : visit m i = some (Function.update m (key i) (result i)) := by
        simp [hvisit, h i List.mem_cons_self]
      have hne : ∀ j ∈ items, key j ≠ key i := fun j hj heq =>
        hnew (heq ▸ List.mem_map_of_mem hj)
      obtain ⟨m', hfold, hown, hother⟩ := ih hrest (m := Function.update m (key i) (result i)) (by
        intro j hj
        rw [Function.update_of_ne (hne j hj)]
        exact h j (List.mem_cons_of_mem i hj))
      refine ⟨m', ?_, ?_, ?_⟩
      · simpa [List.foldlM_cons, hfirst] using hfold
      · intro j hj
        rcases List.mem_cons.mp hj with rfl | hmem
        · rw [hother _ hnew, Function.update_self]
        · exact hown j hmem
      · intro k hk
        obtain ⟨hki, hkrest⟩ := not_or.mp (mt List.mem_cons.mpr hk)
        rw [hother k hkrest, Function.update_of_ne hki]

/-- All items give a result if each one does. -/
theorem isSome_mapM_iff {I : Type*} {f : I → Option V} {items : List I} :
    (items.mapM f).isSome = true ↔ ∀ i ∈ items, (f i).isSome = true := by
  induction items with
  | nil => simp
  | cons i items ih =>
      rw [List.mapM_cons, List.forall_mem_cons, ← ih]
      cases f i <;> cases items.mapM f <;> simp

/-! ## Numbers of a byte -/

/-- The bytes from one on. -/
def bytesUpTo (n : ℕ) : List UInt8 := (List.range n).map fun k => UInt8.ofNat (k + 1)

theorem toNat_ofNat_succ {n k : ℕ} (hn : n < 256) (hk : k < n) :
    (UInt8.ofNat (k + 1)).toNat = k + 1 :=
  UInt8.toNat_ofNat_of_lt' (by change _ < 256; omega)

theorem mem_bytesUpTo {n : ℕ} (hn : n < 256) {byte : UInt8} :
    byte ∈ bytesUpTo n ↔ 1 ≤ byte.toNat ∧ byte.toNat ≤ n := by
  constructor
  · intro h
    obtain ⟨k, hk, rfl⟩ := List.mem_map.mp h
    have hless := List.mem_range.mp hk
    rw [toNat_ofNat_succ hn hless]
    omega
  · rintro ⟨hlow, hhigh⟩
    refine List.mem_map.mpr ⟨byte.toNat - 1, List.mem_range.mpr (by omega), ?_⟩
    rw [Nat.sub_add_cancel hlow, UInt8.ofNat_toNat]

theorem nodup_bytesUpTo {n : ℕ} (hn : n < 256) : (bytesUpTo n).Nodup := by
  apply List.Nodup.map_on _ List.nodup_range
  intro x hx y hy hxy
  have hnat := congrArg UInt8.toNat hxy
  rw [toNat_ofNat_succ hn (List.mem_range.mp hx), toNat_ofNat_succ hn (List.mem_range.mp hy)] at hnat
  omega

/-! ## Nested loops -/

/-- Two nested loops visit the places of a rectangle, row by row. -/
theorem nested_loops {width : ℕ} (hwidth : 0 < width) (rows : ℕ) :
    (List.range rows).flatMap (fun i => (List.range width).map fun j => (i, j)) =
      (List.range (rows * width)).map fun k => (k / width, k % width) := by
  induction rows with
  | zero => rw [Nat.zero_mul]; rfl
  | succ rows ih =>
      rw [List.range_succ, List.flatMap_append, ih, Nat.succ_mul, List.range_add, List.map_append,
        List.map_map]
      congr 1
      rw [List.flatMap_singleton]
      apply List.map_congr_left
      intro j hj
      have hless := List.mem_range.mp hj
      rw [Function.comp_apply, Nat.mul_comm rows width, Nat.mul_add_div hwidth,
        Nat.div_eq_of_lt hless, Nat.mul_add_mod, Nat.mod_eq_of_lt hless, Nat.add_zero]

end Sweep
