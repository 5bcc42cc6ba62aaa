import Mathlib.Data.List.Basic

/-!
# Checked memory accesses

A computation on C arrays and pointers is an `Except` computation that stops at
the first access outside an array, or at the first use of a missing pointer. The
lemmas peel the checks off such a computation. The last two sections are rules
for what a computation yields, and for a run whose steps are checked.
-/

namespace Checked

variable {ε α β : Type}

/-- Go on only when the access is inside. -/
def check (p : Prop) [Decidable p] (e : ε) : Except ε Unit :=
  if p then .ok () else .error e

/-- Read one cell. -/
def readAt (l : List α) (i : Nat) (e : ε) : Except ε α :=
  match l[i]? with
  | some a => .ok a
  | none => .error e

/-- Write one cell. -/
def writeAt (l : List α) (i : Nat) (a : α) (e : ε) : Except ε (List α) := do
  check (i < l.length) e
  return l.set i a

/-- Read `length` cells from `start` on. -/
def window (l : List α) (start length : Nat) (e : ε) : Except ε (List α) :=
  if start + length ≤ l.length then .ok ((l.drop start).take length) else .error e

/-- Use a pointer that may be missing. -/
def follow (p : Option α) (e : ε) : Except ε α :=
  match p with
  | some a => .ok a
  | none => .error e

/-- The computation reaches no access outside an array, and no missing pointer. -/
def Safe (x : Except ε α) : Prop := ∃ a, x = .ok a

@[simp] theorem safe_ok (a : α) : Safe (.ok a : Except ε α) := ⟨a, rfl⟩

@[simp] theorem safe_pure (a : α) : Safe (pure a : Except ε α) := ⟨a, rfl⟩

theorem ok_eq_ok {a b : α} : (pure a : Except ε α) = .ok b ↔ a = b := by
  constructor
  · intro h
    cases h
    rfl
  · rintro rfl
    rfl

theorem ok_bind (a : α) (k : α → Except ε β) : (Except.ok a >>= k) = k a := rfl

theorem check_bind {p : Prop} [Decidable p] (h : p) (e : ε) (k : Unit → Except ε β) :
    (check p e >>= k) = k () := by
  rw [check, if_pos h]
  rfl

theorem readAt_bind {l : List α} {i : Nat} (h : i < l.length) (d : α) (e : ε)
    (k : α → Except ε β) : (readAt l i e >>= k) = k (l.getD i d) := by
  rw [readAt, List.getElem?_eq_getElem h, List.getD_eq_getElem?_getD, List.getElem?_eq_getElem h]
  rfl

theorem readAt_drop (l : List α) (n i : Nat) (e : ε) : readAt (l.drop n) i e = readAt l (n + i) e := by
  rw [readAt, readAt, List.getElem?_drop]

theorem window_bind {l : List α} {start length : Nat} (h : start + length ≤ l.length) (e : ε)
    (k : List α → Except ε β) :
    (window l start length e >>= k) = k ((l.drop start).take length) := by
  rw [window, if_pos h]
  rfl

theorem check_bind_eq_ok {p : Prop} [Decidable p] {e : ε} {k : Unit → Except ε β} {b : β} :
    (check p e >>= k) = .ok b ↔ p ∧ k () = .ok b := by
  constructor
  · intro h
    rcases Decidable.em p with hp | hp
    · exact ⟨hp, (check_bind hp e k).symm.trans h⟩
    · rw [check, if_neg hp] at h
      cases h
  · rintro ⟨hp, h⟩
    rw [check_bind hp, h]

theorem readAt_bind_eq_ok {l : List α} {i : Nat} {e : ε} {k : α → Except ε β} {b : β} (d : α) :
    (readAt l i e >>= k) = .ok b ↔ i < l.length ∧ k (l.getD i d) = .ok b := by
  constructor
  · intro h
    rcases Nat.lt_or_ge i l.length with hi | hi
    · exact ⟨hi, (readAt_bind hi d e k).symm.trans h⟩
    · rw [readAt, List.getElem?_eq_none hi] at h
      cases h
  · rintro ⟨hi, h⟩
    rw [readAt_bind hi d, h]

theorem window_bind_eq_ok {l : List α} {start length : Nat} {e : ε} {k : List α → Except ε β}
    {b : β} :
    (window l start length e >>= k) = .ok b ↔
      start + length ≤ l.length ∧ k ((l.drop start).take length) = .ok b := by
  constructor
  · intro h
    rcases Nat.lt_or_ge l.length (start + length) with hi | hi
    · rw [window, if_neg (by omega)] at h
      cases h
    · exact ⟨hi, (window_bind hi e k).symm.trans h⟩
  · rintro ⟨hi, h⟩
    rw [window_bind hi, h]

theorem bind_eq_ok {x : Except ε α} {k : α → Except ε β} {b : β} :
    (x >>= k) = .ok b ↔ ∃ a, x = .ok a ∧ k a = .ok b := by
  cases x with
  | error e =>
      constructor
      · intro h
        cases h
      · rintro ⟨a, h, -⟩
        cases h
  | ok a =>
      constructor
      · intro h
        exact ⟨a, rfl, h⟩
      · rintro ⟨a', h, h'⟩
        cases h
        exact h'

theorem safe_check_bind {p : Prop} [Decidable p] {e : ε} {k : Unit → Except ε β} :
    Safe (check p e >>= k) ↔ p ∧ Safe (k ()) := by
  simp only [Safe, check_bind_eq_ok, exists_and_left]

theorem safe_readAt_bind {l : List α} {i : Nat} {e : ε} {k : α → Except ε β} (d : α) :
    Safe (readAt l i e >>= k) ↔ i < l.length ∧ Safe (k (l.getD i d)) := by
  simp only [Safe, readAt_bind_eq_ok d, exists_and_left]

theorem safe_bind {x : Except ε α} {k : α → Except ε β} :
    Safe (x >>= k) ↔ ∃ a, x = .ok a ∧ Safe (k a) := by
  simp only [Safe, bind_eq_ok]
  constructor
  · rintro ⟨b, a, hx, hk⟩
    exact ⟨a, hx, b, hk⟩
  · rintro ⟨a, hx, b, hk⟩
    exact ⟨b, a, hx, hk⟩

/-- The computation reaches no error, and its result has the property. -/
def Yields (x : Except ε α) (Q : α → Prop) : Prop := ∃ a, x = .ok a ∧ Q a

@[simp] theorem yields_ok {a : α} {Q : α → Prop} : Yields (.ok a : Except ε α) Q ↔ Q a := by
  constructor
  · rintro ⟨b, h, hQ⟩
    cases h
    exact hQ
  · intro hQ
    exact ⟨a, rfl, hQ⟩

@[simp] theorem yields_pure {a : α} {Q : α → Prop} : Yields (pure a : Except ε α) Q ↔ Q a :=
  yields_ok

theorem Yields.bind {x : Except ε α} {k : α → Except ε β} {P : α → Prop} {Q : β → Prop}
    (hx : Yields x P) (hk : ∀ a, P a → Yields (k a) Q) : Yields (x >>= k) Q := by
  obtain ⟨a, hx, hP⟩ := hx
  obtain ⟨b, hb, hQ⟩ := hk a hP
  refine ⟨b, ?_, hQ⟩
  rw [hx]
  exact hb

theorem Yields.mono {x : Except ε α} {P Q : α → Prop} (hx : Yields x P) (h : ∀ a, P a → Q a) :
    Yields x Q := by
  obtain ⟨a, hx, hP⟩ := hx
  exact ⟨a, hx, h a hP⟩

theorem Yields.safe {x : Except ε α} {P : α → Prop} (hx : Yields x P) : Safe x := by
  obtain ⟨a, hx, -⟩ := hx
  exact ⟨a, hx⟩

theorem Yields.safe_bind {x : Except ε α} {k : α → Except ε β} {P : α → Prop} (hx : Yields x P)
    (hk : ∀ a, P a → Safe (k a)) : Safe (x >>= k) := by
  obtain ⟨a, hx, hP⟩ := hx
  rw [hx]
  exact hk a hP

/-- A loop keeps what each of its passes keeps. -/
theorem yields_foldlM {I : β → Prop} {f : β → α → Except ε β} {l : List α}
    (hpass : ∀ b a, a ∈ l → I b → Yields (f b a) I) {b : β} (h0 : I b) :
    Yields (l.foldlM f b) I := by
  induction l generalizing b with
  | nil => exact yields_pure.mpr h0
  | cons a l ih =>
      rw [List.foldlM_cons]
      apply (hpass b a (List.mem_cons_self ..) h0).bind
      intro b' hb'
      exact ih (fun c d hd => hpass c d (List.mem_cons_of_mem a hd)) hb'

/-- The same with an invariant that speaks of the passes that are left. -/
theorem yields_foldlM_rest {I : List α → β → Prop} {f : β → α → Except ε β}
    (hpass : ∀ b a rest, I (a :: rest) b → Yields (f b a) (I rest)) {l : List α} {b : β}
    (h0 : I l b) : Yields (l.foldlM f b) (I []) := by
  induction l generalizing b with
  | nil => exact yields_pure.mpr h0
  | cons a l ih =>
      rw [List.foldlM_cons]
      exact (hpass b a l h0).bind fun b' hb' => ih hb'

theorem foldlM_congr {f g : β → α → Except ε β} {l : List α} (h : ∀ a ∈ l, ∀ b, f b a = g b a)
    (b : β) : l.foldlM f b = l.foldlM g b := by
  induction l generalizing b with
  | nil => rfl
  | cons a l ih =>
      rw [List.foldlM_cons, List.foldlM_cons, h a (List.mem_cons_self ..)]
      exact congrArg _ (funext fun c => ih (fun d hd => h d (List.mem_cons_of_mem a hd)) c)

/-- A loop that reads one cell after the other runs over the cells. -/
theorem foldlM_readAt_eq_ok {l : List α} {start : Nat} (hstart : start ≤ l.length) {e : ε}
    {f : β → α → Except ε β} {n : Nat} {b b' : β} :
    (List.range n).foldlM (fun b i => readAt l (start + i) e >>= f b) b = .ok b' ↔
      start + n ≤ l.length ∧ ((l.drop start).take n).foldlM f b = .ok b' := by
  induction n generalizing b' with
  | zero => exact (and_iff_right hstart).symm
  | succ n ih =>
      rw [List.range_succ, List.foldlM_append, bind_eq_ok]
      constructor
      · rintro ⟨b₁, hpast, hlast⟩
        obtain ⟨hinside, hpast⟩ := ih.mp hpast
        simp only [List.foldlM_cons, List.foldlM_nil, bind_pure, readAt] at hlast
        cases hcell : l[start + n]? with
        | none =>
            rw [hcell] at hlast
            cases hlast
        | some a =>
            obtain ⟨hbelow, -⟩ := List.getElem?_eq_some_iff.mp hcell
            rw [hcell] at hlast
            have htake : (l.drop start).take (n + 1) = (l.drop start).take n ++ [a] := by
              rw [List.take_add_one, List.getElem?_drop, hcell, Option.toList_some]
            refine ⟨hbelow, ?_⟩
            simp only [htake, List.foldlM_append, hpast, ok_bind, List.foldlM_cons, List.foldlM_nil,
              bind_pure]
            exact hlast
      · rintro ⟨hinside, hall⟩
        have hbelow : start + n < l.length := hinside
        have hcell := List.getElem?_eq_getElem hbelow
        have htake : (l.drop start).take (n + 1) = (l.drop start).take n ++ [l[start + n]] := by
          rw [List.take_add_one, List.getElem?_drop, hcell, Option.toList_some]
        rw [htake, List.foldlM_append, bind_eq_ok] at hall
        obtain ⟨b₁, hpast, hlast⟩ := hall
        refine ⟨b₁, ih.mpr ⟨Nat.le_of_lt hbelow, hpast⟩, ?_⟩
        simp only [List.foldlM_cons, List.foldlM_nil, bind_pure] at hlast ⊢
        rw [readAt, hcell]
        exact hlast

/-! ## Buffers -/

/-- Append to a buffer that has room for fewer than `capacity` cells. -/
def append (capacity : Nat) (e : ε) (buffer text : List α) : Except ε (List α) := do
  check (buffer.length + text.length < capacity) e
  return buffer ++ text

theorem append_eq_ok {capacity : Nat} {e : ε} {buffer text buffer' : List α} :
    append capacity e buffer text = .ok buffer' ↔
      buffer.length + text.length < capacity ∧ buffer ++ text = buffer' := by
  rw [append, check_bind_eq_ok]
  exact and_congr_right fun _ => ok_eq_ok

/-- One text after the other fits exactly if all together fit. -/
theorem foldlM_append_eq_ok {capacity : Nat} {e : ε} {text : β → List α} {l : List β}
    {buffer buffer' : List α} (hfits : buffer.length < capacity) :
    l.foldlM (fun buffer b => append capacity e buffer (text b)) buffer = .ok buffer' ↔
      (buffer ++ l.flatMap text).length < capacity ∧ buffer ++ l.flatMap text = buffer' := by
  induction l generalizing buffer with
  | nil =>
      rw [List.flatMap_nil, List.append_nil, and_iff_right hfits]
      exact ok_eq_ok
  | cons b l ih =>
      rw [List.foldlM_cons, bind_eq_ok, List.flatMap_cons, ← List.append_assoc]
      constructor
      · rintro ⟨buffer₁, hfirst, hrest⟩
        obtain ⟨hroom, rfl⟩ := append_eq_ok.mp hfirst
        exact (ih (by rwa [List.length_append])).mp hrest
      · rintro ⟨hroom, hall⟩
        have hfirst : (buffer ++ text b).length < capacity := by
          rw [List.length_append] at hroom
          exact Nat.lt_of_le_of_lt (Nat.le_add_right _ _) hroom
        refine ⟨buffer ++ text b, append_eq_ok.mpr ⟨by rwa [← List.length_append], rfl⟩, ?_⟩
        exact (ih hfirst).mpr ⟨hroom, hall⟩

/-! ## Runs of checked steps -/

/-- Each event of a run meets `P` in the state in which it happens, as long as no step
before it fails. -/
def Along (step : β → α → Except ε β) (P : β → α → Prop) : β → List α → Prop
  | _, [] => True
  | s, e :: events => P s e ∧ ∀ s', step s e = .ok s' → Along step P s' events

/-- A run of steps that meet `P` reaches no error, and keeps what such steps keep. -/
theorem yields_run_along {step : β → α → Except ε β} {P : β → α → Prop} {I : β → Prop}
    (hstep : ∀ s e, I s → P s e → Yields (step s e) I) {s : β} (h0 : I s) {events : List α}
    (halong : Along step P s events) : Yields (events.foldlM step s) I := by
  induction events generalizing s with
  | nil => exact yields_pure.mpr h0
  | cons e events ih =>
      obtain ⟨hmeets, halong⟩ := halong
      obtain ⟨s', hs', hinv⟩ := hstep s e h0 hmeets
      rw [List.foldlM_cons, hs', ok_bind]
      exact ih hinv (halong s' hs')

end Checked
