import OpenZWave.AesKeys

/-!
# The schedule of a decryption key

`aes_decrypt_key128` with `AES_REV_DKS`. The local words `ss` are sums of words of
the expansion, so that a cycle of four words changes only one of them; the unmixed
words come from the unmixed words of the cycle before. Decryption under this
schedule takes back encryption under the schedule of the same key.
-/

namespace OpenZWave.Aes

open WordBytes Rijndael ByteBuffer

/-- `v(40, i)`. -/
def v40 (i : Nat) : Nat := 40 + 2 * (i % 4) - i

/-- `inv_mcol`, which is `ff`. -/
def invMcol (x : UInt32) : UInt32 := fourTables tIm fun r => bval x r

/-- `ss[4] ^= k[v(40,4*i + j)]` and the assignment of `k[v(40,4*i + 4 + j)]`. -/
def keyRow (out : UInt32 → UInt32) (i : Nat) (s : Vector UInt32 60 × UInt32) (j : Nat) :
    Vector UInt32 60 × UInt32 :=
  let t := s.2 ^^^ wordAt s.1 (v40 (4 * i + j))
  (s.1.setIfInBounds (v40 (4 * i + 4 + j)) (out t), t)

def kdf4 (s : Words) (i : Nat) : Words :=
  let ss := s.2
  let ss := ss.set 0 (ss.getD 0 0 ^^^ ss.getD 2 0 ^^^ ss.getD 1 0 ^^^ ss.getD 3 0)
  let ss := ss.set 1 (ss.getD 1 0 ^^^ ss.getD 3 0)
  let ss := ss.set 2 (ss.getD 2 0 ^^^ ss.getD 3 0)
  let t := lsBox (ss.getD ((i + 3) % 4) 0) 3 ^^^ tRc i
  let ss := ss.set (i % 4) (ss.getD (i % 4) 0 ^^^ t)
  (([0, 1, 2, 3].foldl (keyRow invMcol i) (s.1, t)).1, ss)

def kd4 (s : Words) (i : Nat) : Words :=
  let ss := s.2
  let t := lsBox (ss.getD ((i + 3) % 4) 0) 3 ^^^ tRc i
  let ss := ss.set (i % 4) (ss.getD (i % 4) 0 ^^^ t)
  (([0, 1, 2, 3].foldl (keyRow id i) (s.1, invMcol t)).1, ss)

def kdl4 (s : Words) (i : Nat) : Words :=
  let ss := s.2
  let t := lsBox (ss.getD ((i + 3) % 4) 0) 3 ^^^ tRc i
  let ss := ss.set (i % 4) (ss.getD (i % 4) 0 ^^^ t)
  let ss := ss.set 0 (ss.getD 0 0 ^^^ ss.getD 1 0)
  let k := s.1.setIfInBounds (v40 (4 * i + 4)) (ss.getD 0 0 ^^^ ss.getD 2 0 ^^^ ss.getD 3 0)
  let k := k.setIfInBounds (v40 (4 * i + 5)) (ss.getD 1 0 ^^^ ss.getD 3 0)
  let k := k.setIfInBounds (v40 (4 * i + 6)) (ss.getD 0 0)
  (k.setIfInBounds (v40 (4 * i + 7)) (ss.getD 1 0), ss)

def aesDecryptKey128 (key : Block) (cx : Context) : Context :=
  let s : Words := ((List.range 4).foldl (fun ks i => ks.setIfInBounds (v40 i) (wordIn key i)) cx.ks,
    (List.range 4).map (wordIn key))
  let s := [1, 2, 3, 4, 5, 6, 7, 8].foldl kd4 (kdf4 s 0)
  { ks := (kdl4 s 9).1, inf := keyInf (10 * 16) }

theorem bval_invMcol (x : UInt32) : bval (invMcol x) = unmixWord (bval x) := by
  have hturns : tIm.Turns invCoef := turns_v _
  funext n
  rw [invMcol, bval_fourTables hturns]
  rfl

/-! ## The expansion in cycles of four words -/

variable {box : UInt8 → UInt8} {key : Nat → Word} {i : Nat}

/-- What a cycle adds to the first word of the cycle before. -/
def cycleTemp (box : UInt8 → UInt8) (key : Nat → Word) (i : Nat) : Word :=
  keyTemp box 4 (4 * i + 4) (keyWord box 4 key (4 * i + 3))

theorem keyWord_first (i : Nat) :
    keyWord box 4 key (4 * i + 4) = addWord (keyWord box 4 key (4 * i)) (cycleTemp box key i) :=
  keyWord_add (by omega) (4 * i)

theorem keyWord_later (i : Nat) {j : Nat} (hpos : 0 < j) (hj : j < 4) :
    keyWord box 4 key (4 * i + j + 4) =
      addWord (keyWord box 4 key (4 * i + j)) (keyWord box 4 key (4 * i + j + 3)) := by
  have hmod : (4 * i + j + 4) % 4 ≠ 0 := by omega
  rw [keyWord_add (by omega), keyTemp, if_neg hmod, if_neg (by omega)]
  rfl

/-- The sums that `ss` holds before cycle `i`, the word `(i + m) % 4` of it at `m`. -/
def partialSum (box : UInt8 → UInt8) (key : Nat → Word) (i m : Nat) : Word :=
  let W := keyWord box 4 key
  match m with
  | 0 => addWord (addWord (W (4 * i)) (W (4 * i + 1))) (addWord (W (4 * i + 2)) (W (4 * i + 3)))
  | 1 => addWord (W (4 * i + 1)) (W (4 * i + 3))
  | 2 => addWord (W (4 * i + 2)) (W (4 * i + 3))
  | _ => W (4 * i + 3)

/-- Only one sum changes in a cycle; the others change their places. -/
theorem partialSum_succ (i : Nat) :
    partialSum box key (i + 1) 3 = addWord (partialSum box key i 0) (cycleTemp box key i) ∧
      partialSum box key (i + 1) 2 = partialSum box key i 3 ∧
      partialSum box key (i + 1) 1 = partialSum box key i 2 ∧
      partialSum box key (i + 1) 0 = partialSum box key i 1 := by
  have h4 : keyWord box 4 key (4 * i + 4) =
      addWord (keyWord box 4 key (4 * i)) (cycleTemp box key i) := keyWord_first i
  have h5 : keyWord box 4 key (4 * i + 5) =
      addWord (keyWord box 4 key (4 * i + 1)) (keyWord box 4 key (4 * i + 4)) :=
    keyWord_later i (by omega : 0 < 1) (by omega)
  have h6 : keyWord box 4 key (4 * i + 6) =
      addWord (keyWord box 4 key (4 * i + 2)) (keyWord box 4 key (4 * i + 5)) :=
    keyWord_later i (by omega : 0 < 2) (by omega)
  have h7 : keyWord box 4 key (4 * i + 7) =
      addWord (keyWord box 4 key (4 * i + 3)) (keyWord box 4 key (4 * i + 6)) :=
    keyWord_later i (by omega : 0 < 3) (by omega)
  -- two neighbours of the new cycle leave the old word between them
  have h67 : addWord (keyWord box 4 key (4 * i + 6)) (keyWord box 4 key (4 * i + 7)) =
      keyWord box 4 key (4 * i + 3) := by
    rw [h7]
    exact (by ac_rfl : _ = _).trans (addWord_cancel _ (keyWord box 4 key (4 * i + 6)))
  have h56 : addWord (keyWord box 4 key (4 * i + 5)) (keyWord box 4 key (4 * i + 6)) =
      keyWord box 4 key (4 * i + 2) := by
    rw [h6]
    exact (by ac_rfl : _ = _).trans (addWord_cancel _ (keyWord box 4 key (4 * i + 5)))
  have h45 : addWord (keyWord box 4 key (4 * i + 4)) (keyWord box 4 key (4 * i + 5)) =
      keyWord box 4 key (4 * i + 1) := by
    rw [h5]
    exact (by ac_rfl : _ = _).trans (addWord_cancel _ (keyWord box 4 key (4 * i + 4)))
  refine ⟨?_, h67, ?_, ?_⟩
  · show keyWord box 4 key (4 * i + 7) = _
    rw [h7, h6, h5, h4]
    simp only [partialSum]
    ac_rfl
  · show addWord (keyWord box 4 key (4 * i + 5)) (keyWord box 4 key (4 * i + 7)) =
      addWord (keyWord box 4 key (4 * i + 2)) (keyWord box 4 key (4 * i + 3))
    rw [h7, ← h56]
    ac_rfl
  · show addWord (addWord (keyWord box 4 key (4 * i + 4)) (keyWord box 4 key (4 * i + 5)))
        (addWord (keyWord box 4 key (4 * i + 6)) (keyWord box 4 key (4 * i + 7))) =
      addWord (keyWord box 4 key (4 * i + 1)) (keyWord box 4 key (4 * i + 3))
    rw [h67, h45]

/-! ## The schedule -/

/-- The words below `m` stand in their places. -/
def Reversed (M : Nat → Word) (m : Nat) (ks : Vector UInt32 60) : Prop :=
  ∀ l < m, bval (wordAt ks (v40 l)) = M l

theorem Reversed.set {M : Nat → Word} {m : Nat} {ks : Vector UInt32 60} {x : UInt32}
    (h : Reversed M m ks) (hm : m < 44) (hx : bval x = M m) :
    Reversed M (m + 1) (ks.setIfInBounds (v40 m) x) := by
  intro l hl
  have hbound : v40 m < 60 := by
    unfold v40
    omega
  rw [wordAt_set _ hbound]
  by_cases hlast : v40 m = v40 l
  · have heq : m = l := by
      unfold v40 at hlast
      omega
    rw [if_pos hlast, hx, heq]
  · have hne : m ≠ l := fun heq => hlast (heq ▸ rfl)
    rw [if_neg hlast]
    exact h l (by omega)

/-- Four assignments of a cycle: `B` are the values that `ss[4]` takes, and `F` is what
is done to them on the way out. -/
theorem Reversed.row {M B : Nat → Word} {F : Word → Word} {out : UInt32 → UInt32} {t : UInt32}
    {ks : Vector UInt32 60} (h : Reversed M (4 * i + 4) ks) (hi : i < 10)
    (hout : ∀ x, bval (out x) = F (bval x)) (hfirst : addWord (bval t) (M (4 * i)) = B 0)
    (hlater : ∀ j < 3, addWord (B j) (M (4 * i + (j + 1))) = B (j + 1))
    (hM : ∀ j < 4, M (4 * i + 4 + j) = F (B j)) {n : Nat} (hn : n ≤ 4) :
    Reversed M (4 * i + 4 + n) ((List.range n).foldl (keyRow out i) (ks, t)).1 ∧
      bval ((List.range n).foldl (keyRow out i) (ks, t)).2 =
        if n = 0 then bval t else B (n - 1) := by
  induction n with
  | zero => exact ⟨h, rfl⟩
  | succ j ih =>
      obtain ⟨hwords, htemp⟩ := ih (by omega)
      rw [List.range_succ, List.foldl_append, List.foldl_cons, List.foldl_nil, if_neg (by omega)]
      generalize (List.range j).foldl (keyRow out i) (ks, t) = s at hwords htemp ⊢
      have hvalue : bval (s.2 ^^^ wordAt s.1 (v40 (4 * i + j))) = B j := by
        rw [bval_xorWord, htemp, hwords (4 * i + j) (by omega)]
        cases j with
        | zero => exact hfirst
        | succ j => exact hlater j (by omega)
      refine ⟨?_, hvalue⟩
      refine hwords.set (by omega) ?_
      rw [hout, hvalue, hM j (by omega)]

/-- What stands in the schedule: only the first and the last four words are not unmixed. -/
def decWord (key : Nat → Word) (l : Nat) : Word :=
  if 4 ≤ l ∧ l < 40 then unmixWord (keyWord (boxed sbData) 4 key l)
  else keyWord (boxed sbData) 4 key l

/-- Before cycle `i`. -/
structure Unmixed (key : Nat → Word) (i : Nat) (s : Words) : Prop where
  words : Reversed (decWord key) (4 * i + 4) s.1
  sums : ∀ m < 4, bval (s.2.getD ((i + m) % 4) 0) = partialSum (boxed sbData) key i m
  length : s.2.length = 4

variable {s : Words}

theorem Unmixed.temp (h : Unmixed key i s) (hi : i < 10) :
    bval (lsBox (s.2.getD ((i + 3) % 4) 0) 3 ^^^ tRc i) = cycleTemp (boxed sbData) key i := by
  have hmod : (4 * i + 4) % 4 = 0 := by omega
  have hdiv : (4 * i + 4) / 4 - 1 = i := by omega
  rw [bval_xorWord, bval_lsBox_three, h.sums 3 (by omega), cycleTemp, keyTemp, if_pos hmod, hdiv]
  congr 1
  funext n
  exact bval_tRc hi n

theorem Unmixed.sums_set (h : Unmixed key i s) (hi : i < 10) {m : Nat} (hm : m < 4) :
    bval ((s.2.set (i % 4) (s.2.getD (i % 4) 0 ^^^
      (lsBox (s.2.getD ((i + 3) % 4) 0) 3 ^^^ tRc i))).getD ((i + 1 + m) % 4) 0) =
      partialSum (boxed sbData) key (i + 1) m := by
  obtain ⟨h3, h2, h1, h0⟩ :=
    (partialSum_succ i : partialSum (boxed sbData) key (i + 1) 3 = _ ∧ _)
  rw [getD_set _ (by rw [h.length]; omega)]
  by_cases hlast : m = 3
  · subst hlast
    rw [if_pos (by omega), bval_xorWord, h.temp hi, h3]
    congr 1
    exact h.sums 0 (by omega)
  · have hindex : (i + 1 + m) % 4 = (i + (m + 1)) % 4 := by
      congr 1
      omega
    rw [if_neg (by omega), hindex, h.sums (m + 1) (by omega)]
    have hcases : m = 0 ∨ m = 1 ∨ m = 2 := by omega
    rcases hcases with rfl | rfl | rfl
    · exact h0.symm
    · exact h1.symm
    · exact h2.symm

theorem decWord_of_middle {l : Nat} (hlow : 4 ≤ l) (hhigh : l < 40) :
    decWord key l = unmixWord (keyWord (boxed sbData) 4 key l) := if_pos ⟨hlow, hhigh⟩

theorem decWord_of_outer {l : Nat} (h : l < 4 ∨ 40 ≤ l) :
    decWord key l = keyWord (boxed sbData) 4 key l := if_neg (by omega)

/-- A later word of a cycle is the sum of the word before and the one four places before. -/
theorem keyWord_next (i : Nat) {j : Nat} (hj : j < 3) :
    addWord (keyWord (boxed sbData) 4 key (4 * i + 4 + j))
        (keyWord (boxed sbData) 4 key (4 * i + (j + 1))) =
      keyWord (boxed sbData) 4 key (4 * i + 4 + (j + 1)) := by
  have hlater : keyWord (boxed sbData) 4 key (4 * i + (j + 1) + 4) = _ :=
    keyWord_later i (by omega : 0 < j + 1) (by omega)
  have hbefore : 4 * i + (j + 1) + 3 = 4 * i + 4 + j := by omega
  have hindex : 4 * i + (j + 1) + 4 = 4 * i + 4 + (j + 1) := by omega
  rw [hbefore, hindex] at hlater
  rw [hlater]
  ac_rfl

theorem Unmixed.kd4 (h : Unmixed key i s) (hpos : 1 ≤ i) (hi : i ≤ 8) :
    Unmixed key (i + 1) (kd4 s i) := by
  have htemp := h.temp (by omega)
  have hrow := h.words.row (F := id)
    (B := fun j => unmixWord (keyWord (boxed sbData) 4 key (4 * i + 4 + j)))
    (t := invMcol (lsBox (s.2.getD ((i + 3) % 4) 0) 3 ^^^ tRc i)) (by omega)
    (fun _ => rfl : ∀ x, bval (id x) = id (bval x)) ?_ ?_ ?_ (le_refl 4)
  · refine ⟨?_, ?_, ?_⟩
    · exact hrow.1
    · intro m hm
      exact h.sums_set (by omega) hm
    · exact (List.length_set ..).trans h.length
  · rw [bval_invMcol, htemp, decWord_of_middle (by omega) (by omega), ← unmixWord_add]
    congr 1
    exact (by ac_rfl : _ = _).trans (keyWord_first i).symm
  · intro j hj
    rw [decWord_of_middle (by omega) (by omega), ← unmixWord_add, keyWord_next i hj]
  · intro j hj
    exact decWord_of_middle (by omega) (by omega)

/-- The key in its place, and the words of it. -/
structure Loaded (key : Nat → Word) (s : Words) : Prop where
  words : Reversed (decWord key) 4 s.1
  key : ∀ m < 4, bval (s.2.getD m 0) = keyWord (boxed sbData) 4 key m
  length : s.2.length = 4

/-- The three sums that the first cycle forms. -/
def firstSums (ss : List UInt32) : List UInt32 :=
  let ss := ss.set 0 (ss.getD 0 0 ^^^ ss.getD 2 0 ^^^ ss.getD 1 0 ^^^ ss.getD 3 0)
  let ss := ss.set 1 (ss.getD 1 0 ^^^ ss.getD 3 0)
  ss.set 2 (ss.getD 2 0 ^^^ ss.getD 3 0)

theorem Loaded.unmixed (h : Loaded key s) : Unmixed key 0 (s.1, firstSums s.2) := by
  obtain ⟨ks, ss⟩ := s
  have hlength := h.length
  obtain ⟨a, b, c, d, rfl⟩ : ∃ a b c d, ss = [a, b, c, d] := List.length_eq_four.mp hlength
  have h0 : bval a = keyWord (boxed sbData) 4 key 0 := h.key 0 (by omega)
  have h1 : bval b = keyWord (boxed sbData) 4 key 1 := h.key 1 (by omega)
  have h2 : bval c = keyWord (boxed sbData) 4 key 2 := h.key 2 (by omega)
  have h3 : bval d = keyWord (boxed sbData) 4 key 3 := h.key 3 (by omega)
  refine ⟨h.words, ?_, rfl⟩
  intro m hm
  have hcases : m = 0 ∨ m = 1 ∨ m = 2 ∨ m = 3 := by omega
  rcases hcases with rfl | rfl | rfl | rfl
  · show bval (a ^^^ c ^^^ b ^^^ d) = _
    rw [bval_xorWord, bval_xorWord, bval_xorWord, h0, h1, h2, h3]
    simp only [partialSum, Nat.mul_zero, Nat.zero_add]
    ac_rfl
  · show bval (b ^^^ d) = _
    rw [bval_xorWord, h1, h3]
    rfl
  · show bval (c ^^^ d) = _
    rw [bval_xorWord, h2, h3]
    rfl
  · exact h3

theorem Loaded.kdf4 (h : Loaded key s) : Unmixed key 1 (kdf4 s 0) := by
  have hunmixed := h.unmixed
  have htemp := hunmixed.temp (by omega)
  have hrow := hunmixed.words.row (F := unmixWord)
    (B := fun j => keyWord (boxed sbData) 4 key (4 + j))
    (t := lsBox ((firstSums s.2).getD 3 0) 3 ^^^ tRc 0) (by omega) bval_invMcol ?_ ?_ ?_ (le_refl 4)
  · refine ⟨?_, ?_, ?_⟩
    · exact hrow.1
    · intro m hm
      exact hunmixed.sums_set (by omega) hm
    · exact (List.length_set ..).trans hunmixed.length
  · have hfirst : keyWord (boxed sbData) 4 key (4 * 0 + 4) = _ := keyWord_first 0
    rw [decWord_of_outer (by omega), Nat.add_zero]
    exact (congrArg₂ addWord htemp rfl).trans ((by ac_rfl : _ = _).trans hfirst.symm)
  · intro j hj
    rw [decWord_of_outer (by omega)]
    exact keyWord_next 0 hj
  · intro j hj
    exact decWord_of_middle (by omega) (by omega)

/-- The sums after the last change, in the order of `ss`. -/
theorem Unmixed.sums_last (h : Unmixed key 9 s) (W : Nat → Word)
    (hW : W = keyWord (boxed sbData) 4 key) :
    ∃ a b c d : UInt32, s.2.set 1 (s.2.getD 1 0 ^^^ (lsBox (s.2.getD 0 0) 3 ^^^ tRc 9)) =
        [a, b, c, d] ∧
      bval a = addWord (W 42) (W 43) ∧ bval b = W 43 ∧
      bval c = addWord (addWord (W 40) (W 41)) (addWord (W 42) (W 43)) ∧
      bval d = addWord (W 41) (W 43) := by
  have hsums := fun m (hm : m < 4) => h.sums_set (by omega) hm
  simp only [Nat.reduceAdd, Nat.reduceMod] at hsums
  obtain ⟨a, b, c, d, hss⟩ : ∃ a b c d, s.2.set 1 (s.2.getD 1 0 ^^^
      (lsBox (s.2.getD 0 0) 3 ^^^ tRc 9)) = [a, b, c, d] :=
    List.length_eq_four.mp ((List.length_set ..).trans h.length)
  simp only [hss, partialSum] at hsums
  rw [← hW] at hsums
  exact ⟨a, b, c, d, hss, hsums 2 (by omega), hsums 3 (by omega), hsums 0 (by omega),
    hsums 1 (by omega)⟩

/-- The last cycle stores the words themselves, which it recovers from the sums. -/
theorem Unmixed.kdl4 (h : Unmixed key 9 s) : Reversed (decWord key) 44 (kdl4 s 9).1 := by
  obtain ⟨W, hW⟩ : ∃ W, W = keyWord (boxed sbData) 4 key := ⟨_, rfl⟩
  obtain ⟨a, b, c, d, hss, h42, h43, h40, h41⟩ := h.sums_last W hW
  have hab : bval (a ^^^ b) = W 42 := by
    rw [bval_xorWord, h42, h43, addWord_cancel]
  have hbd : bval (b ^^^ d) = W 41 := by
    rw [bval_xorWord, h41, h43]
    exact (by ac_rfl : _ = _).trans (addWord_cancel _ (W 43))
  have habcd : bval (a ^^^ b ^^^ c ^^^ d) = W 40 := by
    rw [bval_xorWord, bval_xorWord, hab, h41, h40]
    exact (by ac_rfl : _ = _).trans
      (addWord_cancel _ (addWord (W 42) (addWord (W 41) (W 43))))
  have houter : ∀ l, 40 ≤ l → decWord key l = W l := by
    intro l hl
    rw [hW]
    exact decWord_of_outer (.inr hl)
  have hstored := (((h.words.set (x := a ^^^ b ^^^ c ^^^ d) (by omega) ?_).set (x := b ^^^ d)
    (by omega) ?_).set (x := a ^^^ b) (by omega) ?_).set (x := b) (by omega) ?_
  · simp only [Aes.kdl4, Nat.reduceAdd, Nat.reduceMod, hss]
    exact hstored
  · exact habcd.trans (houter _ (by omega)).symm
  · exact hbd.trans (houter _ (by omega)).symm
  · exact hab.trans (houter _ (by omega)).symm
  · exact h43.trans (houter _ (by omega)).symm

theorem loaded_key (key : Block) (ks : Vector UInt32 60) :
    Loaded (keyWords key)
      ((List.range 4).foldl (fun ks i => ks.setIfInBounds (v40 i) (wordIn key i)) ks,
        (List.range 4).map (wordIn key)) := by
  have hreversed : ∀ n ≤ 4, Reversed (decWord (keyWords key)) n
      ((List.range n).foldl (fun ks i => ks.setIfInBounds (v40 i) (wordIn key i)) ks) := by
    intro n hn
    induction n with
    | zero => exact fun l hl => absurd hl (Nat.not_lt_zero l)
    | succ n ih =>
        rw [List.range_succ, List.foldl_append]
        refine (ih (by omega)).set (by omega) ?_
        rw [decWord_of_outer (by omega), keyWord_of_lt (by omega), keyWords]
  refine ⟨hreversed 4 le_rfl, ?_, rfl⟩
  intro m hm
  have hget : ((List.range 4).map (wordIn key)).getD m 0 = wordIn key m := by
    simp [List.getD_eq_getElem?_getD, hm]
  rw [hget, keyWord_of_lt hm, keyWords]

theorem Unmixed.foldl (h : Unmixed key 1 s) {n : Nat} (hn : n ≤ 8) :
    Unmixed key (n + 1) ((List.range' 1 n).foldl Aes.kd4 s) := by
  induction n with
  | zero => exact h
  | succ n ih =>
      rw [List.range'_1_concat, List.foldl_append, Nat.add_comm 1 n]
      exact (ih (by omega)).kd4 (by omega) (by omega)

/-- The schedule of a decryption key. -/
theorem reversed_key128 (key : Block) (cx : Context) :
    Reversed (decWord (keyWords key)) 44 (aesDecryptKey128 key cx).ks := by
  have hrows := (loaded_key key cx.ks).kdf4.foldl (show 8 ≤ 8 from le_rfl)
  exact hrows.kdl4

/-- The blocks of the schedule: the first and the last are those of the expansion, the others
are unmixed. -/
theorem roundKey_decrypt (key : Block) (cx : Context) {n : Nat} (hn : n ≤ 10) :
    (aesDecryptKey128 key cx).roundKey n =
      if 1 ≤ n ∧ n ≤ 9 then
        rijndael.unmix (roundKey (keyWord (boxed sbData) 4 (keyWords key)) (10 - n))
      else roundKey (keyWord (boxed sbData) 4 (keyWords key)) (10 - n) := by
  funext r c
  have hplace : v40 (4 * (10 - n) + c.val) = 4 * n + c.val := by
    unfold v40
    omega
  have hword := reversed_key128 key cx (4 * (10 - n) + c.val) (by omega)
  rw [hplace] at hword
  have hbyte : (aesDecryptKey128 key cx).roundKey n r c =
      decWord (keyWords key) (4 * (10 - n) + c.val) r := congrFun hword r
  rw [hbyte]
  by_cases hmiddle : 1 ≤ n ∧ n ≤ 9
  · rw [if_pos hmiddle, decWord_of_middle (by omega) (by omega)]
    rfl
  · rw [if_neg hmiddle, decWord_of_outer (by omega)]
    rfl

theorem ofBlock_injective {a b : Block} (h : ofBlock a = ofBlock b) : a = b := by
  apply Vector.ext
  intro i hi
  have hbyte := congrFun (congrFun h ⟨i % 4, by omega⟩) ⟨i / 4, by omega⟩
  simp only [ofBlock, Nat.div_add_mod] at hbyte
  simpa [peek, hi] using hbyte

theorem middleKeys_decrypt (key : Block) (cx : Context) :
    (aesDecryptKey128 key cx).middleKeys (160 / 16) =
      ((List.range' 1 (10 - 1)).map
        (roundKey (keyWord (boxed sbData) 4 (keyWords key)))).reverse.map rijndael.unmix := by
  have hkeys : ∀ n ∈ List.range' 1 9, (aesDecryptKey128 key cx).roundKey n =
      rijndael.unmix (roundKey (keyWord (boxed sbData) 4 (keyWords key)) (10 - n)) := by
    intro n hn
    rw [List.mem_range'_1] at hn
    rw [roundKey_decrypt key cx (by omega), if_pos (by omega)]
  exact List.map_congr_left hkeys

/-- Decryption under the schedule of `aes_decrypt_key128` takes back encryption under the
schedule of `aes_encrypt_key128` for the same key, for every key and block. -/
theorem aesDecrypt_aesEncrypt (key : Block) (cx cx' : Context) (input : Block) :
    (aesEncrypt (aesEncryptKey128 key cx) input).bind (aesDecrypt (aesDecryptKey128 key cx')) =
      some input := by
  obtain ⟨output, houtput, hstate⟩ :=
    Option.map_eq_some_iff.mp (aesEncrypt_key key (Vector.replicate 24 0) (Vector.replicate 32 0) cx
      input).1
  have hinf : (peek (aesDecryptKey128 key cx').inf 0).toNat = 160 := rfl
  have hdecrypted := aesDecrypt_eq (aesDecryptKey128 key cx') output
  rw [hinf, if_pos (by decide), hstate, roundKey_decrypt key cx' (by omega),
    roundKey_decrypt key cx' (by omega), middleKeys_decrypt] at hdecrypted
  obtain ⟨input', hinput', hstate'⟩ := Option.map_eq_some_iff.mp hdecrypted
  rw [houtput, Option.bind_some, hinput']
  congr 1
  exact ofBlock_injective (hstate'.trans (rijndael.decrypt_encrypt _ _ _ _))

end OpenZWave.Aes
