import OpenZWave.AesCipher

/-!
# The key schedules

`aes_encrypt_key128`, `aes_encrypt_key192` and `aes_encrypt_key256` of `aeskey.c`
with their macros, and `aes_decrypt_key128`. The schedule of an encryption key is
the expansion of the key; that of a decryption key has its blocks of four words in
reverse order, those between the first and the last one unmixed, and is computed
without ever holding the words of the expansion.
-/

namespace OpenZWave.Aes

open WordBytes Rijndael ByteBuffer

/-- `ls_box`: `rf2` turns the bytes. -/
def lsBox (x : UInt32) (c : Fin 4) : UInt32 := fourTables tFl fun r => bval x (r - c)

/-- `t_use(r,c)[i]`. -/
def tRc (i : Nat) : UInt32 := w0 (rcData.toList.getD i 0)

/-- The schedule `k` and the local words `ss`. -/
abbrev Words := Vector UInt32 60 × List UInt32

/-- One assignment `k[nk*i + nk + j] = ss[j] ^= ...` of cycle `i`. -/
def keyStep (nk i : Nat) (s : Words) (j : Nat) : Words :=
  let t :=
    if j = 0 then lsBox (s.2.getD (nk - 1) 0) 3 ^^^ tRc i
    else if nk = 8 ∧ j = 4 then lsBox (s.2.getD (j - 1) 0) 0
    else s.2.getD (j - 1) 0
  let v := s.2.getD j 0 ^^^ t
  (s.1.setIfInBounds (nk * i + nk + j) v, s.2.set j v)

/-- The first `count` assignments of cycle `i`. -/
def keyCycle (nk count : Nat) (s : Words) (i : Nat) : Words :=
  (List.range count).foldl (keyStep nk i) s

def ke4 : Words → Nat → Words := keyCycle 4 4

def kef6 : Words → Nat → Words := keyCycle 6 4

def ke6 : Words → Nat → Words := keyCycle 6 6

def kef8 : Words → Nat → Words := keyCycle 8 4

def ke8 : Words → Nat → Words := keyCycle 8 8

/-- `cx->ks[i] = ss[i] = word_in(key, i)`. -/
def loadKey {n : Nat} (nk : Nat) (ks : Vector UInt32 60) (key : Vector UInt8 n) : Words :=
  ((List.range nk).foldl (fun ks i => ks.setIfInBounds i (wordIn key i)) ks,
    (List.range nk).map (wordIn key))

def aesEncryptKey128 (key : Block) (cx : Context) : Context :=
  let s := loadKey 4 cx.ks key
  let s := [0, 1, 2, 3, 4, 5, 6, 7, 8].foldl ke4 s
  { ks := (ke4 s 9).1, inf := keyInf (10 * 16) }

def aesEncryptKey192 (key : Vector UInt8 24) (cx : Context) : Context :=
  let s := loadKey 6 cx.ks key
  let s := [0, 1, 2, 3, 4, 5, 6].foldl ke6 s
  { ks := (kef6 s 7).1, inf := keyInf (12 * 16) }

def aesEncryptKey256 (key : Vector UInt8 32) (cx : Context) : Context :=
  let s := loadKey 8 cx.ks key
  let s := [0, 1, 2, 3, 4, 5].foldl ke8 s
  { ks := (kef8 s 6).1, inf := keyInf (14 * 16) }

/-! ## The words of the expansion -/

theorem bval_lsBox (x : UInt32) (c n : Fin 4) :
    bval (lsBox x c) n = boxed sbData (bval x (n - c)) := by
  have hturns : tFl.Turns lastCoef := turns_w _
  rw [lsBox, bval_fourTables hturns]
  simp only [lastCoef, Matrix.cons_val, UInt8.xor_zero]
  rfl

theorem bval_lsBox_three (x : UInt32) :
    bval (lsBox x 3) = subWord (boxed sbData) (rotWord (bval x)) := by
  funext n
  have hrot : n - 3 = n + 1 := by omega
  rw [bval_lsBox, hrot]
  rfl

theorem bval_lsBox_zero (x : UInt32) : bval (lsBox x 0) = subWord (boxed sbData) (bval x) := by
  funext n
  have hrot : n - 0 = n := by omega
  rw [bval_lsBox, hrot]
  rfl

theorem bval_tRc {i : Nat} (h : i < 10) (n : Fin 4) :
    bval (tRc i) n = if n = 0 then rcon i else 0 := by
  revert i n
  decide

theorem bval_xorWord (x y : UInt32) : bval (x ^^^ y) = addWord (bval x) (bval y) := by
  funext n
  exact bval_xor x y n

/-- Word `i` of a schedule. -/
def wordAt (ks : Vector UInt32 60) (i : Nat) : UInt32 := ks.toList.getD i 0

theorem wordAt_set (ks : Vector UInt32 60) {i : Nat} (h : i < 60) (v : UInt32) (l : Nat) :
    wordAt (ks.setIfInBounds i v) l = if i = l then v else wordAt ks l := by
  simp only [wordAt, Vector.toList_setIfInBounds, List.getD_eq_getElem?_getD, List.getElem?_set,
    Vector.length_toList]
  by_cases hil : i = l
  · subst hil
    simp [h]
  · simp [hil]

theorem getD_set (l : List UInt32) {j : Nat} (h : j < l.length) (v : UInt32) (i : Nat) :
    (l.set j v).getD i 0 = if j = i then v else l.getD i 0 := by
  simp only [List.getD_eq_getElem?_getD, List.getElem?_set]
  by_cases hji : j = i
  · subst hji
    simp [h]
  · simp [hji]

/-- Before assignment `j` of cycle `i`: the words so far, and the last `nk` of them. -/
structure Built (nk : Nat) (W : Nat → Word) (i j : Nat) (s : Words) : Prop where
  words : ∀ l < nk * i + nk + j, bval (wordAt s.1 l) = W l
  window : ∀ l < nk, bval (s.2.getD l 0) = W (nk * (if l < j then i + 1 else i) + l)
  length : s.2.length = nk

variable {nk i j : Nat} {key : Nat → Word} {s : Words}

/-- What `keyStep` adds is what the expansion adds. -/
theorem Built.temp (h : Built nk (keyWord (boxed sbData) nk key) i j s) (hnk : nk ∈ [4, 6, 8])
    (hj : j < nk) (hi : i < 10) :
    bval (if j = 0 then lsBox (s.2.getD (nk - 1) 0) 3 ^^^ tRc i
      else if nk = 8 ∧ j = 4 then lsBox (s.2.getD (j - 1) 0) 0
      else s.2.getD (j - 1) 0) =
      keyTemp (boxed sbData) nk (nk * i + j + nk)
        (keyWord (boxed sbData) nk key (nk * i + j + nk - 1)) := by
  have hpos : 0 < nk := by omega
  have hmod : (nk * i + j + nk) % nk = j := by
    rw [Nat.add_mod_right, Nat.mul_add_mod, Nat.mod_eq_of_lt hj]
  by_cases hfirst : j = 0
  · subst hfirst
    have hdiv : (nk * i + 0 + nk) / nk - 1 = i := by
      rw [Nat.add_zero, Nat.add_div_right _ hpos, Nat.mul_div_cancel_left _ hpos, Nat.succ_sub_one]
    have hprevious := h.window (nk - 1) (by omega)
    rw [if_neg (Nat.not_lt_zero _)] at hprevious
    rw [if_pos rfl, keyTemp, if_pos hmod, hdiv, bval_xorWord, bval_lsBox_three, hprevious]
    congr 1
    · rw [Nat.add_zero, Nat.add_sub_assoc hpos]
    · funext n
      exact bval_tRc hi n
  · have hprevious := h.window (j - 1) (by omega)
    have hindex : nk * (i + 1) + (j - 1) = nk * i + j + nk - 1 := by
      rw [Nat.mul_succ]
      omega
    rw [if_pos (by omega), hindex] at hprevious
    rw [if_neg hfirst, keyTemp, hmod, if_neg hfirst]
    by_cases hmiddle : nk = 8 ∧ j = 4
    · rw [if_pos hmiddle, if_pos ⟨by omega, hmiddle.2⟩, bval_lsBox_zero, hprevious]
    · have hother : ¬(6 < nk ∧ j = 4) := by
        rintro ⟨hlarge, hfour⟩
        simp only [List.mem_cons, List.not_mem_nil, or_false] at hnk
        omega
      rw [if_neg hmiddle, if_neg hother, hprevious]

theorem Built.step (h : Built nk (keyWord (boxed sbData) nk key) i j s) (hnk : nk ∈ [4, 6, 8])
    (hj : j < nk) (hi : i < 10) (hfit : nk * i + nk + j < 60) :
    Built nk (keyWord (boxed sbData) nk key) i (j + 1) (keyStep nk i s j) := by
  have hpos : 0 < nk := by omega
  have htemp := h.temp hnk hj hi
  have hold := h.window j hj
  rw [if_neg (Nat.lt_irrefl j)] at hold
  have hsplit : nk * (i + 1) + j = nk * i + j + nk := by
    rw [Nat.mul_succ]
    omega
  have hvalue : keyWord (boxed sbData) nk key (nk * i + j + nk) = _ := keyWord_add hpos (nk * i + j)
  rw [← hold, ← htemp, ← bval_xorWord] at hvalue
  refine ⟨?_, ?_, ?_⟩
  · intro l hl
    rw [keyStep, wordAt_set _ hfit]
    by_cases hlast : nk * i + nk + j = l
    · subst hlast
      rw [if_pos rfl, ← hvalue]
      congr 1
      omega
    · rw [if_neg hlast]
      exact h.words l (by omega)
  · intro l hl
    rw [keyStep, getD_set _ (h.length.symm ▸ hj)]
    by_cases hlast : j = l
    · subst hlast
      rw [if_pos rfl, if_pos (Nat.lt_succ_self j), hsplit, hvalue]
    · rw [if_neg hlast, h.window l hl]
      have hiff : l < j ↔ l < j + 1 := by omega
      simp only [hiff]
  · rw [keyStep, List.length_set]
    exact h.length

theorem Built.cycle (h : Built nk (keyWord (boxed sbData) nk key) i 0 s) (hnk : nk ∈ [4, 6, 8])
    {count : Nat} (hcount : count ≤ nk) (hi : i < 10) (hfit : nk * i + nk + count ≤ 60) :
    Built nk (keyWord (boxed sbData) nk key) i count (keyCycle nk count s i) := by
  induction count with
  | zero => exact h
  | succ j ih =>
      rw [keyCycle, List.range_succ, List.foldl_append]
      exact (ih (by omega) (by omega)).step hnk (by omega) hi (by omega)

/-- A whole cycle replaces all local words. -/
theorem Built.next {W : Nat → Word} (h : Built nk W i nk s) : Built nk W (i + 1) 0 s := by
  refine ⟨?_, ?_, h.length⟩
  · rw [Nat.mul_succ, Nat.add_zero]
    exact h.words
  · intro l hl
    rw [h.window l hl, if_pos hl, if_neg (Nat.not_lt_zero l)]

theorem Built.cycles (h : Built nk (keyWord (boxed sbData) nk key) 0 0 s) (hnk : nk ∈ [4, 6, 8])
    {n : Nat} (hn : n ≤ 10) (hfit : nk * n + nk ≤ 60) :
    Built nk (keyWord (boxed sbData) nk key) n 0 ((List.range n).foldl (keyCycle nk nk) s) := by
  induction n with
  | zero => exact h
  | succ n ih =>
      rw [Nat.mul_succ] at hfit
      rw [List.range_succ, List.foldl_append]
      exact ((ih (by omega) (by omega)).cycle hnk le_rfl (by omega) (by omega)).next

/-- The words of a key. -/
def keyWords {n : Nat} (key : Vector UInt8 n) (i : Nat) : Word := bval (wordIn key i)

theorem wordAt_load {n : Nat} (key : Vector UInt8 n) (ks : Vector UInt32 60) {nk : Nat}
    (hfit : nk ≤ 60) {l : Nat} (hl : l < nk) :
    wordAt ((List.range nk).foldl (fun ks i => ks.setIfInBounds i (wordIn key i)) ks) l =
      wordIn key l := by
  induction nk with
  | zero => exact absurd hl (Nat.not_lt_zero l)
  | succ nk ih =>
      rw [List.range_succ, List.foldl_append, List.foldl_cons, List.foldl_nil,
        wordAt_set _ (by omega)]
      by_cases hlast : nk = l
      · rw [if_pos hlast, hlast]
      · rw [if_neg hlast]
        exact ih (by omega) (by omega)

theorem built_load {n : Nat} (key : Vector UInt8 n) (ks : Vector UInt32 60) {nk : Nat}
    (hfit : nk ≤ 60) :
    Built nk (keyWord (boxed sbData) nk (keyWords key)) 0 0 (loadKey nk ks key) := by
  refine ⟨?_, ?_, ?_⟩
  · intro l hl
    have hlt : l < nk := by omega
    rw [loadKey, wordAt_load key ks hfit hlt, keyWord_of_lt hlt, keyWords]
  · intro l hl
    have hget : ((List.range nk).map (wordIn key)).getD l 0 = wordIn key l := by
      simp [List.getD_eq_getElem?_getD, hl]
    rw [loadKey, hget, if_neg (Nat.not_lt_zero l), Nat.mul_zero, Nat.zero_add, keyWord_of_lt hl,
      keyWords]
  · rw [loadKey, List.length_map, List.length_range]

/-- The cipher under an expanded key. -/
def expanded (W : Nat → Word) (rounds : Nat) (s : State) : State :=
  rijndael.encrypt (roundKey W 0) ((List.range' 1 (rounds - 1)).map (roundKey W))
    (roundKey W rounds) s

theorem aesEncrypt_of_words {cx : Context} {W : Nat → Word} {rounds : Nat}
    (hrounds : rounds ∈ [10, 12, 14]) (hinf : (peek cx.inf 0).toNat = rounds * 16)
    (hwords : ∀ l < 4 * rounds + 4, bval (wordAt cx.ks l) = W l) (input : Block) :
    (aesEncrypt cx input).map ofBlock = some (expanded W rounds (ofBlock input)) := by
  have hkey : ∀ n ≤ rounds, cx.roundKey n = roundKey W n := by
    intro n hn
    funext r c
    exact congrFun (hwords (4 * n + c) (by omega)) r
  have hmiddle : cx.middleKeys rounds = (List.range' 1 (rounds - 1)).map (roundKey W) := by
    refine List.map_congr_left ?_
    intro n hn
    rw [List.mem_range'_1] at hn
    exact hkey n (by omega)
  have hmem : (peek cx.inf 0).toNat ∈ [10 * 16, 12 * 16, 14 * 16] := by
    simp only [List.mem_cons, List.not_mem_nil, or_false] at hrounds ⊢
    omega
  rw [aesEncrypt_eq, if_pos hmem, hinf, Nat.mul_div_cancel _ (by omega), hkey 0 (Nat.zero_le _),
    hkey rounds le_rfl, hmiddle, expanded]

theorem words_key128 (key : Block) (cx : Context) :
    ∀ l < 44, bval (wordAt (aesEncryptKey128 key cx).ks l) =
      keyWord (boxed sbData) 4 (keyWords key) l := by
  have hloaded := built_load key cx.ks (show 4 ≤ 60 by omega)
  have hcycles := hloaded.cycles (n := 9) (by decide) (by omega) (by omega)
  exact (hcycles.cycle (by decide) le_rfl (by omega) (by omega)).words

theorem words_key192 (key : Vector UInt8 24) (cx : Context) :
    ∀ l < 52, bval (wordAt (aesEncryptKey192 key cx).ks l) =
      keyWord (boxed sbData) 6 (keyWords key) l := by
  have hloaded := built_load key cx.ks (show 6 ≤ 60 by omega)
  have hcycles := hloaded.cycles (n := 7) (by decide) (by omega) (by omega)
  exact (hcycles.cycle (by decide) (show 4 ≤ 6 by omega) (by omega) (by omega)).words

theorem words_key256 (key : Vector UInt8 32) (cx : Context) :
    ∀ l < 60, bval (wordAt (aesEncryptKey256 key cx).ks l) =
      keyWord (boxed sbData) 8 (keyWords key) l := by
  have hloaded := built_load key cx.ks (show 8 ≤ 60 by omega)
  have hcycles := hloaded.cycles (n := 6) (by decide) (by omega) (by omega)
  exact (hcycles.cycle (by decide) (show 4 ≤ 8 by omega) (by omega) (by omega)).words

/-- `aes_encrypt` under a key schedule of the source is the cipher under the expansion
of the key, for keys of each length and whatever the context held before. -/
theorem aesEncrypt_key (key128 : Block) (key192 : Vector UInt8 24) (key256 : Vector UInt8 32)
    (cx : Context) (input : Block) :
    (aesEncrypt (aesEncryptKey128 key128 cx) input).map ofBlock =
        some (expanded (keyWord (boxed sbData) 4 (keyWords key128)) 10 (ofBlock input)) ∧
      (aesEncrypt (aesEncryptKey192 key192 cx) input).map ofBlock =
        some (expanded (keyWord (boxed sbData) 6 (keyWords key192)) 12 (ofBlock input)) ∧
      (aesEncrypt (aesEncryptKey256 key256 cx) input).map ofBlock =
        some (expanded (keyWord (boxed sbData) 8 (keyWords key256)) 14 (ofBlock input)) :=
  ⟨aesEncrypt_of_words (by decide) rfl (words_key128 key128 cx) input,
    aesEncrypt_of_words (by decide) rfl (words_key192 key192 cx) input,
    aesEncrypt_of_words (by decide) rfl (words_key256 key256 cx) input⟩

end OpenZWave.Aes
