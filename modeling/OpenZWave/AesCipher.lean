import OpenZWave.AesTables
import OpenZWave.ZWSecurity

/-!
# The block cipher

`aes_encrypt` and `aes_decrypt` of `aescrypt.c` with the rounds unrolled and four
tables for each round. A state is four words, one for each column. Both functions
compute the rounds of the cipher, whatever the key schedule in the context.
-/

namespace OpenZWave.Aes

open WordBytes Rijndael ByteBuffer

/-- The state `b0` or `b1` of four columns. -/
abbrev Columns := Vector UInt32 4

/-- `aes_encrypt_ctx` and `aes_decrypt_ctx`: `inf` are the four bytes of `inf.b`. -/
structure Context where
  ks : Vector UInt32 60
  inf : Vector UInt8 4

/-- `inf.l = 0` and `inf.b[0] = rounds`. -/
def keyInf (rounds : UInt8) : Vector UInt8 4 := poke (Vector.replicate 4 0) 0 rounds

/-- `ks[i]`. -/
def Context.key (cx : Context) (i : Nat) : UInt32 := cx.ks.toList.getD i 0

/-- `word_in`. -/
def wordIn {n : Nat} (x : Vector UInt8 n) (c : Nat) : UInt32 :=
  bytes2word (peek x (4 * c)).toUInt32 (peek x (4 * c + 1)).toUInt32 (peek x (4 * c + 2)).toUInt32
    (peek x (4 * c + 3)).toUInt32

/-- `state_in`. -/
def stateIn (x : Block) (k : Nat → UInt32) : Columns := Vector.ofFn fun c => wordIn x c ^^^ k c

/-- `state_out`. -/
def stateOut (y : Columns) : Block :=
  Vector.ofFn fun i => bval (y.get ⟨i.val / 4, by omega⟩) ⟨i.val % 4, by omega⟩

/-- The column in which `fwd_var` finds row `r` of column `c`. -/
def fwdVar (r c : Fin 4) : Fin 4 := c + r

/-- The column in which `inv_var` finds row `r` of column `c`. -/
def invVar (r c : Fin 4) : Fin 4 := c - r

/-- `round(rm, y, x, k)` for the macros that use tables. -/
def round (tab : FourTables) (var : Fin 4 → Fin 4 → Fin 4) (x : Columns) (k : Nat → UInt32) :
    Columns :=
  Vector.ofFn fun c => k c ^^^ fourTables tab fun r => bval (x.get (var r c)) r

def fwdRnd : Columns → (Nat → UInt32) → Columns := round tFn fwdVar

def fwdLrnd : Columns → (Nat → UInt32) → Columns := round tFl fwdVar

def invRnd : Columns → (Nat → UInt32) → Columns := round tIn invVar

def invLrnd : Columns → (Nat → UInt32) → Columns := round tIl invVar

/-- The rounds `n` with their keys at `kp + n * N_COLS`. -/
def encRounds (cx : Context) (kp : Nat) (x : Columns) (n : List Nat) : Columns :=
  n.foldl (fun x n => fwdRnd x fun c => cx.key (kp + n * 4 + c)) x

/-- `aes_encrypt`: `none` when it returns `EXIT_FAILURE`. -/
def aesEncrypt (cx : Context) (input : Block) : Option Block :=
  let rounds := (peek cx.inf 0).toNat
  if rounds ≠ 10 * 16 ∧ rounds ≠ 12 * 16 ∧ rounds ≠ 14 * 16 then none
  else
    let x := stateIn input cx.key
    let kp := 0
    -- the cases of the switch fall through
    let x := if rounds = 14 * 16 then encRounds cx kp x [1, 2] else x
    let kp := if rounds = 14 * 16 then kp + 2 * 4 else kp
    let x := if rounds ≠ 10 * 16 then encRounds cx kp x [1, 2] else x
    let kp := if rounds ≠ 10 * 16 then kp + 2 * 4 else kp
    let x := encRounds cx kp x [1, 2, 3, 4, 5, 6, 7, 8, 9]
    some (stateOut (fwdLrnd x fun c => cx.key (kp + 10 * 4 + c)))

/-- The inverse rounds with the keys `rnd_key(-n)`, at `kp - n * N_COLS`. -/
def decRounds (cx : Context) (kp : Nat) (x : Columns) (n : List Nat) : Columns :=
  n.foldl (fun x n => invRnd x fun c => cx.key (kp - n * 4 + c)) x

/-- `aes_decrypt` with the key schedule reversed. -/
def aesDecrypt (cx : Context) (input : Block) : Option Block :=
  let rounds := (peek cx.inf 0).toNat
  if rounds ≠ 10 * 16 ∧ rounds ≠ 12 * 16 ∧ rounds ≠ 14 * 16 then none
  else
    let x := stateIn input cx.key
    let kp := rounds >>> 2
    -- the cases of the switch fall through
    let x := if rounds = 14 * 16 then decRounds cx kp x [13, 12] else x
    let x := if rounds ≠ 10 * 16 then decRounds cx kp x [11, 10] else x
    let x := decRounds cx kp x [9, 8, 7, 6, 5, 4, 3, 2, 1]
    some (stateOut (invLrnd x fun c => cx.key (kp + c)))

/-! ## What the rounds compute -/

/-- The cipher with the substitution box of the tables. -/
def rijndael : RoundCipher State := cipher (boxed sbData) (boxed isbData) isbData_sbData

def toState (x : Columns) : State := fun r c => bval (x.get c) r

/-- Four words of a key schedule. -/
def keyState (k : Nat → UInt32) : State := fun r c => bval (k c) r

/-- The bytes of a block, column by column. -/
def ofBlock (b : Block) : State := fun r c => peek b (4 * c + r)

theorem get_ofFn {α : Type} {n : Nat} (f : Fin n → α) (i : Fin n) : (Vector.ofFn f).get i = f i :=
  Vector.getElem_ofFn i.isLt

theorem peek_ofFn {n : Nat} (f : Fin n → UInt8) (i : Nat) (h : i < n) :
    peek (Vector.ofFn f) i = f ⟨i, h⟩ := by
  simp [peek, h]

theorem ofBlock_stateOut (y : Columns) : ofBlock (stateOut y) = toState y := by
  funext r c
  have hcolumn : (4 * c.val + r.val) / 4 = c.val := by omega
  have hrow : (4 * c.val + r.val) % 4 = r.val := by omega
  rw [ofBlock, stateOut, peek_ofFn _ _ (by omega)]
  simp only [hcolumn, hrow]
  rfl

theorem bval_wordIn (x : Block) (c r : Fin 4) : bval (wordIn x c) r = peek x (4 * c + r) := by
  exact bval_bytes2word (fun r => peek x (4 * c + r)) r

theorem toState_stateIn (x : Block) (k : Nat → UInt32) :
    toState (stateIn x k) = addRoundKey (ofBlock x) (keyState k) := by
  funext r c
  rw [toState, stateIn, get_ofFn, bval_xor, bval_wordIn]
  rfl

theorem toState_round {tab : FourTables} {coef : Fin 4 → UInt8 → UInt8} (h : tab.Turns coef)
    (var : Fin 4 → Fin 4 → Fin 4) (x : Columns) (k : Nat → UInt32) (r c : Fin 4) :
    toState (round tab var x k) r c =
      (coef 0 (tab.data (toState x r (var r c))) ^^^
        coef 3 (tab.data (toState x (r + 1) (var (r + 1) c))) ^^^
        coef 2 (tab.data (toState x (r + 2) (var (r + 2) c))) ^^^
        coef 1 (tab.data (toState x (r + 3) (var (r + 3) c)))) ^^^ keyState k r c := by
  rw [toState, round, get_ofFn, bval_xor, bval_fourTables h, UInt8.xor_comm]
  rfl

theorem toState_fwdRnd (x : Columns) (k : Nat → UInt32) :
    toState (fwdRnd x k) = rijndael.round (toState x) (keyState k) := by
  funext r c
  exact toState_round tFn_turns fwdVar x k r c

theorem toState_fwdLrnd (x : Columns) (k : Nat → UInt32) :
    toState (fwdLrnd x k) = rijndael.add (rijndael.sub (toState x)) (keyState k) := by
  funext r c
  have hturns : tFl.Turns lastCoef := turns_w _
  rw [fwdLrnd, toState_round hturns]
  simp only [lastCoef, Matrix.cons_val, UInt8.xor_zero]
  rfl

theorem toState_invRnd (x : Columns) (k : Nat → UInt32) :
    toState (invRnd x k) = rijndael.invRound (toState x) (keyState k) := by
  funext r c
  exact toState_round (turns_v _) invVar x k r c

theorem toState_invLrnd (x : Columns) (k : Nat → UInt32) :
    toState (invLrnd x k) = rijndael.add (rijndael.unsub (toState x)) (keyState k) := by
  funext r c
  have hturns : tIl.Turns lastCoef := turns_w _
  rw [invLrnd, toState_round hturns]
  simp only [lastCoef, Matrix.cons_val, UInt8.xor_zero]
  rfl

/-- The key of round `n`. -/
def Context.roundKey (cx : Context) (n : Nat) : State := keyState fun c => cx.key (4 * n + c)

theorem toState_encRounds (cx : Context) (m : Nat) (x : Columns) (n : List Nat) :
    toState (encRounds cx (4 * m) x n) =
      (n.map fun n => cx.roundKey (m + n)).foldl rijndael.round (toState x) := by
  induction n generalizing x with
  | nil => rfl
  | cons n ns ih =>
      have hkey : (fun c => cx.key (4 * m + n * 4 + c)) = fun c => cx.key (4 * (m + n) + c) := by
        funext c
        congr 1
        omega
      rw [List.map_cons, List.foldl_cons, Context.roundKey, ← hkey, ← toState_fwdRnd]
      exact ih _

theorem toState_decRounds (cx : Context) (m : Nat) (x : Columns) (n : List Nat)
    (hle : ∀ i ∈ n, i ≤ m) :
    toState (decRounds cx (4 * m) x n) =
      (n.map fun n => cx.roundKey (m - n)).foldl rijndael.invRound (toState x) := by
  induction n generalizing x with
  | nil => rfl
  | cons n ns ih =>
      have hn : n ≤ m := hle n List.mem_cons_self
      have hkey : (fun c => cx.key (4 * m - n * 4 + c)) = fun c => cx.key (4 * (m - n) + c) := by
        funext c
        congr 1
        omega
      rw [List.map_cons, List.foldl_cons, Context.roundKey, ← hkey, ← toState_invRnd]
      exact ih _ fun i hi => hle i (List.mem_cons_of_mem n hi)

/-- The keys of the rounds between the first addition and the last round. -/
def Context.middleKeys (cx : Context) (rounds : Nat) : List State :=
  (List.range' 1 (rounds - 1)).map cx.roundKey

theorem toState_first (cx : Context) (input : Block) :
    toState (stateIn input cx.key) = rijndael.add (ofBlock input) (cx.roundKey 0) := by
  rw [toState_stateIn, Context.roundKey]
  simp only [Nat.mul_zero, Nat.zero_add]
  rfl

theorem ofBlock_fwdLrnd (cx : Context) (x : Columns) (n : Nat) :
    ofBlock (stateOut (fwdLrnd x fun c => cx.key (4 * n + c))) =
      rijndael.add (rijndael.sub (toState x)) (cx.roundKey n) := by
  rw [ofBlock_stateOut, toState_fwdLrnd]
  rfl

theorem ofBlock_invLrnd (cx : Context) (x : Columns) (n : Nat) :
    ofBlock (stateOut (invLrnd x fun c => cx.key (4 * n + c))) =
      rijndael.add (rijndael.unsub (toState x)) (cx.roundKey n) := by
  rw [ofBlock_stateOut, toState_invLrnd]
  rfl

/-- `aes_encrypt` computes the rounds of the cipher, ten, twelve or fourteen of them,
and fails for every other context. -/
theorem aesEncrypt_eq (cx : Context) (input : Block) :
    (aesEncrypt cx input).map ofBlock =
      if (peek cx.inf 0).toNat ∈ [10 * 16, 12 * 16, 14 * 16] then
        some (rijndael.encrypt (cx.roundKey 0) (cx.middleKeys ((peek cx.inf 0).toNat / 16))
          (cx.roundKey ((peek cx.inf 0).toNat / 16)) (ofBlock input))
      else none := by
  have hfirst := toState_first cx input
  have hstart : ∀ x n, toState (encRounds cx 0 x n) = _ := fun x n => toState_encRounds cx 0 x n
  have hsecond : ∀ x n, toState (encRounds cx 8 x n) = _ := fun x n => toState_encRounds cx 2 x n
  have hthird : ∀ x n, toState (encRounds cx 16 x n) = _ := fun x n => toState_encRounds cx 4 x n
  generalize hrounds : (peek cx.inf 0).toNat = rounds
  by_cases hmem : rounds ∈ [10 * 16, 12 * 16, 14 * 16]
  · rw [if_pos hmem]
    simp only [List.mem_cons, List.not_mem_nil, or_false] at hmem
    rcases hmem with rfl | rfl | rfl
    · have hvalue : aesEncrypt cx input = some (stateOut (fwdLrnd
          (encRounds cx 0 (stateIn input cx.key) [1, 2, 3, 4, 5, 6, 7, 8, 9])
          fun c => cx.key (4 * 10 + c))) := by
        simp [aesEncrypt, hrounds]
      have hkeys : cx.middleKeys 10 =
          [1, 2, 3, 4, 5, 6, 7, 8, 9].map fun n => cx.roundKey (0 + n) := rfl
      rw [hvalue, Option.map_some, ofBlock_fwdLrnd, hstart, hfirst, RoundCipher.encrypt, hkeys]
    · have hvalue : aesEncrypt cx input = some (stateOut (fwdLrnd
          (encRounds cx 8 (encRounds cx 0 (stateIn input cx.key) [1, 2])
            [1, 2, 3, 4, 5, 6, 7, 8, 9])
          fun c => cx.key (4 * 12 + c))) := by
        simp [aesEncrypt, hrounds]
      have hkeys : cx.middleKeys 12 =
          ([1, 2].map fun n => cx.roundKey (0 + n)) ++
            [1, 2, 3, 4, 5, 6, 7, 8, 9].map fun n => cx.roundKey (2 + n) := rfl
      rw [hvalue, Option.map_some, ofBlock_fwdLrnd, hsecond, hstart, hfirst, RoundCipher.encrypt,
        hkeys, List.foldl_append]
    · have hvalue : aesEncrypt cx input = some (stateOut (fwdLrnd
          (encRounds cx 16 (encRounds cx 8 (encRounds cx 0 (stateIn input cx.key) [1, 2]) [1, 2])
            [1, 2, 3, 4, 5, 6, 7, 8, 9])
          fun c => cx.key (4 * 14 + c))) := by
        simp [aesEncrypt, hrounds]
      have hkeys : cx.middleKeys 14 =
          ([1, 2].map fun n => cx.roundKey (0 + n)) ++ (([1, 2].map fun n => cx.roundKey (2 + n)) ++
            [1, 2, 3, 4, 5, 6, 7, 8, 9].map fun n => cx.roundKey (4 + n)) := rfl
      rw [hvalue, Option.map_some, ofBlock_fwdLrnd, hthird, hsecond, hstart, hfirst,
        RoundCipher.encrypt, hkeys, List.foldl_append, List.foldl_append]
  · rw [if_neg hmem]
    simp only [List.mem_cons, List.not_mem_nil, or_false, not_or] at hmem
    simp only [aesEncrypt, hrounds, ne_eq, if_pos hmem, Option.map_none]

/-- `aes_decrypt` computes the inverse rounds with the keys in the order of the context. -/
theorem aesDecrypt_eq (cx : Context) (input : Block) :
    (aesDecrypt cx input).map ofBlock =
      if (peek cx.inf 0).toNat ∈ [10 * 16, 12 * 16, 14 * 16] then
        some (rijndael.decrypt (cx.roundKey 0) (cx.middleKeys ((peek cx.inf 0).toNat / 16))
          (cx.roundKey ((peek cx.inf 0).toNat / 16)) (ofBlock input))
      else none := by
  have hfirst := toState_first cx input
  generalize hrounds : (peek cx.inf 0).toNat = rounds
  by_cases hmem : rounds ∈ [10 * 16, 12 * 16, 14 * 16]
  · rw [if_pos hmem]
    simp only [List.mem_cons, List.not_mem_nil, or_false] at hmem
    rcases hmem with rfl | rfl | rfl
    · have hkeys : ∀ x n, (∀ i ∈ n, i ≤ 10) → toState (decRounds cx 40 x n) = _ :=
        fun x n => toState_decRounds cx 10 x n
      have hvalue : aesDecrypt cx input = some (stateOut (invLrnd
          (decRounds cx 40 (stateIn input cx.key) [9, 8, 7, 6, 5, 4, 3, 2, 1])
          fun c => cx.key (4 * 10 + c))) := by
        simp [aesDecrypt, hrounds]
      have hmiddle : cx.middleKeys 10 =
          [9, 8, 7, 6, 5, 4, 3, 2, 1].map fun n => cx.roundKey (10 - n) := rfl
      rw [hvalue, Option.map_some, ofBlock_invLrnd, hkeys _ _ (by decide), hfirst,
        RoundCipher.decrypt, hmiddle]
    · have hkeys : ∀ x n, (∀ i ∈ n, i ≤ 12) → toState (decRounds cx 48 x n) = _ :=
        fun x n => toState_decRounds cx 12 x n
      have hvalue : aesDecrypt cx input = some (stateOut (invLrnd
          (decRounds cx 48 (decRounds cx 48 (stateIn input cx.key) [11, 10])
            [9, 8, 7, 6, 5, 4, 3, 2, 1])
          fun c => cx.key (4 * 12 + c))) := by
        simp [aesDecrypt, hrounds]
      have hmiddle : cx.middleKeys 12 =
          ([11, 10].map fun n => cx.roundKey (12 - n)) ++
            [9, 8, 7, 6, 5, 4, 3, 2, 1].map fun n => cx.roundKey (12 - n) := rfl
      rw [hvalue, Option.map_some, ofBlock_invLrnd, hkeys _ _ (by decide), hkeys _ _ (by decide),
        hfirst, RoundCipher.decrypt, hmiddle, List.foldl_append]
    · have hkeys : ∀ x n, (∀ i ∈ n, i ≤ 14) → toState (decRounds cx 56 x n) = _ :=
        fun x n => toState_decRounds cx 14 x n
      have hvalue : aesDecrypt cx input = some (stateOut (invLrnd
          (decRounds cx 56 (decRounds cx 56 (decRounds cx 56 (stateIn input cx.key) [13, 12])
            [11, 10]) [9, 8, 7, 6, 5, 4, 3, 2, 1])
          fun c => cx.key (4 * 14 + c))) := by
        simp [aesDecrypt, hrounds]
      have hmiddle : cx.middleKeys 14 =
          ([13, 12].map fun n => cx.roundKey (14 - n)) ++
            (([11, 10].map fun n => cx.roundKey (14 - n)) ++
              [9, 8, 7, 6, 5, 4, 3, 2, 1].map fun n => cx.roundKey (14 - n)) := rfl
      rw [hvalue, Option.map_some, ofBlock_invLrnd, hkeys _ _ (by decide), hkeys _ _ (by decide),
        hkeys _ _ (by decide), hfirst, RoundCipher.decrypt, hmiddle, List.foldl_append,
        List.foldl_append]
  · rw [if_neg hmem]
    simp only [List.mem_cons, List.not_mem_nil, or_false, not_or] at hmem
    simp only [aesDecrypt, hrounds, ne_eq, if_pos hmem, Option.map_none]

end OpenZWave.Aes
