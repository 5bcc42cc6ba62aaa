import Mathlib.Algebra.Group.Nat.Defs
import Mathlib.Order.Lattice
import OpenZWave.AesKeys

/-!
# Block cipher modes

`aes_mode_reset`, `aes_ecb_encrypt` and `aes_ofb_crypt` of `aes_modes.c`. The byte
`inf.b[2]` of a context keeps how much of the block `iv` was used, so that a stream
goes on where the last call stopped. `aes_ofb_crypt` has three loops: over the rest
of a block, over whole blocks, and over what is left. Together they are the
keystream that is taken byte by byte.
-/

namespace OpenZWave.Aes

open ByteBuffer StreamCipher

/-- How `aes_ofb_crypt` does not return `EXIT_SUCCESS`. -/
inductive OfbFault
  /-- `assert(b_pos == 0)`. -/
  | assertion
  /-- `EXIT_FAILURE`. -/
  | failure
  | diverges
  deriving DecidableEq, Repr

/-- The locals of `aes_ofb_crypt`: `ibuf` is what is left, `obuf` what was written. -/
structure OfbState where
  iv : Block
  b_pos : Nat
  ibuf : List UInt8
  obuf : List UInt8
  deriving DecidableEq, Repr

/-- `while(b_pos < AES_BLOCK_SIZE && cnt < len)`. -/
def fillBlock (iv : Block) (b_pos : Nat) (obuf : List UInt8) : List UInt8 → OfbState
  | [] => { iv, b_pos, ibuf := [], obuf }
  | b :: ibuf =>
      if b_pos < 16 then fillBlock iv (b_pos + 1) (obuf ++ [peek iv b_pos ^^^ b]) ibuf
      else { iv, b_pos, ibuf := b :: ibuf, obuf }

/-- `b_pos = (b_pos == AES_BLOCK_SIZE ? 0 : b_pos)`. -/
def OfbState.wrap (s : OfbState) : OfbState :=
  { s with b_pos := if s.b_pos = 16 then 0 else s.b_pos }

/-- `aes_encrypt(iv, iv, ctx)`. -/
def encryptIv (enc : Block → Option Block) (iv : Block) : Except OfbFault Block :=
  match enc iv with
  | some iv => .ok iv
  | none => .error .failure

/-- `while(cnt + AES_BLOCK_SIZE <= len)`. -/
def blockLoop (enc : Block → Option Block) : Nat → OfbState → Except OfbFault OfbState
  | fuel, s =>
      if s.ibuf.length < 16 then .ok s
      else
        match fuel with
        | 0 => .error .diverges
        | fuel + 1 =>
            if s.b_pos ≠ 0 then .error .assertion
            else do
              let iv ← encryptIv enc s.iv
              blockLoop enc fuel
                { iv, b_pos := s.b_pos, ibuf := s.ibuf.drop 16,
                  obuf := s.obuf ++ List.zipWith (· ^^^ ·) iv.toList (s.ibuf.take 16) }

/-- `while(cnt < len)`. -/
def restLoop (enc : Block → Option Block) : Nat → OfbState → Except OfbFault OfbState
  | fuel, s =>
      if s.ibuf.length = 0 then .ok s
      else
        match fuel with
        | 0 => .error .diverges
        | fuel + 1 => do
            let iv ← if s.b_pos = 0 then encryptIv enc s.iv else pure s.iv
            restLoop enc fuel (fillBlock iv s.b_pos s.obuf s.ibuf).wrap

/-- What is done when there is a whole block. -/
def wholeBlocks (enc : Block → Option Block) (s : OfbState) : Except OfbFault OfbState :=
  if s.ibuf.length >>> 4 ≠ 0 then blockLoop enc s.ibuf.length s else .ok s

def aesModeReset (cx : Context) : Context := { cx with inf := poke cx.inf 2 0 }

/-- `aes_ofb_crypt`: what it writes, and `iv` and the context after it. -/
def ofbCrypt (cx : Context) (iv : Block) (ibuf : List UInt8) :
    Except OfbFault (List UInt8 × Block × Context) := do
  let b_pos := (peek cx.inf 2).toNat
  let s := if b_pos ≠ 0 then (fillBlock iv b_pos [] ibuf).wrap else ⟨iv, b_pos, ibuf, []⟩
  let s ← wholeBlocks (aesEncrypt cx) s
  let s ← restLoop (aesEncrypt cx) s.ibuf.length s
  return (s.obuf, s.iv, { cx with inf := poke cx.inf 2 s.b_pos.toUInt8 })

/-- The loop of `aes_ecb_encrypt` over `nb` blocks: `none` is `EXIT_FAILURE`. -/
def ecbLoop (cx : Context) : Nat → List UInt8 → Option (List UInt8)
  | 0, _ => some []
  | nb + 1, ibuf => do
      let block ← aesEncrypt cx (Vector.ofFn fun i => ibuf.getD i 0)
      let rest ← ecbLoop cx nb (ibuf.drop 16)
      return block.toList ++ rest

def aesEcbEncrypt (cx : Context) (ibuf : List UInt8) : Option (List UInt8) :=
  if ibuf.length % 16 ≠ 0 then none else ecbLoop cx (ibuf.length >>> 4) ibuf

/-! ## The keystream -/

/-- A context that holds a key. -/
def Context.Keyed (cx : Context) : Prop :=
  (peek cx.inf 0).toNat = 10 * 16 ∨ (peek cx.inf 0).toNat = 12 * 16 ∨
    (peek cx.inf 0).toNat = 14 * 16

/-- The block cipher of a context that holds a key. -/
def blockCipher (cx : Context) (b : Block) : Block := (aesEncrypt cx b).getD b

theorem aesEncrypt_keyed {cx : Context} (h : cx.Keyed) (input : Block) :
    aesEncrypt cx input = some (blockCipher cx input) := by
  have hsome : ∃ b, aesEncrypt cx input = some b := by
    rw [aesEncrypt, if_neg (by rw [Context.Keyed] at h; omega)]
    exact ⟨_, rfl⟩
  obtain ⟨b, hb⟩ := hsome
  rw [blockCipher, hb, Option.getD_some]

theorem encryptIv_keyed {cx : Context} (h : cx.Keyed) (iv : Block) :
    encryptIv (aesEncrypt cx) iv = .ok (blockCipher cx iv) := by
  rw [encryptIv, aesEncrypt_keyed h]

/-- One block is encrypted by itself. -/
theorem aesEcbEncrypt_block {cx : Context} (h : cx.Keyed) (b : Block) :
    aesEcbEncrypt cx b.toList = some (blockCipher cx b).toList := by
  have hblock : (Vector.ofFn fun i : Fin 16 => b.toList.getD i 0) = b := by
    apply Vector.ext
    intro i hi
    rw [Vector.getElem_ofFn, List.getD_eq_getElem _ _ (by rw [Vector.length_toList]; exact hi),
      Vector.getElem_toList]
  simp only [aesEcbEncrypt, Vector.length_toList]
  change (aesEncrypt cx _).bind _ = _
  rw [hblock, aesEncrypt_keyed h]
  exact congrArg some (List.append_nil _)

/-- What is written in the end, and the keystream after it, when the bytes that are
left are taken one by one. -/
def OfbState.total (f : Block → Block) (s : OfbState) : List UInt8 × Block × Nat :=
  (s.obuf ++ crypt (ofbNext f) (s.iv, s.b_pos) s.ibuf, after (ofbNext f) (s.iv, s.b_pos) s.ibuf)

theorem OfbState.total_cons (f : Block → Block) (iv : Block) (b_pos : Nat) (b : UInt8)
    (ibuf obuf : List UInt8) :
    OfbState.total f ⟨iv, b_pos, b :: ibuf, obuf⟩ =
      OfbState.total f ⟨(ofbNext f (iv, b_pos)).2.1, (ofbNext f (iv, b_pos)).2.2, ibuf,
        obuf ++ [(ofbNext f (iv, b_pos)).1 ^^^ b]⟩ := by
  rw [OfbState.total, crypt, after, List.append_cons]
  rfl

/-- A block that is partly used goes on. -/
theorem total_fillBlock (f : Block → Block) (iv : Block) {b_pos : Nat} (hpos : 0 < b_pos)
    (hle : b_pos ≤ 16) (obuf ibuf : List UInt8) :
    (fillBlock iv b_pos obuf ibuf).wrap.total f =
      OfbState.total f (OfbState.wrap ⟨iv, b_pos, ibuf, obuf⟩) := by
  induction ibuf generalizing b_pos obuf with
  | nil => rfl
  | cons b ibuf ih =>
      rw [fillBlock]
      by_cases hlt : b_pos < 16
      · have hnext : ofbNext f (iv, b_pos) =
            (peek iv b_pos, iv, if b_pos + 1 = 16 then 0 else b_pos + 1) := by
          rw [ofbNext, if_neg (by omega)]
        rw [if_pos hlt, ih (by omega) (by omega), OfbState.wrap, OfbState.wrap]
        simp only [if_neg (Nat.ne_of_lt hlt)]
        rw [OfbState.total_cons, hnext]
      · rw [if_neg hlt]

/-- A fresh block starts with a new vector. -/
theorem total_freshBlock (f : Block → Block) (iv : Block) (obuf : List UInt8) {ibuf : List UInt8}
    (h : ibuf.length ≠ 0) :
    (fillBlock (f iv) 0 obuf ibuf).wrap.total f = OfbState.total f ⟨iv, 0, ibuf, obuf⟩ := by
  cases ibuf with
  | nil => exact absurd rfl h
  | cons b ibuf =>
      rw [fillBlock, if_pos (by omega), total_fillBlock f _ (by omega) (by omega),
        OfbState.total_cons]
      rfl

/-- Bytes that fit into the block are paired with its bytes. -/
theorem fillBlock_append (iv : Block) (b_pos : Nat) (obuf l ibuf : List UInt8)
    (h : b_pos + l.length ≤ 16) :
    fillBlock iv b_pos obuf (l ++ ibuf) =
      fillBlock iv (b_pos + l.length)
        (obuf ++ List.zipWith (· ^^^ ·) (iv.toList.drop b_pos) l) ibuf := by
  induction l generalizing b_pos obuf with
  | nil => rw [List.zipWith_nil_right, List.append_nil, List.nil_append, List.length_nil,
      Nat.add_zero]
  | cons b l ih =>
      rw [List.length_cons] at h
      have hlt : b_pos < iv.toList.length := by rw [Vector.length_toList]; omega
      have hbyte : peek iv b_pos = iv.toList[b_pos] := by
        rw [peek, List.getD_eq_getElem _ _ hlt]
      rw [List.cons_append, fillBlock, if_pos (by omega), ih _ _ (by omega),
        List.drop_eq_getElem_cons hlt, List.zipWith_cons_cons, hbyte, List.append_assoc,
        List.singleton_append, List.length_cons, Nat.add_assoc, Nat.add_comm 1]

/-- The unrolled body of the block loop fills one block. -/
theorem total_wholeBlock (f : Block → Block) (iv : Block) (obuf : List UInt8)
    {ibuf : List UInt8} (h : 16 ≤ ibuf.length) :
    OfbState.total f ⟨f iv, 0, ibuf.drop 16,
        obuf ++ List.zipWith (· ^^^ ·) (f iv).toList (ibuf.take 16)⟩ =
      OfbState.total f ⟨iv, 0, ibuf, obuf⟩ := by
  have htake : (ibuf.take 16).length = 16 := by rw [List.length_take]; omega
  have hfill : fillBlock (f iv) 0 obuf ibuf = fillBlock (f iv) 16
      (obuf ++ List.zipWith (· ^^^ ·) (f iv).toList (ibuf.take 16)) (ibuf.drop 16) := by
    have happend := fillBlock_append (f iv) 0 obuf (ibuf.take 16) (ibuf.drop 16) (by omega)
    rwa [List.take_append_drop, htake, Nat.zero_add, List.drop_zero] at happend
  rw [← total_freshBlock f iv obuf (by omega), hfill, total_fillBlock f _ (by omega) le_rfl]
  rfl

theorem blockLoop_total {cx : Context} (h : cx.Keyed) {fuel : Nat} {s : OfbState}
    (hpos : s.ibuf.length < 16 ∨ s.b_pos = 0) (hfuel : s.ibuf.length ≤ fuel) :
    ∃ s', blockLoop (aesEncrypt cx) fuel s = .ok s' ∧
      s'.total (blockCipher cx) = s.total (blockCipher cx) ∧ (s'.b_pos = 0 ∨ s'.b_pos = s.b_pos) := by
  induction fuel generalizing s with
  | zero =>
      rw [blockLoop, if_pos (by omega)]
      exact ⟨s, rfl, rfl, .inr rfl⟩
  | succ fuel ih =>
      rw [blockLoop]
      by_cases hlen : s.ibuf.length < 16
      · rw [if_pos hlen]
        exact ⟨s, rfl, rfl, .inr rfl⟩
      · have hzero : s.b_pos = 0 := by omega
        have htotal := total_wholeBlock (blockCipher cx) s.iv s.obuf (by omega : 16 ≤ s.ibuf.length)
        rw [if_neg hlen, if_neg (not_not_intro hzero), encryptIv_keyed h]
        obtain ⟨s', hs', htotal', hpos'⟩ := ih (s := ⟨blockCipher cx s.iv, s.b_pos, s.ibuf.drop 16,
          s.obuf ++ List.zipWith (· ^^^ ·) (blockCipher cx s.iv).toList (s.ibuf.take 16)⟩)
          (.inr hzero) (by rw [List.length_drop]; omega)
        refine ⟨s', hs', ?_, hpos'⟩
        rw [htotal', hzero, htotal, ← hzero]

/-- The inner loop takes a byte when there is one and the block is not used up. -/
theorem fillBlock_progress (iv : Block) {b_pos : Nat} (hlt : b_pos < 16) (obuf ibuf : List UInt8) :
    (fillBlock iv b_pos obuf ibuf).ibuf.length ≤ ibuf.length - 1 ∧
      (fillBlock iv b_pos obuf ibuf).b_pos ≤ 16 := by
  induction ibuf generalizing b_pos obuf with
  | nil => exact ⟨le_rfl, by rw [fillBlock]; exact hlt.le⟩
  | cons b ibuf ih =>
      rw [fillBlock, if_pos hlt]
      by_cases hnext : b_pos + 1 < 16
      · obtain ⟨hlen, hle⟩ := ih hnext (obuf ++ [peek iv b_pos ^^^ b])
        exact ⟨by rw [List.length_cons]; omega, hle⟩
      · cases ibuf with
        | nil => exact ⟨by simp [fillBlock], by rw [fillBlock]; exact hlt⟩
        | cons c ibuf =>
            rw [fillBlock, if_neg hnext]
            exact ⟨by simp, by simp only; omega⟩

theorem OfbState.wrap_lt {s : OfbState} (h : s.b_pos ≤ 16) : s.wrap.b_pos < 16 := by
  rw [OfbState.wrap]
  simp only
  split <;> omega

theorem restLoop_total {cx : Context} (h : cx.Keyed) {fuel : Nat} {s : OfbState}
    (hpos : s.b_pos < 16) (hfuel : s.ibuf.length ≤ fuel) :
    ∃ s', restLoop (aesEncrypt cx) fuel s = .ok s' ∧
      s'.total (blockCipher cx) = s.total (blockCipher cx) ∧ s'.ibuf = [] ∧ s'.b_pos < 16 := by
  induction fuel generalizing s with
  | zero =>
      have hnil : s.ibuf.length = 0 := by omega
      rw [restLoop, if_pos hnil]
      exact ⟨s, rfl, rfl, List.length_eq_zero_iff.mp hnil, hpos⟩
  | succ fuel ih =>
      rw [restLoop]
      by_cases hnil : s.ibuf.length = 0
      · rw [if_pos hnil]
        exact ⟨s, rfl, rfl, List.length_eq_zero_iff.mp hnil, hpos⟩
      · rw [if_neg hnil]
        have hstep : ∀ iv, (fillBlock iv s.b_pos s.obuf s.ibuf).wrap.total (blockCipher cx) =
              s.total (blockCipher cx) →
            ∃ s', restLoop (aesEncrypt cx) fuel (fillBlock iv s.b_pos s.obuf s.ibuf).wrap = .ok s' ∧
              s'.total (blockCipher cx) = s.total (blockCipher cx) ∧ s'.ibuf = [] ∧
                s'.b_pos < 16 := by
          intro iv htotal
          obtain ⟨hlen, hle⟩ := fillBlock_progress iv hpos s.obuf s.ibuf
          rw [← htotal]
          exact ih (OfbState.wrap_lt hle) (by rw [OfbState.wrap]; simp only; omega)
        by_cases hzero : s.b_pos = 0
        · rw [if_pos hzero, encryptIv_keyed h]
          refine hstep _ ?_
          rw [hzero, total_freshBlock _ _ _ hnil, ← hzero]
        · rw [if_neg hzero]
          refine hstep _ ?_
          rw [total_fillBlock _ _ (by omega) (by omega), OfbState.wrap]
          simp only [if_neg (Nat.ne_of_lt hpos)]

/-- The inner loop ends with the input or with the block. -/
theorem fillBlock_done (iv : Block) {b_pos : Nat} (hle : b_pos ≤ 16) (obuf ibuf : List UInt8) :
    (fillBlock iv b_pos obuf ibuf).ibuf = [] ∨ (fillBlock iv b_pos obuf ibuf).b_pos = 16 := by
  induction ibuf generalizing b_pos obuf with
  | nil => exact .inl rfl
  | cons b ibuf ih =>
      rw [fillBlock]
      by_cases hlt : b_pos < 16
      · rw [if_pos hlt]
        exact ih hlt _
      · rw [if_neg hlt]
        exact .inr (Nat.le_antisymm hle (Nat.le_of_not_lt hlt))

/-- The rest of a block, when one was begun. -/
theorem begun_total (f : Block → Block) (iv : Block) {b_pos : Nat} (hlt : b_pos < 16)
    (ibuf : List UInt8) :
    ∃ s : OfbState, (if b_pos ≠ 0 then (fillBlock iv b_pos [] ibuf).wrap
        else ⟨iv, b_pos, ibuf, []⟩) = s ∧
      s.total f = OfbState.total f ⟨iv, b_pos, ibuf, []⟩ ∧
      (s.ibuf.length < 16 ∨ s.b_pos = 0) ∧ s.b_pos < 16 := by
  by_cases hzero : b_pos = 0
  · rw [if_neg (not_not_intro hzero)]
    exact ⟨_, rfl, rfl, .inr hzero, hlt⟩
  · rw [if_pos hzero]
    obtain ⟨-, hle⟩ := fillBlock_progress iv hlt [] ibuf
    refine ⟨_, rfl, ?_, ?_, OfbState.wrap_lt hle⟩
    · rw [total_fillBlock f iv (by omega) hlt.le, OfbState.wrap]
      simp only [if_neg (Nat.ne_of_lt hlt)]
    · rcases fillBlock_done iv hlt.le [] ibuf with hnil | hfull
      · left
        rw [OfbState.wrap, hnil]
        exact Nat.succ_pos 15
      · right
        rw [OfbState.wrap, hfull]
        rfl

/-- Three loops are one keystream: from a block that is not used up, the call succeeds,
writes the exclusive or with the keystream, and leaves the vector and the context where
the keystream stands. -/
theorem ofbCrypt_eq {cx : Context} (h : cx.Keyed) (hpos : (peek cx.inf 2).toNat < 16)
    (iv : Block) (ibuf : List UInt8) :
    ∃ iv' b_pos, b_pos < 16 ∧
      after (ofbNext (blockCipher cx)) (iv, (peek cx.inf 2).toNat) ibuf = (iv', b_pos) ∧
      ofbCrypt cx iv ibuf =
        .ok (crypt (ofbNext (blockCipher cx)) (iv, (peek cx.inf 2).toNat) ibuf, iv',
          { cx with inf := poke cx.inf 2 b_pos.toUInt8 }) := by
  obtain ⟨s, hs, hstart, hready, hlt⟩ := begun_total (blockCipher cx) iv hpos ibuf
  have hblocks : ∃ s', wholeBlocks (aesEncrypt cx) s = .ok s' ∧
      s'.total (blockCipher cx) = s.total (blockCipher cx) ∧ s'.b_pos < 16 := by
    rw [wholeBlocks]
    split
    · obtain ⟨s', hs', htotal, hb_pos⟩ := blockLoop_total h hready le_rfl
      exact ⟨s', hs', htotal, by omega⟩
    · exact ⟨s, rfl, rfl, hlt⟩
  obtain ⟨s', hs', htotal', hlt'⟩ := hblocks
  obtain ⟨s'', hs'', htotal'', hnil, hlt''⟩ := restLoop_total h hlt' le_rfl
  have hend : (s''.obuf, s''.iv, s''.b_pos) =
      OfbState.total (blockCipher cx) ⟨iv, (peek cx.inf 2).toNat, ibuf, []⟩ := by
    rw [← hstart, ← htotal', ← htotal'', OfbState.total, hnil, crypt, after, List.append_nil]
  rw [OfbState.total, List.nil_append, Prod.mk.injEq] at hend
  refine ⟨s''.iv, s''.b_pos, hlt'', hend.2.symm, ?_⟩
  rw [← hend.1]
  simp only [ofbCrypt, hs]
  rw [hs']
  change (restLoop (aesEncrypt cx) s'.ibuf.length s' >>= _) = _
  rw [hs'']
  rfl

/-! ## Pieces -/

/-- The cipher of a context does not depend on how far the block is used. -/
theorem aesEncrypt_poke (cx : Context) (v : UInt8) :
    aesEncrypt { cx with inf := poke cx.inf 2 v } = aesEncrypt cx := by
  funext input
  have hrounds : peek (poke cx.inf 2 v) 0 = peek cx.inf 0 := peek_poke_ne (by decide)
  simp only [aesEncrypt, hrounds]
  rfl

theorem blockCipher_poke (cx : Context) (v : UInt8) :
    blockCipher { cx with inf := poke cx.inf 2 v } = blockCipher cx := by
  funext b
  rw [blockCipher, aesEncrypt_poke, blockCipher]

theorem Context.Keyed.poke {cx : Context} (h : cx.Keyed) (v : UInt8) :
    Context.Keyed { cx with inf := poke cx.inf 2 v } := by
  rw [Context.Keyed, peek_poke_ne (by decide)]
  exact h

/-- Calls of `aes_ofb_crypt` for one piece after the other: what each call writes. -/
def ofbPieces (cx : Context) (iv : Block) : List (List UInt8) → Except OfbFault (List (List UInt8))
  | [] => .ok []
  | ibuf :: pieces => do
      let r ← ofbCrypt cx iv ibuf
      let written ← ofbPieces r.2.2 r.2.1 pieces
      return r.1 :: written

theorem ofbPieces_eq {cx : Context} (h : cx.Keyed) (hpos : (peek cx.inf 2).toNat < 16)
    (iv : Block) (pieces : List (List UInt8)) :
    ∃ written, ofbPieces cx iv pieces = .ok written ∧
      written.map List.length = pieces.map List.length ∧
      written.flatten =
        crypt (ofbNext (blockCipher cx)) (iv, (peek cx.inf 2).toNat) pieces.flatten := by
  induction pieces generalizing cx iv with
  | nil => exact ⟨[], rfl, rfl, rfl⟩
  | cons ibuf pieces ih =>
      obtain ⟨iv', b_pos, hlt, hafter, hcall⟩ := ofbCrypt_eq h hpos iv ibuf
      have hstored : (peek (poke cx.inf 2 b_pos.toUInt8) 2).toNat = b_pos := by
        rw [peek_poke_self (by omega), UInt8.toNat_ofNat']
        exact Nat.mod_eq_of_lt (by omega)
      obtain ⟨written, hwritten, hlengths, hflatten⟩ :=
        ih (h.poke b_pos.toUInt8) (by rw [hstored]; exact hlt) iv'
      refine ⟨crypt (ofbNext (blockCipher cx)) (iv, (peek cx.inf 2).toNat) ibuf :: written,
        ?_, ?_, ?_⟩
      · rw [ofbPieces, hcall]
        change (ofbPieces _ iv' pieces >>= _) = _
        rw [hwritten]
        rfl
      · rw [List.map_cons, hlengths, length_crypt, List.map_cons]
      · rw [List.flatten_cons, hflatten, hstored, List.flatten_cons, crypt_append, hafter]
        rw [blockCipher_poke]

/-- However a text is cut, the calls after `aes_mode_reset` write the text under the
keystream; and however that is cut, the same calls give the text back. -/
theorem ofbPieces_ofbPieces {cx : Context} (h : cx.Keyed) (iv : Block)
    (pieces : List (List UInt8)) :
    ∃ written, ofbPieces (aesModeReset cx) iv pieces = .ok written ∧
      written.map List.length = pieces.map List.length ∧
      written.flatten = aesOfbCrypt (blockCipher cx) iv pieces.flatten ∧
      ∀ pieces', pieces'.flatten = written.flatten →
        ∃ back, ofbPieces (aesModeReset cx) iv pieces' = .ok back ∧
          back.flatten = pieces.flatten := by
  have hreset : peek (aesModeReset cx).inf 2 = 0 := peek_poke_self (by omega)
  have hcipher : blockCipher (aesModeReset cx) = blockCipher cx := blockCipher_poke cx 0
  have hcalls := fun iv pieces =>
    ofbPieces_eq (h.poke 0) (show (peek (aesModeReset cx).inf 2).toNat < 16 by rw [hreset]; decide)
      iv pieces
  obtain ⟨written, hwritten, hlengths, hflatten⟩ := hcalls iv pieces
  change written.flatten = crypt (ofbNext (blockCipher (aesModeReset cx)))
    (iv, (peek (aesModeReset cx).inf 2).toNat) _ at hflatten
  rw [hcipher, hreset] at hflatten
  refine ⟨written, hwritten, hlengths, hflatten, ?_⟩
  intro pieces' hpieces'
  obtain ⟨back, hback, -, hback'⟩ := hcalls iv pieces'
  change back.flatten = crypt (ofbNext (blockCipher (aesModeReset cx)))
    (iv, (peek (aesModeReset cx).inf 2).toNat) _ at hback'
  rw [hcipher, hreset, hpieces', hflatten, crypt_crypt] at hback'
  exact ⟨back, hback, hback'⟩

/-- A context as `new` leaves it, here with every byte zero. -/
def emptyContext : Context := { ks := Vector.replicate 60 0, inf := Vector.replicate 4 0 }

theorem keyed_key128 (key : Block) (cx : Context) : (aesEncryptKey128 key cx).Keyed := .inl rfl

theorem ofbPieces_zeroKey :
    ∃ written, ofbPieces (aesModeReset (aesEncryptKey128 (Vector.replicate 16 0) emptyContext))
        (Vector.replicate 16 7) [[1, 2, 3], [], [4]] = .ok written ∧
      written.map List.length = [3, 0, 1] ∧
      written.flatten = aesOfbCrypt
        (blockCipher (aesEncryptKey128 (Vector.replicate 16 0) emptyContext))
        (Vector.replicate 16 7) [1, 2, 3, 4] ∧
      ∀ pieces', pieces'.flatten = written.flatten →
        ∃ back, ofbPieces (aesModeReset (aesEncryptKey128 (Vector.replicate 16 0) emptyContext))
            (Vector.replicate 16 7) pieces' = .ok back ∧
          back.flatten = [1, 2, 3, 4] :=
  ofbPieces_ofbPieces (keyed_key128 _ _) (Vector.replicate 16 7) [[1, 2, 3], [], [4]]

end OpenZWave.Aes
