import Mathlib.Data.List.Basic

/-!
# Round ciphers

A block is substituted, mixed and added to a round key, round after round; the
last round does not mix. When mixing is additive, the inverse rounds have the same
form, with the round keys in reverse order and unmixed.
-/

/-- The layers of a round with their inverses. -/
structure RoundCipher (σ : Type*) where
  add : σ → σ → σ
  sub : σ → σ
  unsub : σ → σ
  mix : σ → σ
  unmix : σ → σ
  add_add : ∀ x k, add (add x k) k = x
  unsub_sub : ∀ x, unsub (sub x) = x
  unmix_mix : ∀ x, unmix (mix x) = x
  unmix_add : ∀ x k, unmix (add x k) = add (unmix x) (unmix k)

namespace RoundCipher

variable {σ : Type*} (C : RoundCipher σ)

def round (x key : σ) : σ := C.add (C.mix (C.sub x)) key

def invRound (y key : σ) : σ := C.add (C.unmix (C.unsub y)) key

def encrypt (first : σ) (keys : List σ) (last : σ) (x : σ) : σ :=
  C.add (C.sub (keys.foldl C.round (C.add x first))) last

/-- The inverse rounds: `keys` are the unmixed round keys, the last one first. -/
def decrypt (last : σ) (keys : List σ) (first : σ) (y : σ) : σ :=
  C.add (C.unsub (keys.foldl C.invRound (C.add y last))) first

/-- An inverse round with the unmixed key takes back a round and the substitution after it. -/
theorem invRound_sub_round (x key : σ) :
    C.invRound (C.sub (C.round x key)) (C.unmix key) = C.sub x := by
  rw [invRound, C.unsub_sub, round, C.unmix_add, C.unmix_mix, C.add_add]

theorem foldl_invRound (keys : List σ) (x : σ) :
    (keys.reverse.map C.unmix).foldl C.invRound (C.sub (keys.foldl C.round x)) = C.sub x := by
  induction keys generalizing x with
  | nil => rfl
  | cons key keys ih =>
      rw [List.reverse_cons, List.map_append, List.foldl_append, List.foldl_cons, ih]
      exact C.invRound_sub_round x key

theorem decrypt_encrypt (first : σ) (keys : List σ) (last x : σ) :
    C.decrypt last (keys.reverse.map C.unmix) first (C.encrypt first keys last x) = x := by
  rw [decrypt, encrypt, C.add_add, foldl_invRound, C.unsub_sub, C.add_add]

end RoundCipher
