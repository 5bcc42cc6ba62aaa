import Mathlib.Data.List.Basic

/-!
# Stream ciphers

A keystream generator yields one byte for each step of its state. Encryption is
the exclusive or with the keystream, so decryption is the same function.
-/

namespace StreamCipher

variable {σ : Type*} (next : σ → UInt8 × σ)

/-- Exclusive or with the keystream from state `s`. -/
def crypt (s : σ) : List UInt8 → List UInt8
  | [] => []
  | b :: l => ((next s).1 ^^^ b) :: crypt (next s).2 l

@[simp] theorem length_crypt (s : σ) (l : List UInt8) : (crypt next s l).length = l.length := by
  induction l generalizing s with
  | nil => rfl
  | cons b l ih => rw [crypt, List.length_cons, List.length_cons, ih]

/-- The same keystream twice cancels. -/
@[simp] theorem crypt_crypt (s : σ) (l : List UInt8) : crypt next s (crypt next s l) = l := by
  induction l generalizing s with
  | nil => rfl
  | cons b l ih =>
      have hbyte : (next s).1 ^^^ ((next s).1 ^^^ b) = b := by
        rw [← UInt8.xor_assoc, UInt8.xor_self, UInt8.zero_xor]
      rw [crypt, crypt, ih, hbyte]

/-! ## Pieces of a stream -/

/-- The state after as many bytes. -/
def after (s : σ) : List UInt8 → σ
  | [] => s
  | _ :: l => after (next s).2 l

theorem crypt_append (s : σ) (l l' : List UInt8) :
    crypt next s (l ++ l') = crypt next s l ++ crypt next (after next s l) l' := by
  induction l generalizing s with
  | nil => rfl
  | cons b l ih => rw [List.cons_append, crypt, ih, crypt, after, List.cons_append]

theorem after_append (s : σ) (l l' : List UInt8) :
    after next s (l ++ l') = after next (after next s l) l' := by
  induction l generalizing s with
  | nil => rfl
  | cons b l ih => rw [List.cons_append, after, ih, after]

end StreamCipher
