import OpenZWave.Lib.Checked
import OpenZWave.Node

/-!
# Received commands

A handler is given the bytes behind the class byte and a length that counts the class
byte as well. An access behind the last byte of the command leaves the frame, and a
length from which more is taken than it has wraps.
-/

namespace OpenZWave

open Checked

/-- A received command without its class byte. -/
structure CommandFrame where
  data : List UInt8
  fits : data.length + 1 < 2 ^ 32

/-- What a handler must not do with a received command: leave it, take more from its
length than it has, look behind a table, write behind a buffer. -/
inductive FrameFault
  | outside
  | underflow
  | table
  | overrun
  deriving DecidableEq

namespace CommandFrame

variable (f : CommandFrame)

/-- `_length`. -/
def length : UInt32 := UInt32.ofNat (f.data.length + 1)

/-- `_data[i]`. -/
def read (i : ℕ) : Except FrameFault UInt8 := readAt f.data i .outside

/-- `_length - n`. -/
def lengthLess (n : UInt32) : Except FrameFault UInt32 := do
  check (n ≤ f.length) .underflow
  return f.length - n

/-- `length` bytes from `start` on. -/
def readRange (start length : ℕ) : Except FrameFault (List UInt8) :=
  window f.data start length .outside

theorem toNat_length : f.length.toNat = f.data.length + 1 := by
  rw [length, UInt32.toNat_ofNat', Nat.mod_eq_of_lt f.fits]

theorem toNat_length_sub {n : UInt32} (h : n ≤ f.length) :
    (f.length - n).toNat = f.data.length + 1 - n.toNat := by
  rw [UInt32.toNat_sub_of_le _ _ h, toNat_length]

theorem le_length_iff {n : UInt32} : n ≤ f.length ↔ n.toNat ≤ f.data.length + 1 := by
  rw [UInt32.le_iff_toNat_le, toNat_length]

variable {f} {β : Type}

theorem read_bind {i : ℕ} (h : i < f.data.length) (k : UInt8 → Except FrameFault β) :
    (f.read i >>= k) = k (f.data.getD i 0) :=
  readAt_bind h 0 _ k

theorem lengthLess_bind {n : UInt32} (h : n.toNat ≤ f.data.length + 1)
    (k : UInt32 → Except FrameFault β) : (f.lengthLess n >>= k) = k (f.length - n) := by
  rw [lengthLess, check_bind (f.le_length_iff.mpr h)]
  rfl

theorem readRange_bind {start length : ℕ} (h : start + length ≤ f.data.length)
    (k : List UInt8 → Except FrameFault β) :
    (f.readRange start length >>= k) = k ((f.data.drop start).take length) :=
  window_bind h _ k

theorem read_bind_eq_ok {i : ℕ} {k : UInt8 → Except FrameFault β} {b : β} :
    (f.read i >>= k) = .ok b ↔ i < f.data.length ∧ k (f.data.getD i 0) = .ok b :=
  readAt_bind_eq_ok 0

theorem yields_read_bind {i : ℕ} {k : UInt8 → Except FrameFault β} {Q : β → Prop} :
    Yields (f.read i >>= k) Q ↔ i < f.data.length ∧ Yields (k (f.data.getD i 0)) Q := by
  constructor
  · rintro ⟨b, hb, hQ⟩
    obtain ⟨hi, hk⟩ := read_bind_eq_ok.mp hb
    exact ⟨hi, b, hk, hQ⟩
  · rintro ⟨hi, hk⟩
    rwa [f.read_bind hi]

theorem lengthLess_bind_eq_ok {n : UInt32} {k : UInt32 → Except FrameFault β} {b : β} :
    (f.lengthLess n >>= k) = .ok b ↔ n.toNat ≤ f.data.length + 1 ∧ k (f.length - n) = .ok b := by
  rw [lengthLess, bind_assoc, check_bind_eq_ok, le_length_iff, pure_bind]

theorem readRange_bind_eq_ok {start length : ℕ} {k : List UInt8 → Except FrameFault β} {b : β} :
    (f.readRange start length >>= k) = .ok b ↔
      start + length ≤ f.data.length ∧ k ((f.data.drop start).take length) = .ok b :=
  window_bind_eq_ok

end CommandFrame

end OpenZWave
