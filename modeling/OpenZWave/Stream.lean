import Mathlib.Algebra.Group.Nat.Defs
import OpenZWave.Lib.Checked
import OpenZWave.Lib.RingBuffer

/-!
# The buffer of a controller

`Stream` is the ring buffer between a controller and the driver. `m_head` and `m_tail` may
rest at the size of the buffer; then the next block goes to the front. Every access is
checked against the memory that was allocated.
-/

namespace OpenZWave

open Checked RingBuffer

/-- What a caller passes: as many bytes as a `uint32` counts. -/
structure StreamBlock where
  bytes : List UInt8
  counted : bytes.length < 2 ^ 32

def StreamBlock.size (block : StreamBlock) : UInt32 := UInt32.ofNat block.bytes.length

inductive StreamFault
  /-- A byte outside the memory of the buffer or of the caller. -/
  | outside

/-- `notified` counts the calls of `Notify`. -/
structure Stream where
  buffer : List UInt8
  bufferSize : UInt32
  signalSize : UInt32
  dataSize : UInt32
  head : UInt32
  tail : UInt32
  notified : ℕ

namespace Stream

/-- The constructor. -/
def new (bufferSize : UInt32) : Stream where
  buffer := List.replicate bufferSize.toNat 0
  bufferSize := bufferSize
  signalSize := 1
  dataSize := 0
  head := 0
  tail := 0
  notified := 0

/-- `memcpy` from memory. -/
def copyFrom (memory : List UInt8) (start size : UInt32) : Except StreamFault (List UInt8) :=
  window memory start.toNat size.toNat .outside

/-- `memcpy` to the buffer. -/
def copyTo (buffer : List UInt8) (start : UInt32) (block : List UInt8) :
    Except StreamFault (List UInt8) := do
  check (start.toNat + block.length ≤ buffer.length) .outside
  return overwrite buffer start.toNat block

/-- The bytes that `LogData` reads. -/
def logData (buffer : List UInt8) (start length : UInt32) : Except StreamFault Unit := do
  let _ ← copyFrom buffer start length
  return ()

/-- `IsSignalled`. -/
def isSignalled (s : Stream) : Bool := s.dataSize ≥ s.signalSize

def notify (s : Stream) : Stream := { s with notified := s.notified + 1 }

/-- `SetSignalThreshold`. -/
def setSignalThreshold (s : Stream) (size : UInt32) : Stream :=
  let s := { s with signalSize := size }
  if s.isSignalled then s.notify else s

/-- The part of `Get` under the lock: the bytes and the place behind them. -/
def copyOut (s : Stream) (size : UInt32) : Except StreamFault (List UInt8 × UInt32) :=
  if s.tail + size > s.bufferSize then do
    let block1 := s.bufferSize - s.tail
    let block2 := size - block1
    let first ← copyFrom s.buffer s.tail block1
    let second ← copyFrom s.buffer 0 block2
    return (first ++ second, block2)
  else do
    let all ← copyFrom s.buffer s.tail size
    return (all, s.tail + size)

/-- `Get`: the bytes, when it returns true. -/
def get (s : Stream) (size : UInt32) : Except StreamFault (Stream × Option (List UInt8)) :=
  if s.dataSize < size then return (s, none)
  else do
    let (bytes, tail) ← s.copyOut size
    return ({ s with tail := tail, dataSize := s.dataSize - size }, some bytes)

/-- The part of `Put` under the lock: the memory and the place behind the block. -/
def copyIn (s : Stream) (block : StreamBlock) : Except StreamFault (List UInt8 × UInt32) :=
  if s.head + block.size > s.bufferSize then do
    let block1 := s.bufferSize - s.head
    let block2 := block.size - block1
    let first ← copyFrom block.bytes 0 block1
    let buffer ← copyTo s.buffer s.head first
    let second ← copyFrom block.bytes block1 block2
    let buffer ← copyTo buffer 0 second
    logData buffer s.head block1
    logData buffer 0 block2
    return (buffer, block2)
  else do
    let all ← copyFrom block.bytes 0 block.size
    let buffer ← copyTo s.buffer s.head all
    logData buffer (s.head + block.size - block.size) block.size
    return (buffer, s.head + block.size)

/-- `Put`. -/
def put (s : Stream) (block : StreamBlock) : Except StreamFault (Stream × Bool) :=
  if s.bufferSize - s.dataSize < block.size then return (s, false)
  else do
    let (buffer, head) ← s.copyIn block
    let s := { s with buffer := buffer, head := head, dataSize := s.dataSize + block.size }
    return (if s.isSignalled then s.notify else s, true)

/-- `Purge`. -/
def purge (s : Stream) : Stream := { s with tail := 0, head := 0, dataSize := 0 }

end Stream

inductive StreamCall
  | put (block : StreamBlock)
  | get (size : UInt32)
  | purge
  | setSignalThreshold (size : UInt32)

inductive StreamReply
  | put (stored : Bool)
  | get (bytes : Option (List UInt8))
  | done

/-- `Put` or `Get` returned false. -/
def StreamReply.Failed : StreamReply → Prop
  | .put stored => stored = false
  | .get bytes => bytes = none
  | .done => False

/-- One call. -/
def Stream.call (s : Stream) : StreamCall → Except StreamFault (Stream × StreamReply)
  | .put block => do
      let (s, stored) ← s.put block
      return (s, .put stored)
  | .get size => do
      let (s, bytes) ← s.get size
      return (s, .get bytes)
  | .purge => return (s.purge, .done)
  | .setSignalThreshold size => return (s.setSignalThreshold size, .done)

/-- The replies to calls that come one after the other. -/
def Stream.replies (s : Stream) : List StreamCall → Except StreamFault (List StreamReply)
  | [] => return []
  | c :: calls => do
      let (s, reply) ← s.call c
      let replies ← s.replies calls
      return reply :: replies

/-! ## The bounded queue -/

namespace BoundedFifo

variable (capacity : ℕ)

/-- A queue of at most `capacity` bytes. -/
def call (queue : List UInt8) : StreamCall → List UInt8 × StreamReply
  | .put block =>
      if capacity - queue.length < block.bytes.length then (queue, .put false)
      else (queue ++ block.bytes, .put true)
  | .get size =>
      if queue.length < size.toNat then (queue, .get none)
      else (queue.drop size.toNat, .get (some (queue.take size.toNat)))
  | .purge => ([], .done)
  | .setSignalThreshold _ => (queue, .done)

def replies (queue : List UInt8) : List StreamCall → List StreamReply
  | [] => []
  | c :: calls => (call capacity queue c).2 :: replies (call capacity queue c).1 calls

end BoundedFifo

/-- Whatever the calls, the stream replies as a queue of as many bytes and accesses no byte
outside its memory, and a call that fails changes nothing. -/
structure Stream.RefinesFifo (bufferSize : UInt32) : Prop where
  served : ∀ calls,
    (new bufferSize).replies calls = .ok (BoundedFifo.replies bufferSize.toNat [] calls)
  kept : ∀ (s s' : Stream) c reply, s.call c = .ok (s', reply) → reply.Failed → s' = s

namespace Stream

/-! ## Blocks -/

theorem toNat_size (block : StreamBlock) : block.size.toNat = block.bytes.length :=
  UInt32.toNat_ofNat_of_lt' block.counted

theorem toNat_add {a b : UInt32} (h : a.toNat + b.toNat < 2 ^ 32) :
    (a + b).toNat = a.toNat + b.toNat := by
  rw [UInt32.toNat_add, Nat.mod_eq_of_lt h]

theorem toNat_sub {a b : UInt32} (h : b.toNat ≤ a.toNat) : (a - b).toNat = a.toNat - b.toNat :=
  UInt32.toNat_sub_of_le a b (UInt32.le_iff_toNat_le.mpr h)

theorem copyFrom_eq_ok {memory : List UInt8} {start size : UInt32}
    (h : start.toNat + size.toNat ≤ memory.length) :
    copyFrom memory start size = .ok ((memory.drop start.toNat).take size.toNat) := if_pos h

theorem copyTo_eq_ok {buffer : List UInt8} {start : UInt32} {block : List UInt8}
    (h : start.toNat + block.length ≤ buffer.length) :
    copyTo buffer start block = .ok (overwrite buffer start.toNat block) := check_bind h _ _

theorem logData_eq_ok {buffer : List UInt8} {start length : UInt32}
    (h : start.toNat + length.toNat ≤ buffer.length) : logData buffer start length = .ok () := by
  rw [logData, copyFrom_eq_ok h]
  rfl

/-- The memory is as large as the buffer is said to be, and no more than that is stored. -/
structure Sized (s : Stream) (capacity : ℕ) : Prop where
  bufferSize : s.bufferSize.toNat = capacity
  buffer : s.buffer.length = capacity
  tail : s.tail.toNat ≤ capacity
  head : s.head.toNat ≤ capacity

theorem wraps_iff {s : Stream} {capacity : ℕ} (h : s.Sized capacity) {place size : UInt32}
    (hcounted : place.toNat + size.toNat < 2 ^ 32) :
    place + size > s.bufferSize ↔ capacity < place.toNat + size.toNat := by
  rw [gt_iff_lt, UInt32.lt_iff_toNat_lt, toNat_add hcounted, h.bufferSize]

/-- The two blocks at the end and at the start of the buffer. -/
theorem toNat_block1 {s : Stream} {capacity : ℕ} (h : s.Sized capacity) {place : UInt32}
    (hplace : place.toNat ≤ capacity) : (s.bufferSize - place).toNat = capacity - place.toNat := by
  rw [toNat_sub (h.bufferSize.symm ▸ hplace), h.bufferSize]

theorem toNat_block2 {s : Stream} {capacity : ℕ} (h : s.Sized capacity) {place size : UInt32}
    (hplace : place.toNat ≤ capacity) (hpast : capacity < place.toNat + size.toNat) :
    (size - (s.bufferSize - place)).toNat = size.toNat - (capacity - place.toNat) := by
  have hblock1 := toNat_block1 h hplace
  rw [toNat_sub (by omega), hblock1]

/-- A block is copied out when the place behind it is counted by a `uint32`. -/
theorem copyOut_eq_ok {s : Stream} {capacity : ℕ} (h : s.Sized capacity) {size : UInt32}
    (hsize : size.toNat ≤ capacity) (hcounted : s.tail.toNat + size.toNat < 2 ^ 32) :
    ∃ tail, s.copyOut size = .ok (contents s.buffer s.tail.toNat size.toNat, tail) ∧
      tail.toNat = RingBuffer.advance capacity s.tail.toNat size.toNat := by
  have hbuffer := h.buffer
  have htail := h.tail
  unfold copyOut RingBuffer.advance
  by_cases hpast : capacity < s.tail.toNat + size.toNat
  · have hblock1 := toNat_block1 h htail
    have hblock2 := toNat_block2 h htail hpast
    rw [if_pos ((wraps_iff h hcounted).mpr hpast), if_pos hpast]
    dsimp only
    generalize size - (s.bufferSize - s.tail) = block2 at hblock2 ⊢
    generalize s.bufferSize - s.tail = block1 at hblock1 ⊢
    have hfirst : copyFrom s.buffer s.tail block1 = .ok (s.buffer.drop s.tail.toNat) := by
      rw [copyFrom_eq_ok (by omega), List.take_of_length_le]
      rw [List.length_drop]
      omega
    have hsecond : copyFrom s.buffer 0 block2 = .ok (s.buffer.take block2.toNat) :=
      copyFrom_eq_ok (by rw [UInt32.toNat_zero]; omega)
    refine ⟨block2, ?_, by omega⟩
    rw [hfirst, hsecond, contents_eq_blocks (by omega) (by omega) (by omega), hbuffer, ← hblock2]
    rfl
  · rw [if_neg (mt (wraps_iff h hcounted).mp hpast), if_neg hpast]
    refine ⟨s.tail + size, ?_, toNat_add hcounted⟩
    rw [copyFrom_eq_ok (by omega), contents_eq_window (by omega)]
    rfl

/-- The same for a block that is copied in: seen from its place, it stands in front. -/
theorem copyIn_eq_ok {s : Stream} {capacity : ℕ} (h : s.Sized capacity) {block : StreamBlock}
    (hsize : block.bytes.length ≤ capacity)
    (hcounted : s.head.toNat + block.bytes.length < 2 ^ 32) :
    ∃ buffer head, s.copyIn block = .ok (buffer, head) ∧ buffer.length = capacity ∧
      buffer.rotate s.head.toNat =
        block.bytes ++ (s.buffer.rotate s.head.toNat).drop block.bytes.length ∧
      head.toNat = RingBuffer.advance capacity s.head.toNat block.bytes.length := by
  have hlength := toNat_size block
  have hbuffer := h.buffer
  have hhead := h.head
  unfold copyIn RingBuffer.advance
  rw [← hlength] at hcounted
  by_cases hpast : capacity < s.head.toNat + block.size.toNat
  · have hblock1 := toNat_block1 h hhead
    have hblock2 := toNat_block2 h hhead hpast
    rw [if_pos ((wraps_iff h hcounted).mpr hpast), if_pos (hlength ▸ hpast)]
    dsimp only
    generalize block.size - (s.bufferSize - s.head) = block2 at hblock2 ⊢
    generalize s.bufferSize - s.head = block1 at hblock1 ⊢
    have hfirst : copyFrom block.bytes 0 block1 = .ok (block.bytes.take block1.toNat) :=
      copyFrom_eq_ok (by rw [UInt32.toNat_zero]; omega)
    have hsecond : copyFrom block.bytes block1 block2 = .ok (block.bytes.drop block1.toNat) := by
      rw [copyFrom_eq_ok (by omega), List.take_of_length_le]
      rw [List.length_drop]
      omega
    have hfirstLength : (block.bytes.take block1.toNat).length = block1.toNat :=
      List.length_take_of_le (by omega)
    have hsecondLength : (block.bytes.drop block1.toNat).length = block2.toNat := by
      rw [List.length_drop]
      omega
    have hinner : (overwrite s.buffer s.head.toNat (block.bytes.take block1.toNat)).length =
        capacity := by
      rw [length_overwrite (by omega), hbuffer]
    have houter : (overwrite (overwrite s.buffer s.head.toNat (block.bytes.take block1.toNat)) 0
        (block.bytes.drop block1.toNat)).length = capacity := by
      rw [length_overwrite (by omega), hinner]
    refine ⟨_, block2, ?_, houter, ?_, by omega⟩
    · rw [hfirst, ok_bind, copyTo_eq_ok (by omega), ok_bind, hsecond, ok_bind,
        copyTo_eq_ok (by rw [UInt32.toNat_zero]; omega), ok_bind]
      simp only [UInt32.toNat_zero]
      rw [logData_eq_ok (by omega), logData_eq_ok (by rw [UInt32.toNat_zero]; omega)]
      rfl
    · rw [rotate_overwrite_blocks (by omega) (by omega), List.take_append_drop]
  · have hall : copyFrom block.bytes 0 block.size = .ok block.bytes := by
      rw [copyFrom_eq_ok (by rw [UInt32.toNat_zero]; omega), UInt32.toNat_zero, List.drop_zero,
        List.take_of_length_le hlength.ge]
    have hwritten : (overwrite s.buffer s.head.toNat block.bytes).length = capacity := by
      rw [length_overwrite (by omega), hbuffer]
    rw [if_neg (mt (wraps_iff h hcounted).mp hpast), if_neg (hlength ▸ hpast)]
    refine ⟨_, s.head + block.size, ?_, hwritten, rotate_overwrite (by omega),
      (toNat_add hcounted).trans (hlength ▸ rfl)⟩
    rw [hall, ok_bind, copyTo_eq_ok (by omega), ok_bind, UInt32.add_sub_cancel,
      logData_eq_ok (by omega)]
    rfl

/-! ## The stored bytes -/

/-- The bytes in the ring are the queue, and what is put next goes behind them. -/
structure Holds (s : Stream) (capacity : ℕ) (queue : List UInt8) : Prop
    extends s.Sized capacity where
  dataSize : s.dataSize.toNat = queue.length
  room : queue.length ≤ capacity
  behind : s.head.toNat = RingBuffer.advance capacity s.tail.toNat queue.length
  contents : contents s.buffer s.tail.toNat queue.length = queue

variable {s s' : Stream} {capacity : ℕ} {queue : List UInt8} {block : StreamBlock} {size : UInt32}

theorem holds_new (bufferSize : UInt32) : (new bufferSize).Holds bufferSize.toNat [] where
  bufferSize := rfl
  buffer := List.length_replicate
  tail := Nat.zero_le _
  head := Nat.zero_le _
  dataSize := rfl
  room := Nat.zero_le _
  behind := (advance_zero (Nat.zero_le _)).symm
  contents := contents_zero _ _

theorem Holds.notify (h : s.Holds capacity queue) : s.notify.Holds capacity queue where
  bufferSize := h.bufferSize
  buffer := h.buffer
  tail := h.tail
  head := h.head
  dataSize := h.dataSize
  room := h.room
  behind := h.behind
  contents := h.contents

theorem holds_purge (h : s.Holds capacity queue) : s.purge.Holds capacity [] where
  bufferSize := h.bufferSize
  buffer := h.buffer
  tail := Nat.zero_le _
  head := Nat.zero_le _
  dataSize := rfl
  room := Nat.zero_le _
  behind := (advance_zero (Nat.zero_le _)).symm
  contents := contents_zero _ _

theorem holds_setSignalThreshold (h : s.Holds capacity queue) (size : UInt32) :
    (s.setSignalThreshold size).Holds capacity queue := by
  have hsize : ({ s with signalSize := size } : Stream).Holds capacity queue :=
    ⟨⟨h.bufferSize, h.buffer, h.tail, h.head⟩, h.dataSize, h.room, h.behind, h.contents⟩
  unfold setSignalThreshold
  dsimp only
  split
  · exact hsize.notify
  · exact hsize

/-- `Put` fails for want of room. -/
theorem put_of_full (h : s.Holds capacity queue)
    (hfull : capacity - queue.length < block.bytes.length) : s.put block = .ok (s, false) := by
  have hfree : (s.bufferSize - s.dataSize).toNat = capacity - queue.length := by
    rw [toNat_sub (by rw [h.dataSize, h.bufferSize]; exact h.room), h.bufferSize, h.dataSize]
  rw [put, if_pos]
  · rfl
  · rw [UInt32.lt_iff_toNat_lt, hfree, toNat_size]
    exact hfull

/-- `Put` appends to the queue. -/
theorem put_of_room (h : s.Holds capacity queue)
    (hroom : queue.length + block.bytes.length ≤ capacity)
    (hcounted : s.head.toNat + block.bytes.length < 2 ^ 32) :
    ∃ s', s.put block = .ok (s', true) ∧ s'.Holds capacity (queue ++ block.bytes) ∧
      s'.tail = s.tail := by
  obtain ⟨buffer, head, hcopy, hbuffer, hwritten, hhead⟩ :=
    copyIn_eq_ok h.toSized (Nat.le_of_add_left_le hroom) hcounted
  have hfree : (s.bufferSize - s.dataSize).toNat = capacity - queue.length := by
    rw [toNat_sub (by rw [h.dataSize, h.bufferSize]; exact h.room), h.bufferSize, h.dataSize]
  have hgoes : ¬s.bufferSize - s.dataSize < block.size := by
    rw [UInt32.lt_iff_toNat_lt, hfree, toNat_size]
    omega
  have hlength := h.buffer
  have hbytes : s.bufferSize.toNat < 2 ^ 32 := s.bufferSize.toNat_lt
  rw [h.bufferSize] at hbytes
  have hnext : ({ s with buffer := buffer, head := head, dataSize := s.dataSize + block.size } :
      Stream).Holds capacity (queue ++ block.bytes) := by
    refine ⟨⟨h.bufferSize, hbuffer, h.tail, ?_⟩, ?_, ?_, ?_, ?_⟩
    · rw [hhead]
      exact advance_le h.head (Nat.le_of_add_left_le hroom)
    · rw [List.length_append, ← h.dataSize, ← toNat_size block, toNat_add]
      rw [h.dataSize, toNat_size]
      exact Nat.lt_of_le_of_lt hroom hbytes
    · rw [List.length_append]
      exact hroom
    · rw [hhead, h.behind, List.length_append, advance_advance h.tail hroom]
    · rw [h.behind, ← hlength] at hwritten
      rw [List.length_append]
      dsimp only
      rw [contents_append (hlength.symm ▸ hroom) (hbuffer.trans hlength.symm) hwritten, h.contents]
  rw [put, if_neg hgoes, hcopy, ok_bind]
  dsimp only
  refine ⟨_, rfl, ?_, ?_⟩
  · split
    · exact hnext.notify
    · exact hnext
  · split <;> rfl

/-- `Get` fails for want of bytes. -/
theorem get_of_short (h : s.Holds capacity queue) (hshort : queue.length < size.toNat) :
    s.get size = .ok (s, none) := by
  rw [get, if_pos]
  · rfl
  · rw [UInt32.lt_iff_toNat_lt, h.dataSize]
    exact hshort

/-- `Get` takes the front of the queue. -/
theorem get_of_enough (h : s.Holds capacity queue) (henough : size.toNat ≤ queue.length)
    (hcounted : s.tail.toNat + size.toNat < 2 ^ 32) :
    ∃ s', s.get size = .ok (s', some (queue.take size.toNat)) ∧
      s'.Holds capacity (queue.drop size.toNat) ∧
      s'.tail.toNat = RingBuffer.advance capacity s.tail.toNat size.toNat := by
  have hsize := Nat.le_trans henough h.room
  obtain ⟨tail, hcopy, htail⟩ := copyOut_eq_ok h.toSized hsize hcounted
  have hgoes : ¬s.dataSize < size := by
    rw [UInt32.lt_iff_toNat_lt, h.dataSize]
    exact Nat.not_lt.mpr henough
  have hlength := h.buffer
  have hfront : contents s.buffer s.tail.toNat size.toNat = queue.take size.toNat := by
    rw [← contents_take henough, h.contents]
  rw [get, if_neg hgoes, hcopy, hfront, ok_bind]
  refine ⟨_, rfl, ⟨⟨h.bufferSize, hlength, ?_, h.head⟩, ?_, ?_, ?_, ?_⟩, htail⟩
  · rw [htail]
    exact advance_le h.tail hsize
  · rw [List.length_drop, ← h.dataSize, toNat_sub (h.dataSize.symm ▸ henough)]
  · rw [List.length_drop]
    exact Nat.le_trans (Nat.sub_le _ _) h.room
  · dsimp only
    rw [h.behind, htail, List.length_drop, advance_advance h.tail, Nat.add_sub_cancel' henough]
    rw [Nat.add_sub_cancel' henough]
    exact h.room
  · dsimp only
    rw [htail, List.length_drop, ← hlength, contents_drop henough (hlength.symm ▸ h.room),
      h.contents]

/-! ## Calls -/

/-- With fewer than 2^31 bytes no place is beyond what a `uint32` counts, and the stream
replies as the queue. -/
theorem call_eq_ok (h : s.Holds capacity queue) (hcapacity : capacity < 2 ^ 31)
    (c : StreamCall) :
    ∃ s', s.call c = .ok (s', (BoundedFifo.call capacity queue c).2) ∧
      s'.Holds capacity (BoundedFifo.call capacity queue c).1 := by
  have hroom := h.room
  have hhead := h.head
  have htail := h.tail
  cases c with
  | put block =>
      by_cases hfull : capacity - queue.length < block.bytes.length
      · refine ⟨s, ?_, ?_⟩
        · rw [call, put_of_full h hfull, BoundedFifo.call, if_pos hfull]
          rfl
        · rwa [BoundedFifo.call, if_pos hfull]
      · obtain ⟨s', hput, hnext, -⟩ :=
          put_of_room h (Nat.add_le_of_le_sub' hroom (Nat.not_lt.mp hfull)) (by omega)
        refine ⟨s', ?_, ?_⟩
        · rw [call, hput, BoundedFifo.call, if_neg hfull]
          rfl
        · rwa [BoundedFifo.call, if_neg hfull]
  | get size =>
      by_cases hshort : queue.length < size.toNat
      · refine ⟨s, ?_, ?_⟩
        · rw [call, get_of_short h hshort, BoundedFifo.call, if_pos hshort]
          rfl
        · rwa [BoundedFifo.call, if_pos hshort]
      · obtain ⟨s', hget, hnext, -⟩ :=
          get_of_enough h (Nat.not_lt.mp hshort) (by omega)
        refine ⟨s', ?_, ?_⟩
        · rw [call, hget, BoundedFifo.call, if_neg hshort]
          rfl
        · rwa [BoundedFifo.call, if_neg hshort]
  | purge => exact ⟨s.purge, rfl, holds_purge h⟩
  | setSignalThreshold size => exact ⟨_, rfl, holds_setSignalThreshold h size⟩

theorem replies_cons {c : StreamCall} {reply : StreamReply} (h : s.call c = .ok (s', reply))
    (calls : List StreamCall) :
    s.replies (c :: calls) = (s'.replies calls).bind fun replies => .ok (reply :: replies) := by
  rw [replies, h]
  rfl

theorem replies_eq_ok (h : s.Holds capacity queue) (hcapacity : capacity < 2 ^ 31)
    (calls : List StreamCall) :
    s.replies calls = .ok (BoundedFifo.replies capacity queue calls) := by
  induction calls generalizing s queue with
  | nil => rfl
  | cons c calls ih =>
      obtain ⟨s', hcall, hnext⟩ := call_eq_ok h hcapacity c
      rw [replies_cons hcall, ih hnext]
      rfl

/-- A call that fails returns before anything is changed. -/
theorem eq_of_failed {c : StreamCall} {reply : StreamReply} (h : s.call c = .ok (s', reply))
    (hfailed : reply.Failed) : s' = s := by
  cases c with
  | put block =>
      obtain ⟨⟨after, stored⟩, hput, hreply⟩ := bind_eq_ok.mp h
      cases hreply
      rw [put] at hput
      split at hput
      · cases hput
        rfl
      · obtain ⟨copied, -, hstored⟩ := bind_eq_ok.mp hput
        cases hstored
        cases hfailed
  | get size =>
      obtain ⟨⟨after, bytes⟩, hget, hreply⟩ := bind_eq_ok.mp h
      cases hreply
      rw [get] at hget
      split at hget
      · cases hget
        rfl
      · obtain ⟨copied, -, htaken⟩ := bind_eq_ok.mp hget
        cases htaken
        cases hfailed
  | purge =>
      cases h
      exact hfailed.elim
  | setSignalThreshold size =>
      cases h
      exact hfailed.elim

/-! ## Large buffers -/

/-- As many zeros as the buffer holds. -/
def zeros (bufferSize : UInt32) : StreamBlock where
  bytes := List.replicate bufferSize.toNat 0
  counted := by
    rw [List.length_replicate]
    exact bufferSize.toNat_lt

theorem length_zeros (bufferSize : UInt32) :
    (zeros bufferSize).bytes.length = bufferSize.toNat := List.length_replicate

/-- When an empty buffer of 2^31 bytes or more has its head at the end, the sum of the head
and the size of the buffer is too large for a `uint32`, and a full block is written behind
the memory. -/
theorem put_zeros_eq_error {bufferSize : UInt32} (h : s.Holds bufferSize.toNat [])
    (hhead : s.head = bufferSize) (hlarge : 2 ^ 31 ≤ bufferSize.toNat) :
    s.put (zeros bufferSize) = .error .outside := by
  have hsize : (zeros bufferSize).size = bufferSize := by
    rw [← UInt32.toNat_inj, toNat_size, length_zeros]
  have hbufferSize : s.bufferSize = bufferSize := UInt32.toNat_inj.mp h.bufferSize
  have hdataSize : s.dataSize = 0 := UInt32.toNat_inj.mp h.dataSize
  have hlt := bufferSize.toNat_lt
  have hsum : (bufferSize + bufferSize).toNat = 2 * bufferSize.toNat - 2 ^ 32 := by
    rw [UInt32.toNat_add]
    omega
  have hfits : ¬bufferSize + bufferSize > bufferSize := by
    rw [gt_iff_lt, UInt32.lt_iff_toNat_lt, hsum]
    omega
  have hall : copyFrom (zeros bufferSize).bytes 0 bufferSize = .ok (zeros bufferSize).bytes := by
    rw [copyFrom_eq_ok (by rw [length_zeros, UInt32.toNat_zero, Nat.zero_add]), UInt32.toNat_zero,
      List.drop_zero, List.take_of_length_le (length_zeros bufferSize).le]
  have hbehind : ¬bufferSize.toNat + (zeros bufferSize).bytes.length ≤ s.buffer.length := by
    rw [length_zeros, h.buffer]
    omega
  rw [put, hsize, hbufferSize, hdataSize, if_neg (by simp), copyIn, hsize, hhead, hbufferSize,
    if_neg hfits, hall, ok_bind, copyTo, check, if_neg hbehind]
  rfl

/-- The buffer is filled, emptied and filled again. -/
def refill (bufferSize : UInt32) : List StreamCall :=
  [.put (zeros bufferSize), .get bufferSize, .put (zeros bufferSize)]

theorem replies_refill {bufferSize : UInt32} (hlarge : 2 ^ 31 ≤ bufferSize.toNat) :
    (new bufferSize).replies (refill bufferSize) = .error .outside := by
  have hlt := bufferSize.toNat_lt
  have hlength := length_zeros bufferSize
  have hplace : RingBuffer.advance bufferSize.toNat 0 bufferSize.toNat = bufferSize.toNat := by
    rw [RingBuffer.advance, Nat.zero_add, if_neg (Nat.lt_irrefl _)]
  obtain ⟨full, hput, hfull, htail⟩ := @put_of_room _ _ _ (zeros bufferSize)
    (holds_new bufferSize) (by rw [hlength, List.length_nil, Nat.zero_add])
    (by rw [hlength]; exact (Nat.zero_add _).symm ▸ hlt)
  have hfullTail : full.tail.toNat = 0 := congrArg UInt32.toNat htail
  obtain ⟨empty, hget, hempty, hemptyTail⟩ := @get_of_enough _ _ _ bufferSize hfull
    (by rw [List.nil_append, hlength]) (by rw [hfullTail, Nat.zero_add]; exact hlt)
  rw [List.nil_append, List.drop_of_length_le hlength.le] at hempty
  have hhead : empty.head = bufferSize := by
    rw [← UInt32.toNat_inj, hempty.behind, hemptyTail, hfullTail, hplace, List.length_nil,
      advance_zero (Nat.le_refl _)]
  have hfirst : (new bufferSize).call (.put (zeros bufferSize)) = .ok (full, .put true) := by
    rw [call, hput]
    rfl
  have hsecond : full.call (.get bufferSize) =
      .ok (empty, .get (some (([] ++ (zeros bufferSize).bytes).take bufferSize.toNat))) := by
    rw [call, hget]
    rfl
  have hthird : empty.call (.put (zeros bufferSize)) = .error .outside := by
    rw [call, put_zeros_eq_error hempty hhead hlarge]
    rfl
  rw [refill, replies_cons hfirst, replies_cons hsecond, replies, hthird]
  rfl

theorem not_refinesFifo {bufferSize : UInt32} (hlarge : 2 ^ 31 ≤ bufferSize.toNat) :
    ¬ RefinesFifo bufferSize := by
  intro h
  have hserved := h.served (refill bufferSize)
  rw [replies_refill hlarge] at hserved
  cases hserved

/-- The stream is a bounded queue exactly if its buffer has fewer than 2^31 bytes. -/
theorem refinesFifo_iff (bufferSize : UInt32) :
    RefinesFifo bufferSize ↔ bufferSize.toNat < 2 ^ 31 := by
  constructor
  · intro h
    by_contra hlarge
    exact not_refinesFifo (Nat.not_lt.mp hlarge) h
  · intro hsmall
    exact ⟨replies_eq_ok (holds_new bufferSize) hsmall, fun _ _ _ _ => eq_of_failed⟩

/-- A buffer of 2^31 bytes is not a queue. -/
theorem two_gibibytes_overflow : ¬ RefinesFifo 0x80000000 := not_refinesFifo (by decide)

end Stream

end OpenZWave
