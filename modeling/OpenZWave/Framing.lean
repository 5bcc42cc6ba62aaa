import OpenZWave.Msg

/-!
# Framing of outgoing messages

`readSOF` is the SOF branch of `Driver::ReadMsg`. A message is built by the
constructor, by `SetInstance` and by `Append` calls; `finished` finalizes it and
then refreshes its callback id any number of times. The theorems below follow
the length byte, the checksum and the command bytes through the three places
that write them.
-/

namespace OpenZWave

open ByteBuffer

/-- What becomes of the bytes that follow a SOF on the serial port. -/
inductive FrameRead
  /-- The length byte or the rest of the frame does not arrive in time. -/
  | aborted
  /-- The checksum differs: the frame is answered with NAK. -/
  | badChecksum
  /-- The frame is answered with ACK and `data` is handed to `ProcessMsg`. -/
  | accepted (data rest : List UInt8)
  deriving DecidableEq

/-- `ReadMsg` after the SOF byte has been read. -/
def readSOF : List UInt8 → FrameRead
  | [] => .aborted
  | declared :: input =>
      if input.length < declared.toNat then .aborted
      else
        let buffer := SOF :: declared :: input.take declared.toNat
        let length := declared.toNat + 2
        let checksum := xorFrom 0xff (fun i => buffer.getD i 0) (length - 1)
        if buffer.getD (length - 1) 0 = checksum then
          .accepted (buffer.drop 2) (input.drop declared.toNat)
        else .badChecksum

namespace Msg

/-- The bytes an unencrypted message hands to the controller. -/
def wire (m : Msg) : List UInt8 := first m.buffer m.length.toNat

/-! ## Length of a message -/

/-- The bytes `MultiEncap` will insert. -/
def inserted (m : Msg) : List UInt8 :=
  if m.flags &&& (multiChannel ||| multiInstance) ≠ 0 ∧ peek m.buffer 3 = FuncId.sendData then
    m.encapHeader
  else []

/-- The bytes of the finished frame: header and appended bytes, encapsulation,
callback id and checksum. -/
def totalLength (m : Msg) (appended : Nat) : Nat :=
  4 + appended + m.inserted.length + (if m.bCallbackRequired then 1 else 0) + 1

/-- A message as the constructor and `SetInstance` leave it. -/
structure Fresh (m : Msg) : Prop where
  notFinal : m.bFinal = false
  length : m.length = 4
  sof : peek m.buffer 0 = SOF

/-- The message is filled, finalized, and its callback id refreshed once for
each value the shared counter has at a resend. -/
def finished (m : Msg) (data : List UInt8) (next : UInt8) (resends : List UInt8) : Msg :=
  resends.foldl (fun m next => (m.updateCallbackId next).1) ((m.appendArray data).finalize next).1

theorem length_encapHeader_le (m : Msg) : m.encapHeader.length ≤ 4 := by
  unfold encapHeader
  split <;> simp

@[simp] theorem appendArray_nil (m : Msg) : m.appendArray [] = m := rfl

@[simp] theorem appendArray_cons (m : Msg) (b : UInt8) (data : List UInt8) :
    m.appendArray (b :: data) = (m.append b).appendArray data := rfl

/-- `Append` touches the buffer and the length only. -/
theorem appendArray_eq (m : Msg) (data : List UInt8) :
    m.appendArray data =
      { m with buffer := (m.appendArray data).buffer, length := (m.appendArray data).length } := by
  induction data generalizing m with
  | nil => rfl
  | cons b data ih =>
      rw [appendArray_cons, ih]
      rfl

theorem length_appendArray (m : Msg) (data : List UInt8) :
    (m.appendArray data).length = m.length + UInt8.ofNat data.length := by
  induction data generalizing m with
  | nil => simp
  | cons b data ih =>
      rw [appendArray_cons, ih, List.length_cons, UInt8.ofNat_add]
      show m.length + 1 + UInt8.ofNat data.length = m.length + (UInt8.ofNat data.length + 1)
      rw [UInt8.add_assoc, UInt8.add_comm 1]

/-- The appended bytes stand behind what was there, cell by cell. -/
theorem peek_appendArray (m : Msg) (data : List UInt8)
    (hfit : m.length.toNat + data.length ≤ 255) (i : Nat) :
    peek (m.appendArray data).buffer i =
      if m.length.toNat ≤ i ∧ i < m.length.toNat + data.length then
        data.getD (i - m.length.toNat) 0
      else peek m.buffer i := by
  induction data generalizing m with
  | nil =>
      have hno : ¬ (m.length.toNat ≤ i ∧ i < m.length.toNat + ([] : List UInt8).length) := by
        simp only [List.length_nil]
        omega
      rw [if_neg hno, appendArray_nil]
  | cons b data ih =>
      rw [List.length_cons] at hfit
      have hlen : (m.append b).length.toNat = m.length.toNat + 1 := by
        show (m.length + 1).toNat = _
        rw [UInt8.toNat_add]
        exact Nat.mod_eq_of_lt (by simp; omega)
      rw [appendArray_cons, ih (m.append b) (by omega), hlen, List.length_cons]
      have hbuf : (m.append b).buffer = poke m.buffer m.length.toNat b := rfl
      by_cases hi : m.length.toNat + 1 ≤ i ∧ i < m.length.toNat + 1 + data.length
      · rw [if_pos hi, if_pos (by omega)]
        have hsub : i - m.length.toNat = (i - (m.length.toNat + 1)) + 1 := by omega
        rw [hsub, List.getD_cons_succ]
      · rw [if_neg hi, hbuf]
        by_cases hself : m.length.toNat = i
        · subst hself
          rw [peek_poke_self (by omega), if_pos (by omega), Nat.sub_self, List.getD_cons_zero]
        · rw [peek_poke_ne hself, if_neg (by omega)]

/-! ## Encapsulation -/

/-- The first step of `Finalize`. -/
def encapsulated (m : Msg) : Msg :=
  if m.flags &&& (multiChannel ||| multiInstance) ≠ 0 then m.multiEncap else m

theorem multiEncap_eq (m : Msg) :
    m.multiEncap = { m with buffer := m.multiEncap.buffer, length := m.multiEncap.length } := by
  unfold multiEncap
  split
  · rfl
  · split <;> rfl

/-- Encapsulation changes the buffer and its length only. -/
theorem encapsulated_eq (m : Msg) :
    m.encapsulated =
      { m with buffer := m.encapsulated.buffer, length := m.encapsulated.length } := by
  rw [encapsulated]
  split
  · exact multiEncap_eq m
  · rfl

@[simp] theorem bCallbackRequired_encapsulated (m : Msg) :
    m.encapsulated.bCallbackRequired = m.bCallbackRequired := by
  rw [encapsulated_eq]

/-- The rest of `Finalize`: length byte, callback id and checksum. -/
def closed (m : Msg) (next : UInt8) : Msg × UInt8 :=
  if m.bCallbackRequired then
    (appendChecksum { m with
        buffer := poke (poke m.buffer 1 m.length) m.length.toNat (nextId next)
        length := m.length + 1
        callbackId := nextId next }, nextId next + 1)
  else (appendChecksum { m with buffer := poke m.buffer 1 (m.length - 1) }, next)

theorem finalize_eq_closed (m : Msg) (next : UInt8) (hnew : m.bFinal = false) :
    m.finalize next = m.encapsulated.closed next := by
  simp only [finalize, hnew, Bool.false_eq_true, if_false]
  rfl

theorem closed_eq (m : Msg) (next : UInt8) :
    (m.closed next).1 =
      { m with
        bFinal := true
        callbackId := (m.closed next).1.callbackId
        length := (m.closed next).1.length
        buffer := (m.closed next).1.buffer } := by
  rw [closed]
  split <;> rfl

/-- `Finalize` changes the buffer, its length, the callback id and the mark. -/
theorem finalize_eq (m : Msg) (next : UInt8) :
    (m.finalize next).1 =
      { m with
        bFinal := true
        callbackId := (m.finalize next).1.callbackId
        length := (m.finalize next).1.length
        buffer := (m.finalize next).1.buffer } := by
  cases hfinal : m.bFinal with
  | true =>
      have hsame : (m.finalize next).1 = m := by simp [finalize, hfinal]
      rw [hsame, ← hfinal]
  | false =>
      rw [finalize_eq_closed m next hfinal, closed_eq, encapsulated_eq]

theorem length_multiEncap (m : Msg) (hsend : peek m.buffer 3 = FuncId.sendData) :
    m.multiEncap.length = m.length + UInt8.ofNat m.encapHeader.length := by
  unfold multiEncap encapHeader
  rw [if_neg (by simp [hsend])]
  split <;> rfl

theorem length_encapHeader_pos (m : Msg) : 0 < m.encapHeader.length := by
  unfold encapHeader
  split <;> simp

/-- Both branches of `MultiEncap` open a gap behind the node id and the payload
length, and write the header into it. -/
theorem buffer_multiEncap (m : Msg) (hsend : peek m.buffer 3 = FuncId.sendData) :
    m.multiEncap.buffer =
      let b := shiftUp 6 m.encapHeader.length m.length.toNat m.buffer
      pokeAll (poke b 5 (peek b 5 + UInt8.ofNat m.encapHeader.length)) 6 m.encapHeader := by
  unfold multiEncap encapHeader
  rw [if_neg (by simp [hsend])]
  split <;> rfl

/-- The cells after `MultiEncap`: the declared payload grows by the header, the
header follows it, and the command moves up unchanged. -/
theorem peek_multiEncap (m : Msg) (hsend : peek m.buffer 3 = FuncId.sendData)
    (hfit : m.length.toNat + m.encapHeader.length ≤ 256) (i : Nat) :
    peek m.multiEncap.buffer i =
      if i < 5 then peek m.buffer i
      else if i = 5 then peek m.buffer 5 + UInt8.ofNat m.encapHeader.length
      else if i < 6 + m.encapHeader.length then m.encapHeader.getD (i - 6) 0
      else if i < m.length.toNat + m.encapHeader.length then
        peek m.buffer (i - m.encapHeader.length)
      else peek m.buffer i := by
  have h4 := length_encapHeader_pos m
  have hbuf := buffer_multiEncap m hsend
  have hlow := fun j => peek_shiftUp 6 m.encapHeader.length h4 m.length.toNat m.buffer hfit j
  rw [hbuf, peek_pokeAll _ _ _ (by have := length_encapHeader_le m; omega)]
  by_cases h6 : i < 6
  · rw [if_neg (by omega)]
    by_cases h5 : i = 5
    · subst h5
      rw [peek_poke_self (by decide), hlow, if_neg (by omega), if_neg (by decide), if_pos rfl]
    · rw [peek_poke_ne (Ne.symm h5), hlow, if_neg (by omega), if_pos (by omega)]
  · rw [if_neg (show ¬ i < 5 by omega), if_neg (show i ≠ 5 by omega)]
    by_cases hin : i < 6 + m.encapHeader.length
    · rw [if_pos ⟨by omega, hin⟩, if_pos hin]
    · rw [if_neg (by omega), if_neg hin, peek_poke_ne (by omega), hlow]
      by_cases hmoved : i < m.length.toNat + m.encapHeader.length
      · rw [if_pos ⟨by omega, hmoved⟩, if_pos hmoved]
      · rw [if_neg (by omega), if_neg hmoved]

theorem length_encapsulated (m : Msg) :
    m.encapsulated.length = m.length + UInt8.ofNat m.inserted.length := by
  unfold encapsulated inserted
  by_cases hf : m.flags &&& (multiChannel ||| multiInstance) ≠ 0
  · by_cases hsend : peek m.buffer 3 = FuncId.sendData
    · rw [if_pos hf, if_pos ⟨hf, hsend⟩, length_multiEncap m hsend]
    · rw [if_pos hf, if_neg (fun h => hsend h.2), multiEncap, if_pos hsend]
      simp
  · rw [if_neg hf, if_neg (fun h => hf h.1)]
    simp

/-- The cells that `Finalize` starts from. -/
theorem peek_encapsulated (m : Msg) (hfit : m.length.toNat + m.inserted.length ≤ 256) (i : Nat) :
    peek m.encapsulated.buffer i =
      if m.inserted = [] ∨ i < 5 then peek m.buffer i
      else if i = 5 then peek m.buffer 5 + UInt8.ofNat m.inserted.length
      else if i < 6 + m.inserted.length then m.inserted.getD (i - 6) 0
      else if i < m.length.toNat + m.inserted.length then peek m.buffer (i - m.inserted.length)
      else peek m.buffer i := by
  by_cases hw : m.flags &&& (multiChannel ||| multiInstance) ≠ 0 ∧ peek m.buffer 3 = FuncId.sendData
  · have hins : m.inserted = m.encapHeader := if_pos hw
    have hne : m.encapHeader ≠ [] := List.ne_nil_of_length_pos (length_encapHeader_pos m)
    rw [hins] at hfit ⊢
    rw [encapsulated, if_pos hw.1, peek_multiEncap m hw.2 hfit]
    simp only [hne, false_or]
  · have hins : m.inserted = [] := if_neg hw
    rw [if_pos (Or.inl hins), encapsulated]
    split
    · rename_i hf
      have hsend : peek m.buffer 3 ≠ FuncId.sendData := fun h => hw ⟨hf, h⟩
      rw [multiEncap, if_pos hsend]
    · rfl

/-! ## Length byte and checksum -/

/-- A frame the receiver can read: SOF, the length byte and the checksum agree
with the length the message has. -/
structure Sealed (m : Msg) : Prop where
  short : 5 ≤ m.length.toNat
  sof : peek m.buffer 0 = SOF
  declared : (peek m.buffer 1).toNat = m.length.toNat - 2
  checksum : peek m.buffer (m.length.toNat - 1) =
    xorFrom 0xff (peek m.buffer) (m.length.toNat - 1)

/-- Appending the checksum seals a message whose length byte is right. -/
theorem sealed_appendChecksum (m : Msg) (hshort : 4 ≤ m.length.toNat)
    (hfit : m.length.toNat + 1 ≤ 255) (hsof : peek m.buffer 0 = SOF)
    (hdeclared : (peek m.buffer 1).toNat = m.length.toNat - 1) : Sealed m.appendChecksum := by
  have hlen : m.appendChecksum.length.toNat = m.length.toNat + 1 := by
    show (m.length + 1).toNat = _
    rw [UInt8.toNat_add]
    exact Nat.mod_eq_of_lt (by simp; omega)
  have hbuf : m.appendChecksum.buffer =
      poke m.buffer m.length.toNat (xorFrom 0xff (peek m.buffer) m.length.toNat) := rfl
  refine ⟨by omega, ?_, ?_, ?_⟩
  · rw [hbuf, peek_poke_ne (by omega), hsof]
  · rw [hbuf, peek_poke_ne (by omega), hdeclared, hlen]
    omega
  · rw [hlen, Nat.add_sub_cancel, hbuf, peek_poke_self (by omega)]
    apply xorFrom_congr
    intro i _ hi
    rw [peek_poke_ne (by omega)]

/-- `Finalize` writes the length byte, the callback id and the checksum, and
nothing between them. -/
theorem finalize_spec (m : Msg) (next : UInt8) (hnew : m.bFinal = false)
    (hshort : 4 ≤ m.encapsulated.length.toNat) (hsof : peek m.encapsulated.buffer 0 = SOF)
    (hfit : m.encapsulated.length.toNat + (if m.bCallbackRequired then 1 else 0) + 1 ≤ 255) :
    Sealed (m.finalize next).1 ∧ ∀ i, 2 ≤ i → i < m.encapsulated.length.toNat →
      peek (m.finalize next).1.buffer i = peek m.encapsulated.buffer i := by
  have hcb := bCallbackRequired_encapsulated m
  rw [finalize_eq_closed m next hnew]
  generalize m.encapsulated = e at *
  rw [closed]
  by_cases hc : m.bCallbackRequired = true
  · have hlen : (e.length + 1).toNat = e.length.toNat + 1 := by
      rw [UInt8.toNat_add]
      exact Nat.mod_eq_of_lt (by simp [hc] at hfit; simp; omega)
    simp only [hc, if_true] at hfit
    rw [if_pos (hcb.trans hc)]
    constructor
    · apply sealed_appendChecksum
      · show 4 ≤ (e.length + 1).toNat
        omega
      · show (e.length + 1).toNat + 1 ≤ 255
        omega
      · rw [peek_poke_ne (by omega), peek_poke_ne (by omega), hsof]
      · show _ = (e.length + 1).toNat - 1
        rw [peek_poke_ne (by omega), peek_poke_self (by omega), hlen, Nat.add_sub_cancel]
    · intro i h2 hi
      show peek (poke (poke (poke _ _ _) _ _) (e.length + 1).toNat _) i = _
      rw [peek_poke_ne (by omega), peek_poke_ne (by omega), peek_poke_ne (by omega)]
  · have hpred : (e.length - 1).toNat = e.length.toNat - 1 := by
      rw [UInt8.toNat_sub_of_le]
      · rfl
      · rw [UInt8.le_iff_toNat_le]
        show 1 ≤ e.length.toNat
        omega
    simp only [hc] at hfit
    rw [if_neg (fun h => hc (hcb ▸ h))]
    constructor
    · apply sealed_appendChecksum
      · exact hshort
      · show e.length.toNat + 1 ≤ 255
        simpa using hfit
      · rw [peek_poke_ne (by omega), hsof]
      · rw [peek_poke_self (by omega), hpred]
    · intro i h2 hi
      show peek (poke (poke _ _ _) e.length.toNat _) i = _
      rw [peek_poke_ne (by omega), peek_poke_ne (by omega)]

theorem length_finalize (m : Msg) (next : UInt8) (hnew : m.bFinal = false) :
    (m.finalize next).1.length =
      m.encapsulated.length + (if m.bCallbackRequired then 1 else 0) + 1 := by
  rw [finalize_eq_closed m next hnew, closed, bCallbackRequired_encapsulated]
  split
  · rfl
  · simp [appendChecksum]

@[simp] theorem bCallbackRequired_finalize (m : Msg) (next : UInt8) :
    (m.finalize next).1.bCallbackRequired = m.bCallbackRequired := by
  rw [finalize_eq]

/-! ## Refreshing the callback id -/

/-- A refresh changes the buffer and the callback id only. -/
theorem updateCallbackId_eq (m : Msg) (next : UInt8) :
    (m.updateCallbackId next).1 =
      { m with
        buffer := (m.updateCallbackId next).1.buffer
        callbackId := (m.updateCallbackId next).1.callbackId } := by
  unfold updateCallbackId
  split <;> rfl

@[simp] theorem length_updateCallbackId (m : Msg) (next : UInt8) :
    (m.updateCallbackId next).1.length = m.length := by
  rw [updateCallbackId_eq]

@[simp] theorem bCallbackRequired_updateCallbackId (m : Msg) (next : UInt8) :
    (m.updateCallbackId next).1.bCallbackRequired = m.bCallbackRequired := by
  rw [updateCallbackId_eq]

@[simp] theorem bFinal_updateCallbackId (m : Msg) (next : UInt8) :
    (m.updateCallbackId next).1.bFinal = m.bFinal := by
  rw [updateCallbackId_eq]

/-- A refresh writes the two cells at the end of the frame only. -/
theorem peek_updateCallbackId (m : Msg) (next : UInt8) (hshort : 5 ≤ m.length.toNat) {i : Nat}
    (hi : i < m.length.toNat - (if m.bCallbackRequired then 2 else 0)) :
    peek (m.updateCallbackId next).1.buffer i = peek m.buffer i := by
  unfold updateCallbackId
  split
  · rename_i hc
    rw [if_pos hc] at hi
    simp only
    rw [pokeInt_of_nonneg _ (by omega), pokeInt_of_nonneg _ (by omega),
      peek_poke_ne (by omega), peek_poke_ne (by omega)]
  · rfl

/-- A refresh keeps the frame readable. -/
theorem sealed_updateCallbackId {m : Msg} (next : UInt8) (h : Sealed m) :
    Sealed (m.updateCallbackId next).1 := by
  obtain ⟨hshort, hsof, hdeclared, hchecksum⟩ := h
  cases hc : m.bCallbackRequired with
  | false =>
      have hsame : (m.updateCallbackId next).1 = m := by simp [updateCallbackId, hc]
      rw [hsame]
      exact ⟨hshort, hsof, hdeclared, hchecksum⟩
  | true =>
      have hkeep := fun i hi => peek_updateCallbackId m next hshort (i := i) (by rw [hc]; exact hi)
      refine ⟨?_, ?_, ?_, ?_⟩
      · rw [length_updateCallbackId]
        exact hshort
      · rw [hkeep 0 (by simp; omega)]
        exact hsof
      · rw [hkeep 1 (by simp; omega), length_updateCallbackId]
        exact hdeclared
      · rw [length_updateCallbackId]
        simp only [updateCallbackId, hc, if_true]
        have hsum : ((m.length.toNat : Int) - 1).toNat = m.length.toNat - 1 := by omega
        rw [pokeInt_of_nonneg _ (show 0 ≤ (m.length.toNat : Int) - 1 by omega), hsum,
          peek_poke_self (by have := m.length.toNat_lt; omega)]
        apply xorFrom_congr
        intro i _ hi
        rw [peek_poke_ne (by omega)]

/-! ## What the receiver reads -/

/-- `ReadMsg` accepts bytes that count themselves and end with their checksum. -/
theorem readSOF_of_checksum {frame : List UInt8} (hsof : frame.head? = some SOF)
    (hdeclared : (frame.getD 1 0).toNat + 2 = frame.length)
    (hchecksum : frame.getD (frame.length - 1) 0 =
      xorFrom 0xff (fun i => frame.getD i 0) (frame.length - 1)) (rest : List UInt8) :
    readSOF (frame.tail ++ rest) = .accepted (frame.drop 2) rest := by
  obtain ⟨sof, declared, body, rfl⟩ : ∃ a b l, frame = a :: b :: l := by
    rcases frame with _ | ⟨a, _ | ⟨b, l⟩⟩
    · cases hsof
    · simp only [List.length_cons, List.length_nil] at hdeclared
      omega
    · exact ⟨a, b, l, rfl⟩
  obtain rfl : sof = SOF := Option.some.inj hsof
  have hbody : declared.toNat = body.length := Nat.add_right_cancel hdeclared
  have htotal : declared.toNat + 2 - 1 = (SOF :: declared :: body).length - 1 := by
    rw [hbody]
    rfl
  rw [List.tail_cons, List.cons_append, readSOF, if_neg (by rw [List.length_append]; omega)]
  dsimp only
  rw [List.take_left' hbody.symm, List.drop_left' hbody.symm, htotal, if_pos hchecksum]

/-- A sealed message is a frame that `ReadMsg` accepts, whatever follows it. -/
theorem readSOF_wire {m : Msg} (h : Sealed m) :
    ∃ input, m.wire = SOF :: input ∧
      ∀ rest, readSOF (input ++ rest) = .accepted (m.wire.drop 2) rest := by
  obtain ⟨hshort, hsof, hdeclared, hchecksum⟩ := h
  have hbound : m.length.toNat ≤ 256 := Nat.le_of_lt m.length.toNat_lt
  have hlen : m.wire.length = m.length.toNat := length_first _ hbound
  have hcell : ∀ i, i < m.length.toNat → m.wire.getD i 0 = peek m.buffer i :=
    fun i hi => getD_first m.buffer hi
  obtain ⟨input, hwire⟩ : ∃ input, m.wire = SOF :: input := by
    cases hw : m.wire with
    | nil =>
        rw [hw, List.length_nil] at hlen
        omega
    | cons sof input =>
        have hfirst := hcell 0 (by omega)
        rw [hw, hsof] at hfirst
        exact ⟨input, congrArg (· :: input) hfirst⟩
  have hfirst : m.wire.head? = some SOF := by
    rw [hwire]
    rfl
  have hsecond : (m.wire.getD 1 0).toNat + 2 = m.wire.length := by
    rw [hcell 1 (by omega), hdeclared, hlen]
    omega
  have hlast : m.wire.getD (m.wire.length - 1) 0 =
      xorFrom 0xff (fun i => m.wire.getD i 0) (m.wire.length - 1) := by
    rw [hlen, hcell _ (by omega), hchecksum]
    apply xorFrom_congr
    intro i _ hi
    exact (hcell i (by omega)).symm
  refine ⟨input, hwire, ?_⟩
  intro rest
  have hrest := readSOF_of_checksum hfirst hsecond hlast rest
  rwa [hwire, List.tail_cons, ← hwire] at hrest

/-! ## The finished message -/

theorem bFinal_finalize (m : Msg) (next : UInt8) : (m.finalize next).1.bFinal = true := by
  rw [finalize_eq]

theorem bFinal_resends (f : Msg) (resends : List UInt8) :
    (resends.foldl (fun m next => (m.updateCallbackId next).1) f).bFinal = f.bFinal := by
  induction resends generalizing f with
  | nil => rfl
  | cons next resends ih => rw [List.foldl_cons, ih, bFinal_updateCallbackId]

theorem bFinal_finished (m : Msg) (data : List UInt8) (next : UInt8) (resends : List UInt8) :
    (m.finished data next resends).bFinal = true := by
  rw [finished, bFinal_resends, bFinal_finalize]

/-- `f` is the frame around the cells of `e`. -/
structure Carries (e f : Msg) : Prop where
  readable : Sealed f
  length : f.length.toNat = e.length.toNat + (if f.bCallbackRequired then 1 else 0) + 1
  cells : ∀ i, 2 ≤ i → i < e.length.toNat → peek f.buffer i = peek e.buffer i

theorem carries_updateCallbackId {e f : Msg} (next : UInt8) (h : Carries e f) :
    Carries e (f.updateCallbackId next).1 := by
  obtain ⟨hreadable, hlength, hcells⟩ := h
  refine ⟨sealed_updateCallbackId next hreadable, ?_, ?_⟩
  · rw [length_updateCallbackId, bCallbackRequired_updateCallbackId]
    exact hlength
  · intro i h2 hi
    have hbefore : i < f.length.toNat - (if f.bCallbackRequired then 2 else 0) := by
      split at hlength
      · rename_i hc
        simp only [hc, if_true]
        omega
      · rename_i hc
        simp only [hc, Bool.false_eq_true, if_false]
        omega
    rw [peek_updateCallbackId f next hreadable.short hbefore]
    exact hcells i h2 hi

/-- Any number of refreshes leaves the frame around the same cells. -/
theorem carries_resends {e f : Msg} (resends : List UInt8) (h : Carries e f) :
    Carries e (resends.foldl (fun m next => (m.updateCallbackId next).1) f) := by
  induction resends generalizing f with
  | nil => exact h
  | cons next resends ih => exact ih (carries_updateCallbackId next h)

theorem length_resends (f : Msg) (resends : List UInt8) :
    (resends.foldl (fun m next => (m.updateCallbackId next).1) f).length = f.length := by
  induction resends generalizing f with
  | nil => rfl
  | cons next resends ih => rw [List.foldl_cons, ih, length_updateCallbackId]

theorem fresh_new (id : Nat) (target msgType function : UInt8) (callback reply : Bool)
    (expectedReply expectedClass : UInt8) :
    Fresh (new id target msgType function callback reply expectedReply expectedClass) := by
  refine ⟨rfl, rfl, ?_⟩
  simp [new]

/-- Appending does not touch the header or the encapsulation flags. -/
theorem inserted_appendArray {m : Msg} (hnew : Fresh m) (data : List UInt8)
    (hfit : 4 + data.length ≤ 255) : (m.appendArray data).inserted = m.inserted := by
  have h3 : peek (m.appendArray data).buffer 3 = peek m.buffer 3 := by
    have h4 : m.length.toNat = 4 := by rw [hnew.length]; rfl
    rw [peek_appendArray m data (by omega), if_neg (by omega)]
  unfold inserted encapHeader
  rw [h3, appendArray_eq]

theorem toNat_add_ofNat {a : UInt8} {k : Nat} (h : a.toNat + k ≤ 255) :
    (a + UInt8.ofNat k).toNat = a.toNat + k := by
  rw [UInt8.toNat_add, UInt8.toNat_ofNat', Nat.add_mod_mod]
  exact Nat.mod_eq_of_lt (by omega)

/-- The length before the callback id and the checksum. -/
theorem toNat_length_encapsulated {m : Msg} (hnew : Fresh m) (data : List UInt8)
    (hfit : 4 + data.length + m.inserted.length ≤ 255) :
    (m.appendArray data).encapsulated.length.toNat = 4 + data.length + m.inserted.length := by
  have h4 : m.length.toNat = 4 := by rw [hnew.length]; rfl
  have happ : (m.appendArray data).length.toNat = 4 + data.length := by
    rw [length_appendArray, toNat_add_ofNat (by omega), h4]
  rw [length_encapsulated, inserted_appendArray hnew data (by omega),
    toNat_add_ofNat (by omega), happ]

/-- Every way of finishing a message that fits 255 bytes ends in a readable
frame around the encapsulated cells. -/
theorem carries_finished {m : Msg} (hnew : Fresh m) (data : List UInt8) (next : UInt8)
    (resends : List UInt8) (hfit : m.totalLength data.length ≤ 255) :
    Carries (m.appendArray data).encapsulated (m.finished data next resends) := by
  have hsum : 4 + data.length + m.inserted.length + (if m.bCallbackRequired then 1 else 0) + 1
      ≤ 255 := hfit
  have hlen := toNat_length_encapsulated hnew data (by omega)
  have h4 : m.length.toNat = 4 := by rw [hnew.length]; rfl
  have hins := inserted_appendArray hnew data (by omega)
  have hcallback : (m.appendArray data).bCallbackRequired = m.bCallbackRequired := by
    rw [appendArray_eq]
  have hfinal : (m.appendArray data).bFinal = false := by
    rw [appendArray_eq]
    exact hnew.notFinal
  have hsof : peek (m.appendArray data).encapsulated.buffer 0 = SOF := by
    have happ : (m.appendArray data).length.toNat = 4 + data.length := by
      rw [length_appendArray, toNat_add_ofNat (by omega), h4]
    rw [peek_encapsulated _ (by rw [happ, hins]; omega), if_pos (Or.inr (by decide)),
      peek_appendArray m data (by omega), if_neg (by omega)]
    exact hnew.sof
  have hspec := finalize_spec (m.appendArray data) next hfinal (by omega) hsof
    (by rw [hlen, hcallback]; exact hsum)
  obtain ⟨hsealed, hcells⟩ := hspec
  apply carries_resends
  refine ⟨hsealed, ?_, hcells⟩
  rw [length_finalize _ _ hfinal, bCallbackRequired_finalize, hcallback]
  have hone : ∀ a : UInt8, a.toNat + 1 ≤ 255 → (a + 1).toNat = a.toNat + 1 := by
    intro a ha
    exact toNat_add_ofNat (k := 1) ha
  split at hsum
  · rename_i hc
    rw [if_pos hc, if_pos hc, hone _ (by rw [hone _ (by omega)]; omega), hone _ (by omega)]
  · rename_i hc
    rw [if_neg hc, if_neg hc, UInt8.add_zero, hone _ (by omega)]

/-- The bytes between the header and the frame's end. -/
theorem peek_finished {m : Msg} (hnew : Fresh m) (data : List UInt8) (next : UInt8)
    (resends : List UInt8) (hfit : m.totalLength data.length ≤ 255)
    {i : Nat} (hcommand : i < 4 ∨ m.inserted = [] ∨ 2 ≤ data.length) (h2 : 2 ≤ i)
    (hi : i < 4 + data.length + m.inserted.length) :
    peek (m.finished data next resends).buffer i =
      if i < 4 then peek m.buffer i
      else if m.inserted = [] ∨ i < 5 then data.getD (i - 4) 0
      else if i = 5 then data.getD 1 0 + UInt8.ofNat m.inserted.length
      else if i < 6 + m.inserted.length then m.inserted.getD (i - 6) 0
      else data.getD (i - m.inserted.length - 4) 0 := by
  have hsum : 4 + data.length + m.inserted.length + (if m.bCallbackRequired then 1 else 0) + 1
      ≤ 255 := hfit
  have h4 : m.length.toNat = 4 := by rw [hnew.length]; rfl
  have hins := inserted_appendArray hnew data (by omega)
  have happ : (m.appendArray data).length.toNat = 4 + data.length := by
    rw [length_appendArray, toNat_add_ofNat (by omega), h4]
  have hcell : ∀ j, peek (m.appendArray data).buffer j =
      if 4 ≤ j ∧ j < 4 + data.length then data.getD (j - 4) 0 else peek m.buffer j := by
    intro j
    rw [peek_appendArray m data (by omega), h4]
  rw [(carries_finished hnew data next resends hfit).cells i h2 (by
      rw [toNat_length_encapsulated hnew data (by omega)]; exact hi),
    peek_encapsulated _ (by rw [happ, hins]; omega), hins, happ]
  rcases Nat.lt_or_ge i 4 with hlow | hhigh
  · rw [if_pos (Or.inr (by omega)), if_pos hlow, hcell, if_neg (by omega)]
  · have hcommand := hcommand.resolve_left (by omega)
    rw [if_neg (show ¬ i < 4 by omega)]
    split
    · rename_i hkept
      have hin : i < 4 + data.length := by
        rcases hcommand with hnone | htwo
        · rw [hnone, List.length_nil] at hi
          exact hi
        · rcases hkept with hnone | hfour
          · rw [hnone, List.length_nil] at hi
            exact hi
          · omega
      rw [hcell, if_pos ⟨hhigh, hin⟩]
    · rename_i hmoved
      have htwo : 2 ≤ data.length := hcommand.resolve_left (fun h => hmoved (Or.inl h))
      have h5 : 5 ≤ i := by omega
      split
      · rw [hcell 5, if_pos ⟨by decide, by omega⟩]
      · split
        · rfl
        · rw [hcell, if_pos ⟨by omega, by omega⟩]

/-! ## The result -/

/-- The receiver's framing rule accepts the frame, and it holds the command. -/
structure Delivered (m : Msg) (data : List UInt8) (f : Msg) : Prop where
  sof : f.wire.head? = some SOF
  length : (f.wire.getD 1 0).toNat + 2 = f.wire.length
  checksum : f.wire.getD (f.wire.length - 1) 0 =
    xorFrom 0xff (fun i => f.wire.getD i 0) (f.wire.length - 1)
  accepted : ∀ rest, readSOF (f.wire.tail ++ rest) = .accepted (f.wire.drop 2) rest
  header : (f.wire.drop 2).take 2 = [peek m.buffer 2, peek m.buffer 3]
  plain : m.inserted = [] → (f.wire.drop 4).take data.length = data
  command : ∀ node declared rest, data = node :: declared :: rest →
    (f.wire.drop 4).take (data.length + m.inserted.length) =
      node :: (declared + UInt8.ofNat m.inserted.length) :: (m.inserted ++ rest)
  payload : ∀ node declared rest, data = node :: declared :: rest →
    declared.toNat ≤ rest.length →
    (f.wire.getD 5 0).toNat = m.inserted.length + declared.toNat

/-- The finished frame holds every byte that was built, and a checksum after
them. -/
theorem length_finished_ge {m : Msg} (hnew : Fresh m) (data : List UInt8) (next : UInt8)
    (resends : List UInt8) (hfit : m.totalLength data.length ≤ 255) :
    4 + data.length + m.inserted.length < (m.finished data next resends).length.toNat := by
  have hsum : 4 + data.length + m.inserted.length + (if m.bCallbackRequired then 1 else 0) + 1
      ≤ 255 := hfit
  have hlength := (carries_finished hnew data next resends hfit).length
  rw [toNat_length_encapsulated hnew data (by omega)] at hlength
  omega

/-- Reading a window of the finished frame. -/
theorem window_finished {m : Msg} (hnew : Fresh m) (data : List UInt8) (next : UInt8)
    (resends : List UInt8) (hfit : m.totalLength data.length ≤ 255) (start : Nat) (l : List UInt8)
    (hl : start + l.length ≤ 4 + data.length + m.inserted.length)
    (h : ∀ i, i < l.length → peek (m.finished data next resends).buffer (start + i) = l.getD i 0) :
    ((m.finished data next resends).wire.drop start).take l.length = l := by
  have hlong := length_finished_ge hnew data next resends hfit
  apply take_drop_first_eq
  · have := (m.finished data next resends).length.toNat_lt
    omega
  · omega
  · exact h

/-- A message of at most 255 bytes is delivered. -/
theorem delivered_of_fits {m : Msg} (hnew : Fresh m) (data : List UInt8) (next : UInt8)
    (resends : List UInt8) (hfit : m.totalLength data.length ≤ 255) :
    Delivered m data (m.finished data next resends) := by
  have hsealed := (carries_finished hnew data next resends hfit).readable
  have hcell := fun i => peek_finished hnew data next resends hfit (i := i)
  have hwindow := window_finished hnew data next resends hfit
  have hlong := length_finished_ge hnew data next resends hfit
  generalize m.finished data next resends = f at hsealed hcell hwindow hlong ⊢
  have hbound : f.length.toNat ≤ 256 := by
    have := f.length.toNat_lt
    omega
  have hlen : f.wire.length = f.length.toNat := length_first _ hbound
  have hget : ∀ i, i < f.length.toNat → f.wire.getD i 0 = peek f.buffer i :=
    fun i hi => getD_first f.buffer hi
  have hshort := hsealed.short
  obtain ⟨input, hwire, hread⟩ := readSOF_wire hsealed
  constructor
  case sof => rw [hwire, List.head?_cons]
  case length =>
    rw [hget 1 (by omega), hsealed.declared, hlen]
    omega
  case checksum =>
    rw [hlen, hget _ (by omega), hsealed.checksum]
    apply xorFrom_congr
    intro i _ hi
    exact (hget i (by omega)).symm
  case accepted =>
    intro rest
    rw [← hread rest, hwire, List.tail_cons]
  case header =>
    have h := hwindow 2 [peek m.buffer 2, peek m.buffer 3] (by simp; omega)
    apply h
    intro i hi
    rw [hcell (2 + i) (Or.inl (by simp at hi; omega)) (by omega) (by simp at hi; omega),
      if_pos (by simp at hi; omega)]
    rcases i with _ | _ | i
    · rfl
    · rfl
    · simp only [List.length_cons, List.length_nil] at hi
      omega
  case plain =>
    intro hplain
    have h := hwindow 4 data (by omega)
    apply h
    intro i hi
    rw [hcell _ (Or.inr (Or.inl hplain)) (by omega) (by omega), if_neg (by omega),
      if_pos (Or.inl hplain)]
    congr 1
    omega
  case command =>
    intro node declared rest hdata
    have htwo : data.length = rest.length + 2 := by rw [hdata]; rfl
    have htotal : (node :: (declared + UInt8.ofNat m.inserted.length) :: (m.inserted ++ rest)).length
        = data.length + m.inserted.length := by
      simp only [List.length_cons, List.length_append]
      omega
    rw [← htotal]
    apply hwindow 4 _ (by omega)
    intro i hi
    rw [hcell _ (Or.inr (Or.inr (by omega))) (by omega) (by omega), if_neg (by omega)]
    rw [hdata]
    simp only [List.length_cons] at hi
    rcases i with _ | _ | i
    · rw [if_pos (Or.inr (by omega))]
      rfl
    · rcases List.eq_nil_or_concat' m.inserted with hnone | ⟨l, b, hsome⟩
      · rw [if_pos (Or.inl hnone), hnone]
        simp
      · have hne : m.inserted ≠ [] := by rw [hsome]; simp
        rw [if_neg (by simp [hne]), if_pos (by omega)]
        rfl
    · have hright : (node :: (declared + UInt8.ofNat m.inserted.length) :: (m.inserted ++ rest)).getD
          (i + 2) 0 = (m.inserted ++ rest).getD i 0 := rfl
      have hrest : ∀ k, (node :: declared :: rest).getD (k + 2) 0 = rest.getD k 0 := fun k => rfl
      rw [hright]
      rcases Nat.lt_or_ge i m.inserted.length with hin | hout
      · have hne : ¬ (m.inserted = [] ∨ 4 + (i + 2) < 5) := by
          rintro (hnone | hlow)
          · rw [hnone] at hin
            exact absurd hin (Nat.not_lt_zero i)
          · omega
        rw [if_neg hne, if_neg (by omega), if_pos (by omega), List.getD_append _ _ _ _ hin]
        congr 1
        omega
      · rw [List.getD_append_right _ _ _ _ hout, ← hrest]
        split
        · rename_i hnone
          rw [hnone.resolve_right (by omega), List.length_nil]
          congr 1
          omega
        · rw [if_neg (by omega), if_neg (by omega)]
          congr 1
          omega
  case payload =>
    intro node declared rest hdata hdeclared
    have htwo : data.length = rest.length + 2 := by rw [hdata]; rfl
    have hlt := f.length.toNat_lt
    rw [hget 5 (by omega), hcell 5 (Or.inr (Or.inr (by omega))) (by decide) (by omega),
      if_neg (by decide), if_pos rfl, hdata]
    split
    · rename_i hnone
      rw [hnone.resolve_right (by decide), List.length_nil, Nat.zero_add]
      rfl
    · have hsum : (declared + UInt8.ofNat m.inserted.length).toNat
          = declared.toNat + m.inserted.length := toNat_add_ofNat (by omega)
      rw [Nat.add_comm, ← hsum]
      rfl

/-- The finished frame has `totalLength` bytes, modulo the width of `m_length`. -/
theorem length_finished {m : Msg} (hnew : Fresh m) (data : List UInt8) (next : UInt8)
    (resends : List UInt8) (hfit : 4 + data.length ≤ 255) :
    (m.finished data next resends).length = UInt8.ofNat (m.totalLength data.length) := by
  have hfinal : (m.appendArray data).bFinal = false := by
    rw [appendArray_eq]
    exact hnew.notFinal
  have hcallback : (m.appendArray data).bCallbackRequired = m.bCallbackRequired := by
    rw [appendArray_eq]
  rw [finished, length_resends, length_finalize _ _ hfinal, length_encapsulated,
    inserted_appendArray hnew data hfit, length_appendArray, hnew.length, hcallback, totalLength]
  simp only [UInt8.ofNat_add]
  split <;> rfl

/-- A message of exactly 256 bytes is not sent at all: its length byte wraps to
zero. -/
theorem wire_of_full {m : Msg} (hnew : Fresh m) (data : List UInt8) (next : UInt8)
    (resends : List UInt8) (hfull : m.totalLength data.length = 256) :
    (m.finished data next resends).wire = [] := by
  have hsum : 4 + data.length + m.inserted.length + (if m.bCallbackRequired then 1 else 0) + 1
      = 256 := hfull
  rw [wire, length_finished hnew data next resends (by omega), hfull]
  rfl

/-- A message that fits the buffer reaches the receiver as its own framing rule
demands exactly when it leaves one cell of the buffer unused. -/
theorem delivered_iff {m : Msg} (hnew : Fresh m) (data : List UInt8) (next : UInt8)
    (resends : List UInt8) (hfit : m.totalLength data.length ≤ 256) :
    Delivered m data (m.finished data next resends) ↔ m.totalLength data.length ≤ 255 := by
  constructor
  · intro h
    rcases Nat.lt_or_ge (m.totalLength data.length) 256 with hlt | hge
    · exact Nat.le_of_lt_succ hlt
    · have hsof := h.sof
      rw [wire_of_full hnew data next resends (Nat.le_antisymm hfit hge)] at hsof
      cases hsof
  · exact delivered_of_fits hnew data next resends

theorem totalLength_new (id : Nat) (target msgType function : UInt8) (appended : Nat) :
    (new id target msgType function true).totalLength appended = appended + 6 := by
  have hplain : (new id target msgType function true).inserted = [] := by
    unfold inserted
    exact if_neg (fun h => absurd h.1 (by simp [new]))
  rw [totalLength, hplain]
  simp only [new, List.length_nil, if_true]
  omega

/-- A Basic Set to the second endpoint of a node, resent twice. -/
theorem delivered_basicSet :
    Delivered { new 1 5 REQUEST FuncId.sendData true with flags := multiChannel, endPoint := 2 }
      [5, 3, 0x20, 0x01, 0xff, 0x25]
      (finished { new 1 5 REQUEST FuncId.sendData true with flags := multiChannel, endPoint := 2 }
        [5, 3, 0x20, 0x01, 0xff, 0x25] 0 [11, 12]) := by
  have hflags : multiChannel &&& (multiChannel ||| multiInstance) ≠ 0 := by decide
  have hchannel : multiChannel ≠ 0 := by decide
  have hfresh : Fresh { new 1 5 REQUEST FuncId.sendData true with
      flags := multiChannel, endPoint := 2 } := ⟨rfl, rfl, (fresh_new 1 5 _ _ true true 0 0).sof⟩
  have htotal : totalLength { new 1 5 REQUEST FuncId.sendData true with
      flags := multiChannel, endPoint := 2 } 6 = 16 := by
    simp [totalLength, inserted, encapHeader, new, hflags, hchannel]
  exact (delivered_iff hfresh [5, 3, 0x20, 0x01, 0xff, 0x25] 0 [11, 12] (by simp [htotal])).2
    (by simp [htotal])

/-- Raw data that fills the buffer: 249 bytes and the transmit options. -/
def fullRawData : List UInt8 := 5 :: 247 :: (List.replicate 247 0 ++ [0x25])

/-- No byte of the message reaches the controller. -/
theorem fullRawData_not_delivered :
    (new 1 5 REQUEST FuncId.sendData true).totalLength fullRawData.length ≤ 256 ∧
      ¬ Delivered (new 1 5 REQUEST FuncId.sendData true) fullRawData
        (finished (new 1 5 REQUEST FuncId.sendData true) fullRawData 10 []) := by
  have hlen : fullRawData.length = 250 := by
    simp only [fullRawData, List.length_cons, List.length_append, List.length_replicate,
      List.length_nil]
  have hfull : (new 1 5 REQUEST FuncId.sendData true).totalLength fullRawData.length = 256 := by
    rw [totalLength_new, hlen]
  refine ⟨Nat.le_of_eq hfull, ?_⟩
  intro h
  have hsof := h.sof
  rw [wire_of_full (fresh_new 1 5 REQUEST FuncId.sendData true true 0 0) _ _ _ hfull] at hsof
  cases hsof

end Msg

end OpenZWave
