import OpenZWave.Encapsulation

/-!
# The frame of an encrypted message

`GetBuffer` encrypts into the array `e_buffer` of the message, and
`SendEncryptedMessage` writes as many bytes of it as `GetLength` says. What the
array holds behind the frame is left from earlier, so it is an argument.
-/

namespace OpenZWave

open ByteBuffer Checked

variable (enc auth : Block → Block)

/-- `GetBuffer`: the array its result points to. -/
def Msg.getBuffer (m : Msg) (controllerNodeId : UInt8) (random : Vector UInt8 8)
    (transmitOptions : UInt8) (e_buffer : Vector UInt8 256) : Except Fault (Vector UInt8 256) :=
  if m.encrypted then do
    let produced ← encryptBuffer enc auth m.buffer m.length controllerNodeId m.targetNodeId
      m.nonce random transmitOptions
    return pokeAll e_buffer 0 produced
  else return m.buffer

/-- The bytes `SendEncryptedMessage` writes: the length is narrowed to a byte. -/
def Msg.sentBytes (m : Msg) (controllerNodeId : UInt8) (random : Vector UInt8 8)
    (transmitOptions : UInt8) (e_buffer : Vector UInt8 256) : Except Fault (List UInt8) := do
  let buffer ← m.getBuffer enc auth controllerNodeId random transmitOptions e_buffer
  return first buffer (UInt8.ofNat m.getLength).toNat

/-! ## What EncryptBuffer produces -/

/-- A frame that ends with the transmit options, the callback id and the
checksum, and whose length byte counts all but itself and SOF. -/
structure Produced (m_buffer : Vector UInt8 256) (m_length transmitOptions : UInt8)
    (frame : List UInt8) : Prop where
  sof : frame.head? = some SOF
  length : frame.length = m_length.toNat + 20
  declared : (frame.getD 1 0).toNat + 2 = frame.length
  options : frame.getD (frame.length - 3) 0 = transmitOptions
  callback : frame.getD (frame.length - 2) 0 = peek m_buffer (m_length.toNat - 2)
  checksum : frame.getD (frame.length - 1) 0 =
    xorFrom 0xff (fun i => frame.getD i 0) (frame.length - 1)

/-- The checksum of a frame to which nothing else is appended. -/
def withChecksum (frame : List UInt8) : List UInt8 :=
  frame ++ [xorFrom 0xff (fun i => frame.getD i 0) frame.length]

theorem getD_withChecksum {frame : List UInt8} {i : Nat} (h : i < frame.length) :
    (withChecksum frame).getD i 0 = frame.getD i 0 :=
  List.getD_append _ _ _ _ h

/-- It is the checksum that a receiver computes over what is in front of it. -/
theorem checksum_withChecksum (frame : List UInt8) :
    (withChecksum frame).getD frame.length 0 =
      xorFrom 0xff (fun i => (withChecksum frame).getD i 0) frame.length := by
  have hlast : (withChecksum frame).getD frame.length 0 =
      xorFrom 0xff (fun i => frame.getD i 0) frame.length := by
    rw [withChecksum, List.getD_append_right _ _ _ _ (Nat.le_refl _), Nat.sub_self, List.getD_cons_zero]
  refine hlast.trans (xorFrom_congr ?_)
  intro i _ hi
  exact (getD_withChecksum hi).symm

/-- The authentication code is computed only when the payload length leaves room
for it. -/
theorem eight_le_of_generateAuthentication {data : List UInt8} {m_length : UInt8}
    {sendingNode receivingNode : UInt8} {iv : Block} {mac : List UInt8}
    (hlocal : m_length.toNat ≤ 38)
    (h : generateAuthentication auth data (m_length + 11).toUInt32 sendingNode receivingNode iv =
      .ok mac) : 8 ≤ m_length.toNat ∧ mac.length = 8 := by
  obtain ⟨-, hsize, -, hmac⟩ := (generateAuthentication_eq_ok auth).mp h
  have hdeclared : (m_length + 11).toUInt32.toNat = m_length.toNat + 11 := by
    rw [UInt8.toNat_toUInt32]
    exact Msg.toNat_add_ofNat (k := 11) (by omega)
  rw [UInt32.toNat_sub, hdeclared] at hsize
  simp only [UInt32.reduceToNat] at hsize
  refine ⟨by omega, ?_⟩
  rw [← hmac, length_authentication]

/-- Up to the authentication code a frame has 17 bytes more than the message. -/
theorem encryptBuffer_eq_withChecksum {m_buffer : Vector UInt8 256} {m_length : UInt8}
    {sendingNode receivingNode : UInt8} {m_nonce random : Vector UInt8 8}
    {transmitOptions : UInt8} {frame : List UInt8}
    (h : encryptBuffer enc auth m_buffer m_length sendingNode receivingNode m_nonce random
      transmitOptions = .ok frame) :
    ∃ body, body.head? = some SOF ∧ body.length = m_length.toNat + 17 ∧
      body.getD 1 0 = m_length + 18 ∧ frame =
        withChecksum (body ++ [transmitOptions, peek m_buffer (m_length.toNat - 2)]) := by
  have hlocal := (fits_of_encryptBuffer enc auth h).1
  rw [encryptBuffer] at h
  dsimp only at h
  rw [check_bind_eq_ok, check_bind_eq_ok] at h
  obtain ⟨hplain, -, h⟩ := h
  obtain ⟨mac, hmac, h⟩ := bind_eq_ok.mp h
  rw [check_bind_eq_ok] at h
  obtain ⟨-, h⟩ := h
  obtain ⟨hlong, hmac⟩ := eight_le_of_generateAuthentication auth hlocal hmac
  refine ⟨_, rfl, ?_, rfl, (Except.ok.inj h).symm⟩
  simp only [List.length_append, List.length_cons, List.length_nil, Vector.length_toList,
    aesOfbCrypt, StreamCipher.length_crypt, List.length_take, List.length_drop, hmac,
    length_first m_buffer (Nat.le_of_lt m_length.toNat_lt)]
  omega

/-- Whatever `EncryptBuffer` completes is a frame. -/
theorem produced_of_encryptBuffer {m_buffer : Vector UInt8 256} {m_length : UInt8}
    {sendingNode receivingNode : UInt8} {m_nonce random : Vector UInt8 8}
    {transmitOptions : UInt8} {frame : List UInt8}
    (h : encryptBuffer enc auth m_buffer m_length sendingNode receivingNode m_nonce random
      transmitOptions = .ok frame) : Produced m_buffer m_length transmitOptions frame := by
  have hlocal := (fits_of_encryptBuffer enc auth h).1
  obtain ⟨body, hsof, hbody, hdeclared, rfl⟩ := encryptBuffer_eq_withChecksum enc auth h
  generalize hopen : body ++ [transmitOptions, peek m_buffer (m_length.toNat - 2)] = opened
  have hopened : opened.length = body.length + 2 := by
    rw [← hopen, List.length_append]
    rfl
  have htrailer : ∀ k, k < 2 → (withChecksum opened).getD (body.length + k) 0 =
      [transmitOptions, peek m_buffer (m_length.toNat - 2)].getD k 0 := by
    intro k hk
    rw [getD_withChecksum (by omega), ← hopen,
      List.getD_append_right _ _ _ _ (Nat.le_add_right _ _), Nat.add_sub_cancel_left]
  have hlength : (withChecksum opened).length = body.length + 3 := by
    rw [withChecksum, List.length_append, hopened]
    rfl
  constructor
  case sof =>
      rw [withChecksum, ← hopen, List.append_assoc, List.head?_append, hsof]
      rfl
  case length =>
      rw [hlength, hbody]
  case declared =>
      have hsum : (m_length + 18).toNat = m_length.toNat + 18 :=
        Msg.toNat_add_ofNat (k := 18) (by omega)
      rw [hlength, getD_withChecksum (by omega), ← hopen, List.getD_append _ _ _ _ (by omega), hdeclared,
        hsum]
      omega
  case options =>
      rw [hlength]
      exact htrailer 0 (by decide)
  case callback =>
      rw [hlength]
      exact htrailer 1 (by decide)
  case checksum =>
      rw [hlength, Nat.add_sub_cancel (m := 1), ← hopened]
      exact checksum_withChecksum opened

/-! ## What is written -/

/-- The frame on the wire as it declares itself: as many bytes as its length
byte says, all of them produced, the checksum last, and the callback id and the
transmit options those of the message before it was encrypted. -/
structure Msg.WellSent (m : Msg) (produced written : List UInt8) : Prop where
  length : written.length = (written.getD 1 0).toNat + 2
  produced : written <+: produced
  checksum : written.getD (written.length - 1) 0 =
    xorFrom 0xff (fun i => written.getD i 0) (written.length - 1)
  callback : written.getD (written.length - 2) 0 = peek m.buffer (m.length.toNat - 2)
  options : written.getD (written.length - 3) 0 = peek m.buffer (m.length.toNat - 3)

/-- The frame is followed by six bytes of what the array held before. -/
theorem Msg.sentBytes_eq_ok {m : Msg} {controllerNodeId : UInt8} {random : Vector UInt8 8}
    {transmitOptions : UInt8} {e_buffer : Vector UInt8 256} {written : List UInt8}
    (hencrypted : m.encrypted = true)
    (h : m.sentBytes enc auth controllerNodeId random transmitOptions e_buffer = .ok written) :
    ∃ produced, encryptBuffer enc auth m.buffer m.length controllerNodeId m.targetNodeId m.nonce
        random transmitOptions = .ok produced ∧
      written = produced ++ ((e_buffer.toList.drop produced.length).take 6) := by
  rw [sentBytes, getBuffer, if_pos hencrypted] at h
  obtain ⟨buffer, hbuffer, h⟩ := bind_eq_ok.mp h
  obtain ⟨produced, hproduced, hbuffer⟩ := bind_eq_ok.mp hbuffer
  have hlocal := (fits_of_encryptBuffer enc auth hproduced).1
  have hlength := (produced_of_encryptBuffer enc auth hproduced).length
  have hcount : (UInt8.ofNat m.getLength).toNat = produced.length + 6 := by
    rw [getLength, if_pos hencrypted, UInt8.toNat_ofNat']
    omega
  refine ⟨produced, hproduced, ?_⟩
  rw [← Except.ok.inj h, ← Except.ok.inj hbuffer, hcount]
  exact first_pokeAll _ _ _ (by omega)

/-- The receiver reads the frame, and takes the six bytes for the start of what
comes next. -/
theorem Msg.readSOF_sentBytes {m : Msg} {controllerNodeId : UInt8} {random : Vector UInt8 8}
    {transmitOptions : UInt8} {e_buffer : Vector UInt8 256} {written : List UInt8}
    (hencrypted : m.encrypted = true)
    (h : m.sentBytes enc auth controllerNodeId random transmitOptions e_buffer = .ok written)
    (rest : List UInt8) :
    ∃ frame stray, Produced m.buffer m.length transmitOptions frame ∧ stray.length = 6 ∧
      written = frame ++ stray ∧
      readSOF (written.tail ++ rest) = .accepted (frame.drop 2) (stray ++ rest) := by
  obtain ⟨frame, hframe, rfl⟩ := sentBytes_eq_ok enc auth hencrypted h
  have hproduced := produced_of_encryptBuffer enc auth hframe
  have hlocal := (fits_of_encryptBuffer enc auth hframe).1
  have hlength := hproduced.length
  have hread := readSOF_of_checksum hproduced.sof hproduced.declared hproduced.checksum
  refine ⟨frame, _, hproduced, ?_, rfl, ?_⟩
  · rw [List.length_take, List.length_drop, Vector.length_toList]
    omega
  · rw [List.tail_append_of_ne_nil (List.ne_nil_of_length_pos (by omega)), List.append_assoc]
    exact hread _

/-- On no message does what is written have the length it declares. -/
theorem Msg.not_wellSent (m : Msg) (controllerNodeId : UInt8) (random : Vector UInt8 8)
    (transmitOptions : UInt8) (e_buffer : Vector UInt8 256) (hencrypted : m.encrypted = true) :
    ¬ ∃ produced written,
      encryptBuffer enc auth m.buffer m.length controllerNodeId m.targetNodeId m.nonce random
        transmitOptions = .ok produced ∧
      m.sentBytes enc auth controllerNodeId random transmitOptions e_buffer = .ok written ∧
      m.WellSent produced written := by
  rintro ⟨produced, written, hencrypt, hwritten, hsent⟩
  obtain ⟨frame, stray, hframe, hstray, rfl, -⟩ :=
    readSOF_sentBytes enc auth hencrypted hwritten []
  have hlength := hsent.length
  rw [List.getD_append _ _ _ _ (by have := hframe.length; omega), hframe.declared,
    List.length_append] at hlength
  omega

/-- A Binary Switch Set for node 5, with a nonce of that node. -/
def switchSet : Msg :=
  { (Msg.new 1 5 REQUEST FuncId.sendData true).finished [5, 3, 0x25, 0x01, 0xff, 0x25] 10 [] with
    encrypted := true
    nonce := Vector.replicate 8 1
    nonceRecvd := true }

theorem not_wellSent_switchSet :
    ¬ ∃ produced written,
      encryptBuffer id id switchSet.buffer switchSet.length 1 switchSet.targetNodeId
        switchSet.nonce (Vector.replicate 8 2) 0x25 = .ok produced ∧
      switchSet.sentBytes id id 1 (Vector.replicate 8 2) 0x25 (Vector.replicate 256 0) =
        .ok written ∧
      switchSet.WellSent produced written :=
  Msg.not_wellSent id id switchSet 1 (Vector.replicate 8 2) 0x25 (Vector.replicate 256 0) rfl

/-- Its frame declares 32 bytes, and 38 are written. -/
theorem switchSet_oversized :
    switchSet.bFinal = true ∧ switchSet.encrypted = true ∧
      ∃ written, switchSet.sentBytes id id 1 (Vector.replicate 8 2) 0x25 (Vector.replicate 256 0) =
        .ok written ∧ (written.getD 1 0).toNat + 2 = 32 ∧ written.length = 38 := by
  have hencrypted : switchSet.encrypted = true := rfl
  have hlength : switchSet.length = 12 := by decide
  obtain ⟨last, checksum, hproduced⟩ := encryptBuffer_of_fits id id switchSet
    (by rw [hlength]; decide) (by rw [hlength]; decide) 1 switchSet.targetNodeId switchSet.nonce
    (Vector.replicate 8 2) 0x25
  obtain ⟨written, hwritten⟩ : Safe (switchSet.sentBytes id id 1 (Vector.replicate 8 2) 0x25
      (Vector.replicate 256 0)) := by
    rw [Msg.sentBytes, Msg.getBuffer, if_pos hencrypted, hproduced]
    exact safe_pure _
  obtain ⟨frame, stray, hframe, hstray, rfl, -⟩ :=
    Msg.readSOF_sentBytes id id hencrypted hwritten []
  have htotal : frame.length = 32 := by
    rw [hframe.length, hlength]
    rfl
  refine ⟨by decide, hencrypted, _, hwritten, ?_, ?_⟩
  · rw [List.getD_append _ _ _ _ (by omega), hframe.declared, htotal]
  · rw [List.length_append, htotal, hstray]

end OpenZWave
