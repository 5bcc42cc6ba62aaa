import OpenZWave.EncryptedFrame
import OpenZWave.Lib.BlockChaining

/-!
# The authentication code

`GenerateAuthentication` chains the blocks of a message byte by byte. `EncryptBuffer` and
`DecryptBuffer` call it at different places of a frame, with a length that is counted from the
command on.
-/

namespace OpenZWave

open BlockChaining ByteBuffer Checked

/-! ## The code block by block -/

/-- What is chained: `T i = E (T (i - 1) xor B i)`. -/
def absorbBlock (auth : Block → Block) (t b : Block) : Block := auth (xorBlock t b)

/-- The code over a message: `T 0` is the encrypted vector, and the first half counts. -/
def macOf (auth : Block → Block) (iv : Block) (message : List UInt8) : List UInt8 :=
  first (chain 0 (absorbBlock auth) (auth iv) message) 8

theorem xorBlock_comm (a b : Block) : xorBlock a b = xorBlock b a := by
  ext i hi
  simp only [xorBlock, Vector.getElem_zipWith]
  exact congrArg UInt8.toNat (UInt8.xor_comm _ _)

/-- The locals of the loop as the state of a chaining. -/
def AuthState.toState (s : AuthState) : State UInt8 Block 16 where
  value := s.tmpauth
  pending := s.encpck
  fill := s.block

theorem AuthState.toState_step (auth : Block → Block) (s : AuthState) (b : UInt8) :
    (s.step auth b).toState = BlockChaining.step 0 (absorbBlock auth) s.toState b := by
  rw [AuthState.step, BlockChaining.step]
  by_cases hfull : s.block + 1 = 16
  · have hfill : s.toState.fill + 1 = 16 := hfull
    rw [if_pos hfull, if_pos hfill, xorBlock_comm]
    rfl
  · have hfill : ¬s.toState.fill + 1 = 16 := hfull
    rw [if_neg hfull, if_neg hfill]
    rfl

theorem AuthState.finish_eq (auth : Block → Block) (s : AuthState) :
    s.finish auth = first (BlockChaining.finish (absorbBlock auth) s.toState) 8 := by
  rw [AuthState.finish, BlockChaining.finish, xorBlock_comm]
  rfl

/-- The loop and what follows it. -/
theorem finish_foldl_authStep (auth : Block → Block) (iv : Block) (message : List UInt8) :
    (message.foldl (AuthState.step auth)
        { tmpauth := auth iv, encpck := Vector.replicate 16 0, block := 0 }).finish auth =
      macOf auth iv message := by
  have hrun : ∀ s : AuthState, (message.foldl (AuthState.step auth) s).toState =
      message.foldl (BlockChaining.step 0 (absorbBlock auth)) s.toState := by
    induction message with
    | nil => exact fun s => rfl
    | cons b message ih =>
        intro s
        rw [List.foldl_cons, List.foldl_cons, ih, AuthState.toState_step]
  rw [AuthState.finish_eq, hrun, macOf, ← finish_foldl_step (by decide)]
  rfl

/-- The code of `GenerateAuthentication` for up to 236 encrypted bytes. -/
theorem generateAuthentication_eq_macOf (auth : Block → Block) {data : List UInt8} {n : ℕ}
    (hn : n ≤ 236) (hdata : 9 + n ≤ data.length) (sendingNode receivingNode : UInt8) (iv : Block) :
    generateAuthentication auth data (UInt32.ofNat (n + 19)) sendingNode receivingNode iv =
      .ok (macOf auth iv (data.getD 0 0 :: sendingNode :: receivingNode :: UInt8.ofNat n ::
        (data.drop 9).take n)) := by
  have hlength : (UInt32.ofNat (n + 19)).toNat = n + 19 := UInt32.toNat_ofNat_of_lt' (by
    rw [UInt32.size]
    omega)
  have hsize : (UInt32.ofNat (n + 19) - 19).toNat = n := by
    rw [toNat_sub_nineteen (by omega), hlength]
    omega
  have hbyte : (UInt32.ofNat (n + 19) - 19).toUInt8 = UInt8.ofNat n := by
    apply UInt8.toNat_inj.mp
    rw [UInt32.toNat_toUInt8, hsize, UInt8.toNat_ofNat']
  have hbufsize : (UInt32.ofNat (n + 19) - 19 + 4).toUInt8.toNat = n + 4 := by
    rw [UInt32.toNat_toUInt8, UInt32.toNat_add, hsize]
    simp only [UInt32.reduceToNat]
    omega
  have hwhole : (data.getD 0 0 :: sendingNode :: receivingNode :: UInt8.ofNat n ::
      (data.drop 9).take n).length ≤ n + 4 := by
    simp only [List.length_cons, List.length_take, List.length_drop]
    omega
  rw [generateAuthentication_eq_ok, hsize]
  refine ⟨by omega, by omega, hdata, ?_⟩
  rw [authentication, hbyte, hbufsize, List.take_of_length_le hwhole, finish_foldl_authStep]

/-! ## The two callers -/

/-- The arguments of a call of `GenerateAuthentication`. -/
structure AuthCall where
  data : List UInt8
  length : UInt32
  sendingNode : UInt8
  receivingNode : UInt8
  iv : Block

namespace AuthCall

def run (auth : Block → Block) (call : AuthCall) : Except Fault (List UInt8) :=
  generateAuthentication auth call.data call.length call.sendingNode call.receivingNode call.iv

/-- The command, the length and the encrypted bytes. -/
def input (call : AuthCall) : UInt8 × UInt32 × List UInt8 :=
  (call.data.getD 0 0, call.length, (call.data.drop 9).take (call.length - 19).toNat)

/-- `_length - 19` does not wrap, and the encrypted bytes fit `buffer[256]`. -/
def Fits (call : AuthCall) : Prop :=
  19 ≤ call.length.toNat ∧ 4 + (call.length - 19).toNat ≤ 256

end AuthCall

variable (enc auth : Block → Block)

/-- The call of `EncryptBuffer`: `&e_buffer[7]` and `e_buffer[5]`. -/
def encryptCall (m_buffer : Vector UInt8 256) (m_length sendingNode receivingNode : UInt8)
    (m_nonce random : Vector UInt8 8) : AuthCall :=
  let iv := blockOf random.toList m_nonce.toList
  let plaintextmsg := 0 :: ((first m_buffer m_length.toNat).drop 6).take (m_length.toNat - 6 - 3)
  let encryptedpayload := aesOfbCrypt enc iv (plaintextmsg.take (m_length.toNat - 5 - 3))
  { data :=
      SecurityCmd.messageEncap :: (random.toList ++ (encryptedpayload ++ [peek m_nonce 0]))
    length := (m_length + 11).toUInt32
    sendingNode := sendingNode
    receivingNode := receivingNode
    iv := iv }

/-- The call of `DecryptBuffer`: `&e_buffer[1]` and `e_length - 1`, if the packet is not
dropped before. -/
def decryptCall (e_buffer : List UInt8) (e_length sendingNode receivingNode : UInt8)
    (m_nonce : Vector UInt8 8) : Option AuthCall :=
  if e_length < 19 then none
  else if e_length.toUInt32 - 8 - 8 - 2 - 2 < 3 then none
  else
    some
      { data := e_buffer.drop 1
        length := e_length.toUInt32 - 1
        sendingNode := sendingNode
        receivingNode := receivingNode
        iv := blockOf ((e_buffer.drop 2).take 8) m_nonce.toList }

/-- What `EncryptBuffer` completes has the data of the call behind the class, and then the
code. -/
theorem encryptBuffer_eq_call {m_buffer : Vector UInt8 256} {m_length : UInt8}
    {sendingNode receivingNode : UInt8} {m_nonce random : Vector UInt8 8}
    {transmitOptions : UInt8} {frame : List UInt8}
    (h : encryptBuffer enc auth m_buffer m_length sendingNode receivingNode m_nonce random
      transmitOptions = .ok frame) :
    ∃ mac trailer,
      (encryptCall enc m_buffer m_length sendingNode receivingNode m_nonce random).run auth =
        .ok mac ∧
      frame = [SOF, m_length + 18, REQUEST, FuncId.sendData, receivingNode, m_length + 11] ++
        ClassId.security ::
          ((encryptCall enc m_buffer m_length sendingNode receivingNode m_nonce random).data ++
            mac ++ trailer) := by
  rw [encryptBuffer] at h
  dsimp only at h
  rw [check_bind_eq_ok, check_bind_eq_ok] at h
  obtain ⟨-, -, h⟩ := h
  obtain ⟨mac, hmac, h⟩ := bind_eq_ok.mp h
  rw [check_bind_eq_ok] at h
  obtain ⟨-, h⟩ := h
  simp only [List.append_assoc, List.cons_append, List.nil_append, List.drop_succ_cons,
    List.drop_zero] at hmac
  have hframe := Except.ok.inj h
  generalize xorFrom 0xff _ _ = checksum at hframe
  refine ⟨mac, [transmitOptions, peek m_buffer (m_length.toNat - 2), checksum], hmac, ?_⟩
  rw [← hframe]
  simp only [encryptCall, List.append_assoc, List.cons_append, List.nil_append]

/-- The packet is dropped when there is no call. -/
theorem decryptBuffer_of_no_call {e_buffer : List UInt8} {e_length : UInt8}
    {sendingNode receivingNode : UInt8} {m_nonce : Vector UInt8 8}
    (hframe : e_length.toNat ≤ e_buffer.length)
    (h : decryptCall e_buffer e_length sendingNode receivingNode m_nonce = none) :
    decryptBuffer enc auth e_buffer e_length sendingNode receivingNode m_nonce = .ok none := by
  rw [decryptCall] at h
  rw [decryptBuffer, check_bind hframe]
  split at h
  · rename_i hshort
    rw [if_pos hshort]
    rfl
  · rename_i hlong
    rw [if_neg hlong]
    have hnineteen : 19 ≤ e_length.toNat := by
      rw [UInt8.lt_iff_toNat_lt] at hlong
      exact Nat.le_of_not_lt hlong
    split at h
    · rename_i hsmall
      rw [window_bind (by omega)]
      dsimp only
      rw [if_pos hsmall]
      rfl
    · cases h

/-- What is opened has the code of the call. -/
theorem decryptBuffer_eq_call {e_buffer : List UInt8} {e_length : UInt8}
    {sendingNode receivingNode : UInt8} {m_nonce : Vector UInt8 8} {m_buffer : List UInt8}
    (h : decryptBuffer enc auth e_buffer e_length sendingNode receivingNode m_nonce =
      .ok (some m_buffer)) :
    ∃ call, decryptCall e_buffer e_length sendingNode receivingNode m_nonce = some call ∧
      call.run auth = .ok ((e_buffer.drop (e_length.toNat - 9)).take 8) := by
  have hauthentic := authentic_of_decryptBuffer enc auth h
  have hframe := ((decryptBuffer_safe enc auth).mp ⟨_, h⟩).1
  cases hcall : decryptCall e_buffer e_length sendingNode receivingNode m_nonce with
  | none =>
      rw [decryptBuffer_of_no_call enc auth hframe hcall] at h
      cases h
  | some call =>
      refine ⟨call, rfl, ?_⟩
      rw [decryptCall] at hcall
      split at hcall
      · cases hcall
      · split at hcall
        · cases hcall
        · rw [← Option.some.inj hcall]
          exact hauthentic

/-! ## A frame and its received copy -/

/-- Two calls over the same command, length and encrypted bytes, with the same nodes and vector. -/
structure AuthCall.Same (call call' : AuthCall) : Prop where
  input : call.input = call'.input
  sendingNode : call.sendingNode = call'.sendingNode
  receivingNode : call.receivingNode = call'.receivingNode
  iv : call.iv = call'.iv

/-- What stands behind the encrypted bytes does not matter. -/
theorem AuthCall.input_append (call : AuthCall) (rest : List UInt8)
    (h : 9 + (call.length - 19).toNat ≤ call.data.length) :
    ({ call with data := call.data ++ rest } : AuthCall).input = call.input := by
  have hcommand : (call.data ++ rest).getD 0 0 = call.data.getD 0 0 :=
    List.getD_append _ _ _ _ (by omega)
  have hencrypted : ((call.data ++ rest).drop 9).take (call.length - 19).toNat =
      (call.data.drop 9).take (call.length - 19).toNat := by
    rw [List.drop_append_of_le_length (by omega),
      List.take_append_of_le_length (by rw [List.length_drop]; omega)]
  exact Prod.ext hcommand (Prod.ext rfl hencrypted)

theorem toNat_encryptCall_length {m_length : UInt8} (h : m_length.toNat ≤ 244) :
    (m_length + 11).toUInt32.toNat = m_length.toNat + 11 := by
  rw [UInt8.toNat_toUInt32]
  exact Msg.toNat_add_ofNat (k := 11) (by omega)

theorem length_encryptCall_data {m_buffer : Vector UInt8 256} {m_length : UInt8}
    (sendingNode receivingNode : UInt8) (m_nonce random : Vector UInt8 8)
    (h : 8 ≤ m_length.toNat) :
    (encryptCall enc m_buffer m_length sendingNode receivingNode m_nonce random).data.length =
      m_length.toNat + 2 := by
  have hlt := m_length.toNat_lt
  simp only [encryptCall, aesOfbCrypt, StreamCipher.length_crypt, List.length_append,
    List.length_cons, List.length_take, List.length_drop, List.length_nil, Vector.length_toList,
    length_first m_buffer (Nat.le_of_lt hlt)]
  omega

/-- The packet of a frame, as its receiver gets it: it is followed by the rest of its frame. -/
def received (frame rest : List UInt8) : List UInt8 :=
  (frame.drop 6).take (frame.getD 5 0).toNat ++ rest

theorem same_of_received {m_buffer : Vector UInt8 256} {m_length : UInt8}
    {sendingNode receivingNode : UInt8} {m_nonce random : Vector UInt8 8}
    {transmitOptions : UInt8} {frame rest : List UInt8} {call : AuthCall}
    (h : encryptBuffer enc auth m_buffer m_length sendingNode receivingNode m_nonce random
      transmitOptions = .ok frame)
    (hcall : decryptCall (received frame rest) (frame.getD 5 0 + 1) sendingNode receivingNode
      m_nonce = some call) :
    call.Same (encryptCall enc m_buffer m_length sendingNode receivingNode m_nonce random) := by
  obtain ⟨hlocal, hdeclared⟩ := fits_of_encryptBuffer enc auth h
  obtain ⟨mac, trailer, hmac, hframe⟩ := encryptBuffer_eq_call enc auth h
  obtain ⟨hlong, hmacLength⟩ := eight_le_of_generateAuthentication auth hlocal hmac
  have hdata := @length_encryptCall_data enc m_buffer _ sendingNode receivingNode m_nonce
    random hlong
  have hlength := @toNat_encryptCall_length m_length (by omega)
  have hcopy : received frame rest = ClassId.security ::
      ((encryptCall enc m_buffer m_length sendingNode receivingNode m_nonce random).data ++
        (mac ++ rest)) := by
    have hbytes : (frame.getD 5 0).toNat = m_length.toNat + 11 := by
      rw [hdeclared, ← UInt8.toNat_toUInt32, hlength]
    rw [received, hbytes, hframe]
    generalize (encryptCall enc m_buffer m_length sendingNode receivingNode m_nonce random).data =
      data at hdata ⊢
    have hpacket : (ClassId.security :: (data ++ mac)).length = m_length.toNat + 11 := by
      rw [List.length_cons, List.length_append, hdata, hmacLength]
    have hsix : ([SOF, m_length + 18, REQUEST, FuncId.sendData, receivingNode, m_length + 11] ++
        ClassId.security :: (data ++ mac ++ trailer)).drop 6 =
        ClassId.security :: (data ++ mac) ++ trailer := rfl
    rw [hsix, List.take_left' hpacket, List.cons_append, List.append_assoc]
  have hnext : (frame.getD 5 0 + 1).toUInt32 - 1 = (m_length + 11).toUInt32 := by
    have hpacket := toNat_packetLength hlocal
    apply UInt32.toNat.inj
    rw [hdeclared, toNat_authLength (by omega), hpacket, hlength]
    omega
  have hiv : ((received frame rest).drop 2).take 8 = random.toList := by
    obtain ⟨encrypted, hshape⟩ : ∃ encrypted,
        (encryptCall enc m_buffer m_length sendingNode receivingNode m_nonce random).data =
          SecurityCmd.messageEncap :: (random.toList ++ encrypted) := ⟨_, rfl⟩
    rw [hcopy, hshape, List.drop_succ_cons, List.cons_append, List.drop_succ_cons, List.drop_zero,
      List.append_assoc, List.take_left' Vector.length_toList]
  have hdrop : (received frame rest).drop 1 =
      (encryptCall enc m_buffer m_length sendingNode receivingNode m_nonce random).data ++
        (mac ++ rest) := by
    rw [hcopy, List.drop_succ_cons, List.drop_zero]
  have hfits : 9 + ((m_length + 11).toUInt32 - 19).toNat ≤
      (encryptCall enc m_buffer m_length sendingNode receivingNode m_nonce random).data.length := by
    rw [toNat_sub_nineteen (by omega), hlength, hdata]
    omega
  rw [decryptCall, hnext, hdrop, hiv] at hcall
  split at hcall
  · cases hcall
  · split at hcall
    · cases hcall
    · rw [← Option.some.inj hcall]
      exact ⟨AuthCall.input_append _ (mac ++ rest) hfits, rfl, rfl, rfl⟩

/-! ## The sizes -/

theorem encryptCall_fits_iff (m_buffer : Vector UInt8 256)
    (m_length sendingNode receivingNode : UInt8) (m_nonce random : Vector UInt8 8) :
    (encryptCall enc m_buffer m_length sendingNode receivingNode m_nonce random).Fits ↔
      8 ≤ m_length.toNat ∧ m_length.toNat ≤ 244 := by
  have hcall : (encryptCall enc m_buffer m_length sendingNode receivingNode m_nonce
      random).length = (m_length + 11).toUInt32 := rfl
  have hlt := m_length.toNat_lt
  have hsum : (m_length + 11).toNat = (m_length.toNat + 11) % 256 := UInt8.toNat_add _ _
  rw [AuthCall.Fits, hcall, UInt8.toNat_toUInt32, hsum]
  constructor
  · rintro ⟨hlong, -⟩
    omega
  · rintro ⟨hlong, hlocal⟩
    have hlength := toNat_encryptCall_length hlocal
    refine ⟨by omega, ?_⟩
    rw [toNat_sub_nineteen (by omega), hlength]
    omega

/-- The length 19 passes the test for short packets, and 18 is given to the call. -/
theorem decryptCall_fits_iff (e_buffer : List UInt8) (e_length sendingNode receivingNode : UInt8)
    (m_nonce : Vector UInt8 8) :
    (∀ call, decryptCall e_buffer e_length sendingNode receivingNode m_nonce = some call →
      call.Fits) ↔ e_length.toNat ≠ 19 := by
  have hlt := e_length.toNat_lt
  rw [decryptCall]
  by_cases hshort : e_length < 19
  · rw [if_pos hshort]
    exact iff_of_true (fun call hcall => nomatch hcall)
      (Nat.ne_of_lt (UInt8.lt_iff_toNat_lt.mp hshort))
  · have hge : 19 ≤ e_length.toNat := by
      rw [UInt8.lt_iff_toNat_lt] at hshort
      exact Nat.le_of_not_lt hshort
    have hauth := toNat_authLength (show 1 ≤ e_length.toNat by omega)
    rw [if_neg hshort]
    by_cases hnineteen : e_length.toNat = 19
    · have hsize := toNat_encryptedpacketsize_nineteen hnineteen
      have hlarge : ¬e_length.toUInt32 - 8 - 8 - 2 - 2 < 3 := by
        rw [UInt32.lt_iff_toNat_lt, hsize]
        decide
      rw [if_neg hlarge]
      refine iff_of_false (fun h => ?_) (fun hne => hne hnineteen)
      have hfits := (h _ rfl).1
      dsimp only at hfits
      rw [hauth, hnineteen] at hfits
      exact absurd hfits (by decide)
    · refine iff_of_true (fun call hcall => ?_) hnineteen
      split at hcall
      · cases hcall
      · rw [← Option.some.inj hcall, AuthCall.Fits]
        dsimp only
        rw [toNat_sub_nineteen (by omega), hauth]
        omega

/-! ## The code as specified -/

/-- `GenerateAuthentication` gives the code over the blocks, and the receiver of a frame asks for
the same one as its sender. The sizes of the calls are right when the message has between 8 and
244 bytes, and the length of the packet is not 19. -/
theorem authentication_specified_iff (m_buffer : Vector UInt8 256)
    (m_length e_length sendingNode receivingNode transmitOptions : UInt8)
    (m_nonce random : Vector UInt8 8) (iv : Block) (data e_buffer : List UInt8) :
    (∀ n ≤ 236, 9 + n ≤ data.length →
        generateAuthentication auth data (UInt32.ofNat (n + 19)) sendingNode receivingNode iv =
          .ok (macOf auth iv (data.getD 0 0 :: sendingNode :: receivingNode :: UInt8.ofNat n ::
            (data.drop 9).take n))) ∧
      (∀ frame rest call,
        encryptBuffer enc auth m_buffer m_length sendingNode receivingNode m_nonce random
          transmitOptions = .ok frame →
        decryptCall (received frame rest) (frame.getD 5 0 + 1) sendingNode receivingNode m_nonce =
          some call →
        call.Same (encryptCall enc m_buffer m_length sendingNode receivingNode m_nonce random)) ∧
      ((encryptCall enc m_buffer m_length sendingNode receivingNode m_nonce random).Fits ↔
        8 ≤ m_length.toNat ∧ m_length.toNat ≤ 244) ∧
      ((∀ call, decryptCall e_buffer e_length sendingNode receivingNode m_nonce = some call →
        call.Fits) ↔ e_length.toNat ≠ 19) := by
  refine ⟨?_, ?_, ?_, ?_⟩
  · intro n hn hdata
    exact generateAuthentication_eq_macOf auth hn hdata sendingNode receivingNode iv
  · intro frame rest call hframe hcall
    exact same_of_received enc auth hframe hcall
  · exact encryptCall_fits_iff enc m_buffer m_length sendingNode receivingNode m_nonce random
  · exact decryptCall_fits_iff e_buffer e_length sendingNode receivingNode m_nonce

/-- A packet of 19 bytes: 19 are subtracted from the length 18. -/
theorem nineteen_bytes_wrap :
    ∃ call, decryptCall (0x98 :: 0x81 :: List.replicate 17 0) 19 5 1 (Vector.replicate 8 0) =
      some call ∧ call.length = 18 ∧ (call.length - 19).toNat = 2 ^ 32 - 1 :=
  ⟨_, rfl, rfl, by decide⟩

end OpenZWave
