import OpenZWave.Framing
import OpenZWave.ZWSecurity

/-!
# Bounds and round trip of the security encapsulation

The sizes of `DecryptBuffer` are computed from its length argument alone, so
the inputs on which every access is inside can be told from that argument. On
the packets of `EncryptBuffer` it returns what was encrypted.
-/

namespace OpenZWave

open ByteBuffer Checked

variable (enc auth : Block → Block)

/-! ## Sizes -/

theorem toNat_encryptedpacketsize {e_length : UInt8} (h : 20 ≤ e_length.toNat) :
    (e_length.toUInt32 - 8 - 8 - 2 - 2).toNat = e_length.toNat - 20 := by
  have hlt := e_length.toNat_lt
  simp only [UInt32.toNat_sub, UInt8.toNat_toUInt32, UInt32.reduceToNat]
  omega

/-- The length 19 passes the first test and the size wraps. -/
theorem toNat_encryptedpacketsize_nineteen {e_length : UInt8} (h : e_length.toNat = 19) :
    (e_length.toUInt32 - 8 - 8 - 2 - 2).toNat = 2 ^ 32 - 1 := by
  simp only [UInt32.toNat_sub, UInt8.toNat_toUInt32, UInt32.reduceToNat]
  omega

theorem toNat_authLength {e_length : UInt8} (h : 1 ≤ e_length.toNat) :
    (e_length.toUInt32 - 1).toNat = e_length.toNat - 1 := by
  have hlt := e_length.toNat_lt
  simp only [UInt32.toNat_sub, UInt8.toNat_toUInt32, UInt32.reduceToNat]
  omega

theorem toNat_sub_nineteen {length : UInt32} (h : 19 ≤ length.toNat) :
    (length - 19).toNat = length.toNat - 19 := by
  have hlt := length.toNat_lt
  simp only [UInt32.toNat_sub, UInt32.reduceToNat]
  omega

/-! ## The authentication code -/

/-- The code over the command byte, the nodes and the encrypted bytes. -/
def authentication (command : UInt8) (encrypted : List UInt8) (length : UInt32)
    (sendingNode receivingNode : UInt8) (iv : Block) : List UInt8 :=
  AuthState.finish auth
    (((command :: sendingNode :: receivingNode :: (length - 19).toUInt8 :: encrypted).take
      (length - 19 + 4).toUInt8.toNat).foldl (AuthState.step auth)
      { tmpauth := auth iv, encpck := Vector.replicate 16 0, block := 0 })

@[simp] theorem length_authentication (command : UInt8) (encrypted : List UInt8) (length : UInt32)
    (sendingNode receivingNode : UInt8) (iv : Block) :
    (authentication auth command encrypted length sendingNode receivingNode iv).length = 8 :=
  length_first _ (by decide)

theorem generateAuthentication_eq_ok {data : List UInt8} {length : UInt32}
    {sendingNode receivingNode : UInt8} {iv : Block} {mac : List UInt8} :
    generateAuthentication auth data length sendingNode receivingNode iv = .ok mac ↔
      0 < data.length ∧ 4 + (length - 19).toNat ≤ 256 ∧ 9 + (length - 19).toNat ≤ data.length ∧
      authentication auth (data.getD 0 0) ((data.drop 9).take (length - 19).toNat) length
        sendingNode receivingNode iv = mac := by
  unfold generateAuthentication
  rw [readAt_bind_eq_ok 0, check_bind_eq_ok, window_bind_eq_ok]
  exact Iff.rfl.and (Iff.rfl.and (Iff.rfl.and ⟨Except.ok.inj, congrArg Except.ok⟩))

/-! ## Which lengths stay inside -/

/-- The 8 bytes behind the nonce id are the code over the received header and
ciphertext. -/
def Authentic (e_buffer : List UInt8) (e_length sendingNode receivingNode : UInt8)
    (m_nonce : Vector UInt8 8) : Prop :=
  generateAuthentication auth (e_buffer.drop 1) (e_length.toUInt32 - 1) sendingNode receivingNode
    (blockOf ((e_buffer.drop 2).take 8) m_nonce.toList) =
    .ok ((e_buffer.drop (e_length.toNat - 9)).take 8)

/-- The lengths on which every size of `DecryptBuffer` is right. -/
def LengthInside (available : Nat) (e_length : UInt8) : Prop :=
  e_length.toNat ≤ available ∧ e_length.toNat ≠ 19 ∧ e_length.toNat ≤ 52

instance (available : Nat) (e_length : UInt8) : Decidable (LengthInside available e_length) :=
  inferInstanceAs (Decidable (_ ∧ _ ∧ _))

/-- The code that `DecryptBuffer` computes. -/
theorem generateAuthentication_of_inside {e_buffer : List UInt8} {e_length : UInt8}
    (hlong : 20 ≤ e_length.toNat) (hframe : e_length.toNat ≤ e_buffer.length)
    (sendingNode receivingNode : UInt8) (iv : Block) :
    generateAuthentication auth (e_buffer.drop 1) (e_length.toUInt32 - 1) sendingNode
        receivingNode iv =
      .ok (authentication auth (e_buffer.getD 1 0) ((e_buffer.drop 10).take (e_length.toNat - 20))
        (e_length.toUInt32 - 1) sendingNode receivingNode iv) := by
  have hlt := e_length.toNat_lt
  have hauth := toNat_authLength (show 1 ≤ e_length.toNat by omega)
  have hrest : (e_length.toUInt32 - 1 - 19).toNat = e_length.toNat - 20 := by
    rw [toNat_sub_nineteen (by omega), hauth]
    omega
  rw [generateAuthentication_eq_ok, List.length_drop, hrest, List.drop_drop]
  refine ⟨by omega, by omega, by omega, ?_⟩
  simp only [List.getD_eq_getElem?_getD, List.getElem?_drop]

/-- What `DecryptBuffer` does with a packet whose sizes are right. -/
theorem decryptBuffer_of_inside {e_buffer : List UInt8} {e_length : UInt8}
    (hlong : 23 ≤ e_length.toNat) (hlocal : e_length.toNat ≤ 52)
    (hframe : e_length.toNat ≤ e_buffer.length) (sendingNode receivingNode : UInt8)
    (m_nonce : Vector UInt8 8) :
    decryptBuffer enc auth e_buffer e_length sendingNode receivingNode m_nonce =
      let iv := blockOf ((e_buffer.drop 2).take 8) m_nonce.toList
      let decrypted := aesOfbCrypt enc iv ((e_buffer.drop 10).take (e_length.toNat - 20))
      if (e_buffer.drop (e_length.toNat - 9)).take 8 =
          authentication auth (e_buffer.getD 1 0) ((e_buffer.drop 10).take (e_length.toNat - 20))
            (e_length.toUInt32 - 1) sendingNode receivingNode iv then
        .ok (some (decrypted ++ List.replicate (32 - decrypted.length) 0))
      else .ok none := by
  have hsize := toNat_encryptedpacketsize (show 20 ≤ e_length.toNat by omega)
  have hcode := generateAuthentication_of_inside auth (show 20 ≤ e_length.toNat by omega) hframe
    sendingNode receivingNode
  have hcopied : ((e_buffer.drop 10).take (e_length.toNat - 20)).length = e_length.toNat - 20 := by
    rw [List.length_take, List.length_drop]
    omega
  have hnineteen : ¬ e_length < 19 := by
    rw [UInt8.lt_iff_toNat_lt]
    exact Nat.not_lt_of_le (Nat.le_trans (by decide) hlong)
  have hmac : 11 + (e_length.toNat - 20) = e_length.toNat - 9 := by omega
  rw [decryptBuffer, check_bind hframe, if_neg hnineteen, window_bind (by omega)]
  generalize e_length.toUInt32 - 8 - 8 - 2 - 2 = size at hsize ⊢
  have hthree : ¬ size < 3 := by
    rw [UInt32.lt_iff_toNat_lt, hsize]
    exact Nat.not_lt_of_le (Nat.le_sub_of_add_le hlong)
  have hint : asInt size = (e_length.toNat - 20 : Nat) := by
    rw [asInt_of_small (by omega), hsize]
  have hmin : min 32 size.toNat = e_length.toNat - 20 := by omega
  dsimp only
  rw [if_neg hthree, hmin, window_bind (by omega), check_bind (by omega), check_bind (by omega),
    hcode, hsize, hmac]
  change (window e_buffer (e_length.toNat - 9) 8 _ >>= fun _ => _) = _
  rw [window_bind (by omega), hint, Int.toNat_natCast, List.take_left' hcopied]
  rfl

/-- A packet of less than 23 bytes is never opened. -/
theorem decryptBuffer_of_short {e_buffer : List UInt8} {e_length : UInt8}
    (hshort : e_length.toNat < 23) (hnineteen : e_length.toNat ≠ 19)
    (hframe : e_length.toNat ≤ e_buffer.length) (sendingNode receivingNode : UInt8)
    (m_nonce : Vector UInt8 8) :
    decryptBuffer enc auth e_buffer e_length sendingNode receivingNode m_nonce = .ok none := by
  rw [decryptBuffer, check_bind hframe]
  rcases Nat.lt_or_ge e_length.toNat 19 with hlt | hge
  · rw [if_pos (UInt8.lt_iff_toNat_lt.mpr hlt)]
    rfl
  · have hsize := toNat_encryptedpacketsize (show 20 ≤ e_length.toNat by omega)
    rw [if_neg (fun h => Nat.not_lt_of_le hge (UInt8.lt_iff_toNat_lt.mp h)),
      window_bind (by omega)]
    generalize e_length.toUInt32 - 8 - 8 - 2 - 2 = size at hsize ⊢
    have hthree : size < 3 := by
      rw [UInt32.lt_iff_toNat_lt, hsize]
      exact Nat.sub_lt_right_of_lt_add (by omega) hshort
    dsimp only
    rw [if_pos hthree]
    rfl

/-- `DecryptBuffer` stays inside the frame and its local buffers exactly on the
lengths that are inside. -/
theorem decryptBuffer_safe {e_buffer : List UInt8} {e_length : UInt8}
    {sendingNode receivingNode : UInt8} {m_nonce : Vector UInt8 8} :
    Safe (decryptBuffer enc auth e_buffer e_length sendingNode receivingNode m_nonce) ↔
      LengthInside e_buffer.length e_length := by
  constructor
  · rintro ⟨result, h⟩
    rw [decryptBuffer, check_bind_eq_ok] at h
    obtain ⟨hframe, h⟩ := h
    rcases Nat.lt_or_ge e_length.toNat 19 with hlt | hge
    · exact ⟨hframe, Nat.ne_of_lt hlt, Nat.le_of_lt (Nat.lt_trans hlt (by decide))⟩
    · rw [if_neg (fun h => Nat.not_lt_of_le hge (UInt8.lt_iff_toNat_lt.mp h)),
        window_bind_eq_ok] at h
      obtain ⟨-, h⟩ := h
      have hwrap := @toNat_encryptedpacketsize_nineteen e_length
      have hsize := @toNat_encryptedpacketsize e_length
      generalize e_length.toUInt32 - 8 - 8 - 2 - 2 = size at hwrap hsize h
      dsimp only at h
      split at h
      · rename_i hthree
        have hsmall : size.toNat < 3 := UInt32.lt_iff_toNat_lt.mp hthree
        exact ⟨hframe, by omega, by omega⟩
      · rw [window_bind_eq_ok] at h
        obtain ⟨-, h⟩ := h
        rw [check_bind_eq_ok, check_bind_eq_ok] at h
        obtain ⟨hlocal, hcaller, -⟩ := h
        rw [asInt_of_small hcaller] at hlocal
        exact ⟨hframe, by omega, by omega⟩
  · rintro ⟨hframe, hnineteen, hlocal⟩
    rcases Nat.lt_or_ge e_length.toNat 23 with hshort | hlong
    · rw [decryptBuffer_of_short enc auth hshort hnineteen hframe]
      exact safe_ok _
    · rw [decryptBuffer_of_inside enc auth hlong hlocal hframe]
      dsimp only
      split
      · exact safe_ok _
      · exact safe_ok _

/-- A packet is opened only if its code is right. -/
theorem authentic_of_decryptBuffer {e_buffer : List UInt8} {e_length : UInt8}
    {sendingNode receivingNode : UInt8} {m_nonce : Vector UInt8 8} {m_buffer : List UInt8}
    (h : decryptBuffer enc auth e_buffer e_length sendingNode receivingNode m_nonce =
      .ok (some m_buffer)) :
    Authentic auth e_buffer e_length sendingNode receivingNode m_nonce := by
  obtain ⟨hframe, hnineteen, hlocal⟩ := (decryptBuffer_safe enc auth).mp ⟨_, h⟩
  rcases Nat.lt_or_ge e_length.toNat 23 with hshort | hlong
  · rw [decryptBuffer_of_short enc auth hshort hnineteen hframe] at h
    cases h
  · rw [decryptBuffer_of_inside enc auth hlong hlocal hframe] at h
    dsimp only at h
    split at h
    · rename_i hmac
      rw [Authentic, generateAuthentication_of_inside auth (by omega) hframe, hmac]
    · cases h

/-- `ProcessMsg` stays inside the frame when the payload length leaves room for
the nonce id in front of the code, and `DecryptBuffer` does. -/
theorem openMessageEncap_safe {nonceKey : UInt8 → UInt8 → Option (Vector UInt8 8)}
    {controllerNodeId : UInt8} {data : List UInt8} :
    Safe (openMessageEncap enc auth nonceKey controllerNodeId data) ↔
      4 < data.length ∧ 4 ≤ (data.getD 4 0).toNat ∧ (data.getD 4 0).toNat - 4 < data.length ∧
      ((nonceKey (data.getD 3 0) (data.getD ((data.getD 4 0).toNat - 4) 0)).isSome →
        LengthInside (data.drop 5).length (data.getD 4 0 + 1)) := by
  rw [openMessageEncap, safe_readAt_bind 0, safe_readAt_bind 0, safe_check_bind,
    safe_readAt_bind 0]
  cases nonceKey (data.getD 3 0) (data.getD ((data.getD 4 0).toNat - 4) 0) with
  | none =>
      simp only [safe_pure, Option.isSome_none, Bool.false_eq_true, false_imp_iff, and_true]
      exact ⟨fun h => h.2, fun h => ⟨Nat.lt_of_succ_lt h.1, h⟩⟩
  | some nonce =>
      have hdecrypt := @decryptBuffer_safe enc auth (data.drop 5) (data.getD 4 0 + 1)
        (data.getD 3 0) controllerNodeId nonce
      rw [Option.isSome_some, ← hdecrypt]
      constructor
      · rintro ⟨-, hlength, hfour, hnonce, h⟩
        obtain ⟨result, hok, -⟩ := safe_bind.mp h
        exact ⟨hlength, hfour, hnonce, fun _ => ⟨result, hok⟩⟩
      · rintro ⟨hlength, hfour, hnonce, h⟩
        obtain ⟨result, hok⟩ := h rfl
        refine ⟨Nat.lt_of_succ_lt hlength, hlength, hfour, hnonce,
          safe_bind.mpr ⟨result, hok, ?_⟩⟩
        cases result <;> exact safe_pure _

/-- On a packet and a length argument `DecryptBuffer` stays inside and opens
authentic packets only, exactly when the length is inside; on a whole frame the
same is needed of the length byte, which also has to leave room for the nonce
id. -/
theorem decryptBuffer_sound_iff (nonceKey : UInt8 → UInt8 → Option (Vector UInt8 8))
    (controllerNodeId sendingNode e_length : UInt8) (m_nonce : Vector UInt8 8)
    (e_buffer data : List UInt8) :
    ((Safe (decryptBuffer enc auth e_buffer e_length sendingNode controllerNodeId m_nonce) ∧
      ∀ m_buffer, decryptBuffer enc auth e_buffer e_length sendingNode controllerNodeId m_nonce =
        .ok (some m_buffer) → Authentic auth e_buffer e_length sendingNode controllerNodeId m_nonce)
      ↔ LengthInside e_buffer.length e_length) ∧
    (Safe (openMessageEncap enc auth nonceKey controllerNodeId data) ↔
      4 < data.length ∧ 4 ≤ (data.getD 4 0).toNat ∧ (data.getD 4 0).toNat - 4 < data.length ∧
      ((nonceKey (data.getD 3 0) (data.getD ((data.getD 4 0).toNat - 4) 0)).isSome →
        LengthInside (data.drop 5).length (data.getD 4 0 + 1))) := by
  constructor
  · constructor
    · rintro ⟨hsafe, -⟩
      exact (decryptBuffer_safe enc auth).mp hsafe
    · intro hinside
      refine ⟨(decryptBuffer_safe enc auth).mpr hinside, ?_⟩
      intro m_buffer h
      exact authentic_of_decryptBuffer enc auth h
  · exact openMessageEncap_safe enc auth

/-- A frame whose encapsulated command has 18 bytes: the length 19 passes the
test for short packets, and the size of the ciphertext wraps. -/
theorem decryptBuffer_nineteen :
    ¬ Safe (openMessageEncap id id (fun _ _ => some (Vector.replicate 8 0)) 1
      ([0, 4, 0, 5, 18, 0x98, 0x81] ++ List.replicate 17 0)) ∧
    ¬ Safe (decryptBuffer id id (0x98 :: 0x81 :: List.replicate 17 0) 19 5 1
      (Vector.replicate 8 0)) := by
  rw [openMessageEncap_safe, decryptBuffer_safe]
  decide

/-! ## The packets of EncryptBuffer -/

/-- The command in front of the transmit options, the callback id and the
checksum. -/
def Msg.command (m : Msg) : List UInt8 := (m.wire.drop 6).take (m.length.toNat - 9)

theorem Msg.length_command (m : Msg) (hlong : 9 ≤ m.length.toNat) :
    m.command.length = m.length.toNat - 9 := by
  rw [Msg.command, List.length_take, List.length_drop, Msg.wire,
    length_first _ (Nat.le_of_lt m.length.toNat_lt)]
  omega

/-- It is the command the message was built from. -/
theorem Msg.command_finished {m : Msg} (hnew : m.Fresh) (hcallback : m.bCallbackRequired = true)
    (hplain : m.inserted = []) (node declared transmitOptions : UInt8) (command : List UInt8)
    (next : UInt8) (resends : List UInt8)
    (hfit : m.totalLength (command.length + 3) ≤ 255) :
    (m.finished (node :: declared :: (command ++ [transmitOptions])) next resends).command =
      command := by
  have hdata : (node :: declared :: (command ++ [transmitOptions])).length = command.length + 3 := by
    simp only [List.length_cons, List.length_append, List.length_nil]
  rw [← hdata] at hfit
  have hbody := (delivered_of_fits hnew _ next resends hfit).plain hplain
  have htotal : m.totalLength (command.length + 3) = command.length + 9 := by
    rw [totalLength, hplain, if_pos hcallback, List.length_nil]
    omega
  have hlength := length_finished hnew (node :: declared :: (command ++ [transmitOptions])) next
    resends (by rw [hdata, htotal] at hfit; omega)
  rw [hdata, htotal] at hfit hlength
  have hnine : (m.finished (node :: declared :: (command ++ [transmitOptions])) next
      resends).length.toNat - 9 = command.length := by
    rw [hlength, UInt8.toNat_ofNat', Nat.mod_eq_of_lt (by omega), Nat.add_sub_cancel]
  have htail := congrArg (fun l => (l.drop 2).take command.length) hbody
  have hmin : min command.length (command.length + 3 - 2) = command.length := by omega
  simp only [hdata, List.drop_take, List.drop_drop, List.drop_succ_cons, List.drop_zero,
    List.take_take, List.take_left', hmin] at htail
  rw [Msg.command, hnine]
  exact htail

/-- The payload of an encapsulated message. -/
def packet (random cipher : List UInt8) (nonceId : UInt8) (mac : List UInt8) : List UInt8 :=
  [ClassId.security, SecurityCmd.messageEncap] ++ random ++ cipher ++ [nonceId] ++ mac

/-- The receiver takes a packet apart at the places where the sender put it
together. -/
theorem decryptBuffer_packet {random cipher mac rest : List UInt8} {nonceId e_length : UInt8}
    (hrandom : random.length = 8) (hmac : mac.length = 8) (hthree : 3 ≤ cipher.length)
    (hlocal : cipher.length ≤ 32) (he : e_length.toNat = cipher.length + 20) (hrest : rest ≠ [])
    (sendingNode receivingNode : UInt8) (m_nonce : Vector UInt8 8) :
    decryptBuffer enc auth (packet random cipher nonceId mac ++ rest) e_length sendingNode
        receivingNode m_nonce =
      if mac = authentication auth SecurityCmd.messageEncap cipher (e_length.toUInt32 - 1)
          sendingNode receivingNode (blockOf random m_nonce.toList) then
        .ok (some (aesOfbCrypt enc (blockOf random m_nonce.toList) cipher ++
          List.replicate (32 - cipher.length) 0))
      else .ok none := by
  have hshape : packet random cipher nonceId mac ++ rest =
      ClassId.security :: SecurityCmd.messageEncap ::
        (random ++ (cipher ++ (nonceId :: (mac ++ rest)))) := by
    simp only [packet, List.append_assoc, List.cons_append, List.nil_append]
  have hlength : (packet random cipher nonceId mac ++ rest).length =
      cipher.length + 19 + rest.length := by
    rw [hshape]
    simp only [List.length_cons, List.length_append]
    omega
  have hsize : e_length.toNat - 20 = cipher.length := by omega
  have hpos : 0 < rest.length := List.length_pos_iff.mpr hrest
  have hten : (packet random cipher nonceId mac ++ rest).drop 10 =
      cipher ++ (nonceId :: (mac ++ rest)) := by
    rw [hshape, List.drop_succ_cons, List.drop_succ_cons, List.drop_left' hrandom]
  have hiv : ((packet random cipher nonceId mac ++ rest).drop 2).take 8 = random := by
    rw [hshape, List.drop_succ_cons, List.drop_succ_cons, List.drop_zero, List.take_left' hrandom]
  have hcode : ((packet random cipher nonceId mac ++ rest).drop (e_length.toNat - 9)).take 8 =
      mac := by
    have hplace : e_length.toNat - 9 = 10 + (cipher.length + 1) := by omega
    rw [hplace, ← List.drop_drop, hten, ← List.drop_drop, List.drop_left' rfl,
      List.drop_succ_cons, List.drop_zero, List.take_left' hmac]
  rw [decryptBuffer_of_inside enc auth (by omega) (by omega) (by omega), hiv, hcode, hten, hsize,
    List.take_left' rfl]
  have hsecond : (packet random cipher nonceId mac ++ rest).getD 1 0 =
      SecurityCmd.messageEncap := by
    rw [hshape]
    rfl
  have hdecrypted : ∀ iv, (aesOfbCrypt enc iv cipher).length = cipher.length :=
    fun iv => StreamCipher.length_crypt _ _ _
  dsimp only
  rw [hsecond, hdecrypted]

/-- What `EncryptBuffer` produces when the command fits its local buffers. -/
theorem encryptBuffer_of_fits (m : Msg) (hlong : 9 ≤ m.length.toNat)
    (hlocal : m.length.toNat ≤ 38) (sendingNode receivingNode : UInt8)
    (m_nonce random : Vector UInt8 8) (transmitOptions : UInt8) :
    ∃ last checksum, encryptBuffer enc auth m.buffer m.length sendingNode receivingNode m_nonce
        random transmitOptions =
      .ok ([SOF, m.length + 18, REQUEST, FuncId.sendData, receivingNode, m.length + 11] ++
        packet random.toList
          (aesOfbCrypt enc (blockOf random.toList m_nonce.toList) (0 :: m.command))
          (peek m_nonce 0)
          (authentication auth SecurityCmd.messageEncap
            (aesOfbCrypt enc (blockOf random.toList m_nonce.toList) (0 :: m.command))
            (m.length + 11).toUInt32 sendingNode receivingNode
            (blockOf random.toList m_nonce.toList)) ++
        [transmitOptions, last, checksum]) := by
  have hpayload : ((first m.buffer m.length.toNat).drop 6).take (m.length.toNat - 6 - 3) =
      m.command := by
    rw [Nat.sub_sub]
    rfl
  have hcommand := m.length_command hlong
  have hplain : (0 :: m.command).take (m.length.toNat - 5 - 3) = 0 :: m.command := by
    apply List.take_of_length_le
    rw [List.length_cons]
    omega
  have hdeclared : (m.length + 11).toUInt32.toNat = m.length.toNat + 11 := by
    rw [UInt8.toNat_toUInt32]
    exact Msg.toNat_add_ofNat (k := 11) (by omega)
  have hsize : ((m.length + 11).toUInt32 - 19).toNat = m.length.toNat - 8 := by
    rw [toNat_sub_nineteen (by omega), hdeclared]
    omega
  rw [encryptBuffer, hpayload]
  dsimp only
  rw [check_bind (by omega), check_bind (by omega), hplain]
  have hcipher : (aesOfbCrypt enc (blockOf random.toList m_nonce.toList)
      (0 :: m.command)).length = m.length.toNat - 8 := by
    rw [aesOfbCrypt, StreamCipher.length_crypt, List.length_cons]
    omega
  generalize aesOfbCrypt enc (blockOf random.toList m_nonce.toList) (0 :: m.command) = cipher
    at hcipher ⊢
  have hseven : ([SOF, m.length + 18, REQUEST, FuncId.sendData, receivingNode, m.length + 11,
      ClassId.security, SecurityCmd.messageEncap] ++ random.toList ++ cipher ++
        [peek m_nonce 0]).drop 7 =
      SecurityCmd.messageEncap :: (random.toList ++ (cipher ++ [peek m_nonce 0])) := by
    simp only [List.append_assoc, List.cons_append, List.drop_succ_cons, List.drop_zero,
      List.nil_append]
  have hcode : generateAuthentication auth (([SOF, m.length + 18, REQUEST, FuncId.sendData,
      receivingNode, m.length + 11, ClassId.security, SecurityCmd.messageEncap] ++ random.toList ++
        cipher ++ [peek m_nonce 0]).drop 7) (m.length + 11).toUInt32 sendingNode receivingNode
        (blockOf random.toList m_nonce.toList) =
      .ok (authentication auth SecurityCmd.messageEncap cipher (m.length + 11).toUInt32 sendingNode
        receivingNode (blockOf random.toList m_nonce.toList)) := by
    rw [hseven, generateAuthentication_eq_ok, hsize]
    refine ⟨Nat.succ_pos _, by omega, ?_, ?_⟩
    · simp only [List.length_cons, List.length_append, Vector.length_toList, hcipher]
      omega
    · rw [List.drop_succ_cons, List.drop_left' (Vector.length_toList), List.take_left' hcipher]
      rfl
  rw [hcode, ok_bind, check_bind (by omega)]
  have hshape : ∀ (mac : List UInt8) (last checksum : UInt8),
      [SOF, m.length + 18, REQUEST, FuncId.sendData, receivingNode, m.length + 11,
        ClassId.security, SecurityCmd.messageEncap] ++ random.toList ++ cipher ++
        [peek m_nonce 0] ++ mac ++ [transmitOptions, last] ++ [checksum] =
      [SOF, m.length + 18, REQUEST, FuncId.sendData, receivingNode, m.length + 11] ++
        packet random.toList cipher (peek m_nonce 0) mac ++ [transmitOptions, last, checksum] := by
    intro mac last checksum
    simp only [packet, List.append_assoc, List.cons_append, List.nil_append]
  exact ⟨peek m.buffer (m.length.toNat - 2), _, congrArg Except.ok (hshape _ _ _)⟩

/-! ## The round trip -/

/-- What `EncryptBuffer` makes of the message, `DecryptBuffer` at the other node
opens: the sequence byte and the command, padded with zeros to 32 bytes. The
packet stands in a frame, so at least the checksum follows it. -/
def RoundTrips (m : Msg) (sendingNode receivingNode : UInt8) (m_nonce random : Vector UInt8 8)
    (transmitOptions : UInt8) : Prop :=
  ∃ e_buffer, encryptBuffer enc auth m.buffer m.length sendingNode receivingNode m_nonce random
      transmitOptions = .ok e_buffer ∧
    ∀ rest, rest ≠ [] →
      decryptBuffer enc auth ((e_buffer.drop 6).take (e_buffer.getD 5 0).toNat ++ rest)
        (e_buffer.getD 5 0 + 1) sendingNode receivingNode m_nonce =
      .ok (some (0 :: m.command ++ List.replicate (32 - (m.command.length + 1)) 0))

/-- An opened packet has between 23 and 52 bytes. -/
theorem inside_of_decryptBuffer {e_buffer : List UInt8} {e_length : UInt8}
    {sendingNode receivingNode : UInt8} {m_nonce : Vector UInt8 8} {m_buffer : List UInt8}
    (h : decryptBuffer enc auth e_buffer e_length sendingNode receivingNode m_nonce =
      .ok (some m_buffer)) : 23 ≤ e_length.toNat ∧ e_length.toNat ≤ 52 := by
  obtain ⟨hframe, hnineteen, hlocal⟩ := (decryptBuffer_safe enc auth).mp ⟨_, h⟩
  refine ⟨?_, hlocal⟩
  rcases Nat.lt_or_ge e_length.toNat 23 with hshort | hlong
  · rw [decryptBuffer_of_short enc auth hshort hnineteen hframe] at h
    cases h
  · exact hlong

/-- Whatever `EncryptBuffer` completes fits `encryptedpayload`, and declares the
length of the payload. -/
theorem fits_of_encryptBuffer {m_buffer : Vector UInt8 256} {m_length : UInt8}
    {sendingNode receivingNode : UInt8} {m_nonce random : Vector UInt8 8}
    {transmitOptions : UInt8} {e_buffer : List UInt8}
    (h : encryptBuffer enc auth m_buffer m_length sendingNode receivingNode m_nonce random
      transmitOptions = .ok e_buffer) :
    m_length.toNat ≤ 38 ∧ e_buffer.getD 5 0 = m_length + 11 := by
  rw [encryptBuffer] at h
  dsimp only at h
  rw [check_bind_eq_ok, check_bind_eq_ok] at h
  obtain ⟨-, hlocal, h⟩ := h
  obtain ⟨mac, -, h⟩ := bind_eq_ok.mp h
  rw [check_bind_eq_ok] at h
  obtain ⟨-, h⟩ := h
  refine ⟨by omega, ?_⟩
  rw [← Except.ok.inj h]
  rfl

theorem toNat_packetLength {m_length : UInt8} (h : m_length.toNat ≤ 38) :
    (m_length + 11 + 1).toNat = m_length.toNat + 12 := by
  rw [UInt8.add_assoc]
  exact Msg.toNat_add_ofNat (k := 12) (by omega)

/-- A command that comes back is neither too short nor too long. -/
theorem length_of_roundTrips {m : Msg} {sendingNode receivingNode : UInt8}
    {m_nonce random : Vector UInt8 8} {transmitOptions : UInt8}
    (h : RoundTrips enc auth m sendingNode receivingNode m_nonce random transmitOptions) :
    11 ≤ m.length.toNat ∧ m.length.toNat ≤ 38 := by
  obtain ⟨e_buffer, hencrypt, hdecrypt⟩ := h
  obtain ⟨hlocal, hdeclared⟩ := fits_of_encryptBuffer enc auth hencrypt
  have hopened := hdecrypt [0] (List.cons_ne_nil _ _)
  rw [hdeclared] at hopened
  have hlong := (inside_of_decryptBuffer enc auth hopened).1
  rw [toNat_packetLength hlocal] at hlong
  exact ⟨by omega, hlocal⟩

/-- The packet comes back exactly when the command has at least two bytes, which
`DecryptBuffer` asks for, and at most 29, which the local buffers of
`EncryptBuffer` hold. -/
theorem roundTrips_iff (m : Msg) (sendingNode receivingNode : UInt8)
    (m_nonce random : Vector UInt8 8) (transmitOptions : UInt8) :
    RoundTrips enc auth m sendingNode receivingNode m_nonce random transmitOptions ↔
      11 ≤ m.length.toNat ∧ m.length.toNat ≤ 38 := by
  constructor
  · exact length_of_roundTrips enc auth
  · rintro ⟨hlong, hlocal⟩
    obtain ⟨last, checksum, hencrypt⟩ := encryptBuffer_of_fits enc auth m (by omega) hlocal
      sendingNode receivingNode m_nonce random transmitOptions
    refine ⟨_, hencrypt, ?_⟩
    intro rest hrest
    have hnext := toNat_packetLength hlocal
    have hdeclared : (m.length + 11).toNat = m.length.toNat + 11 :=
      Msg.toNat_add_ofNat (k := 11) (by omega)
    have hauth : (m.length + 11 + 1).toUInt32 - 1 = (m.length + 11).toUInt32 := by
      apply UInt32.toNat.inj
      rw [toNat_authLength (by omega), hnext, UInt8.toNat_toUInt32, hdeclared]
      omega
    have hcommand := m.length_command (by omega)
    have hcipher : (aesOfbCrypt enc (blockOf random.toList m_nonce.toList)
        (0 :: m.command)).length = m.command.length + 1 := StreamCipher.length_crypt _ _ _
    have hpacket : ∀ mac : List UInt8, mac.length = 8 → ∀ tail,
        (packet random.toList (aesOfbCrypt enc (blockOf random.toList m_nonce.toList)
          (0 :: m.command)) (peek m_nonce 0) mac ++ tail).take (m.length + 11).toNat =
        packet random.toList (aesOfbCrypt enc (blockOf random.toList m_nonce.toList)
          (0 :: m.command)) (peek m_nonce 0) mac := by
      intro mac hmac tail
      apply List.take_left'
      simp only [packet, List.length_append, List.length_cons, List.length_nil,
        Vector.length_toList, hcipher, hmac, hdeclared, hcommand]
      omega
    have hfive : ∀ tail, ([SOF, m.length + 18, REQUEST, FuncId.sendData, receivingNode,
        m.length + 11] ++ tail).getD 5 0 = m.length + 11 := fun tail => rfl
    have hsix : ∀ tail, ([SOF, m.length + 18, REQUEST, FuncId.sendData, receivingNode,
        m.length + 11] ++ tail).drop 6 = tail := fun tail => rfl
    rw [List.append_assoc, hfive, hsix, hpacket _ (length_authentication _ _ _ _ _ _ _),
      decryptBuffer_packet enc auth Vector.length_toList (length_authentication _ _ _ _ _ _ _)
        (by omega) (by omega) (by omega) hrest, hauth, if_pos rfl, aesOfbCrypt, aesOfbCrypt,
      StreamCipher.crypt_crypt, StreamCipher.length_crypt, List.length_cons]

/-- A command of 30 bytes for node 5. -/
def longCommand : Msg :=
  (Msg.new 1 5 REQUEST FuncId.sendData true).finished
    (5 :: 30 :: (List.replicate 30 0x70 ++ [0x25])) 10 []

/-- It is written over the end of `encryptedpayload`. -/
theorem longCommand_not_roundTrips :
    ¬ RoundTrips id id longCommand 1 5 (Vector.replicate 8 1) (Vector.replicate 8 2) 0x25 := by
  have hlength : longCommand.length = 39 := by
    rw [longCommand, Msg.length_finished (Msg.fresh_new 1 5 REQUEST FuncId.sendData true true 0 0)
      _ _ _ (by decide), Msg.totalLength_new]
    rfl
  intro h
  have hlocal := (length_of_roundTrips id id h).2
  rw [hlength] at hlocal
  exact absurd hlocal (by decide)

end OpenZWave
