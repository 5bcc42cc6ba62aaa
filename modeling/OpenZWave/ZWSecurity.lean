import OpenZWave.Msg
import OpenZWave.Lib.Checked
import OpenZWave.Lib.StreamCipher

/-!
# Security encapsulation

`EncryptBuffer`, `DecryptBuffer` and `GenerateAuthentication` of
`ZWSecurity.cpp`, and the branch of `Driver::ProcessMsg` that opens an
encapsulated message. The block cipher is a parameter, once under the
encryption key and once under the authentication key; output feedback mode and
the authentication code are built from it as the source builds them. The
received frame, the local buffers and their sizes are explicit: a computation
stops with a `Fault` at the first access outside them.
-/

namespace OpenZWave

open ByteBuffer Checked

/-- An access without a meaning in the language. -/
inductive Fault
  /-- Outside the frame that was received or is sent. -/
  | outsideFrame
  /-- Outside a local buffer of fixed size. -/
  | outsideLocal
  deriving DecidableEq, Repr

abbrev Block := Vector UInt8 16

def xorBlock (a b : Block) : Block := Vector.zipWith (· ^^^ ·) a b

/-- The initialization vector: eight bytes of the sender, eight of the receiver. -/
def blockOf (random nonce : List UInt8) : Block :=
  Vector.ofFn fun i => (random ++ nonce).getD i 0

/-- One byte of the keystream of `aes_ofb_crypt`: the vector is encrypted at
each block boundary. The block loop of the source is this loop unrolled. -/
def ofbNext (enc : Block → Block) (s : Block × Nat) : UInt8 × (Block × Nat) :=
  let iv := if s.2 = 0 then enc s.1 else s.1
  (peek iv s.2, (iv, if s.2 + 1 = 16 then 0 else s.2 + 1))

/-- `aes_ofb_crypt` after `aes_mode_reset`. -/
def aesOfbCrypt (enc : Block → Block) (iv : Block) (data : List UInt8) : List UInt8 :=
  StreamCipher.crypt (ofbNext enc) (iv, 0) data

/-- The locals `tmpauth`, `encpck` and `block` of `GenerateAuthentication`. -/
structure AuthState where
  tmpauth : Block
  encpck : Block
  block : Nat

/-- The body of the loop over the authenticated bytes. -/
def AuthState.step (auth : Block → Block) (s : AuthState) (b : UInt8) : AuthState :=
  let encpck := poke s.encpck s.block b
  if s.block + 1 = 16 then
    { tmpauth := auth (xorBlock encpck s.tmpauth), encpck := Vector.replicate 16 0, block := 0 }
  else { s with encpck := encpck, block := s.block + 1 }

/-- What follows the loop: the bytes that are left over, and the first half. -/
def AuthState.finish (auth : Block → Block) (s : AuthState) : List UInt8 :=
  let tmpauth := if 0 < s.block then auth (xorBlock s.encpck s.tmpauth) else s.tmpauth
  first tmpauth 8

/-- `GenerateAuthentication`: `data` starts at the command byte. -/
def generateAuthentication (auth : Block → Block) (data : List UInt8) (length : UInt32)
    (sendingNode receivingNode : UInt8) (iv : Block) : Except Fault (List UInt8) := do
  let command ← readAt data 0 .outsideFrame
  let size := length - 19
  check (4 + size.toNat ≤ 256) .outsideLocal
  let encrypted ← window data 9 size.toNat .outsideFrame
  let buffer := command :: sendingNode :: receivingNode :: size.toUInt8 :: encrypted
  let bufsize := (length - 19 + 4).toUInt8
  let s := (buffer.take bufsize.toNat).foldl (AuthState.step auth)
    { tmpauth := auth iv, encpck := Vector.replicate 16 0, block := 0 }
  return s.finish auth

/-- `EncryptBuffer`: `random` are the eight bytes drawn from `rand()`. -/
def encryptBuffer (enc auth : Block → Block) (m_buffer : Vector UInt8 256) (m_length : UInt8)
    (sendingNode receivingNode : UInt8) (m_nonce random : Vector UInt8 8)
    (transmitOptions : UInt8) : Except Fault (List UInt8) := do
  let header := [SOF, m_length + 18, REQUEST, FuncId.sendData, receivingNode, m_length + 11,
    ClassId.security, SecurityCmd.messageEncap]
  let iv := blockOf random.toList m_nonce.toList
  -- the payload goes behind the sequence byte of `plaintextmsg[32]`
  let payload := ((first m_buffer m_length.toNat).drop 6).take (m_length.toNat - 6 - 3)
  check (1 + payload.length ≤ 32) .outsideLocal
  let plaintextmsg := 0 :: payload
  -- and its encryption into `encryptedpayload[30]`
  check (m_length.toNat - 5 - 3 ≤ 30) .outsideLocal
  let encryptedpayload := aesOfbCrypt enc iv (plaintextmsg.take (m_length.toNat - 5 - 3))
  let e_buffer := header ++ random.toList ++ encryptedpayload ++ [peek m_nonce 0]
  let mac ← generateAuthentication auth (e_buffer.drop 7) (m_length + 11).toUInt32 sendingNode
    receivingNode iv
  check (2 ≤ m_length.toNat) .outsideFrame
  let e_buffer := e_buffer ++ mac ++ [transmitOptions, peek m_buffer (m_length.toNat - 2)]
  return e_buffer ++ [xorFrom 0xff (fun i => e_buffer.getD i 0) e_buffer.length]

/-- `DecryptBuffer`: `none` when it returns false, else the first 32 bytes of
`m_buffer`. -/
def decryptBuffer (enc auth : Block → Block) (e_buffer : List UInt8) (e_length : UInt8)
    (sendingNode receivingNode : UInt8) (m_nonce : Vector UInt8 8) :
    Except Fault (Option (List UInt8)) := do
  -- `PrintHex` reads the whole packet
  check (e_length.toNat ≤ e_buffer.length) .outsideFrame
  if e_length < 19 then return none
  else
    let random ← window e_buffer 2 8 .outsideFrame
    let iv := blockOf random m_nonce.toList
    let encryptedpacketsize := e_length.toUInt32 - 8 - 8 - 2 - 2
    if encryptedpacketsize < 3 then return none
    else
      let copied ← window e_buffer 10 (min 32 encryptedpacketsize.toNat) .outsideFrame
      let encyptedpacket := copied ++ List.replicate (32 - copied.length) 0
      check (asInt encryptedpacketsize ≤ 32) .outsideLocal
      let decrypted := aesOfbCrypt enc iv (encyptedpacket.take (asInt encryptedpacketsize).toNat)
      let m_buffer := decrypted ++ List.replicate (32 - decrypted.length) 0
      -- `PktToString` reads the decrypted packet from the caller's 256 bytes
      check (encryptedpacketsize.toNat ≤ 256) .outsideLocal
      let mac ← generateAuthentication auth (e_buffer.drop 1) (e_length.toUInt32 - 1) sendingNode
        receivingNode iv
      let received ← window e_buffer (11 + encryptedpacketsize.toNat) 8 .outsideFrame
      if received = mac then return some m_buffer else return none

/-- The branch of `ProcessMsg` for an encapsulated message: `data` is the frame
without SOF and length byte, `nonceKey` is `GetNonceKey` of the sending node. -/
def openMessageEncap (enc auth : Block → Block)
    (nonceKey : UInt8 → UInt8 → Option (Vector UInt8 8)) (controllerNodeId : UInt8)
    (data : List UInt8) : Except Fault (Option (List UInt8)) := do
  let source ← readAt data 3 .outsideFrame
  let payloadLength ← readAt data 4 .outsideFrame
  check (4 ≤ payloadLength.toNat) .outsideFrame
  let nonceId ← readAt data (payloadLength.toNat - 4) .outsideFrame
  match nonceKey source nonceId with
  | none => return none
  | some nonce =>
      match ← decryptBuffer enc auth (data.drop 5) (payloadLength + 1) source controllerNodeId
        nonce with
      | none => return none
      | some newdata =>
          let length := payloadLength - 8 - 8 - 2 - 2
          return some (data.take 4 ++ length :: ((newdata.drop 1).take length.toNat ++
            data.drop (5 + length.toNat)))

end OpenZWave
