import OpenZWave.AesModes
import OpenZWave.NetworkKey
import OpenZWave.WakeUp

/-!
# The keys in use

`Driver::initNetworkKeys`, `GetAuthKey` and `GetEncKey`. A base key encrypts two
passwords, and the results are the keys of the two contexts. The base key is zero
while a device is added, else the network key; the contexts are derived again at
the first use after the kind of base key changes, and at each use while a device is
added.
-/

namespace OpenZWave

open Aes ByteBuffer NumberText WordBytes

/-- The members of a driver that belong to its keys, and the statics of `GetNetworkKey`. -/
structure SecurityKeys where
  m_inclusionkeySet : Bool
  authKey : Context
  encryptKey : Context
  store : KeyStore

namespace SecurityKeys

/-- `newnode == false ? GetNetworkKey() : SecuritySchemes[0]`. -/
def baseKey (networkKey : List Char) (tempkey : Vector UInt32 16) (newnode : Bool)
    (store : KeyStore) : Except KeyError Block × KeyStore :=
  if newnode = false then getNetworkKey networkKey tempkey store
  else (.ok (Vector.replicate 16 0), store)

/-- The first 16 bytes of `tmpEncKey` and `tmpAuthKey`. -/
def keyOf (bytes : List UInt8) : Block := Vector.ofFn fun i => bytes.getD i 0

/-- `initNetworkKeys` from the passwords on. -/
def deriveKeys (s : SecurityKeys) : Bool × SecurityKeys :=
  let s := { s with encryptKey := aesModeReset s.encryptKey, authKey := aesModeReset s.authKey }
  match aesEcbEncrypt s.encryptKey (List.replicate 16 0xAA),
      aesEcbEncrypt s.authKey (List.replicate 16 0x55) with
  | some tmpEncKey, some tmpAuthKey =>
      let s := { s with encryptKey := aesModeReset s.encryptKey, authKey := aesModeReset s.authKey }
      let s := { s with encryptKey := aesEncryptKey128 (keyOf tmpEncKey) s.encryptKey
                        authKey := aesEncryptKey128 (keyOf tmpAuthKey) s.authKey }
      (true, { s with encryptKey := aesModeReset s.encryptKey, authKey := aesModeReset s.authKey })
  | _, _ => (false, s)

/-- `initNetworkKeys`: `option` is what `GetOptionAsString` finds, `memory` what the new
contexts contain, `tempkey` what the local array of `GetNetworkKey` does. -/
def initNetworkKeys (option : Option (List Char)) (tempkey : Vector UInt32 16)
    (memory : Context × Context) (newnode : Bool) (s : SecurityKeys) :
    Except KeyError Bool × SecurityKeys :=
  let s := { s with m_inclusionkeySet := newnode, authKey := memory.1, encryptKey := memory.2 }
  match option with
  | none => (.ok false, s)
  | some networkKey =>
      if networkKey.length ≤ 0 then (.ok false, s)
      else
        match baseKey networkKey tempkey newnode s.store with
        | (.error e, store) => (.error e, { s with store := store })
        | (.ok key, store) =>
            let s := { s with store := store, encryptKey := aesEncryptKey128 key s.encryptKey }
            match baseKey networkKey tempkey newnode s.store with
            | (.error e, store) => (.error e, { s with store := store })
            | (.ok key, store) =>
                let r := deriveKeys
                  { s with store := store, authKey := aesEncryptKey128 key s.authKey }
                (.ok r.1, r.2)

/-- `m_currentControllerCommand` adds a device, and has completed. -/
def addingNode (command : Option ControllerCommandItem) : Bool :=
  match command with
  | none => false
  | some item => decide (item.command = .addDevice ∧ item.state = .completed)

/-- What `GetAuthKey` and `GetEncKey` do before they return a context. -/
def refresh (option : Option (List Char)) (command : Option ControllerCommandItem)
    (tempkey : Vector UInt32 16) (memory : Context × Context) (s : SecurityKeys) :
    Except KeyError Bool × SecurityKeys :=
  if addingNode command then initNetworkKeys option tempkey memory true s
  else if s.m_inclusionkeySet then initNetworkKeys option tempkey memory false s
  else (.ok true, s)

def getAuthKey (option : Option (List Char)) (command : Option ControllerCommandItem)
    (tempkey : Vector UInt32 16) (memory : Context × Context) (s : SecurityKeys) :
    Except KeyError Context × SecurityKeys :=
  match refresh option command tempkey memory s with
  | (.error e, s) => (.error e, s)
  | (.ok _, s) => (.ok s.authKey, s)

def getEncKey (option : Option (List Char)) (command : Option ControllerCommandItem)
    (tempkey : Vector UInt32 16) (memory : Context × Context) (s : SecurityKeys) :
    Except KeyError Context × SecurityKeys :=
  match refresh option command tempkey memory s with
  | (.error e, s) => (.error e, s)
  | (.ok _, s) => (.ok s.encryptKey, s)

/-! ## The cipher of a key -/

/-- The bytes of a state, column by column. -/
def toBlock (s : Rijndael.State) : Block :=
  Vector.ofFn fun i => s (Fin.ofNat 4 i.val) (Fin.ofNat 4 (i.val / 4))

theorem toBlock_ofBlock (b : Block) : toBlock (ofBlock b) = b := by
  apply Vector.ext
  intro i hi
  have hcolumn : i / 4 % 4 = i / 4 := Nat.mod_eq_of_lt (by omega)
  rw [toBlock, Vector.getElem_ofFn, ofBlock, Fin.val_ofNat, Fin.val_ofNat, hcolumn,
    Nat.div_add_mod, peek, List.getD_eq_getElem _ _ (by simpa using hi), Vector.getElem_toList]

/-- The cipher with ten rounds under a key of 128 bits. -/
def aes128 (key b : Block) : Block :=
  toBlock (expanded (Rijndael.keyWord (boxed sbData) 4 (keyWords key)) 10 (ofBlock b))

theorem blockCipher_key128 (key : Block) (cx : Context) :
    blockCipher (aesEncryptKey128 key cx) = aes128 key := by
  funext b
  have hrounds : (peek (aesEncryptKey128 key cx).inf 0).toNat = 10 * 16 := rfl
  have hcipher := aesEncrypt_of_words (by decide) hrounds (words_key128 key cx) b
  rw [aesEncrypt_keyed (keyed_key128 key cx), Option.map_some, Option.some.injEq] at hcipher
  rw [aes128, ← hcipher, toBlock_ofBlock]

/-- The key of the context for encryption, from a base key. -/
def derivedEncKey (base : Block) : Block := aes128 base (Vector.replicate 16 0xAA)

/-- The key of the context for authentication. -/
def derivedAuthKey (base : Block) : Block := aes128 base (Vector.replicate 16 0x55)

/-- A context under a key, wherever its stream stands. -/
def Under (key : Block) (cx : Context) : Prop := cx.Keyed ∧ blockCipher cx = aes128 key

theorem under_key128 (key : Block) (cx : Context) : Under key (aesEncryptKey128 key cx) :=
  ⟨keyed_key128 key cx, blockCipher_key128 key cx⟩

theorem Under.poke {key : Block} {cx : Context} (h : Under key cx) (v : UInt8) :
    Under key { cx with inf := poke cx.inf 2 v } :=
  ⟨h.1.poke v, (blockCipher_poke cx v).trans h.2⟩

/-- Both contexts are derived from a base key. -/
structure Derived (base : Block) (s : SecurityKeys) : Prop where
  auth : Under (derivedAuthKey base) s.authKey
  enc : Under (derivedEncKey base) s.encryptKey

theorem ecb_under {key : Block} {cx : Context} (h : Under key cx) (v : UInt8) :
    ∃ bytes, aesEcbEncrypt cx (List.replicate 16 v) = some bytes ∧
      keyOf bytes = aes128 key (Vector.replicate 16 v) := by
  have hblock := aesEcbEncrypt_block h.1 (Vector.replicate 16 v)
  rw [Vector.toList_replicate, h.2] at hblock
  refine ⟨_, hblock, ?_⟩
  apply Vector.ext
  intro i hi
  rw [keyOf, Vector.getElem_ofFn, List.getD_eq_getElem _ _ (by simpa using hi),
    Vector.getElem_toList]

theorem derived_deriveKeys {base : Block} {s : SecurityKeys} (hauth : Under base s.authKey)
    (henc : Under base s.encryptKey) :
    ∃ t, deriveKeys s = (true, t) ∧ Derived base t ∧
      t.m_inclusionkeySet = s.m_inclusionkeySet ∧ t.store = s.store := by
  obtain ⟨encBytes, hencBytes, hencKey⟩ := ecb_under (henc.poke 0) 0xAA
  obtain ⟨authBytes, hauthBytes, hauthKey⟩ := ecb_under (hauth.poke 0) 0x55
  simp only [deriveKeys, aesModeReset, hencBytes, hauthBytes]
  refine ⟨_, rfl, ⟨?_, ?_⟩, rfl, rfl⟩
  · rw [hauthKey]
    exact (under_key128 _ _).poke 0
  · rw [hencKey]
    exact (under_key128 _ _).poke 0

/-! ## Runs -/

/-- The network key was not read yet, or is the one that was read. -/
def Reads (key : Block) (store : KeyStore) : Prop := store.keySet = true → store.keybytes = key

theorem getNetworkKey_of_reads {networkKey : List Char} {key : Block}
    (h : SpellsKey networkKey key) (tempkey : Vector UInt32 16) {store : KeyStore}
    (hstore : Reads key store) :
    getNetworkKey networkKey tempkey store = (.ok key, ⟨key, true⟩) := by
  obtain ⟨keybytes, keySet⟩ := store
  cases keySet with
  | false => exact getNetworkKey_of_spells h tempkey keybytes
  | true =>
      obtain rfl : keybytes = key := hstore rfl
      exact if_pos rfl

/-- The base key for a kind of communication. -/
def baseFor (key : Block) (newnode : Bool) : Block :=
  if newnode then Vector.replicate 16 0 else key

theorem baseKey_of_reads {networkKey : List Char} {key : Block} (h : SpellsKey networkKey key)
    (tempkey : Vector UInt32 16) (newnode : Bool) {store : KeyStore} (hstore : Reads key store) :
    ∃ store', baseKey networkKey tempkey newnode store = (.ok (baseFor key newnode), store') ∧
      Reads key store' := by
  cases newnode with
  | false => exact ⟨⟨key, true⟩, getNetworkKey_of_reads h tempkey hstore, fun _ => rfl⟩
  | true => exact ⟨store, rfl, hstore⟩

theorem length_of_spells {networkKey : List Char} {key : Block} (h : SpellsKey networkKey key) :
    ¬ networkKey.length ≤ 0 := by
  intro hlength
  have hnil : networkKey = [] := List.length_eq_zero_iff.mp (Nat.le_zero.mp hlength)
  have hwords := h.length_eq
  rw [hnil, Vector.length_toList] at hwords
  exact absurd hwords (by decide)

/-- The keys are derived anew, from the base key of the kind that is asked for. -/
theorem derived_initNetworkKeys {networkKey : List Char} {key : Block}
    (h : SpellsKey networkKey key) (tempkey : Vector UInt32 16) (memory : Context × Context)
    (newnode : Bool) {s : SecurityKeys} (hstore : Reads key s.store) :
    ∃ t, initNetworkKeys (some networkKey) tempkey memory newnode s = (.ok true, t) ∧
      t.m_inclusionkeySet = newnode ∧ Derived (baseFor key newnode) t ∧ Reads key t.store := by
  obtain ⟨store, hbase, hreads⟩ := baseKey_of_reads h tempkey newnode hstore
  obtain ⟨store', hbase', hreads'⟩ := baseKey_of_reads h tempkey newnode hreads
  simp only [initNetworkKeys, if_neg (length_of_spells h), hbase, hbase']
  obtain ⟨t, ht, hderived, hset, hstored⟩ := derived_deriveKeys
    (s := ⟨newnode, aesEncryptKey128 (baseFor key newnode) memory.1,
      aesEncryptKey128 (baseFor key newnode) memory.2, store'⟩)
    (under_key128 (baseFor key newnode) _) (under_key128 (baseFor key newnode) _)
  refine ⟨t, ?_, hset, hderived, by rw [hstored]; exact hreads'⟩
  rw [ht]

/-- What happens to the keys: a controller command comes, changes its state or goes; a
context is asked for; or one is used, which moves its stream. -/
inductive Event
  | command (item : Option ControllerCommandItem)
  | authKey (tempkey : Vector UInt32 16) (memory : Context × Context)
  | encKey (tempkey : Vector UInt32 16) (memory : Context × Context)
  | used (auth enc : UInt8)

/-- The driver's current command and its keys. -/
abbrev KeyState := Option ControllerCommandItem × SecurityKeys

def Event.step (option : Option (List Char)) (s : KeyState) : Event → KeyState
  | .command item => (item, s.2)
  | .authKey tempkey memory => (s.1, (getAuthKey option s.1 tempkey memory s.2).2)
  | .encKey tempkey memory => (s.1, (getEncKey option s.1 tempkey memory s.2).2)
  | .used auth enc =>
      (s.1, { s.2 with
        authKey := { s.2.authKey with inf := poke s.2.authKey.inf 2 auth }
        encryptKey := { s.2.encryptKey with inf := poke s.2.encryptKey.inf 2 enc } })

/-- The invariant: the flag tells from which base key the contexts are derived. -/
structure Keeps (key : Block) (s : SecurityKeys) : Prop where
  derived : Derived (baseFor key s.m_inclusionkeySet) s
  reads : Reads key s.store

theorem Keeps.refresh {networkKey : List Char} {key : Block} (h : SpellsKey networkKey key)
    (command : Option ControllerCommandItem) (tempkey : Vector UInt32 16)
    (memory : Context × Context) {s : SecurityKeys} (hs : Keeps key s) :
    ∃ t, SecurityKeys.refresh (some networkKey) command tempkey memory s = (.ok true, t) ∧
      Keeps key t ∧ t.m_inclusionkeySet = addingNode command := by
  have hinit : ∀ newnode, ∃ t,
      initNetworkKeys (some networkKey) tempkey memory newnode s = (.ok true, t) ∧
        Keeps key t ∧ t.m_inclusionkeySet = newnode := by
    intro newnode
    obtain ⟨t, ht, hset, hderived, hreads⟩ :=
      derived_initNetworkKeys h tempkey memory newnode hs.reads
    exact ⟨t, ht, ⟨by rw [hset]; exact hderived, hreads⟩, hset⟩
  rw [SecurityKeys.refresh]
  cases hadding : addingNode command with
  | true =>
      rw [if_pos rfl]
      exact hinit true
  | false =>
      rw [if_neg Bool.false_ne_true]
      cases hset : s.m_inclusionkeySet with
      | true =>
          rw [if_pos rfl]
          exact hinit false
      | false =>
          rw [if_neg Bool.false_ne_true]
          exact ⟨s, rfl, hs, hset⟩

theorem Keeps.step {networkKey : List Char} {key : Block} (h : SpellsKey networkKey key)
    {s : KeyState} (hs : Keeps key s.2) (event : Event) :
    Keeps key (event.step (some networkKey) s).2 := by
  cases event with
  | command item => exact hs
  | authKey tempkey memory =>
      obtain ⟨t, ht, hkeeps, -⟩ := hs.refresh h s.1 tempkey memory
      rw [Event.step, getAuthKey, ht]
      exact hkeeps
  | encKey tempkey memory =>
      obtain ⟨t, ht, hkeeps, -⟩ := hs.refresh h s.1 tempkey memory
      rw [Event.step, getEncKey, ht]
      exact hkeeps
  | used auth enc => exact ⟨⟨hs.derived.auth.poke auth, hs.derived.enc.poke enc⟩, hs.reads⟩

theorem Keeps.run {networkKey : List Char} {key : Block} (h : SpellsKey networkKey key)
    {s : KeyState} (hs : Keeps key s.2) (events : List Event) :
    Keeps key (events.foldl (Event.step (some networkKey)) s).2 := by
  induction events generalizing s with
  | nil => exact hs
  | cons event events ih => exact ih (hs.step h event)

/-- The constructor: no command, and `initNetworkKeys(false)`. -/
def construct (option : Option (List Char)) (tempkey : Vector UInt32 16)
    (memory : Context × Context) (s : SecurityKeys) : KeyState :=
  (none, (initNetworkKeys option tempkey memory false s).2)

/-- The keys that are asked for are always those of the current command: the zero key is the
base exactly while a device is added, and the network key otherwise, whatever commands,
uses and memory came before. -/
theorem keys_follow_command {networkKey : List Char} {key : Block}
    (h : SpellsKey networkKey key) {s : SecurityKeys} (hstore : Reads key s.store)
    (tempkey : Vector UInt32 16) (memory : Context × Context) (events : List Event) :
    let state := events.foldl (Event.step (some networkKey))
      (construct (some networkKey) tempkey memory s)
    let base := baseFor key (addingNode state.1)
    ∀ tempkey memory,
      (∃ auth t, getAuthKey (some networkKey) state.1 tempkey memory state.2 = (.ok auth, t) ∧
        Under (derivedAuthKey base) auth) ∧
      ∃ enc t, getEncKey (some networkKey) state.1 tempkey memory state.2 = (.ok enc, t) ∧
        Under (derivedEncKey base) enc := by
  have hstart : Keeps key (construct (some networkKey) tempkey memory s).2 := by
    obtain ⟨t, ht, hset, hderived, hreads⟩ :=
      derived_initNetworkKeys h tempkey memory false hstore
    rw [construct, ht]
    exact ⟨by rw [hset]; exact hderived, hreads⟩
  intro state base tempkey memory
  obtain ⟨t, ht, hkeeps, hset⟩ := (hstart.run h events).refresh h state.1 tempkey memory
  have hderived : Derived base t := by
    rw [show base = baseFor key t.m_inclusionkeySet by rw [hset]]
    exact hkeeps.derived
  refine ⟨⟨t.authKey, t, ?_, hderived.auth⟩, t.encryptKey, t, ?_, hderived.enc⟩
  · rw [getAuthKey, ht]
  · rw [getEncKey, ht]

/-- A text for the option. -/
def ones : List Char := "1,1,1,1,1,1,1,1,1,1,1,1,1,1,1,1".toList

theorem spells_ones : SpellsKey ones (Vector.replicate 16 1) := by
  have hdigits : ∀ c ∈ ['1'], (digit? 16 c).isSome := by
    intro c hc
    rw [List.mem_singleton.mp hc]
    rfl
  have hone : HexByte ['1'] 1 :=
    ⟨[], [], ['1'], [], by simp, by simp, by simp, by simp, hdigits, rfl, rfl⟩
  have hall : ∀ n, List.Forall₂ HexByte (List.replicate n ['1']) (List.replicate n 1) := by
    intro n
    induction n with
    | zero => exact .nil
    | succ n ih => exact .cons hone ih
  exact hall 16

/-- After other uses a device is added. -/
theorem keys_follow_command_adding :
    let state := [Event.used 3 4, Event.command (some { (default : ControllerCommandItem) with
        command := .addDevice, state := .completed })].foldl (Event.step (some ones))
      (construct (some ones) (Vector.replicate 16 0) (emptyContext, emptyContext)
        ⟨true, emptyContext, emptyContext, ⟨Vector.replicate 16 0, false⟩⟩)
    let base := baseFor (Vector.replicate 16 1) (addingNode state.1)
    ∀ tempkey memory,
      (∃ auth t, getAuthKey (some ones) state.1 tempkey memory state.2 = (.ok auth, t) ∧
        Under (derivedAuthKey base) auth) ∧
      ∃ enc t, getEncKey (some ones) state.1 tempkey memory state.2 = (.ok enc, t) ∧
        Under (derivedEncKey base) enc :=
  keys_follow_command spells_ones
    (s := ⟨true, emptyContext, emptyContext, ⟨Vector.replicate 16 0, false⟩⟩)
    (fun h => absurd h Bool.false_ne_true) (Vector.replicate 16 0) (emptyContext, emptyContext) _

end SecurityKeys

end OpenZWave
