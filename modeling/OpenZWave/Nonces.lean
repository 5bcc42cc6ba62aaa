import Mathlib.Data.Fin.Tuple.Basic
import Mathlib.Logic.Function.Basic
import OpenZWave.Lib.Transition
import OpenZWave.Encapsulation

/-!
# Nonces for received messages

A node keeps the last eight nonces that it was sent. `GenerateNonceKey` fills
the oldest slot, and `GetNonceKey` looks a nonce up by its first byte, which the
sender of an encrypted message repeats in front of the authentication code. The
numbers drawn from `rand()` are arguments.
-/

namespace OpenZWave

open ByteBuffer Transition

abbrev Nonce := Vector UInt8 8

/-- `m_nonces` and `m_lastnonce` of a node. -/
structure NonceTable where
  nonces : Vector Nonce 8
  lastnonce : Fin 8

namespace NonceTable

/-- The slots of a new node hold zeros. -/
def new : NonceTable where
  nonces := Vector.replicate 8 (Vector.replicate 8 0)
  lastnonce := 0

/-- `GetNonceKey`. -/
def getNonceKey (table : NonceTable) (nonceid : UInt8) : Option Nonce :=
  table.nonces.toList.find? fun nonce => nonceid == peek nonce 0

/-- A first byte: one more than the number drawn. -/
def firstByte (draw : Fin 255) : UInt8 := UInt8.ofNat (1 + draw)

/-- Another slot begins with the byte. -/
def clashes (table : NonceTable) (byte : UInt8) : Bool :=
  (List.finRange 8).any fun i => i != table.lastnonce && peek table.nonces[i] 0 == byte

/-- The loop that draws the first byte; `none` while it has not come to an end. -/
def drawFirst (table : NonceTable) : List (Fin 255) → Option UInt8
  | [] => none
  | draw :: draws =>
      if table.clashes (firstByte draw) then table.drawFirst draws else some (firstByte draw)

/-- `GenerateNonceKey`: the table and the new nonce. -/
def generateNonceKey (table : NonceTable) (draws : List (Fin 255)) (others : Fin 7 → UInt8) :
    Option (NonceTable × Nonce) :=
  match table.drawFirst draws with
  | none => none
  | some first =>
      let nonce : Nonce := Vector.ofFn (Fin.cons first others)
      some ({ nonces := table.nonces.set table.lastnonce nonce table.lastnonce.isLt,
              lastnonce := table.lastnonce + 1 }, nonce)

theorem firstByte_ne_zero (draw : Fin 255) : firstByte draw ≠ 0 := by
  intro h
  have hnat := congrArg UInt8.toNat h
  rw [firstByte, UInt8.toNat_ofNat'] at hnat
  have hlt := draw.isLt
  simp only [UInt8.reduceToNat] at hnat
  omega

theorem drawFirst_ne_zero {table : NonceTable} {draws : List (Fin 255)} {first : UInt8}
    (h : table.drawFirst draws = some first) : first ≠ 0 := by
  induction draws with
  | nil => cases h
  | cons draw draws ih =>
      rw [drawFirst] at h
      split at h
      · exact ih h
      · rw [← Option.some.inj h]
        exact firstByte_ne_zero draw

/-- The key that is found begins with the id. -/
theorem getNonceKey_eq_some {table : NonceTable} {nonceid : UInt8} {nonce : Nonce}
    (h : table.getNonceKey nonceid = some nonce) :
    nonce ∈ table.nonces.toList ∧ peek nonce 0 = nonceid := by
  rw [getNonceKey] at h
  have hfirst := List.find?_some h
  exact ⟨List.mem_of_find?_eq_some h, (beq_iff_eq.mp hfirst).symm⟩

theorem not_clashes_of_drawFirst {table : NonceTable} {draws : List (Fin 255)} {first : UInt8}
    (h : table.drawFirst draws = some first) : table.clashes first = false := by
  induction draws with
  | nil => cases h
  | cons draw draws ih =>
      rw [drawFirst] at h
      split at h
      · exact ih h
      · rename_i hclash
        rw [← Option.some.inj h]
        exact Bool.eq_false_of_not_eq_true hclash

/-- A new nonce takes the place of the oldest one and begins with a byte of its
own, which is not zero. -/
theorem generateNonceKey_eq_some {table table' : NonceTable} {draws : List (Fin 255)}
    {others : Fin 7 → UInt8} {nonce : Nonce}
    (h : table.generateNonceKey draws others = some (table', nonce)) :
    table'.nonces = table.nonces.set table.lastnonce nonce table.lastnonce.isLt ∧ peek nonce 0 ≠ 0 ∧
      table.clashes (peek nonce 0) = false := by
  rw [generateNonceKey] at h
  split at h
  · cases h
  · rename_i first hfirst
    obtain ⟨rfl, rfl⟩ := Prod.mk.inj (Option.some.inj h)
    have hpeek : peek (Vector.ofFn (Fin.cons first others) : Nonce) 0 = first := by
      simp [peek, Vector.toList_ofFn]
    rw [hpeek]
    exact ⟨rfl, drawFirst_ne_zero hfirst, not_clashes_of_drawFirst hfirst⟩

/-- The nonce just generated is the one that is found under its id. -/
theorem getNonceKey_generateNonceKey {table table' : NonceTable} {draws : List (Fin 255)}
    {others : Fin 7 → UInt8} {nonce : Nonce}
    (h : table.generateNonceKey draws others = some (table', nonce)) :
    table'.getNonceKey (peek nonce 0) = some nonce := by
  obtain ⟨hnonces, -, hclash⟩ := generateNonceKey_eq_some h
  have hmem : nonce ∈ table'.nonces.toList := by
    rw [Vector.mem_toList_iff, hnonces]
    exact Vector.mem_set _
  cases hfind : table'.getNonceKey (peek nonce 0) with
  | none =>
      rw [getNonceKey, List.find?_eq_none] at hfind
      exact absurd (beq_self_eq_true _) (hfind nonce hmem)
  | some found =>
      obtain ⟨hfound, hfirst⟩ := getNonceKey_eq_some hfind
      rw [Vector.mem_toList_iff, Vector.mem_iff_getElem] at hfound
      obtain ⟨i, hi, rfl⟩ := hfound
      by_cases hnew : table.lastnonce = ⟨i, hi⟩
      · have hi : (table.lastnonce : Nat) = i := congrArg Fin.val hnew
        simp only [hnonces, ← hi, Vector.getElem_set_self]
      · have hne : (table.lastnonce : Nat) ≠ i := fun h => hnew (Fin.ext h)
        simp only [hnonces, Vector.getElem_set_ne _ _ hne] at hfirst
        have hother : table.clashes (peek nonce 0) = true := by
          rw [clashes, List.any_eq_true]
          exact ⟨⟨i, hi⟩, List.mem_finRange _, by simpa [Ne.symm hnew] using hfirst⟩
        rw [hclash] at hother
        cases hother

end NonceTable

/-! ## The exchange of nonces -/

/-- What has happened to the nonces of a node, the last first. -/
inductive NonceUse
  /-- Generated, and sent to the node. -/
  | issued (nodeId : UInt8) (nonce : Nonce)
  /-- Looked up for a frame of the node. -/
  | yielded (nodeId : UInt8) (nonce : Nonce)
  /-- A frame of the node was decrypted under it and handled. -/
  | accepted (nodeId : UInt8) (nonce : Nonce)
  deriving DecidableEq

/-- The nonces of all nodes, and the history of their uses. -/
structure NonceState where
  tables : UInt8 → Option NonceTable
  uses : List NonceUse

/-- The numbers drawn for a nonce. -/
structure Draws where
  first : List (Fin 255)
  others : Fin 7 → UInt8

/-- `opens` is the result of `DecryptBuffer` on the frame, under each nonce. -/
inductive NonceEvent
  | newNode (nodeId : UInt8)
  | deleteNode (nodeId : UInt8)
  /-- A request for a nonce, or a report that is sent again. -/
  | nonceGet (nodeId : UInt8) (draws : Draws)
  | messageEncap (source nonceid : UInt8) (opens : Nonce → Bool)
  | messageEncapNonceGet (source nonceid : UInt8) (opens : Nonce → Bool) (draws : Draws)

namespace NonceState

/-- No node is known. -/
def new : NonceState where
  tables := fun _ => none
  uses := []

/-- One more use. -/
def record (s : NonceState) (use : NonceUse) : NonceState := { s with uses := use :: s.uses }

/-- The nonces of a node. -/
def setTable (s : NonceState) (nodeId : UInt8) (table : Option NonceTable) : NonceState :=
  { s with tables := Function.update s.tables nodeId table }

/-- `GenerateNonceKey` and `SendNonceKey`. -/
def sendNonceKey (s : NonceState) (nodeId : UInt8) (draws : Draws) : NonceState :=
  match s.tables nodeId with
  | none => s
  | some table =>
      match table.generateNonceKey draws.first draws.others with
      | none => s
      | some (table, nonce) =>
          (s.record (.issued nodeId nonce)).setTable nodeId (some table)

/-- `GetNonceKey` of the node a frame comes from. -/
def nonceKey (s : NonceState) (source nonceid : UInt8) : Option Nonce :=
  match s.tables source with
  | none => none
  | some table => table.getNonceKey nonceid

/-- `GetNonceKey` and `DecryptBuffer` for an encrypted frame; false when there is
no nonce for it. -/
def decrypt (s : NonceState) (source nonceid : UInt8) (opens : Nonce → Bool) :
    NonceState × Bool :=
  match s.nonceKey source nonceid with
  | none => (s, false)
  | some nonce =>
      let s := s.record (.yielded source nonce)
      (if opens nonce then s.record (.accepted source nonce) else s, true)

/-- One event. -/
def step (s : NonceState) : NonceEvent → NonceState
  | .newNode nodeId => s.setTable nodeId (some .new)
  | .deleteNode nodeId => s.setTable nodeId none
  | .nonceGet nodeId draws => s.sendNonceKey nodeId draws
  | .messageEncap source nonceid opens => (s.decrypt source nonceid opens).1
  | .messageEncapNonceGet source nonceid opens draws =>
      let decrypted := s.decrypt source nonceid opens
      if decrypted.2 then decrypted.1.sendNonceKey source draws else decrypted.1

end NonceState

/-! ## Replays -/

/-- A use is in order after those before it: only an issued nonce is found, and a
nonce admits as many frames as times it was issued. -/
def NonceUse.InOrder : NonceUse → List NonceUse → Prop
  | .issued _ _, _ => True
  | .yielded nodeId nonce, past => .issued nodeId nonce ∈ past
  | .accepted nodeId nonce, past =>
      past.count (.accepted nodeId nonce) < past.count (.issued nodeId nonce)

instance (use : NonceUse) (past : List NonceUse) : Decidable (use.InOrder past) :=
  match use with
  | .issued _ _ => isTrue trivial
  | .yielded nodeId nonce => inferInstanceAs (Decidable (NonceUse.issued nodeId nonce ∈ past))
  | .accepted nodeId nonce =>
      inferInstanceAs (Decidable (past.count (.accepted nodeId nonce) <
        past.count (.issued nodeId nonce)))

/-- Every use was in order when it happened. -/
abbrev AntiReplay (uses : List NonceUse) : Prop := Ordered NonceUse.InOrder uses

/-- The nonce id is not zero while zeros stand in a slot, and if the frame
decrypts, no earlier one has used up the nonce. -/
def NonceState.FreshFrame (s : NonceState) (source nonceid : UInt8) (opens : Nonce → Bool) :
    Prop :=
  (nonceid = 0 → s.nonceKey source 0 = none) ∧
    ∀ nonce, s.nonceKey source nonceid = some nonce → opens nonce = true →
      s.uses.count (.accepted source nonce) < s.uses.count (.issued source nonce)

/-- An encrypted frame is fresh. -/
def NonceState.Fresh (s : NonceState) : NonceEvent → Prop
  | .messageEncap source nonceid opens => s.FreshFrame source nonceid opens
  | .messageEncapNonceGet source nonceid opens _ => s.FreshFrame source nonceid opens
  | _ => True

/-- Every slot of a node holds zeros or a nonce that was issued to the node, and
no issued nonce begins with zero. -/
structure NonceState.Filled (s : NonceState) : Prop where
  slot : ∀ nodeId table, s.tables nodeId = some table → ∀ nonce ∈ table.nonces.toList,
    nonce = Vector.replicate 8 0 ∨ .issued nodeId nonce ∈ s.uses
  nonzero : ∀ nodeId nonce, .issued nodeId nonce ∈ s.uses → peek nonce 0 ≠ 0

namespace NonceState

theorem filled_new : new.Filled where
  slot := by
    intro nodeId table h
    cases h
  nonzero := by
    intro nodeId nonce h
    cases h

theorem filled_record {s : NonceState} (h : s.Filled) {use : NonceUse}
    (huse : ∀ nodeId nonce, use = .issued nodeId nonce → peek nonce 0 ≠ 0) :
    (s.record use).Filled where
  slot := by
    intro nodeId table htable nonce hmem
    exact (h.slot nodeId table htable nonce hmem).imp_right (List.mem_cons_of_mem use)
  nonzero := by
    intro nodeId nonce hmem
    rcases List.mem_cons.mp hmem with heq | hmem
    · exact huse nodeId nonce heq.symm
    · exact h.nonzero nodeId nonce hmem

theorem filled_setTable {s : NonceState} (h : s.Filled) {nodeId : UInt8}
    {table : Option NonceTable}
    (htable : ∀ new, table = some new → ∀ nonce ∈ new.nonces.toList,
      nonce = Vector.replicate 8 0 ∨ .issued nodeId nonce ∈ s.uses) :
    (s.setTable nodeId table).Filled where
  slot := by
    intro nodeId' new hnew nonce hmem
    have hnew : Function.update s.tables nodeId table nodeId' = some new := hnew
    by_cases hnode : nodeId' = nodeId
    · subst hnode
      rw [Function.update_self] at hnew
      exact htable new hnew nonce hmem
    · rw [Function.update_of_ne hnode] at hnew
      exact h.slot nodeId' new hnew nonce hmem
  nonzero := h.nonzero

theorem filled_sendNonceKey {s : NonceState} (h : s.Filled) (nodeId : UInt8) (draws : Draws) :
    (s.sendNonceKey nodeId draws).Filled := by
  unfold sendNonceKey
  split
  · exact h
  · rename_i table htable
    split
    · exact h
    · rename_i table' nonce hgenerate
      obtain ⟨hnonces, hzero, -⟩ := NonceTable.generateNonceKey_eq_some hgenerate
      apply filled_setTable
      · apply filled_record h
        rintro _ _ ⟨⟩
        exact hzero
      · intro new hnew nonce' hmem
        obtain rfl := Option.some.inj hnew
        rw [Vector.mem_toList_iff, hnonces] at hmem
        rcases Vector.mem_or_eq_of_mem_set hmem with hold | rfl
        · have hslot := h.slot nodeId table htable nonce' (Vector.mem_toList_iff.mpr hold)
          exact hslot.imp_right (List.mem_cons_of_mem _)
        · exact Or.inr List.mem_cons_self

theorem filled_decrypt {s : NonceState} (h : s.Filled) (source nonceid : UInt8)
    (opens : Nonce → Bool) : (s.decrypt source nonceid opens).1.Filled := by
  unfold decrypt
  split
  · exact h
  · rename_i nonce _
    have hyielded : (s.record (.yielded source nonce)).Filled :=
      filled_record h (by rintro _ _ ⟨⟩)
    dsimp only
    split
    · exact filled_record hyielded (by rintro _ _ ⟨⟩)
    · exact hyielded

theorem filled_step (s : NonceState) (event : NonceEvent) (h : s.Filled) :
    (s.step event).Filled := by
  cases event with
  | newNode nodeId =>
      apply filled_setTable h
      intro new hnew nonce hmem
      obtain rfl := Option.some.inj hnew
      exact Or.inl (List.eq_of_mem_replicate hmem)
  | deleteNode nodeId =>
      apply filled_setTable h
      intro new hnew
      cases hnew
  | nonceGet nodeId draws => exact filled_sendNonceKey h nodeId draws
  | messageEncap source nonceid opens => exact filled_decrypt h source nonceid opens
  | messageEncapNonceGet source nonceid opens draws =>
      have hdecrypt := filled_decrypt h source nonceid opens
      simp only [step]
      split
      · exact filled_sendNonceKey hdecrypt source draws
      · exact hdecrypt

/-! ## One event -/

/-- A new nonce is always in order. -/
theorem antiReplay_sendNonceKey (s : NonceState) (nodeId : UInt8) (draws : Draws) :
    AntiReplay (s.sendNonceKey nodeId draws).uses ↔ AntiReplay s.uses := by
  unfold sendNonceKey
  split
  · rfl
  · split
    · rfl
    · exact and_iff_right trivial

/-- Only a nonce that was issued is found, unless zeros are. -/
theorem issued_iff_of_nonceKey {s : NonceState} (h : s.Filled) {source nonceid : UInt8}
    {nonce : Nonce} (hkey : s.nonceKey source nonceid = some nonce) :
    .issued source nonce ∈ s.uses ↔ (nonceid = 0 → s.nonceKey source 0 = none) := by
  have hfound := hkey
  unfold nonceKey at hfound
  split at hfound
  · cases hfound
  · rename_i table htable
    obtain ⟨hmem, hfirst⟩ := NonceTable.getNonceKey_eq_some hfound
    constructor
    · intro hissued hid
      exact absurd (hfirst.trans hid) (h.nonzero source nonce hissued)
    · intro hid
      rcases h.slot source table htable nonce hmem with rfl | hissued
      · have hzero : nonceid = 0 := hfirst.symm.trans (by decide)
        rw [hzero, hid hzero] at hkey
        cases hkey
      · exact hissued

theorem antiReplay_decrypt {s : NonceState} (h : s.Filled) (source nonceid : UInt8)
    (opens : Nonce → Bool) :
    AntiReplay (s.decrypt source nonceid opens).1.uses ↔
      AntiReplay s.uses ∧ s.FreshFrame source nonceid opens := by
  unfold decrypt FreshFrame
  cases hkey : s.nonceKey source nonceid with
  | none =>
      have hid : nonceid = 0 → s.nonceKey source 0 = none := by
        rintro rfl
        exact hkey
      have hopen : ∀ nonce, none = some nonce → opens nonce = true →
          s.uses.count (.accepted source nonce) < s.uses.count (.issued source nonce) := by
        rintro _ ⟨⟩
      exact (and_iff_left ⟨hid, hopen⟩).symm
  | some nonce =>
      rw [← issued_iff_of_nonceKey h hkey]
      dsimp only
      by_cases hopens : opens nonce = true
      · rw [if_pos hopens]
        have hcount : (NonceUse.accepted source nonce).InOrder (.yielded source nonce :: s.uses) ↔
            s.uses.count (.accepted source nonce) < s.uses.count (.issued source nonce) := by
          rw [NonceUse.InOrder, List.count_cons_of_ne (by rintro ⟨⟩),
            List.count_cons_of_ne (by rintro ⟨⟩)]
        calc AntiReplay (((s.record (.yielded source nonce)).record (.accepted source nonce)).uses)
            ↔ (NonceUse.accepted source nonce).InOrder (.yielded source nonce :: s.uses) ∧
                .issued source nonce ∈ s.uses ∧ AntiReplay s.uses := Iff.rfl
          _ ↔ _ := by
              rw [hcount]
              constructor
              · rintro ⟨hlt, hissued, hpast⟩
                refine ⟨hpast, hissued, ?_⟩
                intro nonce' hnonce _
                obtain rfl := Option.some.inj hnonce
                exact hlt
              · rintro ⟨hpast, hissued, hlt⟩
                exact ⟨hlt nonce rfl hopens, hissued, hpast⟩
      · rw [if_neg hopens]
        calc AntiReplay (s.record (.yielded source nonce)).uses
            ↔ .issued source nonce ∈ s.uses ∧ AntiReplay s.uses := Iff.rfl
          _ ↔ _ := by
              constructor
              · rintro ⟨hissued, hpast⟩
                refine ⟨hpast, hissued, ?_⟩
                intro nonce' hnonce hopens'
                obtain rfl := Option.some.inj hnonce
                exact absurd hopens' hopens
              · rintro ⟨hpast, hissued, -⟩
                exact ⟨hissued, hpast⟩

theorem antiReplay_step (s : NonceState) (event : NonceEvent) (h : s.Filled) :
    AntiReplay (s.step event).uses ↔ AntiReplay s.uses ∧ s.Fresh event := by
  cases event with
  | newNode nodeId => exact (and_iff_left trivial).symm
  | deleteNode nodeId => exact (and_iff_left trivial).symm
  | nonceGet nodeId draws =>
      exact (antiReplay_sendNonceKey s nodeId draws).trans (and_iff_left trivial).symm
  | messageEncap source nonceid opens => exact antiReplay_decrypt h source nonceid opens
  | messageEncapNonceGet source nonceid opens draws =>
      have hdecrypt := antiReplay_decrypt h source nonceid opens
      simp only [step]
      split
      · exact (antiReplay_sendNonceKey _ source draws).trans hdecrypt
      · exact hdecrypt

/-- Whatever the frames and the order in which they arrive, the uses are in order
exactly when every frame is fresh. -/
theorem antiReplay_run_iff (events : List NonceEvent) :
    AntiReplay (run step new events).uses ↔ Along step Fresh new events := by
  have hrun := run_keeps_iff_along (G := fun s : NonceState => AntiReplay s.uses) filled_step
    antiReplay_step filled_new events
  exact hrun.trans (and_iff_right trivial)

/-- A Basic Report of node 5. -/
def basicReport : Msg :=
  (Msg.new 1 1 REQUEST FuncId.sendData true).finished [1, 3, 0x20, 0x03, 0xff, 0x25] 10 []

/-- Whether it opens, encrypted for the nonce that begins with 1. -/
def opensBasicReport (nonce : Nonce) : Bool :=
  match encryptBuffer id id basicReport.buffer basicReport.length 5 1
    #v[1, 0, 0, 0, 0, 0, 0, 0] (Vector.replicate 8 2) 0x25 with
  | .error _ => false
  | .ok frame =>
      match decryptBuffer id id (frame.drop 6) (frame.getD 5 0 + 1) 5 1 nonce with
      | .ok (some _) => true
      | _ => false

/-- The same frame is accepted a second time, and the id zero finds the zeros of
a node to which no nonce was sent. -/
theorem not_antiReplay_basicReport :
    ¬ AntiReplay (run step new [.newNode 5, .nonceGet 5 ⟨[0], fun _ => 0⟩,
      .messageEncap 5 1 opensBasicReport, .messageEncap 5 1 opensBasicReport]).uses ∧
    ¬ AntiReplay (run step new [.newNode 5, .messageEncap 5 0 opensBasicReport]).uses := by
  decide +kernel

end NonceState

end OpenZWave
