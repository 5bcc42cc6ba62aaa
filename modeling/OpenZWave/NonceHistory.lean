import OpenZWave.Lib.RotatingTable
import OpenZWave.Nonces

/-!
# The nonces of a node

The table of nonces against the history of those that were issued: the slots hold the
last eight, under ids of their own, and a new nonce takes the slot of the oldest.
-/

namespace OpenZWave

open ByteBuffer RotatingTable

/-- What an empty slot holds. -/
def zeroNonce : Nonce := Vector.replicate 8 0

/-- The first byte. -/
def Nonce.id (nonce : Nonce) : UInt8 := peek nonce 0

namespace NonceTable

/-- A call of `GenerateNonceKey` that returns. The nonces issued so far, the last first,
stand beside the table. -/
def issue (s : NonceTable × List Nonce) (draws : Draws) : Option (NonceTable × List Nonce) :=
  (s.1.generateNonceKey draws.first draws.others).map fun result =>
    (result.1, result.2 :: s.2)

/-- The slots hold the last eight nonces, and their ids are neither zero nor alike. -/
structure Follows (table : NonceTable) (issued : List Nonce) : Prop where
  tracks : Tracks table.nonces table.lastnonce zeroNonce issued
  nonzero : ∀ nonce ∈ issued, nonce.id ≠ 0
  distinct : ((issued.take 8).map Nonce.id).Nodup

/-- The issued nonces in the table have ids of their own, under which the last eight are
found, and a call that returns replaces the oldest of these and no other. -/
structure KeepsLastEight (table : NonceTable) (issued : List Nonce) : Prop where
  nonzero : ∀ i, table.nonces.get i ∈ issued → (table.nonces.get i).id ≠ 0
  distinct : ∀ i j, i ≠ j → table.nonces.get i ∈ issued → table.nonces.get j ∈ issued →
    (table.nonces.get i).id ≠ (table.nonces.get j).id
  found : ∀ nonce ∈ issued.take 8, table.getNonceKey nonce.id = some nonce
  replaced : ∀ (draws : Draws) table' nonce,
    table.generateNonceKey draws.first draws.others = some (table', nonce) →
      table.nonces.get table.lastnonce = issued.getD 7 zeroNonce ∧
      table'.nonces.get table.lastnonce = nonce ∧
      ∀ i, i ≠ table.lastnonce → table'.nonces.get i = table.nonces.get i

variable {table table' : NonceTable} {issued : List Nonce} {draws : Draws} {nonce : Nonce}

/-! ## One call -/

theorem follows_new : new.Follows [] where
  tracks := tracks_replicate 0 zeroNonce
  nonzero := by
    intro nonce h
    cases h
  distinct := List.nodup_nil

theorem generateNonceKey_lastnonce
    (h : table.generateNonceKey draws.first draws.others = some (table', nonce)) :
    table'.lastnonce = table.lastnonce + 1 := by
  rw [generateNonceKey] at h
  split at h
  · cases h
  · cases h
    rfl

theorem exists_getD_of_mem_take {k : ℕ} (h : nonce ∈ issued.take k) :
    ∃ j, j < k ∧ j < issued.length ∧ issued.getD j zeroNonce = nonce := by
  obtain ⟨j, hj, rfl⟩ := List.mem_iff_getElem.mp h
  rw [List.length_take] at hj
  have hlength : j < issued.length := by omega
  refine ⟨j, by omega, hlength, ?_⟩
  rw [List.getD_eq_getElem _ _ hlength, List.getElem_take]

/-- The id of a new nonce is none of those in the other slots. -/
theorem Follows.fresh (h : table.Follows issued)
    (hnew : table.generateNonceKey draws.first draws.others = some (table', nonce)) :
    nonce.id ∉ (issued.take 7).map Nonce.id := by
  obtain ⟨-, -, hclash⟩ := generateNonceKey_eq_some hnew
  intro hmem
  obtain ⟨old, hold, hid⟩ := List.mem_map.mp hmem
  obtain ⟨k, hk, -, rfl⟩ := exists_getD_of_mem_take hold
  obtain ⟨i, hother, hslot⟩ := h.tracks.exists_other hk
  have hclashes : table.clashes (peek nonce 0) = true := by
    rw [clashes, List.any_eq_true]
    refine ⟨i, List.mem_finRange i, ?_⟩
    rw [Bool.and_eq_true, bne_iff_ne, beq_iff_eq]
    exact ⟨hother, (congrArg Nonce.id hslot).trans hid⟩
  rw [hclash] at hclashes
  cases hclashes

theorem Follows.next (h : table.Follows issued)
    (hnew : table.generateNonceKey draws.first draws.others = some (table', nonce)) :
    table'.Follows (nonce :: issued) := by
  obtain ⟨hnonces, hzero, -⟩ := generateNonceKey_eq_some hnew
  refine ⟨?_, ?_, ?_⟩
  · rw [hnonces, generateNonceKey_lastnonce hnew]
    exact h.tracks.set nonce
  · rw [List.forall_mem_cons]
    exact ⟨hzero, h.nonzero⟩
  · rw [List.take_succ_cons, List.map_cons, List.nodup_cons]
    have hseven : (issued.take 7).Sublist (issued.take 8) :=
      List.take_sublist_take_left (by decide)
    exact ⟨h.fresh hnew, h.distinct.sublist (hseven.map Nonce.id)⟩

/-! ## What the table answers -/

/-- A slot holds an issued nonce exactly if it is not empty. -/
theorem Follows.mem_iff (h : table.Follows issued) (i : Fin 8) :
    table.nonces.get i ∈ issued ↔ (table.lastnonce - 1 - i : Fin 8) < issued.length := by
  rw [h.tracks.slot i]
  constructor
  · intro hmem
    by_contra hnone
    rw [List.getD_eq_default _ _ (Nat.not_lt.mp hnone)] at hmem
    exact h.nonzero zeroNonce hmem (by decide)
  · intro hlt
    rw [List.getD_eq_getElem _ _ hlt]
    exact List.getElem_mem hlt

/-- Of the last eight nonces only one has a given id. -/
theorem Follows.id_inj (h : table.Follows issued) {j k : ℕ} (hj : j < 8 ∧ j < issued.length)
    (hk : k < 8 ∧ k < issued.length)
    (hid : (issued.getD j zeroNonce).id = (issued.getD k zeroNonce).id) : j = k := by
  have hlength : ((issued.take 8).map Nonce.id).length = min 8 issued.length := by
    rw [List.length_map, List.length_take]
  have hjlt : j < ((issued.take 8).map Nonce.id).length := by omega
  have hklt : k < ((issued.take 8).map Nonce.id).length := by omega
  rw [List.getD_eq_getElem _ _ hj.2, List.getD_eq_getElem _ _ hk.2] at hid
  have hentry : ((issued.take 8).map Nonce.id)[j] = ((issued.take 8).map Nonce.id)[k] := by
    rwa [List.getElem_map, List.getElem_map, List.getElem_take, List.getElem_take]
  exact h.distinct.getElem_inj_iff.mp hentry

theorem Follows.getNonceKey (h : table.Follows issued) (hmem : nonce ∈ issued.take 8) :
    table.getNonceKey nonce.id = some nonce := by
  obtain ⟨k, hk, hlength, rfl⟩ := exists_getD_of_mem_take hmem
  have hissued := List.mem_of_mem_take hmem
  have hslot := h.tracks ⟨k, hk⟩
  cases hfind : table.getNonceKey (issued.getD k zeroNonce).id with
  | none =>
      rw [NonceTable.getNonceKey, List.find?_eq_none] at hfind
      refine absurd (beq_self_eq_true _) (hfind _ ?_)
      rw [Vector.mem_toList_iff, ← hslot]
      exact Vector.getElem_mem _
  | some found =>
      obtain ⟨hfound, hid⟩ := getNonceKey_eq_some hfind
      rw [Vector.mem_toList_iff, Vector.mem_iff_getElem] at hfound
      obtain ⟨i, hi, rfl⟩ := hfound
      have hplace := h.tracks.slot ⟨i, hi⟩
      have hin : table.nonces.get ⟨i, hi⟩ ∈ issued := by
        rw [h.mem_iff]
        by_contra hempty
        rw [List.getD_eq_default _ _ (Nat.not_lt.mp hempty)] at hplace
        have hzero : (issued.getD k zeroNonce).id = 0 :=
          hid.symm.trans (congrArg Nonce.id hplace)
        exact h.nonzero _ hissued hzero
      have hsame := h.id_inj ⟨Fin.isLt _, (h.mem_iff _).mp hin⟩ ⟨hk, hlength⟩
        ((congrArg Nonce.id hplace).symm.trans hid)
      rw [hsame] at hplace
      exact congrArg some hplace

theorem Follows.keepsLastEight (h : table.Follows issued) : table.KeepsLastEight issued where
  nonzero := fun i hmem => h.nonzero _ hmem
  distinct := by
    intro i j hne hi hj hid
    rw [h.mem_iff] at hi hj
    rw [h.tracks.slot i, h.tracks.slot j] at hid
    have hsame := h.id_inj ⟨Fin.isLt _, hi⟩ ⟨Fin.isLt _, hj⟩ hid
    exact hne (sub_right_injective (Fin.ext hsame))
  found := fun nonce hmem => h.getNonceKey hmem
  replaced := by
    intro draws table' nonce hnew
    obtain ⟨hnonces, -⟩ := generateNonceKey_eq_some hnew
    refine ⟨h.tracks.oldest, ?_, ?_⟩
    · rw [hnonces]
      exact Vector.getElem_set_self _
    · intro i hi
      rw [hnonces]
      exact get_set_of_ne hi.symm _ _

/-! ## Runs -/

theorem follows_foldlM {s s' : NonceTable × List Nonce} (h : s.1.Follows s.2)
    {calls : List Draws} (hrun : calls.foldlM issue s = some s') : s'.1.Follows s'.2 := by
  induction calls generalizing s with
  | nil =>
      cases hrun
      exact h
  | cons draws calls ih =>
      rw [List.foldlM_cons] at hrun
      obtain ⟨next, hcall, hrest⟩ := Option.bind_eq_some_iff.mp hrun
      obtain ⟨⟨table', nonce⟩, hnew, rfl⟩ := Option.map_eq_some_iff.mp hcall
      exact ih (h.next hnew) hrest

/-- After any number of calls that return, whatever was drawn in them. -/
theorem keepsLastEight_of_issued {calls : List Draws} {table : NonceTable} {issued : List Nonce}
    (h : calls.foldlM issue (new, []) = some (table, issued)) : table.KeepsLastEight issued :=
  (follows_foldlM follows_new h).keepsLastEight

/-- The second call draws the id of the first nonce, and draws again. -/
def repeatedDraws : List Draws := [⟨[0], fun _ => 7⟩, ⟨[0, 1], fun _ => 9⟩]

theorem keepsLastEight_repeatedDraws : ∃ table issued,
    repeatedDraws.foldlM issue (new, []) = some (table, issued) ∧ table.KeepsLastEight issued := by
  have hreturns : (repeatedDraws.foldlM issue (new, [])).isSome = true := by decide
  obtain ⟨⟨table, issued⟩, h⟩ := Option.isSome_iff_exists.mp hreturns
  exact ⟨table, issued, h, keepsLastEight_of_issued h⟩

end NonceTable

end OpenZWave
