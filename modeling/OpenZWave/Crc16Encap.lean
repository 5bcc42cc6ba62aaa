import OpenZWave.CommandFrame
import OpenZWave.InitData
import OpenZWave.Lib.Crc
import OpenZWave.Transparency

/-!
# CRC-16 encapsulation

`CRC16Encap::HandleMsg` with the accesses it makes to the frame. The checksum is the
remainder of the encapsulation, class byte first, on division by the polynomial of
CRC-CCITT; the handler of the inner class is to be given the bytes before it.
-/

namespace OpenZWave

open Checked Polynomial

namespace CRC16Encap

/-- `HandleMsg`: the call that it makes. -/
def handleMsg (node : Node) (f : CommandFrame) : Except FrameFault (List Call) := do
  let command ← f.read 0
  if command = crc16EncapCmd then
    let high ← f.read (← f.lengthLess 3).toNat
    let low ← f.read (← f.lengthLess 2).toNat
    let crcM := (high.toUInt16 <<< 8) + low.toUInt16
    let covered ← f.readRange 0 (← f.lengthLess 3).toNat
    if crcM ≠ Node.crc16 covered covered.length then return []
    else
      let commandClassId ← f.read 1
      match node.getCommandClass commandClassId with
      | none => return []
      | some cc =>
          return [{ cc := commandClassId, incoming := cc.afterMark, data := f.data.drop 2,
                    length := ← f.lengthLess 4, inst := 1 }]
  else return []

theorem crc16_take {data : List UInt8} {length : ℕ} (h : length ≤ data.length) :
    Node.crc16 (data.take length) (data.take length).length = Node.crc16 data length := by
  conv_rhs => rw [← List.take_append_drop length data]
  rw [← crc16_append (data.take length) (data.drop length), List.length_take, Nat.min_eq_left h]

/-- Where it stays inside the frame, it makes the calls of `Node.crc16HandleMsg`. -/
theorem eq_crc16HandleMsg {node : Node} {f : CommandFrame} {calls : List Call}
    (h : handleMsg node f = .ok calls) : calls = node.crc16HandleMsg f.data f.length := by
  obtain ⟨-, h⟩ := CommandFrame.read_bind_eq_ok.mp h
  rw [Node.crc16HandleMsg]
  split at h
  · rename_i hcommand
    obtain ⟨-, h⟩ := CommandFrame.lengthLess_bind_eq_ok.mp h
    obtain ⟨-, h⟩ := CommandFrame.read_bind_eq_ok.mp h
    obtain ⟨-, h⟩ := CommandFrame.lengthLess_bind_eq_ok.mp h
    obtain ⟨-, h⟩ := CommandFrame.read_bind_eq_ok.mp h
    obtain ⟨-, h⟩ := CommandFrame.lengthLess_bind_eq_ok.mp h
    obtain ⟨hinside, h⟩ := CommandFrame.readRange_bind_eq_ok.mp h
    rw [Nat.zero_add] at hinside
    rw [List.drop_zero, crc16_take hinside] at h
    rw [if_pos hcommand, Node.reportedCrc]
    split at h
    · rename_i hdiffers
      rw [if_pos hdiffers]
      cases h
      rfl
    · rename_i hequal
      obtain ⟨-, h⟩ := CommandFrame.read_bind_eq_ok.mp h
      rw [if_neg hequal, Node.deliver]
      cases hclass : node.getCommandClass (f.data.getD 1 0) with
      | none =>
          rw [hclass] at h
          cases h
          rfl
      | some cc =>
          rw [hclass] at h
          obtain ⟨-, h⟩ := CommandFrame.lengthLess_bind_eq_ok.mp h
          cases h
          rfl
  · rename_i hother
    rw [if_neg hother]
    cases h
    rfl

/-! ## The checksum -/

/-- CRC-CCITT with the initial value `0x1D0F`. -/
def IsChecksum (bytes : List UInt8) (crc : UInt16) : Prop :=
  Crc.toPoly crc.toBitVec =
    (X ^ (8 * bytes.length) * Crc.toPoly 0x1D0F#16 +
      X ^ 16 * Crc.message (bytes.map UInt8.toBitVec)) %ₘ (X ^ 16 + X ^ 12 + X ^ 5 + 1)

theorem generator_eq : Crc.generator 0x1021#16 = X ^ 16 + X ^ 12 + X ^ 5 + 1 := by
  have hbits : Crc.toPoly 0x1021#16 = 1 + X ^ 5 + X ^ 12 := by
    simp [Crc.toPoly, Finset.sum_range_succ]
  rw [Crc.generator, hbits]
  ring

/-- Eight places of the register for a byte at its high end. -/
def foldHigh (x : BitVec 8) : BitVec 16 :=
  let x := (x ^^^ x >>> 4).setWidth 16
  x <<< 12 ^^^ x <<< 5 ^^^ x

theorem shifts_high (x : BitVec 8) :
    (Crc.shift 0x1021#16)^[8] (x.setWidth 16 <<< 8) = foldHigh x := by
  revert x
  decide +kernel

theorem shifts_low (x : BitVec 8) :
    (Crc.shift 0x1021#16)^[8] (x.setWidth 16) = x.setWidth 16 <<< 8 := by
  revert x
  decide +kernel

/-- One byte of `crc16` is eight places of the register. -/
theorem toBitVec_crc16Step (crc : UInt16) (b : UInt8) :
    (Node.crc16Step crc b).toBitVec = Crc.feed 0x1021#16 crc.toBitVec b.toBitVec := by
  have hsplit : crc.toBitVec ^^^ b.toBitVec.setWidth 16 <<< 8 =
      ((crc.toBitVec >>> 8).setWidth 8 ^^^ b.toBitVec).setWidth 16 <<< 8 ^^^
        (crc.toBitVec.setWidth 8).setWidth 16 := by
    apply BitVec.eq_of_getLsbD_eq
    intro i hi
    simp only [BitVec.getLsbD_xor, BitVec.getLsbD_shiftLeft, BitVec.getLsbD_setWidth,
      BitVec.getLsbD_ushiftRight]
    rcases lt_or_ge i 8 with hlow | hhigh
    · simp [hlow, hi]
    · simp [hi, Nat.not_lt.mpr hhigh, show i - 8 < 8 by omega, show i - 8 < 16 by omega,
        Nat.add_sub_cancel' hhigh]
  have hlow : (crc.toBitVec.setWidth 8).setWidth 16 <<< 8 = crc.toBitVec <<< 8 := by
    apply BitVec.eq_of_getLsbD_eq
    intro i hi
    simp only [BitVec.getLsbD_shiftLeft, BitVec.getLsbD_setWidth]
    simp [hi, show i - 8 < 8 by omega, show i - 8 < 16 by omega]
  change _ = (Crc.shift 0x1021#16)^[8] (crc.toBitVec ^^^ b.toBitVec.setWidth 16 <<< 8)
  rw [hsplit, Crc.shifts_xor, shifts_high, shifts_low, hlow, foldHigh, Node.crc16Step]
  simp only [UInt16.toBitVec_xor, UInt16.toBitVec_shiftLeft]
  simp
  ac_rfl

theorem toBitVec_foldl_crc16Step (crc : UInt16) (bytes : List UInt8) :
    (bytes.foldl Node.crc16Step crc).toBitVec =
      (bytes.map UInt8.toBitVec).foldl (Crc.feed 0x1021#16) crc.toBitVec := by
  induction bytes generalizing crc with
  | nil => rfl
  | cons b bytes ih =>
      rw [List.foldl_cons, ih, toBitVec_crc16Step]
      rfl

/-- The loop of `crc16` runs over the bytes. -/
theorem crc16_eq_foldl (bytes : List UInt8) :
    Node.crc16 bytes bytes.length = bytes.foldl Node.crc16Step 0xF6AF := by
  induction bytes using List.reverseRecOn with
  | nil => rfl
  | append_singleton bytes b ih =>
      have hlast : (bytes ++ [b]).getD bytes.length 0 = b := by simp
      calc Node.crc16 (bytes ++ [b]) (bytes ++ [b]).length
          = Node.crc16Step (Node.crc16 (bytes ++ [b]) bytes.length)
              ((bytes ++ [b]).getD bytes.length 0) := by
            rw [List.length_append, List.length_singleton, Node.crc16, Node.crc16,
              List.range_succ, List.foldl_append]
            rfl
        _ = (bytes ++ [b]).foldl Node.crc16Step 0xF6AF := by
            rw [crc16_append, hlast, ih, List.foldl_append]
            rfl

/-- The initial value of `crc16` has the class byte in it. -/
theorem isChecksum_iff (bytes : List UInt8) (crc : UInt16) :
    IsChecksum (ClassId.crc16Encap :: bytes) crc ↔ crc = Node.crc16 bytes bytes.length := by
  have hinitial : (0xF6AF : UInt16) = Node.crc16Step 0x1D0F ClassId.crc16Encap := by decide
  have hregister := Crc.toPoly_foldl_feed (by decide : 8 ≤ 16) 0x1021#16 0x1D0F#16
    ((ClassId.crc16Encap :: bytes).map UInt8.toBitVec)
  have hcode : (Node.crc16 bytes bytes.length).toBitVec =
      ((ClassId.crc16Encap :: bytes).map UInt8.toBitVec).foldl (Crc.feed 0x1021#16) 0x1D0F#16 := by
    rw [crc16_eq_foldl, hinitial]
    exact toBitVec_foldl_crc16Step 0x1D0F (ClassId.crc16Encap :: bytes)
  rw [← hcode, generator_eq, List.length_map] at hregister
  rw [IsChecksum, ← hregister, Crc.toPoly_injective.eq_iff, UInt16.toBitVec_inj]

/-! ## What is dispatched -/

/-- The frame holds a command of the class: a class byte, at least one byte behind it,
and the checksum of all that is before. -/
def Encapsulates (f : CommandFrame) (commandClassId : UInt8) (command : List UInt8) : Prop :=
  command ≠ [] ∧ ∃ high low, f.data = crc16EncapCmd :: commandClassId :: (command ++ [high, low]) ∧
    IsChecksum (ClassId.crc16Encap :: crc16EncapCmd :: commandClassId :: command)
      ((high.toUInt16 <<< 8) + low.toUInt16)

/-- The handler of the class, if the node has it, is called once; its length counts the
class byte and the bytes of the command, which stand where it reads. -/
def Dispatches (node : Node) (commandClassId : UInt8) (command : List UInt8)
    (calls : List Call) : Prop :=
  match node.getCommandClass commandClassId with
  | none => calls = []
  | some cc => ∃ data length, calls = [⟨commandClassId, cc.afterMark, data, length, 1⟩] ∧
      command <+: data ∧ length.toNat = command.length + 1

/-- A command is dispatched exactly if the frame holds it, and no access leaves the frame. -/
def Faithful (node : Node) (f : CommandFrame) (result : Except FrameFault (List Call)) : Prop :=
  Yields result fun calls =>
    (∀ commandClassId command, Encapsulates f commandClassId command →
      Dispatches node commandClassId command calls) ∧
    ((∀ commandClassId command, ¬ Encapsulates f commandClassId command) → calls = [])

/-- The frame is long enough, or rejected before this counts. -/
def LongEnough (node : Node) (f : CommandFrame) : Prop :=
  f.data ≠ [] ∧ (f.data.head? = some crc16EncapCmd → f.data.length ≠ 1 ∧
    ∀ rest high low, f.data = crc16EncapCmd :: (rest ++ [high, low]) → rest.length < 2 →
      IsChecksum (ClassId.crc16Encap :: crc16EncapCmd :: rest)
        ((high.toUInt16 <<< 8) + low.toUInt16) →
      node.getCommandClass ((rest ++ [high]).getD 0 0) = none)

variable (node : Node) {f : CommandFrame}

/-- The last two bytes of a frame are compared with the checksum of the others. -/
theorem handleMsg_encap {rest : List UInt8} {high low : UInt8}
    (hdata : f.data = crc16EncapCmd :: (rest ++ [high, low])) :
    handleMsg node f =
      if (high.toUInt16 <<< 8) + low.toUInt16 ≠
          Node.crc16 (crc16EncapCmd :: rest) (rest.length + 1) then .ok []
      else
        .ok (match node.getCommandClass ((rest ++ [high]).getD 0 0) with
          | none => []
          | some cc => [⟨(rest ++ [high]).getD 0 0, cc.afterMark, f.data.drop 2,
              f.length - 4, 1⟩]) := by
  have hlength : f.data.length = rest.length + 3 := by
    rw [hdata]
    simp
  have hsub : ∀ n : UInt32, n.toNat ≤ rest.length + 4 →
      (f.length - n).toNat = rest.length + 4 - n.toNat := by
    intro n hn
    have hle : n ≤ f.length := f.le_length_iff.mpr (by omega)
    rw [f.toNat_length_sub hle, hlength]
  have hthree : (f.length - 3).toNat = rest.length + 1 := hsub 3 (Nat.le_add_left 3 _)
  have htwo : (f.length - 2).toNat = rest.length + 2 := hsub 2 (Nat.le_add_left 2 _)
  have hcommand : f.data.getD 0 0 = crc16EncapCmd := by rw [hdata]; rfl
  have hhigh : f.data.getD (rest.length + 1) 0 = high := by
    rw [hdata]
    simp
  have hlow : f.data.getD (rest.length + 2) 0 = low := by
    rw [hdata, List.getD_cons_succ]
    simp
  have hclass : f.data.getD 1 0 = (rest ++ [high]).getD 0 0 := by
    rw [hdata]
    cases rest <;> rfl
  have hcovered : (f.data.drop 0).take (rest.length + 1) = crc16EncapCmd :: rest := by
    rw [hdata]
    simp
  have hfour : (4 : UInt32).toNat ≤ f.data.length + 1 := by
    rw [hlength]
    exact Nat.le_add_left 4 _
  rw [handleMsg, CommandFrame.read_bind (by omega), hcommand, if_pos rfl,
    CommandFrame.lengthLess_bind (by rw [hlength]; exact Nat.le_add_left 3 _), hthree,
    CommandFrame.read_bind (by omega), hhigh,
    CommandFrame.lengthLess_bind (by rw [hlength]; exact Nat.le_add_left 2 _), htwo,
    CommandFrame.read_bind (by omega), hlow]
  dsimp only
  rw [CommandFrame.lengthLess_bind (by rw [hlength]; exact Nat.le_add_left 3 _), hthree,
    CommandFrame.readRange_bind (by omega), hcovered, List.length_cons]
  split
  · rfl
  · rw [CommandFrame.read_bind (by omega), hclass]
    cases node.getCommandClass ((rest ++ [high]).getD 0 0) with
    | none => rfl
    | some cc =>
        dsimp only
        rw [CommandFrame.lengthLess_bind hfour]
        rfl

/-- The last two bytes of a frame are its checksum. -/
theorem encapsulates_iff {rest : List UInt8} {high low : UInt8}
    (hdata : f.data = crc16EncapCmd :: (rest ++ [high, low])) {commandClassId : UInt8}
    {command : List UInt8} :
    Encapsulates f commandClassId command ↔ command ≠ [] ∧ rest = commandClassId :: command ∧
      IsChecksum (ClassId.crc16Encap :: crc16EncapCmd :: rest)
        ((high.toUInt16 <<< 8) + low.toUInt16) := by
  constructor
  · rintro ⟨hne, high', low', hdata', hchecksum⟩
    have htail : rest ++ [high, low] = (commandClassId :: command) ++ [high', low'] :=
      (List.cons.inj (hdata.symm.trans hdata')).2
    obtain ⟨rfl, hlast⟩ := List.append_inj' htail rfl
    obtain ⟨rfl, rfl⟩ : high = high' ∧ low = low' := by simpa using hlast
    exact ⟨hne, rfl, hchecksum⟩
  · rintro ⟨hne, rfl, hchecksum⟩
    exact ⟨hne, high, low, hdata, hchecksum⟩

theorem exists_append_two {bytes : List UInt8} (h : 2 ≤ bytes.length) :
    ∃ rest high low, bytes = rest ++ [high, low] := by
  obtain ⟨high, low, hlast⟩ := List.length_eq_two.mp
    (show (bytes.drop (bytes.length - 2)).length = 2 by rw [List.length_drop]; omega)
  exact ⟨bytes.take (bytes.length - 2), high, low, by rw [← hlast, List.take_append_drop]⟩

/-- A frame with fewer than two bytes before its checksum holds no command; its checksum
or the classes of the node must keep it from being dispatched. -/
theorem faithful_short_iff {rest : List UInt8} {high low : UInt8}
    (hdata : f.data = crc16EncapCmd :: (rest ++ [high, low])) (hshort : rest.length < 2) :
    Faithful node f (handleMsg node f) ↔ LongEnough node f := by
  have hnone : ∀ commandClassId command, ¬ Encapsulates f commandClassId command := by
    intro commandClassId command h
    obtain ⟨hne, rfl, -⟩ := (encapsulates_iff hdata).mp h
    cases command with
    | nil => exact hne rfl
    | cons b command => simp at hshort
  have hchecksum := isChecksum_iff (crc16EncapCmd :: rest) ((high.toUInt16 <<< 8) + low.toUInt16)
  have hlong : LongEnough node f ↔
      (IsChecksum (ClassId.crc16Encap :: crc16EncapCmd :: rest)
        ((high.toUInt16 <<< 8) + low.toUInt16) →
          node.getCommandClass ((rest ++ [high]).getD 0 0) = none) := by
    constructor
    · intro h
      exact (h.2 (by rw [hdata]; rfl)).2 rest high low hdata hshort
    · intro h
      refine ⟨by rw [hdata]; exact List.cons_ne_nil _ _, fun _ => ⟨by rw [hdata]; simp, ?_⟩⟩
      intro rest' high' low' hdata' _
      have htail := (List.cons.inj (hdata.symm.trans hdata')).2
      obtain ⟨rfl, hlast⟩ := List.append_inj' htail rfl
      obtain ⟨rfl, rfl⟩ : high = high' ∧ low = low' := by simpa using hlast
      exact h
  have hfaithful : Faithful node f (handleMsg node f) ↔ handleMsg node f = .ok [] := by
    constructor
    · rintro ⟨calls, hcalls, -, hempty⟩
      rw [hcalls, hempty hnone]
    · intro h
      rw [h]
      exact yields_ok.mpr ⟨fun cc command hholds => absurd hholds (hnone cc command), fun _ => rfl⟩
  rw [hfaithful, hlong, hchecksum, handleMsg_encap node hdata, List.length_cons]
  split
  · rename_i hdiffers
    exact iff_of_true rfl fun heq => absurd heq hdiffers
  · rename_i hequal
    rw [Except.ok.injEq]
    cases hclass : node.getCommandClass ((rest ++ [high]).getD 0 0) with
    | none => exact iff_of_true rfl fun _ => rfl
    | some cc =>
        refine iff_of_false (List.cons_ne_nil _ _) fun h => ?_
        exact Option.some_ne_none cc (h (not_not.mp hequal))

/-- A frame with room for a command is handled as it should be. -/
theorem faithful_of_long {cc b : UInt8} {rest : List UInt8} {high low : UInt8}
    (hdata : f.data = crc16EncapCmd :: (cc :: b :: rest ++ [high, low])) :
    Faithful node f (handleMsg node f) := by
  have hchecksum := isChecksum_iff (crc16EncapCmd :: cc :: b :: rest)
    ((high.toUInt16 <<< 8) + low.toUInt16)
  have hlength : (f.length - 4).toNat = (b :: rest).length + 1 := by
    have hbytes : f.data.length = rest.length + 5 := by
      rw [hdata]
      simp
    have hfour : (4 : UInt32) ≤ f.length :=
      f.le_length_iff.mpr (by rw [hbytes]; exact Nat.le_add_left 4 _)
    rw [f.toNat_length_sub hfour, hbytes, List.length_cons]
    rfl
  rw [handleMsg_encap node hdata]
  change Faithful node f (if _ ≠ Node.crc16 (crc16EncapCmd :: cc :: b :: rest)
    (crc16EncapCmd :: cc :: b :: rest).length then _ else _)
  split
  · rename_i hdiffers
    refine yields_ok.mpr ⟨?_, fun _ => rfl⟩
    intro commandClassId command h
    exact absurd (hchecksum.mp ((encapsulates_iff hdata).mp h).2.2) hdiffers
  · rename_i hequal
    refine yields_ok.mpr ⟨?_, ?_⟩
    · intro commandClassId command h
      obtain ⟨-, hrest, -⟩ := (encapsulates_iff hdata).mp h
      obtain ⟨rfl, rfl⟩ := List.cons.inj hrest
      rw [Dispatches]
      change match node.getCommandClass cc with | none => _ | some cc' => _
      cases hclass : node.getCommandClass cc with
      | none => simp [hclass]
      | some c =>
          refine ⟨f.data.drop 2, f.length - 4, by simp [hclass], ?_, hlength⟩
          rw [hdata]
          exact ⟨[high, low], rfl⟩
    · intro h
      refine absurd ((encapsulates_iff hdata).mpr ⟨List.cons_ne_nil b rest, rfl, ?_⟩)
        (h cc (b :: rest))
      exact hchecksum.mpr (not_not.mp hequal)

/-- A frame that ends behind the command byte: the place of the checksum wraps. -/
theorem not_faithful_of_one (hdata : f.data = [crc16EncapCmd]) :
    ¬ Faithful node f (handleMsg node f) := by
  have hlength : ¬ (3 : UInt32) ≤ f.length := by
    rw [f.le_length_iff, hdata]
    decide
  have hwraps : handleMsg node f = .error .underflow := by
    rw [handleMsg, CommandFrame.read_bind (by rw [hdata]; exact Nat.zero_lt_one), hdata]
    simp [CommandFrame.lengthLess, check, hlength]
    rfl
  rw [hwraps]
  rintro ⟨calls, hcalls, -⟩
  cases hcalls

theorem two_ne_crc16 :
    ∀ b : UInt8, (crc16EncapCmd.toUInt16 <<< 8) + b.toUInt16 ≠ Node.crc16 [] 0 := by
  have hbits : ∀ x : BitVec 8,
      (crc16EncapCmd.toUInt16 <<< 8) + (UInt8.ofBitVec x).toUInt16 ≠ Node.crc16 [] 0 := by
    decide +kernel
  exact fun b => hbits b.toBitVec

/-- With one byte behind the command byte, these two are no checksum of nothing. -/
theorem faithful_of_two {b : UInt8} (hdata : f.data = [crc16EncapCmd, b]) :
    Faithful node f (handleMsg node f) := by
  have hlength : f.data.length = 2 := by
    rw [hdata]
    rfl
  have hthree : (f.length - 3).toNat = 0 := by
    rw [f.toNat_length_sub (f.le_length_iff.mpr (hlength ▸ Nat.le_refl 3)), hlength]
    rfl
  have htwo : (f.length - 2).toNat = 1 := by
    rw [f.toNat_length_sub (f.le_length_iff.mpr (hlength ▸ Nat.le_succ 2)), hlength]
    rfl
  have hok : handleMsg node f = .ok [] := by
    rw [handleMsg, CommandFrame.read_bind (by omega), hdata, List.getD_cons_zero, if_pos rfl,
      CommandFrame.lengthLess_bind (hlength ▸ Nat.le_refl 3), hthree,
      CommandFrame.read_bind (by omega), hdata, List.getD_cons_zero,
      CommandFrame.lengthLess_bind (hlength ▸ Nat.le_succ 2), htwo,
      CommandFrame.read_bind (by omega), hdata, List.getD_cons_succ, List.getD_cons_zero]
    dsimp only
    rw [CommandFrame.lengthLess_bind (hlength ▸ Nat.le_refl 3), hthree,
      CommandFrame.readRange_bind (Nat.zero_le _), List.take_zero, List.length_nil,
      if_pos (two_ne_crc16 b)]
    rfl
  have hnone : ∀ cc bytes, ¬ Encapsulates f cc bytes := by
    rintro cc bytes ⟨-, high, low, hdata', -⟩
    have hlengths := congrArg List.length (hdata.symm.trans hdata')
    simp at hlengths
  rw [hok]
  exact yields_ok.mpr ⟨fun cc bytes h => absurd h (hnone cc bytes), fun _ => rfl⟩

/-- For every frame: the command it holds is dispatched, and nothing else, exactly if the
frame is long enough. -/
theorem encapsulation_faithful_iff (node : Node) (f : CommandFrame) :
    Faithful node f (handleMsg node f) ↔ LongEnough node f := by
  rcases hdata : f.data with _ | ⟨command, tail⟩
  · refine iff_of_false ?_ fun h => h.1 hdata
    rintro ⟨calls, hcalls, -⟩
    rw [handleMsg, CommandFrame.read, hdata] at hcalls
    cases hcalls
  · have hfirst : f.data.getD 0 0 = command := by rw [hdata]; rfl
    have hread : 0 < f.data.length := by rw [hdata]; exact Nat.zero_lt_succ _
    rcases eq_or_ne command crc16EncapCmd with rfl | hother
    · rcases Nat.lt_or_ge tail.length 2 with hshort | hlong
      · rcases tail with _ | ⟨b, _ | ⟨_, _⟩⟩
        · refine iff_of_false (not_faithful_of_one node hdata) fun h => ?_
          exact (h.2 (by rw [hdata]; rfl)).1 (by rw [hdata]; rfl)
        · refine iff_of_true (faithful_of_two node hdata) ⟨by rw [hdata]; exact nofun, ?_⟩
          intro _
          refine ⟨by rw [hdata]; simp, fun rest high low hdata' => ?_⟩
          have hlengths := congrArg List.length (hdata.symm.trans hdata')
          simp at hlengths
        · simp at hshort
      · obtain ⟨rest, high, low, rfl⟩ := exists_append_two hlong
        rcases rest with _ | ⟨cc, _ | ⟨b, rest⟩⟩
        · exact faithful_short_iff node hdata Nat.zero_lt_two
        · exact faithful_short_iff node hdata Nat.one_lt_two
        · refine iff_of_true (faithful_of_long node hdata) ⟨by rw [hdata]; exact nofun, ?_⟩
          intro _
          refine ⟨by rw [hdata]; simp, fun rest' high' low' hdata' hshort => ?_⟩
          have hlengths := congrArg List.length (hdata.symm.trans hdata')
          simp only [List.length_cons, List.length_append, List.length_nil] at hlengths
          omega
    · have hok : handleMsg node f = .ok [] := by
        rw [handleMsg, CommandFrame.read_bind hread, hfirst, if_neg hother]
        rfl
      have hnone : ∀ cc bytes, ¬ Encapsulates f cc bytes := by
        rintro cc bytes ⟨-, high, low, hdata', -⟩
        exact hother (List.cons.inj (hdata.symm.trans hdata')).1
      refine iff_of_true ?_ ⟨by rw [hdata]; exact nofun, ?_⟩
      · rw [hok]
        exact yields_ok.mpr ⟨fun cc bytes h => absurd h (hnone cc bytes), fun _ => rfl⟩
      · intro h
        rw [hdata] at h
        exact absurd (Option.some.inj h) hother

/-- A frame that ends behind its command byte, and one whose only byte before the
checksum is missing: the first byte of the checksum is taken for the class. -/
theorem encapsulation_not_faithful :
    ¬ Faithful (Node.create 5) ⟨[0x01], by decide⟩ (handleMsg (Node.create 5) ⟨[0x01], by decide⟩) :=
  not_faithful_of_one _ rfl

end CRC16Encap

end OpenZWave
