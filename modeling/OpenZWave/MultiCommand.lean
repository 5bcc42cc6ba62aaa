import OpenZWave.CommandFrame
import OpenZWave.Dispatch
import OpenZWave.InitData
import Mathlib.Data.List.TakeWhile

/-!
# Multi commands

`MultiCmd::HandleMsg` with the accesses it makes to the frame. The announced records are
read off the bytes by their lengths; to be dispatched are those before the first that is
not well formed.
-/

namespace OpenZWave

open Checked

namespace MultiCmd

/-- A command is handed to its class, with a length taken from that of its record. -/
def forward (node : Node) (commandClassId length : UInt8) (data : List UInt8) :
    Except FrameFault (List Call) :=
  match node.getCommandClass commandClassId with
  | none => return []
  | some cc => do
      check (1 ≤ length) .underflow
      return [{ cc := commandClassId, incoming := cc.afterMark, data := data,
                length := length.toUInt32 - 1, inst := 1 }]

/-- The loop over the commands from number `i` on, whose record is at `base`. -/
def loop (node : Node) (f : CommandFrame) (commands : UInt8) (highestIndex : ℤ) (i : UInt8)
    (base : ℕ) : Except FrameFault (List Call) :=
  if i ≤ commands then
    if (base : ℤ) > highestIndex then return []
    else do
      let length ← f.read base
      if ((base + length.toNat : ℕ) : ℤ) > highestIndex then return []
      else
        let commandClassId ← f.read (base + 1)
        let calls ← forward node commandClassId length (f.data.drop (base + 2))
        let others ← loop node f commands highestIndex (i + 1) (base + (length.toNat + 1))
        return calls ++ others
  else return []
termination_by (highestIndex + 1 - base).toNat

/-- `HandleMsg`: the calls that it makes. -/
def handleMsg (node : Node) (f : CommandFrame) : Except FrameFault (List Call) := do
  let command ← f.read 0
  if command = multiCmdEncap then
    if f.length < 3 then return []
    else
      let commands ← f.read 1
      let highestIndex := asInt (← f.lengthLess 2)
      loop node f commands highestIndex 1 2
  else return []

/-! ## The announced records -/

/-- A record: its length, and the bytes of the frame behind the length byte. -/
structure Record where
  length : UInt8
  rest : List UInt8

namespace Record

variable (r : Record)

def commandClassId : UInt8 := r.rest.getD 0 0

/-- The bytes of the command behind its class. -/
def command : List UInt8 := (r.rest.take r.length.toNat).tail

/-- The record lies inside the frame. -/
def Inside : Prop := r.length.toNat ≤ r.rest.length

/-- It also has a class and a command byte. -/
def WellFormed : Prop := 2 ≤ r.length.toNat ∧ r.Inside

/-- The node has the class. -/
def hasClass (node : Node) : Bool := (node.getCommandClass r.commandClassId).isSome

instance : Decidable r.Inside := inferInstanceAs (Decidable (_ ≤ _))

instance : Decidable r.WellFormed := inferInstanceAs (Decidable (_ ∧ _))

end Record

/-- The first `n` records of the bytes. -/
def records : ℕ → List UInt8 → List Record
  | 0, _ => []
  | _ + 1, [] => []
  | n + 1, length :: rest => ⟨length, rest⟩ :: records n (rest.drop length.toNat)

/-- The records that a frame announces. -/
def announced (f : CommandFrame) : List Record :=
  match f.data with
  | command :: commands :: bytes =>
      if command = multiCmdEncap then records commands.toNat bytes else []
  | _ => []

/-- The call hands the command of the record to its class: the bytes stand where the
handler reads, and the length is their number. -/
def Handed (node : Node) (r : Record) (call : Call) : Prop :=
  ∃ cc, node.getCommandClass r.commandClassId = some cc ∧ call.cc = r.commandClassId ∧
    call.incoming = cc.afterMark ∧ r.command <+: call.data ∧
    call.length.toNat = r.command.length ∧ call.inst = 1

/-- The records of the longest well-formed prefix whose class the node has are handed
over, each once and in order, and no access leaves the frame. -/
def Faithful (node : Node) (f : CommandFrame) (result : Except FrameFault (List Call)) : Prop :=
  Yields result fun calls =>
    List.Forall₂ (Handed node)
      (((announced f).takeWhile (·.WellFormed)).filter (·.hasClass node)) calls

/-- From the first record on that is not well formed, none that lies inside the frame has
a class of the node, and each has a byte behind its length. -/
def Harmless (node : Node) (f : CommandFrame) : Prop :=
  f.data ≠ [] ∧ ∀ r ∈ ((announced f).takeWhile (·.Inside)).dropWhile (·.WellFormed),
    r.rest ≠ [] ∧ node.getCommandClass r.commandClassId = none

/-! ## The loop over the records -/

variable (node : Node) {f : CommandFrame}

/-- One pass of the loop. -/
def forwardRecord (r : Record) : Except FrameFault (List Call) := do
  let commandClassId ← readAt r.rest 0 .outside
  forward node commandClassId r.length r.rest.tail

def forwardAll : List Record → Except FrameFault (List Call)
  | [] => return []
  | r :: rs => do
      let calls ← forwardRecord node r
      let others ← forwardAll rs
      return calls ++ others

theorem getD_of_drop_eq_cons {data rest : List UInt8} {base : ℕ} {b : UInt8}
    (h : data.drop base = b :: rest) : data.getD base 0 = b := by
  rw [List.getD_eq_getElem?_getD, ← Nat.add_zero base, ← List.getElem?_drop, h]
  rfl

theorem drop_succ_of_drop_eq_cons {data rest : List UInt8} {base : ℕ} {b : UInt8}
    (h : data.drop base = b :: rest) : data.drop (base + 1) = rest := by
  rw [← List.drop_drop, h, List.drop_one, List.tail_cons]

/-- The counter does not wrap before the frame ends. -/
theorem loop_eq_forwardAll {commands i : UInt8} {base : ℕ} {bytes : List UInt8}
    (hbytes : f.data.drop base = bytes) (hcounter : i.toNat + bytes.length ≤ 255) :
    loop node f commands (f.data.length - 1) i base =
      forwardAll node ((records (commands.toNat + 1 - i.toNat) bytes).takeWhile (·.Inside)) := by
  induction hlength : bytes.length using Nat.strong_induction_on generalizing i base bytes with
  | _ n ih =>
  have hdrop := congrArg List.length hbytes
  rw [List.length_drop] at hdrop
  rw [loop]
  split
  · rename_i hi
    rw [UInt8.le_iff_toNat_le] at hi
    obtain ⟨k, hk⟩ := Nat.exists_eq_add_of_le hi
    have hcount : commands.toNat + 1 - i.toNat = k + 1 := by omega
    rw [hcount]
    cases bytes with
    | nil =>
        rw [if_pos (by rw [List.length_nil] at hdrop; omega)]
        rfl
    | cons length rest =>
        rw [List.length_cons] at hdrop hcounter hlength
        have hrest := drop_succ_of_drop_eq_cons hbytes
        rw [if_neg (by omega), CommandFrame.read_bind (by omega), getD_of_drop_eq_cons hbytes,
          records, List.takeWhile_cons]
        have hsum : i.toNat + 1 < 2 ^ 8 := by omega
        have hnext : (i + 1).toNat = i.toNat + 1 := by
          rw [UInt8.toNat_add]
          exact Nat.mod_eq_of_lt hsum
        rcases Nat.lt_or_ge rest.length length.toNat with houtside | hinside
        · rw [if_pos (by omega), if_neg (by rw [decide_eq_true_eq]; exact Nat.not_le.mpr houtside)]
          rfl
        · have hbehind : f.data.drop (base + (length.toNat + 1)) = rest.drop length.toNat := by
            rw [← hrest, List.drop_drop]
            congr 1
            omega
          have hothers := ih (rest.drop length.toNat).length (by rw [List.length_drop]; omega)
            hbehind (i := i + 1) (by rw [hnext, List.length_drop]; omega) rfl
          rw [hnext, show commands.toNat + 1 - (i.toNat + 1) = k by omega] at hothers
          rw [if_neg (by omega), if_pos (by rw [decide_eq_true_eq]; exact hinside), forwardAll,
            forwardRecord, bind_assoc, hothers, ← hrest, readAt_drop, List.tail_drop]
          rfl
  · rename_i hi
    rw [UInt8.le_iff_toNat_le, Nat.not_le] at hi
    rw [Nat.sub_eq_zero_of_le hi]
    rfl

/-! ## What is handed over -/

theorem forwardRecord_eq_nil {r : Record} :
    forwardRecord node r = .ok [] ↔ r.rest ≠ [] ∧ node.getCommandClass r.commandClassId = none := by
  rw [forwardRecord, readAt_bind_eq_ok 0]
  apply and_congr List.length_pos_iff
  change forward node r.commandClassId r.length r.rest.tail = .ok [] ↔ _
  rw [forward]
  cases hclass : node.getCommandClass r.commandClassId with
  | none => exact iff_of_true rfl rfl
  | some cc =>
      refine iff_of_false (fun h => ?_) (Option.some_ne_none cc)
      obtain ⟨-, h⟩ := check_bind_eq_ok.mp h
      cases h

/-- Nothing is handed over exactly if each record is harmless. -/
theorem forwardAll_eq_nil {rs : List Record} :
    forwardAll node rs = .ok [] ↔
      ∀ r ∈ rs, r.rest ≠ [] ∧ node.getCommandClass r.commandClassId = none := by
  induction rs with
  | nil => exact iff_of_true rfl nofun
  | cons r rs ih =>
      rw [List.forall_mem_cons, ← ih, ← forwardRecord_eq_nil, forwardAll]
      constructor
      · intro h
        obtain ⟨calls, hcalls, h⟩ := bind_eq_ok.mp h
        obtain ⟨others, hothers, h⟩ := bind_eq_ok.mp h
        obtain ⟨rfl, rfl⟩ := List.append_eq_nil_iff.mp (Except.ok.inj h)
        exact ⟨hcalls, hothers⟩
      · rintro ⟨hcalls, hothers⟩
        rw [hcalls, ok_bind, hothers]
        rfl

/-- A well-formed record is handed to its class, if the node has it. -/
theorem forwardRecord_of_wellFormed {r : Record} (h : r.WellFormed) :
    ∃ calls, forwardRecord node r = .ok calls ∧
      List.Forall₂ (Handed node) ([r].filter (·.hasClass node)) calls := by
  obtain ⟨hlength, hinside⟩ := h
  have hpositive : (1 : UInt8) ≤ r.length :=
    UInt8.le_iff_toNat_le.mpr (Nat.le_trans (Nat.le_succ 1) hlength)
  rw [Record.Inside] at hinside
  rw [forwardRecord, readAt_bind (by omega) 0]
  change ∃ calls, forward node r.commandClassId r.length r.rest.tail = .ok calls ∧ _
  rw [forward]
  cases hclass : node.getCommandClass r.commandClassId with
  | none => exact ⟨[], rfl, by simp [Record.hasClass, hclass]⟩
  | some cc =>
      have hhas : r.hasClass node = true := by rw [Record.hasClass, hclass]; rfl
      have hcommand : r.command.length = r.length.toNat - 1 := by
        rw [Record.command, List.length_tail, List.length_take, Nat.min_eq_left hinside]
      have hless : (r.length.toUInt32 - 1).toNat = r.length.toNat - 1 := by
        rw [UInt32.toNat_sub_of_le _ _ (UInt32.le_iff_toNat_le.mpr (by simpa using by omega)),
          UInt8.toNat_toUInt32]
        rfl
      refine ⟨_, check_bind hpositive _ _, ?_⟩
      rw [List.filter_singleton, hhas]
      refine .cons ⟨cc, hclass, rfl, rfl, ?_, hless.trans hcommand.symm, rfl⟩ .nil
      rw [Record.command, ← List.drop_one, ← List.drop_one, List.drop_take]
      exact List.take_prefix _ _

/-- A run over records is right exactly if those from the first one on that is not well
formed are harmless. -/
theorem forwardAll_iff {rs : List Record} :
    Yields (forwardAll node rs)
        (List.Forall₂ (Handed node) ((rs.takeWhile (·.WellFormed)).filter (·.hasClass node))) ↔
      ∀ r ∈ rs.dropWhile (·.WellFormed),
        r.rest ≠ [] ∧ node.getCommandClass r.commandClassId = none := by
  induction rs with
  | nil => exact iff_of_true (yields_pure.mpr .nil) nofun
  | cons r rs ih =>
      by_cases hformed : r.WellFormed
      · obtain ⟨calls, hcalls, hhanded⟩ := forwardRecord_of_wellFormed node hformed
        rw [List.takeWhile_cons_of_pos (by simpa using hformed),
          List.dropWhile_cons_of_pos (by simpa using hformed), ← ih, forwardAll, hcalls, ok_bind,
          ← List.singleton_append, List.filter_append]
        constructor
        · rintro ⟨all, hall, hmatch⟩
          obtain ⟨others, hothers, hall⟩ := bind_eq_ok.mp hall
          cases hall
          refine ⟨others, hothers, ?_⟩
          have hdrop := List.forall₂_drop ([r].filter (·.hasClass node)).length hmatch
          rwa [List.drop_left, hhanded.length_eq, List.drop_left] at hdrop
        · rintro ⟨others, hothers, hmatch⟩
          refine ⟨calls ++ others, ?_, List.rel_append hhanded hmatch⟩
          rw [hothers]
          rfl
      · rw [List.takeWhile_cons_of_neg (by simpa using hformed),
          List.dropWhile_cons_of_neg (by simpa using hformed), ← forwardAll_eq_nil]
        constructor
        · rintro ⟨calls, hcalls, hmatch⟩
          rw [hcalls, List.forall₂_nil_left_iff.mp hmatch]
        · intro h
          exact ⟨[], h, .nil⟩

theorem takeWhile_inside_wellFormed (rs : List Record) :
    (rs.takeWhile (·.Inside)).takeWhile (·.WellFormed) = rs.takeWhile (·.WellFormed) := by
  rw [List.takeWhile_takeWhile]
  congr 1
  funext r
  rw [decide_eq_decide, decide_eq_true_eq, decide_eq_true_eq]
  exact and_iff_left_of_imp And.right

theorem length_lt_three_iff : f.length < 3 ↔ f.data.length < 2 := by
  rw [UInt32.lt_iff_toNat_lt, f.toNat_length]
  exact Nat.succ_lt_succ_iff

theorem asInt_length_sub (h : 2 ≤ f.data.length) (hframe : f.data.length < 255) :
    asInt (f.length - 2) = f.data.length - 1 := by
  have htwo : (2 : UInt32) ≤ f.length := f.le_length_iff.mpr (Nat.le_succ_of_le h)
  have hnumber : (f.length - 2).toNat = f.data.length - 1 := f.toNat_length_sub htwo
  rw [asInt_of_small (by omega), hnumber]
  omega

/-- The length of a received frame is a byte. -/
theorem handleMsg_eq_forwardAll (hframe : f.data.length < 255) (hread : 0 < f.data.length) :
    handleMsg node f = forwardAll node ((announced f).takeWhile (·.Inside)) := by
  obtain ⟨command, tail, hdata⟩ := List.exists_cons_of_length_pos hread
  have hfirst : f.data.getD 0 0 = command := by rw [hdata]; rfl
  rw [handleMsg, CommandFrame.read_bind hread, hfirst, announced, hdata]
  split
  · rename_i hencap
    have hlength := congrArg List.length hdata
    rcases tail with _ | ⟨commands, bytes⟩
    · rw [if_pos (length_lt_three_iff.mpr (hlength ▸ Nat.one_lt_two))]
      rfl
    · rw [List.length_cons, List.length_cons] at hlength
      have hlong : 2 ≤ f.data.length := by omega
      have hcommands : f.data.getD 1 0 = commands := by rw [hdata]; rfl
      have hloop : loop node f commands (f.data.length - 1) 1 2 =
          forwardAll node ((records commands.toNat bytes).takeWhile (·.Inside)) :=
        loop_eq_forwardAll node (by rw [hdata]; rfl) (show 1 + bytes.length ≤ 255 by omega)
      rw [if_neg (mt length_lt_three_iff.mp (Nat.not_lt.mpr hlong)),
        CommandFrame.read_bind hlong, hcommands,
        CommandFrame.lengthLess_bind (show (2 : UInt32).toNat ≤ _ from Nat.le_succ_of_le hlong),
        asInt_length_sub hlong hframe, hloop]
      dsimp only
      rw [if_pos hencap]
  · rename_i hother
    rcases tail with _ | ⟨commands, bytes⟩
    · rfl
    · dsimp only
      rw [if_neg hother]
      rfl

theorem faithful_iff (hframe : f.data.length < 255) (hread : 0 < f.data.length) :
    Faithful node f (handleMsg node f) ↔
      ∀ r ∈ ((announced f).takeWhile (·.Inside)).dropWhile (·.WellFormed),
        r.rest ≠ [] ∧ node.getCommandClass r.commandClassId = none := by
  rw [Faithful, handleMsg_eq_forwardAll node hframe hread, ← takeWhile_inside_wellFormed,
    forwardAll_iff]

/-- For every frame: exactly the longest well-formed prefix of the announced commands is
dispatched, exactly if what is behind it is harmless. -/
theorem commands_forwarded_iff (node : Node) (f : CommandFrame) (hframe : f.data.length < 255) :
    Faithful node f (handleMsg node f) ↔ Harmless node f := by
  rcases Nat.eq_zero_or_pos f.data.length with hempty | hread
  · have hdata := List.eq_nil_of_length_eq_zero hempty
    refine iff_of_false ?_ fun h => h.1 hdata
    rintro ⟨calls, hcalls, -⟩
    rw [handleMsg, CommandFrame.read, hdata] at hcalls
    cases hcalls
  · rw [faithful_iff node hframe hread, Harmless, and_iff_right (List.ne_nil_of_length_pos hread)]

/-- Two commands for Manufacturer Specific. -/
theorem commands_forwarded_two :
    Faithful (Node.create 5) ⟨[0x01, 0x02, 0x02, 0x72, 0x04, 0x03, 0x72, 0x06, 0x00], by decide⟩
      (handleMsg (Node.create 5)
        ⟨[0x01, 0x02, 0x02, 0x72, 0x04, 0x03, 0x72, 0x06, 0x00], by decide⟩) :=
  (commands_forwarded_iff _ _ (by decide)).mpr ⟨nofun, nofun⟩

/-- A record of length 0 in front of the byte of a class. -/
theorem commands_not_forwarded :
    ¬ Faithful (Node.create 5) ⟨[0x01, 0x01, 0x00, 0x72], by decide⟩
      (handleMsg (Node.create 5) ⟨[0x01, 0x01, 0x00, 0x72], by decide⟩) := by
  rw [faithful_iff _ (by decide) (by decide)]
  intro h
  have hnone := (h ⟨0x00, [0x72]⟩ (by exact List.mem_singleton.mpr rfl)).2
  cases hnone

/-! ## The calls of the dispatcher -/

theorem records_of_length_le {n : ℕ} {bytes : List UInt8} (h : bytes.length ≤ n) :
    records n bytes = records bytes.length bytes := by
  induction hlength : bytes.length using Nat.strong_induction_on generalizing n bytes with
  | _ k ih =>
  cases bytes with
  | nil =>
      subst hlength
      cases n <;> rfl
  | cons length rest =>
      obtain ⟨m, rfl⟩ : ∃ m, n = m + 1 := Nat.exists_eq_add_one.mpr (Nat.zero_lt_of_lt h)
      rw [List.length_cons] at h hlength
      have hle : (rest.drop length.toNat).length ≤ rest.length := by
        rw [List.length_drop]
        exact Nat.sub_le _ _
      have hshorter : (rest.drop length.toNat).length < k := by omega
      subst hlength
      rw [records, records, ih _ hshorter (n := m) (by omega) rfl,
        ih _ hshorter (n := rest.length) hle rfl]

theorem forwardRecord_eq_deliver {r : Record} {calls : List Call}
    (h : forwardRecord node r = .ok calls) :
    calls = node.deliver r.commandClassId r.rest.tail (r.length.toUInt32 - 1) 1 := by
  obtain ⟨-, h⟩ := (readAt_bind_eq_ok 0).mp h
  change forward node r.commandClassId r.length r.rest.tail = .ok calls at h
  rw [forward] at h
  rw [Node.deliver]
  cases hclass : node.getCommandClass r.commandClassId with
  | none =>
      rw [hclass] at h
      cases h
      rfl
  | some cc =>
      rw [hclass] at h
      obtain ⟨-, h⟩ := check_bind_eq_ok.mp h
      cases h
      rfl

theorem forwardAll_eq_multiCmdLoop {data bytes : List UInt8} {base n : ℕ} {calls : List Call}
    (hbytes : data.drop base = bytes)
    (h : forwardAll node ((records n bytes).takeWhile (·.Inside)) = .ok calls) :
    calls = node.multiCmdLoop data (data.length - 1) n base := by
  induction n generalizing bytes base calls with
  | zero =>
      cases h
      rfl
  | succ n ih =>
      have hdrop := congrArg List.length hbytes
      rw [List.length_drop] at hdrop
      rw [Node.multiCmdLoop]
      cases bytes with
      | nil =>
          rw [if_pos (by rw [List.length_nil] at hdrop; omega)]
          cases h
          rfl
      | cons length rest =>
          have hrest := drop_succ_of_drop_eq_cons hbytes
          rw [List.length_cons] at hdrop
          rw [if_neg (by omega), getD_of_drop_eq_cons hbytes]
          dsimp only
          rw [records, List.takeWhile_cons] at h
          rcases Nat.lt_or_ge rest.length length.toNat with houtside | hinside
          · rw [if_neg (by rw [decide_eq_true_eq]; exact Nat.not_le.mpr houtside)] at h
            rw [if_pos (by omega)]
            cases h
            rfl
          · rw [if_pos (by rw [decide_eq_true_eq]; exact hinside)] at h
            obtain ⟨first, hfirst, h⟩ := bind_eq_ok.mp h
            obtain ⟨others, hothers, h⟩ := bind_eq_ok.mp h
            cases h
            have hbehind : data.drop (base + (length.toNat + 1)) = rest.drop length.toNat := by
              rw [← hrest, List.drop_drop]
              congr 1
              omega
            rw [if_neg (by omega), forwardRecord_eq_deliver node hfirst, ih hbehind hothers]
            congr 2
            · rw [Record.commandClassId, ← hrest, List.getD_eq_getElem?_getD, List.getElem?_drop,
                List.getD_eq_getElem?_getD]
            · rw [← hrest, List.tail_drop]

/-- Where it stays inside the frame, it makes the calls of `Node.multiCmdHandleMsg`. -/
theorem eq_multiCmdHandleMsg {calls : List Call} (hframe : f.data.length < 255)
    (h : handleMsg node f = .ok calls) : calls = node.multiCmdHandleMsg f.data f.length := by
  have hread := (CommandFrame.read_bind_eq_ok.mp h).1
  rw [handleMsg_eq_forwardAll node hframe hread] at h
  obtain ⟨command, tail, hdata⟩ := List.exists_cons_of_length_pos hread
  have hlength := congrArg List.length hdata
  rw [announced, hdata] at h
  rw [Node.multiCmdHandleMsg, hdata, List.getD_cons_zero]
  split
  · rename_i hencap
    rcases tail with _ | ⟨commands, bytes⟩
    · rw [if_pos (length_lt_three_iff.mpr (hlength ▸ Nat.one_lt_two))]
      cases h
      rfl
    · rw [List.length_cons, List.length_cons] at hlength
      have hlong : 2 ≤ f.data.length := by omega
      dsimp only at h
      rw [if_pos hencap] at h
      rw [if_neg (mt length_lt_three_iff.mp (Nat.not_lt.mpr hlong)), asInt_length_sub hlong hframe,
        hdata]
      change calls = node.multiCmdLoop _ _ (Node.multiCmdCount commands _) 2
      rw [Node.multiCmdCount]
      split
      · rename_i hall
        subst hall
        have henough : bytes.length ≤ ((command :: 255 :: bytes).length - 1 : ℤ).toNat := by
          simp
        have hbytes : bytes.length ≤ (255 : UInt8).toNat := by
          change bytes.length ≤ 255
          omega
        rw [records_of_length_le hbytes, ← records_of_length_le henough] at h
        exact forwardAll_eq_multiCmdLoop node rfl h
      · exact forwardAll_eq_multiCmdLoop node rfl h
  · rename_i hother
    rcases tail with _ | ⟨commands, bytes⟩
    · cases h
      rfl
    · dsimp only at h
      rw [if_neg hother] at h
      cases h
      rfl

end MultiCmd

end OpenZWave
