import OpenZWave.Bitfield
import OpenZWave.CommandClass
import OpenZWave.Lib.PartialMap
import OpenZWave.Lib.Transition

/-!
# Endpoints and instances

A multi channel device reports how many endpoints it has, and the command classes of
each. The library gives every class that an endpoint supports an instance of its
own, in a bit field, and keeps the endpoint of the instance in a map. Labels, version
requests and the query for secured classes of an endpoint are left out.
-/

namespace OpenZWave

open PartialMap Transition

/-- A command class with its instances. -/
structure MultiClass extends CommandClass where
  instances : Bitfield

namespace MultiClass

/-- A class as `CreateCommandClass` leaves it. -/
def new : MultiClass where
  toCommandClass := .new
  instances := .empty

/-- `SetInstance`. -/
def setInstance (cc : MultiClass) (inst : UInt8) : MultiClass :=
  if cc.instances.isSet inst then cc else { cc with instances := (cc.instances.set inst).1 }

/-- `SetEndPoint`. -/
def setEndPoint (cc : MultiClass) (inst endPoint : UInt8) : MultiClass :=
  { cc with endPointMap := Function.update cc.endPointMap inst (some endPoint) }

/-- `SetInstance` and, with an endpoint, `SetEndPoint`. -/
def place (cc : MultiClass) (inst : UInt8) : Option UInt8 → MultiClass
  | none => cc.setInstance inst
  | some endPoint => (cc.setInstance inst).setEndPoint inst endPoint

/-- `SetAfterMark`. -/
def setAfterMark (cc : MultiClass) : MultiClass := { cc with afterMark := true }

/-- What the loop over the instances from 1 to 127 stops at. -/
def isNext (cc : MultiClass) (mapRootToEndPoint : Bool) (i : UInt8) : Bool :=
  if mapRootToEndPoint = false then !cc.instances.isSet i
  else if i = 1 ∧ cc.instances.isSet i ∧ cc.getEndPoint i = 0 then true
  else !cc.instances.isSet i

/-- The next free instance, and 128 if there is none. -/
def nextInstance (cc : MultiClass) (mapRootToEndPoint : Bool) : UInt8 :=
  match (List.range' 1 127).find? fun i => cc.isNext mapRootToEndPoint (UInt8.ofNat i) with
  | none => 128
  | some i => UInt8.ofNat i

end MultiClass

/-- The command classes without instances, those that override `supportsMultiInstance`. -/
def supportsMultiInstance (commandClassId : UInt8) : Bool :=
  commandClassId ∉
    [0x85, 0x9b, 0x80, 0x56, 0x21, 0x5a, 0x89, 0x72, 0x8e, 0x60, 0x77, 0x86, 0x84]

/-- The compatibility options of the class. -/
structure MappingOptions where
  mapRootToEndPoint : Bool
  forceUniqueEndPoints : Bool
  ignoreCapabilityReports : Bool
  endPointHint : UInt8
  removed : UInt8 → Bool

/-- `MultiChannelCmd_CapabilityReport` of an endpoint, and whether the node is in the
query stage for instances. -/
structure CapabilityReport where
  endPoint : UInt8
  isEndPoint : 1 ≤ endPoint ∧ endPoint ≤ 127
  dynamic : Bool
  commandClasses : List UInt8
  atInstances : Bool

/-- A node with its Multi Channel class. `creatable` are the classes that the library
has, `asked` are the endpoints it asks for their classes, and `accepted` are the
capability reports that were not ignored. -/
structure MultiChannelNode where
  options : MappingOptions
  creatable : UInt8 → Bool
  commandClasses : UInt8 → Option MultiClass
  basicMapping : UInt8
  endPointsAreSameClass : Bool
  numEndPoints : UInt8
  endPointCommandClasses : List UInt8
  asked : List UInt8
  accepted : List CapabilityReport

/-- The loop `for (uint8 i = 1; i <= len; i++)`: a byte never passes 255. -/
def countTo (len : Nat) : Option (List UInt8) :=
  if len < 255 then some ((List.range' 1 len).map UInt8.ofNat) else none

namespace MultiChannelNode

/-- `StaticGetCommandClassId` of the Basic class. -/
def basicId : UInt8 := 0x20

def setClass (n : MultiChannelNode) (id : UInt8) (cc : MultiClass) : MultiChannelNode :=
  { n with commandClasses := Function.update n.commandClasses id (some cc) }

/-- `Node::AddCommandClass`. A new Basic class is mapped to none. -/
def addCommandClass (n : MultiChannelNode) (id : UInt8) : MultiChannelNode :=
  match n.commandClasses id with
  | some _ => n
  | none =>
      if n.creatable id then
        let n := if id = basicId then { n with basicMapping := 0 } else n
        n.setClass id .new
      else n

/-- `SetAfterMark` of a class, if the node has it. -/
def markClass (n : MultiChannelNode) (id : UInt8) : MultiChannelNode :=
  match n.commandClasses id with
  | none => n
  | some cc => n.setClass id cc.setAfterMark

/-- A class of a report is stored, unless it is removed by configuration. -/
def storeClass (n : MultiChannelNode) (afterMark : Bool) (id : UInt8) : MultiChannelNode :=
  if n.options.removed id then n
  else
    let n := n.addCommandClass id
    let n := if afterMark then n.markClass id else n
    { n with endPointCommandClasses := n.endPointCommandClasses ++ [id] }

/-- The classes of a report; those from the mark on are only controlled. -/
def storeCommandClasses (n : MultiChannelNode) (afterMark : Bool) : List UInt8 → MultiChannelNode
  | [] => n
  | id :: ids =>
      let afterMark := afterMark || id == 0xef
      (n.storeClass afterMark id).storeCommandClasses afterMark ids

/-- A class of the node, if it has it, gets the instance. -/
def place (n : MultiChannelNode) (id inst : UInt8) (endPoint : Option UInt8) : MultiChannelNode :=
  match n.commandClasses id with
  | none => n
  | some cc => n.setClass id (cc.place inst endPoint)

/-- The class gets the instance, and with it the Basic class that is mapped to it. -/
def assign (n : MultiChannelNode) (id inst : UInt8) (endPoint : Option UInt8) : MultiChannelNode :=
  let n := n.place id inst endPoint
  if n.basicMapping = id then n.place basicId inst endPoint else n

/-- A class of endpoints that are all the same. The instance of the root has no endpoint. -/
def sameClassTurn (n : MultiChannelNode) (inst endPoint id : UInt8) : MultiChannelNode :=
  match n.commandClasses id with
  | none => n
  | some _ =>
      if supportsMultiInstance id then
        n.assign id inst
          (if n.options.mapRootToEndPoint ∨ inst ≠ 1 then some endPoint else none)
      else n

/-- A class of an endpoint that is unlike the others. -/
def turn (n : MultiChannelNode) (endPoint id : UInt8) : MultiChannelNode :=
  match n.commandClasses id with
  | none => n
  | some cc =>
      if supportsMultiInstance id then
        if cc.getInstance endPoint ≠ 0 then n
        else n.assign id (cc.nextInstance n.options.mapRootToEndPoint) (some endPoint)
      else n

/-- The set `m_endPointCommandClasses` in its order. -/
def reportedClasses (n : MultiChannelNode) : List UInt8 :=
  ((List.range 256).map UInt8.ofNat).filter fun id => n.endPointCommandClasses.contains id

/-- The number of instances of endpoints that are all the same. -/
def sameClassCount (n : MultiChannelNode) : Nat :=
  if n.options.mapRootToEndPoint = false then n.numEndPoints.toNat + 1 else n.numEndPoints.toNat

/-- The endpoint of an instance of endpoints that are all the same. -/
def sameClassEndPoint (n : MultiChannelNode) (inst : UInt8) : UInt8 :=
  if n.options.mapRootToEndPoint = false then inst - 1 else inst

/-- A report that is ignored by configuration. -/
def ignores (n : MultiChannelNode) (report : CapabilityReport) : Bool :=
  n.options.ignoreCapabilityReports && !report.atInstances && !report.dynamic &&
    !n.endPointCommandClasses.isEmpty

/-- The classes of a report are stored. -/
def store (n : MultiChannelNode) (report : CapabilityReport) : MultiChannelNode :=
  { n with
    endPointCommandClasses := []
    accepted := n.accepted ++ [report] }.storeCommandClasses false report.commandClasses

/-- `HandleMultiChannelCapabilityReport`. -/
def handleMultiChannelCapabilityReport (n : MultiChannelNode) (report : CapabilityReport) :
    Option MultiChannelNode :=
  if n.ignores report then some n
  else
    let n := n.store report
    if n.endPointsAreSameClass then
      (countTo n.sameClassCount).map fun insts =>
        insts.foldl (fun n' inst =>
          n.reportedClasses.foldl
            (fun n' id => n'.sameClassTurn inst (n.sameClassEndPoint inst) id) n') n
    else some (n.reportedClasses.foldl (fun n id => n.turn report.endPoint id) n)

end MultiChannelNode

/-! ## The map of a class -/

theorem CommandClass.getInstance_eq {cc : CommandClass} (h : OneToOne cc.endPointMap)
    {i endPoint : UInt8} (hi : cc.endPointMap i = some endPoint) : cc.getInstance endPoint = i := by
  rw [getInstance]
  split
  · rename_i found hfound
    have hkey : cc.endPointMap (UInt8.ofNat found) = some endPoint := by
      simpa using List.find?_some hfound
    exact h hkey hi
  · rename_i hnone
    rw [List.find?_eq_none] at hnone
    have hmissing := hnone i.toNat (List.mem_range.mpr i.toNat_lt)
    rw [UInt8.ofNat_toNat, hi] at hmissing
    exact absurd (beq_self_eq_true _) hmissing

theorem CommandClass.getInstance_eq_zero {cc : CommandClass} {endPoint : UInt8}
    (h : ∀ i, cc.endPointMap i ≠ some endPoint) : cc.getInstance endPoint = 0 := by
  rw [getInstance]
  split
  · rename_i found hfound
    have hkey : cc.endPointMap (UInt8.ofNat found) = some endPoint := by
      simpa using List.find?_some hfound
    exact absurd hkey (h _)
  · rfl

namespace MultiClass

variable {cc : MultiClass} {inst endPoint : UInt8}

/-- Every instance with an endpoint is in the bit field, and no endpoint has two. -/
structure Mapped (cc : MultiClass) : Prop where
  oneToOne : OneToOne cc.endPointMap
  contained : ∀ i endPoint, cc.endPointMap i = some endPoint → cc.instances.isSet i = true
  positive : ∀ i endPoint, cc.endPointMap i = some endPoint → i ≠ 0 ∧ endPoint ≠ 0

theorem mapped_of_none (h : ∀ i, cc.endPointMap i = none) : cc.Mapped := by
  refine ⟨fun i j v hi => ?_, fun i v hi => ?_, fun i v hi => ?_⟩ <;>
    exact absurd ((h i).symm.trans hi) (Option.some_ne_none v).symm

@[simp] theorem endPointMap_setInstance (cc : MultiClass) (inst : UInt8) :
    (cc.setInstance inst).endPointMap = cc.endPointMap := by
  rw [setInstance]
  split <;> rfl

theorem endPointMap_place (cc : MultiClass) (inst endPoint : UInt8) :
    (cc.place inst (some endPoint)).endPointMap =
      Function.update cc.endPointMap inst (some endPoint) := by
  rw [place, setEndPoint, endPointMap_setInstance]

/-- The instances from 32 on are refused. -/
theorem isSet_setInstance (cc : MultiClass) (inst i : UInt8) :
    (cc.setInstance inst).instances.isSet i = true ↔
      cc.instances.isSet i = true ∨ inst = i ∧ inst ≤ 0x1f := by
  rw [setInstance]
  split
  · rename_i hset
    exact (or_iff_left_of_imp fun h => h.1 ▸ hset).symm
  · exact Bitfield.isSet_set cc.instances inst i

theorem Mapped.setInstance (h : cc.Mapped) (inst : UInt8) : (cc.setInstance inst).Mapped := by
  refine ⟨?_, ?_, ?_⟩
  · rw [endPointMap_setInstance]
    exact h.oneToOne
  · intro i endPoint hi
    rw [endPointMap_setInstance] at hi
    exact (isSet_setInstance cc inst i).mpr (.inl (h.contained i endPoint hi))
  · rw [endPointMap_setInstance]
    exact h.positive

theorem Mapped.place (h : cc.Mapped) (hinst : inst ≠ 0) (hin : inst ≤ 0x1f)
    (hendPoint : endPoint ≠ 0) (hadmits : Admits cc.endPointMap inst endPoint) :
    (cc.place inst (some endPoint)).Mapped := by
  refine ⟨?_, ?_, ?_⟩
  · rw [endPointMap_place]
    exact h.oneToOne.update hadmits
  · intro i e hi
    rw [endPointMap_place, update_eq_some_iff] at hi
    refine (isSet_setInstance cc inst i).mpr ?_
    cases hi with
    | inl hi => exact .inr ⟨hi.1.symm, hin⟩
    | inr hi => exact .inl (h.contained i e hi.2)
  · intro i e hi
    rw [endPointMap_place, update_eq_some_iff] at hi
    obtain ⟨rfl, rfl⟩ | ⟨-, hi⟩ := hi
    · exact ⟨hinst, hendPoint⟩
    · exact h.positive i e hi

theorem Mapped.getInstance_eq_zero_iff (h : cc.Mapped) :
    cc.getInstance endPoint = 0 ↔ ∀ i, cc.endPointMap i ≠ some endPoint := by
  constructor
  · intro hzero i hi
    exact (h.positive i endPoint hi).1 ((CommandClass.getInstance_eq h.oneToOne hi).symm.trans hzero)
  · exact CommandClass.getInstance_eq_zero

theorem Mapped.free_of_isNext (h : cc.Mapped) {root : Bool} (hnext : cc.isNext root inst = true) :
    cc.endPointMap inst = none := by
  have hunset : cc.instances.isSet inst = false → cc.endPointMap inst = none := by
    intro hunset
    cases hmap : cc.endPointMap inst with
    | none => rfl
    | some endPoint =>
        exact Bool.noConfusion (hunset.symm.trans (h.contained inst endPoint hmap))
  rw [isNext] at hnext
  split at hnext
  · exact hunset (by simpa using hnext)
  · split at hnext
    · rename_i hroot
      cases hmap : cc.endPointMap inst with
      | none => rfl
      | some endPoint =>
          have hzero := hroot.2.2
          rw [CommandClass.getEndPoint, hmap] at hzero
          exact absurd hzero (h.positive inst endPoint hmap).2
    · exact hunset (by simpa using hnext)

/-- The next instance has no endpoint yet. -/
theorem Mapped.nextInstance_free (h : cc.Mapped) {root : Bool} (hin : cc.nextInstance root ≤ 0x1f) :
    cc.nextInstance root ≠ 0 ∧ cc.endPointMap (cc.nextInstance root) = none := by
  rw [nextInstance] at hin ⊢
  split
  · rename_i hnone
    rw [hnone] at hin
    exact absurd hin (by decide)
  · rename_i i hfound
    obtain ⟨hlow, hhigh⟩ := List.mem_range'_1.mp (List.mem_of_find?_eq_some hfound)
    have hnext : cc.isNext root (UInt8.ofNat i) = true := by
      simpa using List.find?_some hfound
    refine ⟨fun hzero => ?_, h.free_of_isNext hnext⟩
    have hvalue := congrArg UInt8.toNat hzero
    rw [UInt8.toNat_ofNat'] at hvalue
    simp at hvalue
    omega

end MultiClass

namespace MultiChannelNode

variable {n n' : MultiChannelNode}

@[simp] theorem commandClasses_setClass_self (n : MultiChannelNode) (id : UInt8) (cc : MultiClass) :
    (n.setClass id cc).commandClasses id = some cc :=
  Function.update_self ..

theorem commandClasses_setClass_of_ne (n : MultiChannelNode) {id other : UInt8} (h : other ≠ id)
    (cc : MultiClass) : (n.setClass id cc).commandClasses other = n.commandClasses other :=
  Function.update_of_ne h ..

/-! ## Storing the classes of a report -/

/-- A class keeps its instances, and a new one is of the library and has no endpoints. -/
def Grows (creatable : Bool) : Option MultiClass → Option MultiClass → Prop
  | none, none => True
  | none, some cc' => creatable = true ∧ cc'.endPointMap = fun _ => none
  | some _, none => False
  | some cc, some cc' => cc'.endPointMap = cc.endPointMap ∧ cc'.instances = cc.instances

theorem Grows.refl (creatable : Bool) (c : Option MultiClass) : Grows creatable c c := by
  cases c with
  | none => trivial
  | some cc => exact ⟨rfl, rfl⟩

theorem Grows.trans {creatable : Bool} {c c' c'' : Option MultiClass} (h : Grows creatable c c')
    (h' : Grows creatable c' c'') : Grows creatable c c'' := by
  cases c with
  | none =>
      cases c' with
      | none => exact h'
      | some cc' =>
          cases c'' with
          | none => trivial
          | some cc'' => exact ⟨h.1, h'.1.trans h.2⟩
  | some cc =>
      cases c' with
      | none => exact h.elim
      | some cc' =>
          cases c'' with
          | none => exact h'
          | some cc'' => exact ⟨h'.1.trans h.1, h'.2.trans h.2⟩

/-- What storing classes leaves as it is. -/
structure Extends (n n' : MultiChannelNode) : Prop where
  options : n'.options = n.options
  creatable : n'.creatable = n.creatable
  sameClass : n'.endPointsAreSameClass = n.endPointsAreSameClass
  numEndPoints : n'.numEndPoints = n.numEndPoints
  accepted : n'.accepted = n.accepted
  grows : ∀ id, Grows (n.creatable id) (n.commandClasses id) (n'.commandClasses id)

theorem Extends.refl (n : MultiChannelNode) : Extends n n :=
  ⟨rfl, rfl, rfl, rfl, rfl, fun _ => .refl _ _⟩

theorem Extends.trans {n'' : MultiChannelNode} (h : Extends n n') (h' : Extends n' n'') :
    Extends n n'' := by
  refine ⟨h'.options.trans h.options, h'.creatable.trans h.creatable, h'.sameClass.trans h.sameClass,
    h'.numEndPoints.trans h.numEndPoints, h'.accepted.trans h.accepted, fun id => ?_⟩
  have hgrows := h'.grows id
  rw [h.creatable] at hgrows
  exact (h.grows id).trans hgrows

theorem extends_setClass {id : UInt8} {cc : MultiClass}
    (h : Grows (n.creatable id) (n.commandClasses id) (some cc)) : Extends n (n.setClass id cc) := by
  refine ⟨rfl, rfl, rfl, rfl, rfl, fun other => ?_⟩
  by_cases hother : other = id
  · rw [hother, commandClasses_setClass_self]
    exact h
  · rw [commandClasses_setClass_of_ne n hother]
    exact .refl _ _

theorem extends_addCommandClass (n : MultiChannelNode) (id : UInt8) :
    Extends n (n.addCommandClass id) := by
  rw [addCommandClass]
  split
  · exact .refl n
  · rename_i hnone
    split
    · rename_i hcreatable
      have hnew : Grows (n.creatable id) (n.commandClasses id) (some .new) := by
        rw [hnone]
        exact ⟨hcreatable, rfl⟩
      dsimp only
      split
      · have hbasic : Extends n { n with basicMapping := 0 } :=
          ⟨rfl, rfl, rfl, rfl, rfl, fun _ => .refl _ _⟩
        exact hbasic.trans (extends_setClass hnew)
      · exact extends_setClass hnew
    · exact .refl n

theorem extends_markClass (n : MultiChannelNode) (id : UInt8) : Extends n (n.markClass id) := by
  rw [markClass]
  split
  · exact .refl n
  · rename_i cc hcc
    refine extends_setClass ?_
    rw [hcc]
    exact ⟨rfl, rfl⟩

/-- The class is added and marked, and its number is stored. -/
theorem extends_addClass (n : MultiChannelNode) (afterMark : Bool) (id : UInt8) :
    Extends n (if afterMark then (n.addCommandClass id).markClass id else n.addCommandClass id) := by
  have hadd := extends_addCommandClass n id
  split
  · exact hadd.trans (extends_markClass _ id)
  · exact hadd

theorem extends_storeClass (n : MultiChannelNode) (afterMark : Bool) (id : UInt8) :
    Extends n (n.storeClass afterMark id) := by
  rw [storeClass]
  split
  · exact .refl n
  · obtain ⟨hoptions, hcreatable, hsame, hnum, haccepted, hgrows⟩ := extends_addClass n afterMark id
    exact ⟨hoptions, hcreatable, hsame, hnum, haccepted, hgrows⟩

theorem extends_storeCommandClasses (n : MultiChannelNode) (afterMark : Bool) (ids : List UInt8) :
    Extends n (n.storeCommandClasses afterMark ids) := by
  induction ids generalizing n afterMark with
  | nil => exact .refl n
  | cons id ids ih => exact (extends_storeClass n _ id).trans (ih _ _)

theorem exists_addCommandClass (n : MultiChannelNode) (id : UInt8) (hcreatable : n.creatable id = true) :
    (n.addCommandClass id).commandClasses id ≠ none := by
  rw [addCommandClass]
  split
  · rename_i cc hcc
    simp [hcc]
  · rw [if_pos hcreatable]
    simp

theorem endPointCommandClasses_addCommandClass (n : MultiChannelNode) (id : UInt8) :
    (n.addCommandClass id).endPointCommandClasses = n.endPointCommandClasses := by
  rw [addCommandClass]
  split
  · rfl
  · split
    · dsimp only
      split <;> rfl
    · rfl

theorem endPointCommandClasses_markClass (n : MultiChannelNode) (id : UInt8) :
    (n.markClass id).endPointCommandClasses = n.endPointCommandClasses := by
  rw [markClass]
  split <;> rfl

/-- A class of the library that is reported is there. -/
theorem Grows.ne_none {creatable : Bool} {c c' : Option MultiClass} (h : Grows creatable c c')
    (hc : c ≠ none) : c' ≠ none := by
  cases c with
  | none => exact absurd rfl hc
  | some cc =>
      cases c' with
      | none => exact h.elim
      | some cc' => exact Option.some_ne_none cc'

theorem mem_storeClass (n : MultiChannelNode) (afterMark : Bool) (id other : UInt8) :
    other ∈ (n.storeClass afterMark id).endPointCommandClasses ↔
      other ∈ n.endPointCommandClasses ∨ other = id ∧ n.options.removed id = false := by
  rw [storeClass]
  split
  · rename_i hremoved
    simp [hremoved]
  · rename_i hremoved
    have hsame : (if afterMark then (n.addCommandClass id).markClass id
        else n.addCommandClass id).endPointCommandClasses = n.endPointCommandClasses := by
      split
      · rw [endPointCommandClasses_markClass, endPointCommandClasses_addCommandClass]
      · rw [endPointCommandClasses_addCommandClass]
    dsimp only
    rw [hsame, List.mem_append, List.mem_singleton, and_iff_left (Bool.eq_false_iff.mpr hremoved)]

theorem mem_storeCommandClasses (n : MultiChannelNode) (afterMark : Bool) (ids : List UInt8)
    (other : UInt8) :
    other ∈ (n.storeCommandClasses afterMark ids).endPointCommandClasses ↔
      other ∈ n.endPointCommandClasses ∨ other ∈ ids ∧ n.options.removed other = false := by
  induction ids generalizing n afterMark with
  | nil => simp [storeCommandClasses]
  | cons id ids ih =>
      rw [storeCommandClasses, ih, mem_storeClass, (extends_storeClass n _ id).options, List.mem_cons]
      constructor
      · rintro ((h | ⟨rfl, h⟩) | ⟨hmem, h⟩)
        · exact .inl h
        · exact .inr ⟨.inl rfl, h⟩
        · exact .inr ⟨.inr hmem, h⟩
      · rintro (h | ⟨rfl | hmem, h⟩)
        · exact .inl (.inl h)
        · exact .inl (.inr ⟨rfl, h⟩)
        · exact .inr ⟨hmem, h⟩

theorem exists_storeCommandClasses {n : MultiChannelNode} {id : UInt8} (afterMark : Bool)
    {ids : List UInt8} (hmem : id ∈ ids) (hremoved : n.options.removed id = false)
    (hcreatable : n.creatable id = true) :
    (n.storeCommandClasses afterMark ids).commandClasses id ≠ none := by
  induction ids generalizing n afterMark with
  | nil => cases hmem
  | cons first ids ih =>
      have hfirst := extends_storeClass n (afterMark || first == 0xef) first
      rw [storeCommandClasses]
      cases hmem with
      | head =>
          refine ((extends_storeCommandClasses _ _ ids).grows id).ne_none ?_
          have hadd := exists_addCommandClass n id hcreatable
          rw [storeClass, if_neg (by simp [hremoved])]
          dsimp only
          split
          · exact ((extends_markClass _ id).grows id).ne_none hadd
          · exact hadd
      | tail _ hmem =>
          exact ih _ hmem (hfirst.options ▸ hremoved) (hfirst.creatable ▸ hcreatable)

end MultiChannelNode

end OpenZWave
