import Mathlib.Data.Prod.Lex
import OpenZWave.Lib.BitField

/-!
# Value ids

A `ValueID` packs its components into two words. Genre and type are as wide as
their fields here, since an id that is made from a number may hold a type that
has no name. Polling works with the components of the ids of one driver.
-/

namespace OpenZWave

open BitField

/-- A `ValueID` of the values of one driver. -/
structure ValueID where
  nodeId : UInt8
  genre : UInt8
  commandClassId : UInt8
  instanceId : UInt8
  index : UInt16
  type : UInt8
  deriving DecidableEq

/-- `GetValueStoreKey`. -/
def valueStoreKey (commandClassId instanceId : UInt8) (index : UInt16) : UInt32 :=
  instanceId.toUInt32 ||| commandClassId.toUInt32 <<< 8 ||| index.toUInt32 <<< 16

def ValueID.storeKey (id : ValueID) : UInt32 :=
  valueStoreKey id.commandClassId id.instanceId id.index

/-- The fields of `ValueGenre` and `ValueType`. -/
abbrev GenreField := BitVec 2
abbrev TypeField := BitVec 4

/-- The arguments of the constructor. -/
structure ValueComponents where
  homeId : UInt32
  nodeId : UInt8
  genre : GenreField
  commandClassId : UInt8
  instanceId : UInt8
  index : UInt16
  type : TypeField
  deriving DecidableEq

/-- `m_id`, `m_id1` and `m_homeId`. -/
@[ext] structure PackedValueID where
  id : UInt32
  id1 : UInt32
  homeId : UInt32
  deriving DecidableEq

namespace PackedValueID

/-- The constructor. -/
def new (c : ValueComponents) : PackedValueID where
  id := c.nodeId.toUInt32 <<< 24 ||| UInt32.ofBitVec (c.genre.setWidth 32) <<< 22
    ||| c.commandClassId.toUInt32 <<< 14 ||| (c.instanceId &&& 0xFF).toUInt32 <<< 4
    ||| UInt32.ofBitVec (c.type.setWidth 32)
  id1 := c.index.toUInt32 <<< 16
  homeId := c.homeId

/-- The constructor from the number that `GetId` returned. -/
def ofId (homeId : UInt32) (id : UInt64) : PackedValueID where
  id := (id &&& 0xFFFFFFFF).toUInt32
  id1 := (id >>> 32).toUInt32
  homeId := homeId

variable (v : PackedValueID)

/-- `GetHomeId`. -/
def getHomeId : UInt32 := v.homeId

/-- `GetNodeId`. -/
def getNodeId : UInt8 := ((v.id &&& 0xff000000) >>> 24).toUInt8

/-- `GetGenre`. -/
def getGenre : GenreField := ((v.id &&& 0x00c00000) >>> 22).toBitVec.setWidth 2

/-- `GetCommandClassId`. -/
def getCommandClassId : UInt8 := ((v.id &&& 0x003fc000) >>> 14).toUInt8

/-- `GetInstance`. -/
def getInstance : UInt8 := ((v.id &&& 0xff0) >>> 4).toUInt8

/-- `GetIndex`. -/
def getIndex : UInt16 := ((v.id1 &&& 0xFFFF0000) >>> 16).toUInt16

/-- `GetType`. -/
def getType : TypeField := (v.id &&& (0x0000000f : UInt32)).toBitVec.setWidth 4

/-- `GetId`. -/
def getId : UInt64 := v.id1.toUInt64 <<< 32 ||| v.id.toUInt64

/-- The member `GetValueStoreKey`. -/
def getValueStoreKey : UInt32 :=
  (v.id &&& 0x003fc000) >>> 6 ||| (v.id1 &&& (0xffff0000 : UInt32)) ||| (v.id &&& 0xFF0) >>> 4

/-- `operator==`. -/
def eq (other : PackedValueID) : Bool :=
  v.homeId == other.homeId && v.id == other.id && v.id1 == other.id1

/-- `operator!=`. -/
def ne (other : PackedValueID) : Bool :=
  v.homeId != other.homeId || v.id != other.id || v.id1 != other.id1

/-- `operator<`. -/
def lt (other : PackedValueID) : Bool :=
  if v.homeId = other.homeId then
    if v.id = other.id then v.id1 < other.id1 else v.id < other.id
  else v.homeId < other.homeId

/-- `operator>`. -/
def gt (other : PackedValueID) : Bool :=
  if v.homeId = other.homeId then
    if v.id = other.id then v.id1 > other.id1 else v.id > other.id
  else v.homeId > other.homeId

/-- What the getters return. -/
def components : ValueComponents where
  homeId := v.getHomeId
  nodeId := v.getNodeId
  genre := v.getGenre
  commandClassId := v.getCommandClassId
  instanceId := v.getInstance
  index := v.getIndex
  type := v.getType

/-! ## The getters read the fields -/

theorem toBitVec_getNodeId : v.getNodeId.toBitVec = get 24 8 v.id.toBitVec :=
  setWidth_and_mask 24 8 v.id.toBitVec (by decide)

theorem getGenre_eq : v.getGenre = get 22 2 v.id.toBitVec :=
  setWidth_and_mask 22 2 v.id.toBitVec (by decide)

theorem toBitVec_getCommandClassId :
    v.getCommandClassId.toBitVec = get 14 8 v.id.toBitVec :=
  setWidth_and_mask 14 8 v.id.toBitVec (by decide)

theorem toBitVec_getInstance : v.getInstance.toBitVec = get 4 8 v.id.toBitVec :=
  setWidth_and_mask 4 8 v.id.toBitVec (by decide)

theorem toBitVec_getIndex : v.getIndex.toBitVec = get 16 16 v.id1.toBitVec :=
  setWidth_and_mask 16 16 v.id1.toBitVec (by decide)

theorem getType_eq : v.getType = get 0 4 v.id.toBitVec := by
  have hmask : v.getType = (v.id.toBitVec &&& mask 32 0 4).setWidth 4 := rfl
  rw [hmask, and_mask, setWidth_put_zero _ (by decide)]

/-! ## The fields of a new id -/

section

variable (c : ValueComponents)

theorem toBitVec_id_new :
    (new c).id.toBitVec = put 32 24 c.nodeId.toBitVec ||| put 32 22 c.genre
      ||| put 32 14 c.commandClassId.toBitVec ||| put 32 4 c.instanceId.toBitVec
      ||| put 32 0 c.type := by
  have hinstance : c.instanceId &&& 0xFF = c.instanceId := by
    apply UInt8.toBitVec_inj.mp
    exact BitVec.and_allOnes
  have hput : put 32 0 c.type = c.type.setWidth 32 := BitVec.shiftLeft_zero _
  rw [new, hinstance, hput]
  rfl

theorem toBitVec_id1_new : (new c).id1.toBitVec = put 32 16 c.index.toBitVec := rfl

/-- Every getter returns what the constructor was given. -/
theorem components_new : (new c).components = c := by
  have hnode : (new c).getNodeId = c.nodeId := by
    apply UInt8.toBitVec_inj.mp
    simp [toBitVec_getNodeId, toBitVec_id_new, get_put, get_put_beside]
  have hgenre : (new c).getGenre = c.genre := by
    simp [getGenre_eq, toBitVec_id_new, get_put, get_put_beside]
  have hclass : (new c).getCommandClassId = c.commandClassId := by
    apply UInt8.toBitVec_inj.mp
    simp [toBitVec_getCommandClassId, toBitVec_id_new, get_put, get_put_beside]
  have hinstance : (new c).getInstance = c.instanceId := by
    apply UInt8.toBitVec_inj.mp
    simp [toBitVec_getInstance, toBitVec_id_new, get_put, get_put_beside]
  have hindex : (new c).getIndex = c.index := by
    apply UInt16.toBitVec_inj.mp
    simp [toBitVec_getIndex, toBitVec_id1_new, get_put]
  have htype : (new c).getType = c.type := by
    simp [getType_eq, toBitVec_id_new, get_put, get_put_beside]
  rw [components, hnode, hgenre, hclass, hinstance, hindex, htype]
  rfl

/-- Different components are packed differently. -/
theorem new_injective : Function.Injective new := by
  intro c c' h
  have hcomponents := congrArg components h
  rwa [components_new, components_new] at hcomponents

end

/-! ## The number of an id -/

theorem toBitVec_getId :
    v.getId.toBitVec = put 64 32 v.id1.toBitVec ||| put 64 0 v.id.toBitVec := by
  have hput : put 64 0 v.id.toBitVec = v.id.toBitVec.setWidth 64 := BitVec.shiftLeft_zero _
  rw [hput]
  rfl

/-- An id is made again from its home id and its number. -/
theorem ofId_getId : ofId v.homeId v.getId = v := by
  have hid : (ofId v.homeId v.getId).id = v.id := by
    apply UInt32.toBitVec_inj.mp
    have hget : (ofId v.homeId v.getId).id.toBitVec =
        (v.getId.toBitVec &&& mask 64 0 32).setWidth 32 := rfl
    rw [hget, and_mask, setWidth_put_zero _ (by decide), toBitVec_getId]
    simp [get_put, get_put_beside]
  have hid1 : (ofId v.homeId v.getId).id1 = v.id1 := by
    apply UInt32.toBitVec_inj.mp
    have hget : (ofId v.homeId v.getId).id1.toBitVec = (v.getId.toBitVec >>> 32).setWidth 32 := rfl
    rw [hget, setWidth_ushiftRight, toBitVec_getId]
    simp [get_put, get_put_beside]
  exact PackedValueID.ext hid hid1 rfl

/-! ## The key of the value store -/

theorem toBitVec_valueStoreKey (commandClassId instanceId : UInt8) (index : UInt16) :
    (valueStoreKey commandClassId instanceId index).toBitVec =
      put 32 0 instanceId.toBitVec ||| put 32 8 commandClassId.toBitVec
        ||| put 32 16 index.toBitVec := by
  have hput : put 32 0 instanceId.toBitVec = instanceId.toBitVec.setWidth 32 :=
    BitVec.shiftLeft_zero _
  rw [hput]
  rfl

/-- The key of an id is that of three of its components. -/
theorem getValueStoreKey_eq :
    v.getValueStoreKey = valueStoreKey v.getCommandClassId v.getInstance v.getIndex := by
  apply UInt32.toBitVec_inj.mp
  have hkey : v.getValueStoreKey.toBitVec =
      (v.id.toBitVec &&& mask 32 14 8) >>> 6 ||| (v.id1.toBitVec &&& mask 32 16 16)
        ||| (v.id.toBitVec &&& mask 32 4 8) >>> 4 := rfl
  rw [hkey, and_mask, and_mask, and_mask, put_ushiftRight _ (by decide) (by decide),
    put_ushiftRight _ (by decide) (by decide), toBitVec_valueStoreKey, toBitVec_getCommandClassId,
    toBitVec_getInstance, toBitVec_getIndex]
  -- the source names the command class first
  exact (BitVec.or_comm _ _).trans (BitVec.or_assoc _ _ _).symm

/-- A key determines the components it is made of. -/
theorem valueStoreKey_inj {commandClassId commandClassId' instanceId instanceId' : UInt8}
    {index index' : UInt16} :
    valueStoreKey commandClassId instanceId index =
        valueStoreKey commandClassId' instanceId' index' ↔
      commandClassId = commandClassId' ∧ instanceId = instanceId' ∧ index = index' := by
  constructor
  · intro h
    have hword := congrArg UInt32.toBitVec h
    rw [toBitVec_valueStoreKey, toBitVec_valueStoreKey] at hword
    refine ⟨UInt8.toBitVec_inj.mp ?_, UInt8.toBitVec_inj.mp ?_, UInt16.toBitVec_inj.mp ?_⟩
    · simpa [get_put, get_put_beside] using congrArg (get 8 8) hword
    · simpa [get_put, get_put_beside] using congrArg (get 0 8) hword
    · simpa [get_put, get_put_beside] using congrArg (get 16 16) hword
  · rintro ⟨rfl, rfl, rfl⟩
    rfl

/-! ## The order of the ids -/

/-- The words of an id in the order in which they are compared. -/
def rank : Nat ×ₗ Nat ×ₗ Nat :=
  toLex (v.homeId.toNat, toLex (v.id.toNat, v.id1.toNat))

theorem rank_injective : Function.Injective rank := by
  intro v v' h
  simp only [rank, EmbeddingLike.apply_eq_iff_eq, Prod.mk.injEq, UInt32.toNat_inj] at h
  exact PackedValueID.ext h.2.1 h.2.2 h.1

theorem lt_iff (other : PackedValueID) : v.lt other = true ↔ v.rank < other.rank := by
  rw [lt, rank, rank, Prod.Lex.toLex_lt_toLex, Prod.Lex.toLex_lt_toLex]
  simp only [UInt32.toNat_inj, ← UInt32.lt_iff_toNat_lt]
  by_cases hhome : v.homeId = other.homeId
  · by_cases hid : v.id = other.id
    · simp [hhome, hid]
    · simp [hhome, hid]
  · simp [hhome]

theorem eq_iff (other : PackedValueID) : v.eq other = true ↔ v = other := by
  simp only [eq, Bool.and_eq_true, beq_iff_eq, PackedValueID.ext_iff]
  tauto

/-- A strict total order with its equality, and its mirror. -/
structure Orders {α : Type} (eq ne lt gt : α → α → Bool) : Prop where
  irrefl : ∀ a, lt a a = false
  trans : ∀ a b c, lt a b = true → lt b c = true → lt a c = true
  total : ∀ a b, lt a b = true ∨ eq a b = true ∨ lt b a = true
  differs : ∀ a b, lt a b = true → eq a b = false
  ne : ∀ a b, ne a b = !eq a b
  mirror : ∀ a b, gt a b = lt b a

theorem orders : Orders eq ne lt gt where
  irrefl a := by
    rw [Bool.eq_false_iff]
    intro h
    exact lt_irrefl _ ((lt_iff a a).mp h)
  trans a b c hab hbc := (lt_iff a c).mpr (((lt_iff a b).mp hab).trans ((lt_iff b c).mp hbc))
  total a b := by
    rw [lt_iff, lt_iff, eq_iff, ← rank_injective.eq_iff]
    exact lt_trichotomy a.rank b.rank
  differs a b h := by
    rw [Bool.eq_false_iff]
    intro heq
    rw [(eq_iff a b).mp heq, lt_iff] at h
    exact lt_irrefl _ h
  ne a b := by
    simp only [ne, eq, Bool.not_and, bne]
  mirror a b := by
    simp only [gt, lt, eq_comm (a := b.homeId), eq_comm (a := b.id), gt_iff_lt]

/-- Packing loses nothing, and orders the ids: getters, numbers, comparisons and
keys of the value store all agree with the components. -/
theorem packing_lossless (c c' : ValueComponents) :
    (new c).components = c ∧ ofId c.homeId (new c).getId = new c ∧
      ((new c).eq (new c') = true ↔ c = c') ∧ Orders eq ne lt gt ∧
      (new c).getValueStoreKey = valueStoreKey c.commandClassId c.instanceId c.index ∧
      ((new c).getValueStoreKey = (new c').getValueStoreKey ↔
        c.commandClassId = c'.commandClassId ∧ c.instanceId = c'.instanceId ∧
          c.index = c'.index) := by
  have hkey : ∀ c : ValueComponents, (new c).getValueStoreKey =
      valueStoreKey c.commandClassId c.instanceId c.index := by
    intro c
    have hcomponents := components_new c
    calc (new c).getValueStoreKey
        = valueStoreKey (new c).components.commandClassId (new c).components.instanceId
            (new c).components.index := getValueStoreKey_eq (new c)
      _ = valueStoreKey c.commandClassId c.instanceId c.index := by rw [hcomponents]
  refine ⟨components_new c, ofId_getId (new c), ?_, orders, hkey c, ?_⟩
  · rw [eq_iff, new_injective.eq_iff]
  · rw [hkey c, hkey c', valueStoreKey_inj]

example : (new {
    homeId := 0xFFFF, nodeId := 0x1, genre := 0, commandClassId := 0xCC, instanceId := 0x02
    index := 0x04, type := 10 }).getId = 0x400000133002A := by decide

end PackedValueID

end OpenZWave
