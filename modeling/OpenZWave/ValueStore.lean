import OpenZWave.Lib.RefCounting
import OpenZWave.Lib.SortedTable
import OpenZWave.Lib.Transition
import OpenZWave.ValueID

/-!
# The store of values

`ValueStore` maps keys to the values of a node, each of which it holds by a counted
reference. Additions and removals are announced to the driver, which `Manager::GetDriver`
looks up; for a home id without a ready driver it throws.
-/

namespace OpenZWave

open RefCounting SortedTable Transition

/-- A value in memory: its id, the count of its references, and the flags that `AddValue`
sets. -/
structure ValueObject where
  id : PackedValueID
  refs : ℤ
  verifyChanges : Bool
  refreshAfterSet : Bool

inductive StoreNotice
  | valueAdded (id : PackedValueID)
  | valueRemoved (id : PackedValueID)

inductive StoreFault
  /-- The exception that `GetDriver` throws. -/
  | invalidHomeId
  /-- A use of a value that has been deleted. -/
  | deleted

/-- What the store looks up elsewhere: the home ids of ready drivers, and the flags of the
command class of a value. -/
structure StoreContext where
  ready : UInt32 → Bool
  verifyChanged : PackedValueID → Bool
  noRefreshAfterSet : PackedValueID → Bool

/-- An entry of `m_values`. -/
structure StoreEntry where
  key : UInt32
  value : ℕ
  deriving DecidableEq

/-- `ValueStore` with the values in memory, by their addresses. `held` lists the references
that callers have got, with a new value or from `GetValue`, and not released. -/
structure CountedStore where
  objects : ℕ → Option ValueObject
  values : List StoreEntry
  held : List ℕ
  notified : List StoreNotice

namespace CountedStore

/-- The order of the map. -/
def orderKey (entry : StoreEntry) : ℕ := entry.key.toNat

/-- `m_values.find`. -/
def find (s : CountedStore) (key : UInt32) : Option StoreEntry :=
  lookup orderKey key.toNat s.values

def new : CountedStore where
  objects := fun _ => none
  values := []
  held := []
  notified := []

def notify (s : CountedStore) (notice : StoreNotice) : CountedStore :=
  { s with notified := s.notified ++ [notice] }

/-- Another content of an address. -/
def write (s : CountedStore) (p : ℕ) (object : Option ValueObject) : CountedStore :=
  { s with objects := Function.update s.objects p object }

/-- `AddRef`. -/
def addRef (s : CountedStore) (p : ℕ) (value : ValueObject) : CountedStore :=
  s.write p (some { value with refs := value.refs + 1 })

/-- `Release`, which deletes the value with its last reference. -/
def releaseRef (s : CountedStore) (p : ℕ) (value : ValueObject) : CountedStore :=
  s.write p ((RefCounting.release value.refs).map fun refs => { value with refs := refs })

variable (around : StoreContext)

/-- `AddValue`. The entry is there before the driver is looked up. -/
def addValue (s : CountedStore) (p : Option ℕ) : CountedStore × Except StoreFault Bool :=
  match p with
  | none => (s, .ok false)
  | some p =>
      match s.objects p with
      | none => (s, .error .deleted)
      | some value =>
          let key := value.id.getValueStoreKey
          match s.find key with
          | some _ => (s, .ok false)
          | none =>
              let s := { s with values := upsert orderKey ⟨key, p⟩ s.values }
              let s := s.addRef p value
              if around.ready value.id.getHomeId then
                let value :=
                  { value with
                    refs := value.refs + 1
                    verifyChanges := around.verifyChanged value.id || value.verifyChanges
                    refreshAfterSet := !around.noRefreshAfterSet value.id && value.refreshAfterSet }
                ((s.write p (some value)).notify (.valueAdded value.id), .ok true)
              else (s, .error .invalidHomeId)

/-- An entry goes, and the store's reference to its value with it. -/
def dropEntry (s : CountedStore) (entry : StoreEntry) (value : ValueObject) : CountedStore :=
  { (s.notify (.valueRemoved value.id)).releaseRef entry.value value with
    values := s.values.erase entry }

/-- What `RemoveValue` and `RemoveCommandClassValues` do with an entry, and the references
that are left to its value. -/
def removeEntry (s : CountedStore) (entry : StoreEntry) : CountedStore × Except StoreFault ℤ :=
  match s.objects entry.value with
  | none => (s, .error .deleted)
  | some value =>
      if around.ready value.id.getHomeId then
        (s.dropEntry entry value, .ok ((RefCounting.release value.refs).getD 0))
      else (s, .error .invalidHomeId)

/-- `RemoveValue`. For the log, a value that is still in use is read again. -/
def removeValue (s : CountedStore) (key : UInt32) : CountedStore × Except StoreFault Bool :=
  match s.find key with
  | none => (s, .ok false)
  | some entry =>
      match s.removeEntry around entry with
      | (s, .error fault) => (s, .error fault)
      | (s, .ok references) =>
          if references > 0 ∧ s.objects entry.value = none then (s, .error .deleted)
          else (s, .ok true)

/-- The loop of `RemoveCommandClassValues` over the entries that are left. -/
def removeFrom (commandClassId : UInt8) (s : CountedStore) :
    List StoreEntry → CountedStore × Except StoreFault Unit
  | [] => (s, .ok ())
  | entry :: entries =>
      match s.objects entry.value with
      | none => (s, .error .deleted)
      | some value =>
          if commandClassId = value.id.getCommandClassId then
            match s.removeEntry around entry with
            | (s, .error fault) => (s, .error fault)
            | (s, .ok _) => removeFrom commandClassId s entries
          else removeFrom commandClassId s entries

/-- `RemoveCommandClassValues`. -/
def removeCommandClassValues (s : CountedStore) (commandClassId : UInt8) :
    CountedStore × Except StoreFault Unit :=
  s.removeFrom around commandClassId s.values

/-- `GetValue`. -/
def getValue (s : CountedStore) (key : UInt32) : CountedStore × Except StoreFault (Option ℕ) :=
  match s.find key with
  | none => (s, .ok none)
  | some entry =>
      match s.objects entry.value with
      | none => (s, .error .deleted)
      | some value =>
          ({ s.addRef entry.value value with held := entry.value :: s.held },
            .ok (some entry.value))

/-- A caller releases a reference that it holds. -/
def release (s : CountedStore) (p : ℕ) : CountedStore × Except StoreFault Unit :=
  match s.objects p with
  | none => (s, .error .deleted)
  | some value => ({ s.releaseRef p value with held := s.held.erase p }, .ok ())

/-- A new value, whose first reference is its creator's. -/
def create (s : CountedStore) (p : ℕ) (id : PackedValueID) : CountedStore :=
  { s.write p (some ⟨id, 1, false, true⟩) with held := p :: s.held }

end CountedStore

/-- A caller may pass any value to `AddValue`, and releases only references that it holds. -/
inductive StoreCall
  | create (p : ℕ) (id : PackedValueID)
  | addValue (p : Option ℕ)
  | removeValue (key : UInt32)
  | removeCommandClassValues (commandClassId : UInt8)
  | getValue (key : UInt32)
  | release (p : ℕ)

namespace CountedStore

/-- The state after a call. A value is created where there is none. -/
def step (around : StoreContext) (s : CountedStore) : StoreCall → CountedStore
  | .create p id => if (s.objects p).isSome then s else s.create p id
  | .addValue p => (s.addValue around p).1
  | .removeValue key => (s.removeValue around key).1
  | .removeCommandClassValues commandClassId =>
      (s.removeCommandClassValues around commandClassId).1
  | .getValue key => (s.getValue key).1
  | .release p => if p ∈ s.held then (s.release p).1 else s

/-! ## What is expected of a call -/

/-- How many references to a value there should be: one for each entry, and one for each
that a caller holds. -/
def owners (s : CountedStore) (p : ℕ) : ℕ :=
  (s.values.map StoreEntry.value).count p + s.held.count p

/-- The count of the references to each value. -/
def refs (s : CountedStore) (p : ℕ) : Option ℤ := (s.objects p).map ValueObject.refs

/-- Each entry has a value with its key, and each value exactly the references that it
should have: it is deleted with the last of them and not before. -/
structure Sound (s : CountedStore) : Prop where
  sorted : Sorted orderKey s.values
  keyed : ∀ entry ∈ s.values,
    ∃ value, s.objects entry.value = some value ∧ value.id.getValueStoreKey = entry.key
  balanced : Balanced s.refs s.owners

/-- The command class of the value of an entry. -/
def classOf (s : CountedStore) (entry : StoreEntry) : Option UInt8 :=
  (s.objects entry.value).map fun value => value.id.getCommandClassId

/-- The announcement of a removal. -/
def removal (s : CountedStore) (entry : StoreEntry) : Option StoreNotice :=
  (s.objects entry.value).map fun value => .valueRemoved value.id

/-- What a call returns, and what it changes in the map and announces. -/
def Served (around : StoreContext) (s : CountedStore) : StoreCall → Prop
  | .create p id =>
      (s.step around (.create p id)).values = s.values ∧
        (s.step around (.create p id)).notified = s.notified
  | .addValue none => s.addValue around none = (s, .ok false)
  | .addValue (some p) => ∀ value, s.objects p = some value →
      (s.addValue around (some p)).2 = .ok (s.find value.id.getValueStoreKey).isNone ∧
        (s.find value.id.getValueStoreKey ≠ none → (s.addValue around (some p)).1 = s) ∧
        (s.find value.id.getValueStoreKey = none →
          (s.addValue around (some p)).1.find = Function.update s.find value.id.getValueStoreKey
              (some ⟨value.id.getValueStoreKey, p⟩) ∧
            (s.addValue around (some p)).1.notified = s.notified ++ [.valueAdded value.id])
  | .removeValue key =>
      (s.removeValue around key).2 = .ok (s.find key).isSome ∧
        (s.removeValue around key).1.find = Function.update s.find key none ∧
        (s.removeValue around key).1.notified =
          s.notified ++ ((s.find key).bind s.removal).toList
  | .removeCommandClassValues commandClassId =>
      (s.removeCommandClassValues around commandClassId).2 = .ok () ∧
        (s.removeCommandClassValues around commandClassId).1.values =
          s.values.filter (fun entry => s.classOf entry ≠ some commandClassId) ∧
        (s.removeCommandClassValues around commandClassId).1.notified =
          s.notified ++
            (s.values.filter fun entry => s.classOf entry = some commandClassId).filterMap s.removal
  | .getValue key =>
      (s.getValue key).2 = .ok ((s.find key).map StoreEntry.value) ∧
        (s.getValue key).1.values = s.values ∧ (s.getValue key).1.notified = s.notified
  | .release p => p ∈ s.held →
      (s.release p).2 = .ok () ∧ (s.release p).1.values = s.values ∧
        (s.release p).1.notified = s.notified

variable {around : StoreContext} {s : CountedStore} {entry other : StoreEntry} {value : ValueObject}
  {key : UInt32} {p : ℕ}

theorem Sound.find_eq_some_iff (h : s.Sound) :
    s.find key = some entry ↔ entry ∈ s.values ∧ entry.key = key := by
  rw [find, lookup_eq_some_iff h.sorted, orderKey, UInt32.toNat_inj]

theorem Sound.nodup (h : s.Sound) : s.values.Nodup := by
  apply h.sorted.imp
  intro a b hlt heq
  rw [heq] at hlt
  exact Nat.lt_irrefl _ hlt

/-- Two entries do not share a value. -/
theorem Sound.entry_eq (h : s.Sound) (hentry : entry ∈ s.values) (hother : other ∈ s.values)
    (hvalue : other.value = entry.value) : other = entry := by
  obtain ⟨value, hobject, hkey⟩ := h.keyed entry hentry
  obtain ⟨value', hobject', hkey'⟩ := h.keyed other hother
  rw [hvalue, hobject] at hobject'
  cases hobject'
  have hsame : other.key = entry.key := hkey'.symm.trans hkey
  have hfind := h.find_eq_some_iff.mpr ⟨hother, hsame⟩
  rw [h.find_eq_some_iff.mpr ⟨hentry, rfl⟩] at hfind
  exact (Option.some.inj hfind).symm

@[simp] theorem objects_write_self (s : CountedStore) (p : ℕ) (object : Option ValueObject) :
    (s.write p object).objects p = object := Function.update_self _ _ _

theorem objects_write_of_ne {q : ℕ} (h : q ≠ p) (s : CountedStore) (object : Option ValueObject) :
    (s.write p object).objects q = s.objects q := Function.update_of_ne h _ _

theorem refs_write (s : CountedStore) (p : ℕ) (object : Option ValueObject) :
    (s.write p object).refs = Function.update s.refs p (object.map ValueObject.refs) := by
  funext q
  by_cases hq : q = p
  · rw [hq, Function.update_self, refs, objects_write_self]
  · rw [Function.update_of_ne hq, refs, objects_write_of_ne hq, refs]

theorem map_refs_release (value : ValueObject) :
    ((RefCounting.release value.refs).map fun refs => { value with refs := refs }).map
      ValueObject.refs = RefCounting.release value.refs := by
  rw [Option.map_map]
  exact Option.map_id_apply

theorem Sound.exists_iff (h : s.Sound) : s.objects p = none ↔ s.owners p = 0 := by
  have hexists := h.balanced.exists_iff (p := p)
  rw [refs] at hexists
  cases hobject : s.objects p with
  | none =>
      rw [hobject] at hexists
      simpa using hexists
  | some value =>
      rw [hobject] at hexists
      simp only [Option.map_some, Option.some.injEq, exists_eq', true_iff] at hexists
      simp only [reduceCtorEq, false_iff]
      omega

/-! ## One entry goes -/

theorem objects_dropEntry_of_ne (h : p ≠ entry.value) :
    (s.dropEntry entry value).objects p = s.objects p := Function.update_of_ne h _ _

theorem Sound.objects_dropEntry (h : s.Sound) (hentry : entry ∈ s.values)
    (hother : other ∈ s.values) (hne : other ≠ entry) :
    (s.dropEntry entry value).objects other.value = s.objects other.value :=
  objects_dropEntry_of_ne fun hvalue => hne (h.entry_eq hentry hother hvalue)

theorem Sound.dropEntry (h : s.Sound) (hentry : entry ∈ s.values)
    (hobject : s.objects entry.value = some value) : (s.dropEntry entry value).Sound where
  sorted := h.sorted.sublist List.erase_sublist
  keyed := by
    intro other hother
    obtain ⟨hne, hmem⟩ := h.nodup.mem_erase_iff.mp hother
    rw [h.objects_dropEntry hentry hmem hne]
    exact h.keyed other hmem
  balanced := by
    have hperm := (List.perm_cons_erase hentry).map StoreEntry.value
    refine h.balanced.release (congrArg (Option.map ValueObject.refs) hobject) ?_ ?_ ?_
    · exact (refs_write _ _ _).trans (congrArg _ (map_refs_release value))
    · rw [owners, owners, hperm.count_eq, List.map_cons, List.count_cons_self]
      exact Nat.add_right_comm _ _ _
    · intro q hq
      rw [owners, owners, hperm.count_eq, List.map_cons, List.count_cons_of_ne hq.symm]
      rfl

theorem removeEntry_of_ready (hobject : s.objects entry.value = some value)
    (hready : around.ready value.id.getHomeId = true) :
    s.removeEntry around entry =
      (s.dropEntry entry value, .ok ((RefCounting.release value.refs).getD 0)) := by
  simp only [removeEntry, hobject, if_pos hready]

theorem removeEntry_of_not_ready (hobject : s.objects entry.value = some value)
    (hready : ¬around.ready value.id.getHomeId = true) :
    s.removeEntry around entry = (s, .error .invalidHomeId) := by
  simp only [removeEntry, hobject, if_neg hready]

/-- Whatever is left of a value that has lost a reference, it is not read when it is deleted. -/
theorem not_deleted_of_references (entry : StoreEntry) (value : ValueObject) :
    ¬((RefCounting.release value.refs).getD 0 > 0 ∧
      (s.dropEntry entry value).objects entry.value = none) := by
  rintro ⟨hpos, hnone⟩
  have hwritten : (s.dropEntry entry value).objects entry.value =
      (RefCounting.release value.refs).map fun refs => { value with refs := refs } :=
    Function.update_self _ _ _
  rw [hwritten, Option.map_eq_none_iff] at hnone
  rw [hnone] at hpos
  exact absurd hpos (by decide)

theorem Sound.removeValue (h : s.Sound) (key : UInt32) : (s.removeValue around key).1.Sound := by
  rw [CountedStore.removeValue]
  cases hfind : s.find key with
  | none => exact h
  | some entry =>
      obtain ⟨hentry, -⟩ := h.find_eq_some_iff.mp hfind
      obtain ⟨value, hobject, -⟩ := h.keyed entry hentry
      by_cases hready : around.ready value.id.getHomeId = true
      · simp only [removeEntry_of_ready hobject hready, if_neg (not_deleted_of_references _ _)]
        exact h.dropEntry hentry hobject
      · simp only [removeEntry_of_not_ready hobject hready]
        exact h

theorem Sound.removeFrom (h : s.Sound) (commandClassId : UInt8) {entries : List StoreEntry}
    (hentries : entries ⊆ s.values) (hnodup : entries.Nodup) :
    (s.removeFrom around commandClassId entries).1.Sound := by
  induction entries generalizing s with
  | nil => exact h
  | cons entry entries ih =>
      obtain ⟨hentry, hrest⟩ := List.cons_subset.mp hentries
      obtain ⟨hnew, hnodup⟩ := List.nodup_cons.mp hnodup
      obtain ⟨value, hobject, -⟩ := h.keyed entry hentry
      simp only [CountedStore.removeFrom, hobject]
      split
      · by_cases hready : around.ready value.id.getHomeId = true
        · simp only [removeEntry_of_ready hobject hready]
          refine ih (h.dropEntry hentry hobject) ?_ hnodup
          intro other hother
          exact h.nodup.mem_erase_iff.mpr ⟨fun heq => hnew (heq ▸ hother), hrest hother⟩
        · simp only [removeEntry_of_not_ready hobject hready]
          exact h
      · exact ih h hrest hnodup

section

variable {t : CountedStore} {value' : ValueObject}

theorem refs_congr {u : CountedStore} (h : t.objects = u.objects) : t.refs = u.refs := by
  funext q
  rw [refs, h, refs]

/-- The entries keep their values when one is written that has the same id. -/
theorem Sound.keyed_write (h : s.Sound) (hobject : s.objects p = some value)
    (hid : value'.id = value.id) : ∀ entry ∈ s.values,
      ∃ v, (s.write p (some value')).objects entry.value = some v ∧
        v.id.getValueStoreKey = entry.key := by
  intro entry hentry
  obtain ⟨old, hold, hkey⟩ := h.keyed entry hentry
  by_cases hp : entry.value = p
  · rw [hp, hobject] at hold
    cases hold
    exact ⟨value', by rw [hp, objects_write_self], by rw [hid, hkey]⟩
  · exact ⟨old, (objects_write_of_ne hp s _).trans hold, hkey⟩

/-- An entry for a value whose key is free, with a reference of its own. -/
theorem Sound.insert (h : s.Sound) (hobject : s.objects p = some value)
    (hfree : s.find value.id.getValueStoreKey = none)
    (hvalues : t.values = upsert orderKey ⟨value.id.getValueStoreKey, p⟩ s.values)
    (hobjects : t.objects = (s.write p (some value')).objects) (hheld : t.held = s.held)
    (hid : value'.id = value.id) (hrefs : value'.refs = value.refs + 1) : t.Sound where
  sorted := by
    rw [hvalues]
    exact sorted_upsert _ h.sorted
  keyed := by
    intro entry hentry
    rw [hvalues] at hentry
    rw [hobjects]
    rcases mem_upsert hentry with rfl | hold
    · exact ⟨value', objects_write_self s p _, by rw [hid]⟩
    · exact h.keyed_write hobject hid entry hold
  balanced := by
    have hnew : lookup orderKey (orderKey ⟨value.id.getValueStoreKey, p⟩) s.values = none := hfree
    have hperm := (perm_upsert hnew).map StoreEntry.value
    refine h.balanced.addRef (congrArg (Option.map ValueObject.refs) hobject) ?_ ?_ ?_
    · rw [refs_congr hobjects, refs_write, Option.map_some, hrefs]
    · rw [owners, owners, hvalues, hheld, hperm.count_eq, List.map_cons, List.count_cons_self]
      exact Nat.add_right_comm _ _ _
    · intro q hq
      rw [owners, owners, hvalues, hheld, hperm.count_eq, List.map_cons,
        List.count_cons_of_ne hq.symm]

/-- A reference that a caller holds. -/
theorem Sound.hold (h : s.Sound) (hobject : s.objects p = some value)
    (hvalues : t.values = s.values) (hobjects : t.objects = (s.write p (some value')).objects)
    (hheld : t.held = p :: s.held) (hid : value'.id = value.id)
    (hrefs : value'.refs = value.refs + 1) : t.Sound where
  sorted := hvalues ▸ h.sorted
  keyed := by
    intro entry hentry
    rw [hvalues] at hentry
    rw [hobjects]
    exact h.keyed_write hobject hid entry hentry
  balanced := by
    refine h.balanced.addRef (congrArg (Option.map ValueObject.refs) hobject) ?_ ?_ ?_
    · rw [refs_congr hobjects, refs_write, Option.map_some, hrefs]
    · rw [owners, owners, hvalues, hheld, List.count_cons_self]
      rfl
    · intro q hq
      rw [owners, owners, hvalues, hheld, List.count_cons_of_ne hq.symm]

end

theorem Sound.addValue (h : s.Sound) (p : Option ℕ) : (s.addValue around p).1.Sound := by
  match p with
  | none => exact h
  | some p =>
      rw [CountedStore.addValue]
      cases hobject : s.objects p with
      | none => exact h
      | some value =>
          dsimp only
          cases hfind : s.find value.id.getValueStoreKey with
          | some entry => exact h
          | none =>
              dsimp only
              split
              · -- the flags are written over the count
                exact h.insert hobject hfind rfl (Function.update_idem _ _ _) rfl rfl rfl
              · exact h.insert hobject hfind rfl rfl rfl rfl rfl

theorem Sound.getValue (h : s.Sound) (key : UInt32) : (s.getValue key).1.Sound := by
  rw [CountedStore.getValue]
  cases hfind : s.find key with
  | none => exact h
  | some entry =>
      obtain ⟨hentry, -⟩ := h.find_eq_some_iff.mp hfind
      obtain ⟨value, hobject, -⟩ := h.keyed entry hentry
      simp only [hobject]
      exact h.hold hobject rfl rfl rfl rfl rfl

/-- A value to which a caller holds a reference has not been deleted. -/
theorem Sound.exists_of_held (h : s.Sound) (hheld : p ∈ s.held) :
    ∃ value, s.objects p = some value := by
  rw [← Option.ne_none_iff_exists']
  intro hnone
  have howners := h.exists_iff.mp hnone
  have hpos := List.count_pos_iff.mpr hheld
  rw [owners] at howners
  omega

theorem Sound.release (h : s.Sound) (hheld : p ∈ s.held) : (s.release p).1.Sound := by
  obtain ⟨value, hobject⟩ := h.exists_of_held hheld
  have hpos := List.count_pos_iff.mpr hheld
  have hrefs : s.refs p = some value.refs := congrArg (Option.map ValueObject.refs) hobject
  simp only [CountedStore.release, hobject]
  refine ⟨h.sorted, ?_, ?_⟩
  · intro entry hentry
    obtain ⟨old, hold, hkey⟩ := h.keyed entry hentry
    by_cases hp : entry.value = p
    · -- the entry is another owner of the value, which therefore stays
      have hother : 0 < (s.values.map StoreEntry.value).count p :=
        List.count_pos_iff.mpr (List.mem_map.mpr ⟨entry, hentry, hp⟩)
      have hcount := (h.balanced.count_eq hrefs).1
      rw [owners] at hcount
      have hkept : RefCounting.release value.refs = some (value.refs - 1) :=
        if_neg (by omega)
      rw [hp, hobject] at hold
      cases hold
      refine ⟨{ value with refs := value.refs - 1 }, ?_, hkey⟩
      rw [hp]
      refine (objects_write_self s p _).trans ?_
      rw [hkept, Option.map_some]
    · exact ⟨old, (objects_write_of_ne hp s _).trans hold, hkey⟩
  · refine h.balanced.release hrefs ?_ ?_ ?_
    · exact (refs_write _ _ _).trans (congrArg _ (map_refs_release value))
    · have hcount : (s.held.erase p).count p = s.held.count p - 1 := List.count_erase_self
      change (s.values.map StoreEntry.value).count p + (s.held.erase p).count p + 1 =
        (s.values.map StoreEntry.value).count p + s.held.count p
      omega
    · intro q hq
      change (s.values.map StoreEntry.value).count q + (s.held.erase p).count q =
        (s.values.map StoreEntry.value).count q + s.held.count q
      rw [List.count_erase_of_ne hq]

theorem Sound.create (h : s.Sound) (hfree : s.objects p = none) (id : PackedValueID) :
    (s.create p id).Sound where
  sorted := h.sorted
  keyed := by
    intro entry hentry
    obtain ⟨value, hobject, hkey⟩ := h.keyed entry hentry
    have hp : entry.value ≠ p := by
      rintro rfl
      rw [hfree] at hobject
      cases hobject
    exact ⟨value, (objects_write_of_ne hp s _).trans hobject, hkey⟩
  balanced := by
    have hnone := h.exists_iff.mp hfree
    rw [owners] at hnone
    refine h.balanced.create (refs_write _ _ _) ?_ ?_
    · change (s.values.map StoreEntry.value).count p + (p :: s.held).count p = 1
      rw [List.count_cons_self]
      omega
    · intro q hq
      change (s.values.map StoreEntry.value).count q + (p :: s.held).count q = s.owners q
      rw [List.count_cons_of_ne hq.symm, owners]

/-! ## Runs -/

/-- Also a call that throws leaves a store in which every reference is counted. -/
theorem Sound.step (h : s.Sound) (c : StoreCall) : (s.step around c).Sound := by
  cases c with
  | create p id =>
      rw [CountedStore.step]
      split
      · exact h
      · rename_i hfree
        exact h.create (by simpa using hfree) id
  | addValue p => exact h.addValue p
  | removeValue key => exact h.removeValue key
  | removeCommandClassValues commandClassId =>
      exact h.removeFrom commandClassId (List.Subset.refl _) h.nodup
  | getValue key => exact h.getValue key
  | release p =>
      rw [CountedStore.step]
      split
      · rename_i hheld
        exact h.release hheld
      · exact h

end CountedStore

end OpenZWave
