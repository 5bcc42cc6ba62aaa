import OpenZWave.SceneFile

/-!
# The number of scenes

The count of the scenes is the number of scenes in the table in every state that is reached
with files whose ids are new. Then the array of the ids has as many places as there are
ids to write.
-/

namespace OpenZWave

open NumberText Sweep

namespace Scenes

/-- The scenes in the table. -/
def number (scenes : UInt8 → Option Scene) : ℕ :=
  sceneIds.countP fun sceneId => (scenes sceneId).isSome

/-- The count is that of the scenes with ids from 1 to 255, and there are no others. -/
structure Counted (s : Scenes) : Prop where
  zero : s.scenes 0 = none
  count : s.sceneCnt.toNat = number s.scenes

/-! ## One entry of the table -/

theorem number_le (scenes : UInt8 → Option Scene) : number scenes ≤ 255 :=
  List.countP_le_length.trans_eq (by simp [sceneIds, bytesUpTo])

theorem number_update (scenes : UInt8 → Option Scene) {sceneId : UInt8} (hne : sceneId ≠ 0)
    (entry : Option Scene) :
    number (Function.update scenes sceneId entry) + (scenes sceneId).toList.length =
      number scenes + entry.toList.length := by
  have hperm := List.perm_cons_erase (mem_sceneIds.mpr hne)
  have hrest : (sceneIds.erase sceneId).countP (fun id =>
      (Function.update scenes sceneId entry id).isSome) =
        (sceneIds.erase sceneId).countP fun id => (scenes id).isSome := by
    apply List.countP_congr
    intro id hid
    have hother : id ≠ sceneId := fun heq => (nodup_sceneIds.not_mem_erase) (heq ▸ hid)
    simp [hother]
  rw [number, number, hperm.countP_eq, hperm.countP_eq, List.countP_cons, List.countP_cons, hrest,
    Function.update_self]
  cases scenes sceneId <;> cases entry <;> simp

variable {s s' : Scenes}

/-- A scene with a new id is counted. -/
theorem Counted.put (h : Counted s) {sceneId : UInt8} (hne : sceneId ≠ 0)
    (hnone : s.scenes sceneId = none) (scene : Scene) : Counted (s.put sceneId scene) where
  zero := by rw [scenes_put, if_neg hne.symm, h.zero]
  count := by
    have hnumber := number_update s.scenes hne (some scene)
    have hle := number_le (Function.update s.scenes sceneId (some scene))
    rw [hnone] at hnumber
    simp only [Option.toList_none, Option.toList_some, List.length_nil, List.length_singleton]
      at hnumber
    have hcount := h.count
    change (s.sceneCnt + 1).toNat = _
    rw [UInt8.toNat_add]
    change _ = number (Function.update s.scenes sceneId (some scene))
    have hone : (1 : UInt8).toNat = 1 := rfl
    omega

theorem Counted.newScene (h : Counted s) {sceneId : UInt8} (hne : sceneId ≠ 0)
    (hnone : s.scenes sceneId = none) : Counted (s.newScene sceneId) :=
  h.put hne hnone { label := [], values := [] }

theorem Counted.deleteScene (h : Counted s) {sceneId : UInt8} {scene : Scene}
    (hscene : s.scenes sceneId = some scene) : Counted (s.deleteScene sceneId) := by
  have hne : sceneId ≠ 0 := by
    rintro rfl
    cases h.zero.symm.trans hscene
  have hnumber := number_update s.scenes hne none
  have hle := number_le s.scenes
  rw [hscene] at hnumber
  simp only [Option.toList_none, Option.toList_some, List.length_nil, List.length_singleton]
    at hnumber
  have hcount := h.count
  refine ⟨(Function.update_of_ne hne.symm _ _).trans h.zero, ?_⟩
  change (s.sceneCnt - 1).toNat = number (Function.update s.scenes sceneId none)
  have hone : (1 : UInt8).toNat = 1 := rfl
  rw [UInt8.toNat_sub]
  omega

theorem Counted.modifyScene (h : Counted s) (sceneId : UInt8) (change : Scene → Scene) :
    Counted (s.modifyScene sceneId change) := by
  by_cases hne : sceneId = 0
  · subst hne
    have hsame : s.modifyScene 0 change = s := by
      rw [Scenes.modifyScene, h.zero, Option.map_none, ← h.zero, Function.update_eq_self]
    rwa [hsame]
  · have hnumber := number_update s.scenes hne ((s.scenes sceneId).map change)
    have hlength : ((s.scenes sceneId).map change).toList.length =
        (s.scenes sceneId).toList.length := by
      cases s.scenes sceneId <;> rfl
    refine ⟨(Function.update_of_ne (Ne.symm hne) _ _).trans h.zero, ?_⟩
    change s.sceneCnt.toNat = number (Function.update s.scenes sceneId _)
    have hcount := h.count
    omega

/-! ## The operations -/

theorem Counted.createScene (h : Counted s) : Counted s.createScene := by
  rw [Scenes.createScene]
  cases hfree : sceneIds.find? fun sceneId => (s.scenes sceneId).isNone with
  | none => exact h
  | some sceneId =>
      exact h.newScene (mem_sceneIds.mp (List.mem_of_find?_eq_some hfree))
        (by simpa using List.find?_some hfree)

theorem Counted.removeScene (h : Counted s) (sceneId : UInt8) :
    Counted (s.removeScene sceneId) := by
  rw [Scenes.removeScene]
  cases hscene : s.scenes sceneId with
  | none => exact h
  | some scene => exact h.deleteScene hscene

theorem Counted.removeValues (h : Counted s) (goes : PackedValueID → Bool) (sceneId : UInt8) :
    Counted (s.removeValues goes sceneId) := by
  rw [Scenes.removeValues]
  cases hscene : s.scenes sceneId with
  | none => exact h
  | some scene =>
      have hmodified := h.modifyScene sceneId (Scene.removeValues goes)
      have hremains : (s.modifyScene sceneId (Scene.removeValues goes)).scenes sceneId =
          some (scene.removeValues goes) := by
        simp [Scenes.modifyScene, hscene]
      dsimp only
      split
      · exact hmodified.deleteScene hremains
      · exact hmodified

theorem Counted.removeAllScenes (h : Counted s) (homeId : UInt32) :
    Counted (s.removeAllScenes homeId) := by
  refine List.foldlRecOn _ _ h fun t ht sceneId _ => ?_
  split
  · exact ht.removeScene sceneId
  · exact ht.removeValues _ sceneId

theorem Counted.removeNodeValues (h : Counted s) (homeId : UInt32) (nodeId : UInt8) :
    Counted (s.removeNodeValues homeId nodeId) :=
  List.foldlRecOn _ _ h fun _ ht sceneId _ => ht.removeValues _ sceneId

/-! ## Reading -/

/-- The ids of the scenes that elements have. -/
def readIds (elements : List TiXmlElement) : List UInt8 :=
  elements.filterMap fun element =>
    (element.queryIntAttribute "id").map fun intVal => intVal.toUInt32.toUInt8

/-- The ids of the scenes that a file has, if its version is the one that is read. -/
def LoadedFile.sceneIds : LoadedFile → List UInt8
  | .failed => []
  | .document none => []
  | .document (some root) =>
      if root.queryIntAttribute "version" = some 1 then readIds root.childElements else []

/-- The ids are those of new scenes. -/
structure FreshIds (s : Scenes) (ids : List UInt8) : Prop where
  nodup : ids.Nodup
  positive : (0 : UInt8) ∉ ids
  absent : ∀ id ∈ ids, s.scenes id = none

theorem readElement_eq_some {element : TiXmlElement} (h : readElement s element = some s') :
    ∃ intVal scene, element.queryIntAttribute "id" = some intVal ∧
      s' = s.put intVal.toUInt32.toUInt8 scene := by
  obtain ⟨intVal, hid, hread⟩ := Option.bind_eq_some_iff.mp h
  obtain ⟨scene, -, rfl⟩ := Option.map_eq_some_iff.mp hread
  refine ⟨intVal, scene, hid, ?_⟩
  simp [Scenes.put, Scenes.newScene, Scenes.modifyScene]

theorem Counted.foldlM_readElement {elements : List TiXmlElement} (h : Counted s)
    (hfresh : FreshIds s (readIds elements)) (hread : elements.foldlM readElement s = some s') :
    Counted s' := by
  induction elements generalizing s with
  | nil =>
      cases hread
      exact h
  | cons element elements ih =>
      obtain ⟨next, hnext, hrest⟩ := Option.bind_eq_some_iff.mp hread
      obtain ⟨intVal, scene, hid, rfl⟩ := readElement_eq_some hnext
      have hids : readIds (element :: elements) =
          intVal.toUInt32.toUInt8 :: readIds elements := by
        simp [readIds, hid]
      rw [hids] at hfresh
      obtain ⟨hnew, hnodup⟩ := List.nodup_cons.mp hfresh.nodup
      obtain ⟨hne, hpositive⟩ := not_or.mp (mt List.mem_cons.mpr hfresh.positive)
      refine ih (h.put (Ne.symm hne) (hfresh.absent _ List.mem_cons_self) scene)
        ⟨hnodup, hpositive, fun id hmem => ?_⟩ hrest
      have hother : id ≠ intVal.toUInt32.toUInt8 := fun heq => hnew (heq ▸ hmem)
      rw [scenes_put, if_neg hother]
      exact hfresh.absent id (List.mem_cons_of_mem _ hmem)

theorem Counted.readScenes (h : Counted s) {file : LoadedFile} {read : Bool}
    (hfresh : FreshIds s file.sceneIds) (hread : Reads file s read s') : Counted s' := by
  cases file with
  | failed =>
      obtain ⟨turns, hturns⟩ := hread
      cases hturns
      exact h
  | document root =>
      cases root with
      | none =>
          obtain ⟨turns, hturns⟩ := hread
          cases hturns
      | some root =>
          rw [LoadedFile.sceneIds] at hfresh
          by_cases hversion : root.queryIntAttribute "version" = some 1
          · rw [if_pos hversion] at hfresh
            exact h.foldlM_readElement hfresh ((reads_document_iff hversion).mp hread).2
          · obtain ⟨turns, hturns⟩ := hread
            cases (readScenes_other_version hversion turns s).symm.trans hturns
            exact h

/-! ## Runs -/

/-- What changes the scenes. -/
inductive Change
  | createScene
  | removeScene (sceneId : UInt8)
  | removeAllScenes (homeId : UInt32)
  | removeNodeValues (homeId : UInt32) (nodeId : UInt8)
  | setSceneLabel (sceneId : UInt8) (label : List Char)
  | addSceneValue (sceneId : UInt8) (valueId : PackedValueID) (value : List Char)
  | removeSceneValue (sceneId : UInt8) (valueId : PackedValueID)
  | setSceneValue (sceneId : UInt8) (valueId : PackedValueID) (value : List Char)
  | readScenes (file : LoadedFile)

/-- A change, which may not come to an end. -/
def Step (s : Scenes) : Change → Scenes → Prop
  | .createScene, s' => s' = s.createScene
  | .removeScene sceneId, s' => s' = s.removeScene sceneId
  | .removeAllScenes homeId, s' => s' = s.removeAllScenes homeId
  | .removeNodeValues homeId nodeId, s' => s' = s.removeNodeValues homeId nodeId
  | .setSceneLabel sceneId label, s' =>
      s' = s.modifyScene sceneId fun scene => { scene with label := label }
  | .addSceneValue sceneId valueId value, s' =>
      s' = s.modifyScene sceneId (Scene.addValue valueId value)
  | .removeSceneValue sceneId valueId, s' => s' = s.modifyScene sceneId (Scene.removeValue valueId)
  | .setSceneValue sceneId valueId value, s' =>
      s' = s.modifyScene sceneId (Scene.setValue valueId value)
  | .readScenes file, s' => ∃ read, Reads file s read s'

/-- The condition on a change: the ids of a file that is read are new. -/
def Fresh (s : Scenes) : Change → Prop
  | .readScenes file => FreshIds s file.sceneIds
  | _ => True

/-- The states of a process all of whose changes meet the condition. -/
inductive Reached : Scenes → Prop
  | start : Reached start
  | step {s s' : Scenes} (change : Change) (before : Reached s) (fresh : s.Fresh change)
      (step : s.Step change s') : Reached s'

theorem Counted.step (h : Counted s) {change : Change} (hfresh : s.Fresh change)
    (hstep : s.Step change s') : Counted s' := by
  cases change with
  | createScene => exact hstep ▸ h.createScene
  | removeScene sceneId => exact hstep ▸ h.removeScene sceneId
  | removeAllScenes homeId => exact hstep ▸ h.removeAllScenes homeId
  | removeNodeValues homeId nodeId => exact hstep ▸ h.removeNodeValues homeId nodeId
  | setSceneLabel sceneId label => exact hstep ▸ h.modifyScene sceneId _
  | addSceneValue sceneId valueId value => exact hstep ▸ h.modifyScene sceneId _
  | removeSceneValue sceneId valueId => exact hstep ▸ h.modifyScene sceneId _
  | setSceneValue sceneId valueId value => exact hstep ▸ h.modifyScene sceneId _
  | readScenes file =>
      obtain ⟨read, hread⟩ := hstep
      exact h.readScenes hfresh hread

theorem counted_start : Counted start where
  zero := rfl
  count := by simp [number, start]

theorem Reached.counted (h : Reached s) : Counted s := by
  induction h with
  | start => exact counted_start
  | step change before fresh step ih => exact ih.step fresh step

/-- What saving and loading makes of the children of an element, as far down as a number
of levels goes. -/
def loadedElement : ℕ → TiXmlElement → TiXmlElement
  | 0, element => element
  | levels + 1, element =>
      { element with
        children := element.children.flatMap fun
          | .element child => [.element (loadedElement levels child)]
          | .text value => loadedText value
          | .other value => [.other value] }

/-- A document of scenes, saved and loaded. -/
def saved (root : TiXmlElement) : LoadedFile := .document (some (loadedElement 3 root))

/-- The value of a dimmer. -/
def dimmed : SceneStorage := ⟨PackedValueID.new ⟨0xC0DE, 5, 1, 0x26, 1, 0, 1⟩, "10".toList⟩

/-- A scene that a file keeps. -/
def evening : Scenes := start.put 1 { label := "Evening".toList, values := [dimmed] }

theorem eq_of_scenes_put_start {sceneId id : UInt8} {scene other : Scene}
    (h : (start.put sceneId scene).scenes id = some other) : other = scene := by
  rw [scenes_put] at h
  split at h
  · exact (Option.some.inj h).symm
  · cases h

theorem plain_evening : ∀ id scene, evening.scenes id = some scene → ¬ HasReference scene.label ∧
    ∀ stored ∈ scene.values, ¬ HasReference stored.value := by
  intro id scene hscene
  rw [eq_of_scenes_put_start hscene]
  unfold HasReference
  decide +kernel

theorem lasting_dimmed : LastingId dimmed.id ∧ Lasting dimmed.value :=
  have hfirst : ∀ c ∈ dimmed.value.head?, isSkipped c = false := by
    rintro _ ⟨⟩
    rfl
  ⟨⟨by decide, by decide, by decide⟩, by decide, ⟨'1', by decide⟩, hfirst, by decide, by decide⟩

theorem lasting_evening : LastingScenes evening where
  zero := rfl
  label := fun id scene hscene => by
    rw [eq_of_scenes_put_start hscene]
    decide
  values := fun id scene hscene stored hstored => by
    rw [eq_of_scenes_put_start hscene] at hstored
    exact List.mem_singleton.mp hstored ▸ lasting_dimmed

/-- A scene element with id 1. -/
def first : TiXmlElement := (XmlElement.create "Scene").setAttribute "id" "1".toList

end Scenes

end OpenZWave
