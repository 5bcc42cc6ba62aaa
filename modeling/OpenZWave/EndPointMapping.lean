import OpenZWave.EndPoints

/-!
# What the reports of endpoints establish

Each endpoint of a class that a report names has one instance, which is in the bit
field of the class, and the maps back and forth are inverse. The bit field ends at
place 31, and the Basic class takes over the instances of the class it is mapped
to; apart from these two, every report keeps the mapping.
-/

namespace OpenZWave

open PartialMap Transition

namespace MultiChannelNode

variable {n n' : MultiChannelNode} {A : UInt8 → UInt8 → Prop} {id inst endPoint : UInt8}

/-- The device has reported the class for the endpoint. -/
def Advertises (n : MultiChannelNode) (id endPoint : UInt8) : Prop :=
  ∃ report ∈ n.accepted, id ∈ report.commandClasses ∧ n.options.removed id = false ∧
    (endPoint = report.endPoint ∨
      n.endPointsAreSameClass = true ∧ endPoint ≠ 0 ∧ endPoint ≤ n.numEndPoints)

/-- The endpoint has an instance of the class, if the library has the class. -/
def Covers (n : MultiChannelNode) (id endPoint : UInt8) : Prop :=
  match n.commandClasses id with
  | none => n.creatable id = false
  | some cc => ∃ i, cc.endPointMap i = some endPoint

/-- The maps of all classes are in order and cover the given classes of endpoints. -/
structure Holds (n : MultiChannelNode) (A : UInt8 → UInt8 → Prop) : Prop where
  mapped : ∀ id cc, n.commandClasses id = some cc → cc.Mapped
  covered : ∀ id endPoint, A id endPoint → n.Covers id endPoint

theorem Holds.mono {B : UInt8 → UInt8 → Prop} (h : n.Holds A) (hsub : ∀ id e, B id e → A id e) :
    n.Holds B :=
  ⟨h.mapped, fun id e hB => h.covered id e (hsub id e hB)⟩

theorem Holds.insert (h : n.Holds A) (hcovers : n.Covers id endPoint) :
    n.Holds fun other e => A other e ∨ other = id ∧ e = endPoint := by
  refine ⟨h.mapped, fun other e hA => ?_⟩
  obtain hA | ⟨rfl, rfl⟩ := hA
  · exact h.covered other e hA
  · exact hcovers

/-! ## What the turn of a class leaves as it is -/

/-- Only the classes that the node has are changed. -/
structure Reassigned (n n' : MultiChannelNode) : Prop where
  rest : n' = { n with commandClasses := n'.commandClasses }
  same : ∀ id, n'.commandClasses id = none ↔ n.commandClasses id = none

theorem Reassigned.refl (n : MultiChannelNode) : Reassigned n n := ⟨rfl, fun _ => Iff.rfl⟩

theorem Reassigned.trans {n'' : MultiChannelNode} (h : Reassigned n n') (h' : Reassigned n' n'') :
    Reassigned n n'' := by
  refine ⟨?_, fun id => (h'.same id).trans (h.same id)⟩
  rw [h'.rest, h.rest]

theorem reassigned_place (n : MultiChannelNode) (id inst : UInt8) (endPoint : Option UInt8) :
    Reassigned n (n.place id inst endPoint) := by
  rw [place]
  split
  · exact .refl n
  · rename_i cc hcc
    refine ⟨rfl, fun other => ?_⟩
    by_cases hother : other = id
    · rw [hother, commandClasses_setClass_self, hcc]
      simp
    · rw [commandClasses_setClass_of_ne n hother]

theorem reassigned_assign (n : MultiChannelNode) (id inst : UInt8) (endPoint : Option UInt8) :
    Reassigned n (n.assign id inst endPoint) := by
  have hplace := reassigned_place n id inst endPoint
  rw [assign]
  split
  · exact hplace.trans (reassigned_place _ basicId inst endPoint)
  · exact hplace

theorem reassigned_turn (n : MultiChannelNode) (endPoint id : UInt8) :
    Reassigned n (n.turn endPoint id) := by
  rw [turn]
  split
  · exact .refl n
  · split
    · split
      · exact .refl n
      · exact reassigned_assign ..
    · exact .refl n

theorem reassigned_sameClassTurn (n : MultiChannelNode) (inst endPoint id : UInt8) :
    Reassigned n (n.sameClassTurn inst endPoint id) := by
  rw [sameClassTurn]
  split
  · exact .refl n
  · split
    · exact reassigned_assign ..
    · exact .refl n

theorem Reassigned.advertises (h : Reassigned n n') (id endPoint : UInt8) :
    n'.Advertises id endPoint ↔ n.Advertises id endPoint := by
  rw [h.rest]
  exact Iff.rfl

/-! ## A class gets an instance -/

theorem commandClasses_place_self {cc : MultiClass} (hcc : n.commandClasses id = some cc)
    (ep : Option UInt8) : (n.place id inst ep).commandClasses id = some (cc.place inst ep) := by
  rw [place, hcc]
  exact commandClasses_setClass_self ..

theorem commandClasses_place_of_ne {other : UInt8} (h : other ≠ id) (ep : Option UInt8) :
    (n.place id inst ep).commandClasses other = n.commandClasses other := by
  rw [place]
  split
  · rfl
  · exact commandClasses_setClass_of_ne n h _

theorem covers_place {cc : MultiClass} (hcc : n.commandClasses id = some cc) :
    (n.place id inst (some endPoint)).Covers id endPoint := by
  rw [Covers, commandClasses_place_self hcc]
  refine ⟨inst, ?_⟩
  rw [MultiClass.endPointMap_place, Function.update_self]

/-- The class can take the instance for the endpoint: the endpoint has no other, and
no endpoint that must keep it loses it. -/
def Takes (A : UInt8 → UInt8 → Prop) (id inst endPoint : UInt8) (cc : MultiClass) : Prop :=
  Admits cc.endPointMap inst endPoint ∧
    ∀ other, cc.endPointMap inst = some other → A id other → other = endPoint

theorem Holds.place (h : n.Holds A) (hinst : inst ≠ 0) (hin : inst ≤ 0x1f) (hendPoint : endPoint ≠ 0)
    (htakes : ∀ cc, n.commandClasses id = some cc → Takes A id inst endPoint cc) :
    (n.place id inst (some endPoint)).Holds A := by
  constructor
  · intro other cc hcc
    by_cases hother : other = id
    · subst hother
      cases hold : n.commandClasses other with
      | none => exact h.mapped other cc (by rwa [place, hold] at hcc)
      | some old =>
          rw [commandClasses_place_self hold] at hcc
          rw [← Option.some.inj hcc]
          exact (h.mapped other old hold).place hinst hin hendPoint (htakes old hold).1
    · rw [commandClasses_place_of_ne hother] at hcc
      exact h.mapped other cc hcc
  · intro other e hA
    have hcovers := h.covered other e hA
    by_cases hother : other = id
    · subst hother
      cases hold : n.commandClasses other with
      | none => rwa [place, hold]
      | some old =>
          rw [Covers, hold] at hcovers
          obtain ⟨i, hi⟩ := hcovers
          rw [Covers, commandClasses_place_self hold]
          dsimp only
          rw [MultiClass.endPointMap_place]
          exact update_of_ne hi fun hlost => (htakes old hold).2 e hlost hA
    · rw [Covers, (reassigned_place n id inst (some endPoint)).rest]
      dsimp only
      rw [commandClasses_place_of_ne hother]
      exact hcovers

/-- The Basic class can take the instance after the class has got it. -/
theorem takes_basic (hbasic : ∀ basic, n.commandClasses basicId = some basic →
      Takes A basicId inst endPoint basic) (basic : MultiClass)
    (hplaced : (n.place id inst (some endPoint)).commandClasses basicId = some basic) :
    Takes (fun other e => A other e ∨ other = id ∧ e = endPoint) basicId inst endPoint basic := by
  by_cases hid : basicId = id
  · subst hid
    cases hold : n.commandClasses basicId with
    | none =>
        rw [place, hold] at hplaced
        exact absurd (hold.symm.trans hplaced) (Option.some_ne_none basic).symm
    | some old =>
        rw [commandClasses_place_self hold] at hplaced
        rw [← Option.some.inj hplaced]
        constructor
        · intro j hj
          rw [MultiClass.endPointMap_place, update_eq_some_iff] at hj
          exact hj.elim And.left fun hj => (hbasic old hold).1 j hj.2
        · intro other hother _
          rw [MultiClass.endPointMap_place, Function.update_self] at hother
          exact (Option.some.inj hother).symm
  · rw [commandClasses_place_of_ne hid] at hplaced
    obtain ⟨hadmits, hlost⟩ := hbasic basic hplaced
    refine ⟨hadmits, fun other hother hA => hlost other hother ?_⟩
    exact hA.elim (fun hA => hA) fun hA => absurd hA.1 hid

theorem Holds.assign (h : n.Holds A) {cc : MultiClass} (hcc : n.commandClasses id = some cc)
    (hinst : inst ≠ 0) (hin : inst ≤ 0x1f) (hendPoint : endPoint ≠ 0)
    (htakes : Takes A id inst endPoint cc)
    (hbasic : n.basicMapping = id → ∀ basic, n.commandClasses basicId = some basic →
      Takes A basicId inst endPoint basic) :
    (n.assign id inst (some endPoint)).Holds fun other e => A other e ∨ other = id ∧ e = endPoint := by
  have hplaced := (h.place hinst hin hendPoint fun old hold =>
    Option.some.inj (hcc.symm.trans hold) ▸ htakes).insert (covers_place hcc)
  have hmapping : (n.place id inst (some endPoint)).basicMapping = n.basicMapping := by
    rw [(reassigned_place n id inst (some endPoint)).rest]
  rw [MultiChannelNode.assign]
  split
  · rename_i hmapped
    exact hplaced.place hinst hin hendPoint (takes_basic (hbasic (hmapping.symm.trans hmapped)))
  · exact hplaced

/-! ## Endpoints that are unlike -/

/-- What the turn of a class asks for: the bit field has the next instance, and the
Basic class that is mapped to the class can take it. -/
def FitsTurn (n : MultiChannelNode) (endPoint id : UInt8) : Prop :=
  ∀ cc, n.commandClasses id = some cc → supportsMultiInstance id = true →
    cc.getInstance endPoint = 0 →
      cc.nextInstance n.options.mapRootToEndPoint ≤ 0x1f ∧
        (n.basicMapping = id → ∀ basic, n.commandClasses basicId = some basic →
          Takes n.Advertises basicId (cc.nextInstance n.options.mapRootToEndPoint) endPoint basic)

theorem Takes.mono {B : UInt8 → UInt8 → Prop} {cc : MultiClass} (h : Takes A id inst endPoint cc)
    (hsub : ∀ id e, B id e → A id e) : Takes B id inst endPoint cc :=
  ⟨h.1, fun other hother hB => h.2 other hother (hsub id other hB)⟩

theorem Holds.turn (h : n.Holds A) (hA : ∀ id e, A id e → n.Advertises id e) (hendPoint : endPoint ≠ 0)
    (hthere : n.commandClasses id = none → n.creatable id = false) (hfits : n.FitsTurn endPoint id) :
    (n.turn endPoint id).Holds fun other e =>
      A other e ∨ supportsMultiInstance other = true ∧ other = id ∧ e = endPoint := by
  have hinsert : n.Covers id endPoint → n.Holds fun other e =>
      A other e ∨ supportsMultiInstance other = true ∧ other = id ∧ e = endPoint :=
    fun hcovers => (h.insert hcovers).mono fun _ _ hB => hB.imp_right And.right
  rw [MultiChannelNode.turn]
  split
  · rename_i hnone
    apply hinsert
    rw [Covers, hnone]
    exact hthere hnone
  · rename_i cc hcc
    by_cases hsupports : supportsMultiInstance id = true
    · rw [if_pos hsupports]
      have hmapped := h.mapped id cc hcc
      by_cases hhandled : cc.getInstance endPoint = 0
      · rw [if_neg (not_not.mpr hhandled)]
        obtain ⟨hin, hbasic⟩ := hfits cc hcc hsupports hhandled
        obtain ⟨hinst, hfree⟩ := hmapped.nextInstance_free hin
        have htakes : Takes A id (cc.nextInstance n.options.mapRootToEndPoint) endPoint cc := by
          constructor
          · intro j hj
            exact absurd hj (hmapped.getInstance_eq_zero_iff.mp hhandled j)
          · intro other hother
            exact absurd (hfree.symm.trans hother) (Option.some_ne_none other).symm
        refine (h.assign hcc hinst hin hendPoint htakes fun hmapping basic hfound => ?_).mono
          fun _ _ hB => hB.imp_right And.right
        exact (hbasic hmapping basic hfound).mono hA
      · rw [if_pos hhandled]
        apply hinsert
        rw [Covers, hcc]
        by_contra hmissing
        exact hhandled (hmapped.getInstance_eq_zero_iff.mpr (not_exists.mp hmissing))
    · rw [if_neg hsupports]
      exact h.mono fun other e hB =>
        hB.elim (fun hB => hB) fun hB => absurd (hB.2.1 ▸ hB.1) hsupports

/-- The turns of all classes of a report. -/
theorem Holds.turns (h : n.Holds A) (hA : ∀ id e, A id e → n.Advertises id e)
    (hendPoint : endPoint ≠ 0) {ids : List UInt8}
    (hreported : ∀ id ∈ ids, n.Advertises id endPoint)
    (hthere : ∀ id ∈ ids, n.commandClasses id = none → n.creatable id = false)
    (hfits : Along (fun n id => n.turn endPoint id) (fun n id => n.FitsTurn endPoint id) n ids) :
    (run (fun n id => n.turn endPoint id) n ids).Holds (fun other e =>
        A other e ∨ supportsMultiInstance other = true ∧ other ∈ ids ∧ e = endPoint) ∧
      Reassigned n (run (fun n id => n.turn endPoint id) n ids) := by
  induction ids generalizing n A with
  | nil =>
      refine ⟨h.mono fun _ _ hB => ?_, .refl n⟩
      exact hB.elim (fun hB => hB) fun hB => absurd hB.2.1 List.not_mem_nil
  | cons id ids ih =>
      obtain ⟨hfirst, hrest⟩ := hfits
      have hturn := reassigned_turn n endPoint id
      have hnext := h.turn hA hendPoint (hthere id List.mem_cons_self) hfirst
      have hB : ∀ other e, (A other e ∨
          supportsMultiInstance other = true ∧ other = id ∧ e = endPoint) →
          (n.turn endPoint id).Advertises other e := by
        intro other e hB
        rw [hturn.advertises]
        obtain hB | ⟨-, rfl, rfl⟩ := hB
        · exact hA other e hB
        · exact hreported _ List.mem_cons_self
      have hthere' : ∀ other ∈ ids, (n.turn endPoint id).commandClasses other = none →
          (n.turn endPoint id).creatable other = false := by
        intro other hmem hnone
        rw [hturn.rest]
        exact hthere other (List.mem_cons_of_mem _ hmem) ((hturn.same other).mp hnone)
      obtain ⟨hlast, hsame⟩ := ih hnext hB (fun other hmem =>
        (hturn.advertises other endPoint).mpr (hreported other (List.mem_cons_of_mem _ hmem)))
        hthere' hrest
      refine ⟨hlast.mono fun other e hB => ?_, hturn.trans hsame⟩
      obtain hB | ⟨hsupports, hmem, he⟩ := hB
      · exact .inl (.inl hB)
      · cases hmem with
        | head => exact .inl (.inr ⟨hsupports, rfl, he⟩)
        | tail _ hmem => exact .inr ⟨hsupports, hmem, he⟩

/-! ## Endpoints that are all the same -/

theorem sameClassEndPoint_injective {i j : UInt8}
    (h : n.sameClassEndPoint i = n.sameClassEndPoint j) : i = j := by
  rw [sameClassEndPoint, sameClassEndPoint] at h
  split at h
  · simpa using h
  · exact h

theorem Reassigned.sameClassEndPoint (h : Reassigned n n') :
    n'.sameClassEndPoint = n.sameClassEndPoint := by
  rw [h.rest]
  rfl

/-- Every instance stands for the endpoint of its number. -/
def Numbered (n : MultiChannelNode) : Prop :=
  ∀ id cc i endPoint, n.commandClasses id = some cc → cc.endPointMap i = some endPoint →
    endPoint = n.sameClassEndPoint i

theorem Numbered.place (h : n.Numbered) {ep : Option UInt8}
    (hep : ∀ endPoint, ep = some endPoint → endPoint = n.sameClassEndPoint inst) :
    (n.place id inst ep).Numbered := by
  intro other cc i e hcc hi
  rw [(reassigned_place n id inst ep).sameClassEndPoint]
  by_cases hother : other = id
  · subst hother
    cases hold : n.commandClasses other with
    | none =>
        rw [MultiChannelNode.place, hold] at hcc
        exact h other cc i e hcc hi
    | some old =>
        rw [commandClasses_place_self hold] at hcc
        rw [← Option.some.inj hcc] at hi
        cases ep with
        | none =>
            rw [MultiClass.place, MultiClass.endPointMap_setInstance] at hi
            exact h other old i e hold hi
        | some endPoint =>
            rw [MultiClass.endPointMap_place, update_eq_some_iff] at hi
            obtain ⟨rfl, rfl⟩ | ⟨-, hi⟩ := hi
            · exact hep endPoint rfl
            · exact h other old i e hold hi
  · rw [commandClasses_place_of_ne hother] at hcc
    exact h other cc i e hcc hi

theorem Numbered.assign (h : n.Numbered) {ep : Option UInt8}
    (hep : ∀ endPoint, ep = some endPoint → endPoint = n.sameClassEndPoint inst) :
    (n.assign id inst ep).Numbered := by
  have hplaced : (n.place id inst ep).Numbered := h.place hep
  rw [MultiChannelNode.assign]
  split
  · refine hplaced.place fun endPoint he => ?_
    rw [(reassigned_place n id inst ep).sameClassEndPoint]
    exact hep endPoint he
  · exact hplaced

/-- A class can take any instance for the endpoint of its number. -/
theorem Numbered.takes (h : n.Numbered) {cc : MultiClass} (hcc : n.commandClasses id = some cc)
    (inst : UInt8) : Takes A id inst (n.sameClassEndPoint inst) cc := by
  refine ⟨fun j hj => ?_, fun other hother _ => h id cc inst other hcc hother⟩
  exact (sameClassEndPoint_injective (h id cc j _ hcc hj)).symm

theorem Holds.place_none (h : n.Holds A) (id inst : UInt8) : (n.place id inst none).Holds A := by
  constructor
  · intro other cc hcc
    by_cases hother : other = id
    · subst hother
      cases hold : n.commandClasses other with
      | none => exact h.mapped other cc (by rwa [MultiChannelNode.place, hold] at hcc)
      | some old =>
          rw [commandClasses_place_self hold] at hcc
          rw [← Option.some.inj hcc]
          exact (h.mapped other old hold).setInstance inst
    · rw [commandClasses_place_of_ne hother] at hcc
      exact h.mapped other cc hcc
  · intro other e hA
    have hcovers := h.covered other e hA
    by_cases hother : other = id
    · subst hother
      cases hold : n.commandClasses other with
      | none => rwa [MultiChannelNode.place, hold]
      | some old =>
          rw [Covers, hold] at hcovers
          rw [Covers, commandClasses_place_self hold]
          dsimp only
          rw [MultiClass.place, MultiClass.endPointMap_setInstance]
          exact hcovers
    · rw [Covers, (reassigned_place n id inst none).rest]
      dsimp only
      rw [commandClasses_place_of_ne hother]
      exact hcovers

theorem Holds.assign_none (h : n.Holds A) (id inst : UInt8) : (n.assign id inst none).Holds A := by
  have hplaced := h.place_none id inst
  rw [MultiChannelNode.assign]
  split
  · exact hplaced.place_none basicId inst
  · exact hplaced

/-- The instance has an endpoint: it is not that of the root. -/
def HasEndPoint (n : MultiChannelNode) (inst : UInt8) : Prop :=
  n.options.mapRootToEndPoint = true ∨ inst ≠ 1

theorem sameClassEndPoint_ne_zero (hinst : inst ≠ 0) (h : n.HasEndPoint inst) :
    n.sameClassEndPoint inst ≠ 0 := by
  rw [sameClassEndPoint]
  split
  · rename_i hroot
    have hne : inst ≠ 1 := h.elim (fun hroot' => Bool.noConfusion (hroot'.symm.trans hroot)) fun h => h
    intro hzero
    exact hne ((UInt8.sub_eq_iff_eq_add.mp hzero).trans (UInt8.zero_add 1))
  · exact hinst

/-- The turn of a class that the bit field can hold. -/
theorem Holds.sameClassTurn (h : n.Holds A) (hnumbered : n.Numbered) (hinst : inst ≠ 0)
    (hin : inst ≤ 0x1f) (hthere : n.commandClasses id = none → n.creatable id = false) :
    (n.sameClassTurn inst (n.sameClassEndPoint inst) id).Holds (fun other e =>
        A other e ∨ supportsMultiInstance other = true ∧ n.HasEndPoint inst ∧ other = id ∧
          e = n.sameClassEndPoint inst) ∧
      (n.sameClassTurn inst (n.sameClassEndPoint inst) id).Numbered := by
  rw [MultiChannelNode.sameClassTurn]
  split
  · rename_i hnone
    have hcovers : n.Covers id (n.sameClassEndPoint inst) := by
      rw [Covers, hnone]
      exact hthere hnone
    exact ⟨(h.insert hcovers).mono fun _ _ hB => hB.imp_right fun hB => hB.2.2, hnumbered⟩
  · rename_i cc hcc
    by_cases hsupports : supportsMultiInstance id = true
    · rw [if_pos hsupports]
      by_cases hmaps : n.HasEndPoint inst
      · have hsome : (if n.options.mapRootToEndPoint ∨ inst ≠ 1 then
            some (n.sameClassEndPoint inst) else none) = some (n.sameClassEndPoint inst) := if_pos hmaps
        rw [hsome]
        refine ⟨?_, hnumbered.assign fun e he => (Option.some.inj he).symm⟩
        refine (h.assign hcc hinst hin (sameClassEndPoint_ne_zero hinst hmaps)
          (hnumbered.takes hcc inst) fun _ basic hbasic => hnumbered.takes hbasic inst).mono ?_
        exact fun _ _ hB => hB.imp_right fun hB => hB.2.2
      · have hnone : (if n.options.mapRootToEndPoint ∨ inst ≠ 1 then
            some (n.sameClassEndPoint inst) else none) = none := if_neg hmaps
        rw [hnone]
        refine ⟨(h.assign_none id inst).mono fun other e hB => ?_, hnumbered.assign fun e he => by cases he⟩
        exact hB.elim (fun hB => hB) fun hB => absurd hB.2.1 hmaps
    · rw [if_neg hsupports]
      refine ⟨h.mono fun other e hB => ?_, hnumbered⟩
      exact hB.elim (fun hB => hB) fun hB => absurd (hB.2.2.1 ▸ hB.1) hsupports

theorem Reassigned.hasEndPoint (h : Reassigned n n') (inst : UInt8) :
    n'.HasEndPoint inst ↔ n.HasEndPoint inst := by
  rw [h.rest]
  exact Iff.rfl

theorem Reassigned.there (h : Reassigned n n') {id : UInt8}
    (hthere : n.commandClasses id = none → n.creatable id = false)
    (hnone : n'.commandClasses id = none) : n'.creatable id = false := by
  rw [h.rest]
  exact hthere ((h.same id).mp hnone)

/-- An instance of all the classes of a report. -/
theorem Holds.sameClassTurns {f : UInt8 → UInt8} (h : n.Holds A) (hnumbered : n.Numbered)
    (hf : n.sameClassEndPoint = f) (hinst : inst ≠ 0) (hin : inst ≤ 0x1f) {ids : List UInt8}
    (hthere : ∀ id ∈ ids, n.commandClasses id = none → n.creatable id = false) :
    let last := run (fun n id => n.sameClassTurn inst (f inst) id) n ids
    (last.Holds fun other e => A other e ∨
        supportsMultiInstance other = true ∧ n.HasEndPoint inst ∧ other ∈ ids ∧ e = f inst) ∧
      last.Numbered ∧ Reassigned n last := by
  induction ids generalizing n A with
  | nil =>
      refine ⟨h.mono fun _ _ hB => ?_, hnumbered, .refl n⟩
      exact hB.elim (fun hB => hB) fun hB => absurd hB.2.2.1 List.not_mem_nil
  | cons id ids ih =>
      subst hf
      have hturn := reassigned_sameClassTurn n inst (n.sameClassEndPoint inst) id
      obtain ⟨hnext, hnumbered'⟩ := h.sameClassTurn hnumbered hinst hin
        (hthere id List.mem_cons_self)
      obtain ⟨hlast, hnumbered'', hsame⟩ := ih hnext hnumbered' hturn.sameClassEndPoint
        fun other hmem => hturn.there (hthere other (List.mem_cons_of_mem _ hmem))
      refine ⟨hlast.mono fun other e hB => ?_, hnumbered'', hturn.trans hsame⟩
      obtain hB | ⟨hsupports, hmaps, hmem, he⟩ := hB
      · exact .inl (.inl hB)
      · cases hmem with
        | head => exact .inl (.inr ⟨hsupports, hmaps, rfl, he⟩)
        | tail _ hmem => exact .inr ⟨hsupports, (hturn.hasEndPoint inst).mpr hmaps, hmem, he⟩

/-- All the instances of all the classes of a report. -/
theorem Holds.sameClassInstances {f : UInt8 → UInt8} (h : n.Holds A) (hnumbered : n.Numbered)
    (hf : n.sameClassEndPoint = f) {insts ids : List UInt8}
    (hinsts : ∀ inst ∈ insts, inst ≠ 0 ∧ inst ≤ 0x1f)
    (hthere : ∀ id ∈ ids, n.commandClasses id = none → n.creatable id = false) :
    let last := run (fun n inst => run (fun n id => n.sameClassTurn inst (f inst) id) n ids) n insts
    (last.Holds fun other e => A other e ∨ supportsMultiInstance other = true ∧
        ∃ inst ∈ insts, n.HasEndPoint inst ∧ other ∈ ids ∧ e = f inst) ∧
      last.Numbered ∧ Reassigned n last := by
  induction insts generalizing n A with
  | nil =>
      refine ⟨h.mono fun _ _ hB => ?_, hnumbered, .refl n⟩
      obtain hB | ⟨-, inst, hmem, -⟩ := hB
      · exact hB
      · cases hmem
  | cons inst insts ih =>
      obtain ⟨hinst, hin⟩ := hinsts inst List.mem_cons_self
      obtain ⟨hnext, hnumbered', hturns⟩ := h.sameClassTurns hnumbered hf hinst hin hthere
      obtain ⟨hlast, hnumbered'', hsame⟩ := ih hnext hnumbered'
        (hturns.sameClassEndPoint.trans hf)
        (fun other hmem => hinsts other (List.mem_cons_of_mem _ hmem))
        fun id hmem => hturns.there (hthere id hmem)
      refine ⟨hlast.mono fun other e hB => ?_, hnumbered'', hturns.trans hsame⟩
      obtain hB | ⟨hsupports, other', hmem, hmaps, hid, he⟩ := hB
      · exact .inl (.inl hB)
      · cases hmem with
        | head => exact .inl (.inr ⟨hsupports, hmaps, hid, he⟩)
        | tail _ hmem =>
            exact .inr ⟨hsupports, other', hmem, (hturns.hasEndPoint other').mpr hmaps, hid, he⟩

/-- Classes that are not there, or have no instances, are left alone. -/
theorem sameClassTurns_idle (n : MultiChannelNode) (f : UInt8 → UInt8) (insts : List UInt8)
    {ids : List UInt8}
    (hidle : ∀ id ∈ ids, supportsMultiInstance id = true → n.commandClasses id = none) :
    run (fun n inst => run (fun n id => n.sameClassTurn inst (f inst) id) n ids) n insts = n := by
  have hturn : ∀ inst id, id ∈ ids → n.sameClassTurn inst (f inst) id = n := by
    intro inst id hmem
    rw [MultiChannelNode.sameClassTurn]
    split
    · rfl
    · rename_i cc hcc
      refine if_neg fun hsupports => ?_
      exact absurd ((hidle id hmem hsupports).symm.trans hcc) (Option.some_ne_none cc).symm
  have hturns : ∀ inst, ∀ rest, (∀ id ∈ rest, id ∈ ids) →
      run (fun n id => n.sameClassTurn inst (f inst) id) n rest = n := by
    intro inst rest hrest
    induction rest with
    | nil => rfl
    | cons id rest ih =>
        rw [run_cons, hturn inst id (hrest id List.mem_cons_self)]
        exact ih fun other hmem => hrest other (List.mem_cons_of_mem _ hmem)
  induction insts with
  | nil => rfl
  | cons inst insts ih =>
      rw [run_cons, hturns inst ids fun _ hmem => hmem]
      exact ih

/-! ## A report -/

theorem mem_reportedClasses : id ∈ n.reportedClasses ↔ id ∈ n.endPointCommandClasses := by
  rw [reportedClasses, List.mem_filter, List.contains_iff_mem]
  refine and_iff_right (List.mem_map.mpr ⟨id.toNat, List.mem_range.mpr id.toNat_lt, ?_⟩)
  exact UInt8.ofNat_toNat

theorem extends_store (n : MultiChannelNode) (report : CapabilityReport) :
    Extends { n with endPointCommandClasses := [], accepted := n.accepted ++ [report] }
      (n.store report) :=
  extends_storeCommandClasses ..

theorem mem_reportedClasses_store (report : CapabilityReport) :
    id ∈ (n.store report).reportedClasses ↔
      id ∈ report.commandClasses ∧ n.options.removed id = false := by
  rw [mem_reportedClasses, store, mem_storeCommandClasses]
  exact or_iff_right List.not_mem_nil

theorem there_store {report : CapabilityReport} (hmem : id ∈ (n.store report).reportedClasses)
    (hnone : (n.store report).commandClasses id = none) : (n.store report).creatable id = false := by
  obtain ⟨hreported, hremoved⟩ := (mem_reportedClasses_store report).mp hmem
  rw [(extends_store n report).creatable, Bool.eq_false_iff]
  intro hcreatable
  have hthere : (n.store report).commandClasses id ≠ none :=
    exists_storeCommandClasses false hreported hremoved hcreatable
  exact hthere hnone

theorem advertises_store (report : CapabilityReport) (id e : UInt8) :
    (n.store report).Advertises id e ↔
      n.Advertises id e ∨ id ∈ (n.store report).reportedClasses ∧
        (e = report.endPoint ∨ n.endPointsAreSameClass = true ∧ e ≠ 0 ∧ e ≤ n.numEndPoints) := by
  have hext := extends_store n report
  rw [mem_reportedClasses_store, Advertises, hext.accepted, hext.options, hext.sameClass,
    hext.numEndPoints]
  constructor
  · rintro ⟨found, hfound, hid, hremoved, he⟩
    obtain hold | hnew := List.mem_append.mp hfound
    · exact .inl ⟨found, hold, hid, hremoved, he⟩
    · rw [List.mem_singleton.mp hnew] at hid he
      exact .inr ⟨⟨hid, hremoved⟩, he⟩
  · rintro (⟨found, hfound, hrest⟩ | ⟨⟨hid, hremoved⟩, he⟩)
    · exact ⟨found, List.mem_append_left _ hfound, hrest⟩
    · exact ⟨report, List.mem_append_right _ List.mem_cons_self, hid, hremoved, he⟩

theorem Holds.extends (h : n.Holds A) (hext : Extends n n') : n'.Holds A := by
  constructor
  · intro id cc' hcc'
    have hgrows := hext.grows id
    rw [hcc'] at hgrows
    cases hold : n.commandClasses id with
    | none =>
        rw [hold] at hgrows
        exact MultiClass.mapped_of_none fun i => congrFun hgrows.2 i
    | some cc =>
        rw [hold] at hgrows
        obtain ⟨hmap, hinstances⟩ := hgrows
        have hmapped := h.mapped id cc hold
        exact ⟨hmap ▸ hmapped.oneToOne, hmap ▸ hinstances ▸ hmapped.contained,
          hmap ▸ hmapped.positive⟩
  · intro id e hA
    have hcovers := h.covered id e hA
    have hgrows := hext.grows id
    rw [Covers] at hcovers ⊢
    cases hold : n.commandClasses id with
    | none =>
        rw [hold] at hcovers hgrows
        cases hnew : n'.commandClasses id with
        | none => rwa [hext.creatable]
        | some cc' =>
            rw [hnew] at hgrows
            exact Bool.noConfusion (hgrows.1.symm.trans hcovers)
    | some cc =>
        rw [hold] at hcovers hgrows
        cases hnew : n'.commandClasses id with
        | none =>
            rw [hnew] at hgrows
            exact hgrows.elim
        | some cc' =>
            rw [hnew] at hgrows
            dsimp only
            rw [hgrows.1]
            exact hcovers

theorem Numbered.extends (h : n.Numbered) (hext : Extends n n') : n'.Numbered := by
  have hf : n'.sameClassEndPoint = n.sameClassEndPoint := by
    funext i
    rw [MultiChannelNode.sameClassEndPoint, MultiChannelNode.sameClassEndPoint, hext.options]
  intro id cc' i e hcc' hi
  have hgrows := hext.grows id
  rw [hcc'] at hgrows
  rw [hf]
  cases hold : n.commandClasses id with
  | none =>
      rw [hold] at hgrows
      rw [hgrows.2] at hi
      cases hi
  | some cc =>
      rw [hold] at hgrows
      rw [hgrows.1] at hi
      exact h id cc i e hold hi

/-! ## Runs of reports -/

/-- What endpoints that are all the same ask for: the loop over them comes to an end,
and if a class has instances, the bit field has them all and the endpoint of the
report is one of them. -/
def FitsSameClass (n : MultiChannelNode) (report : CapabilityReport) : Prop :=
  n.sameClassCount < 255 ∧
    ∀ id ∈ n.reportedClasses, supportsMultiInstance id = true → n.commandClasses id ≠ none →
      n.sameClassCount ≤ 31 ∧ report.endPoint ≤ n.numEndPoints

/-- What a report asks for, unless it is ignored. -/
def Fits (n : MultiChannelNode) (report : CapabilityReport) : Prop :=
  n.ignores report = false →
    (n.endPointsAreSameClass = true → (n.store report).FitsSameClass report) ∧
    (n.endPointsAreSameClass = false →
      Along (fun n id => n.turn report.endPoint id) (fun n id => n.FitsTurn report.endPoint id)
        (n.store report) (n.store report).reportedClasses)

/-- What holds between reports. -/
structure Invariant (n : MultiChannelNode) : Prop where
  holds : n.Holds fun id e => supportsMultiInstance id = true ∧ n.Advertises id e
  numbered : n.endPointsAreSameClass = true → n.Numbered

theorem Reassigned.invariant (h : Reassigned n n') (hsame : n.endPointsAreSameClass = true →
      n'.Numbered)
    (hholds : n'.Holds A)
    (hA : ∀ id e, supportsMultiInstance id = true → n.Advertises id e → A id e) : n'.Invariant := by
  refine ⟨hholds.mono fun id e hB => hA id e hB.1 ((h.advertises id e).mp hB.2), fun hsame' => ?_⟩
  rw [h.rest] at hsame'
  exact hsame hsame'

theorem mem_insts {len : Nat} (hpos : 1 ≤ inst.toNat) (hle : inst.toNat ≤ len) :
    inst ∈ (List.range' 1 len).map UInt8.ofNat := by
  refine List.mem_map.mpr ⟨inst.toNat, ?_, UInt8.ofNat_toNat⟩
  rw [List.mem_range'_1]
  omega

theorem insts_le {len : Nat} (hlen : len ≤ 31) (hmem : inst ∈ (List.range' 1 len).map UInt8.ofNat) :
    inst ≠ 0 ∧ inst ≤ 0x1f := by
  obtain ⟨i, hi, rfl⟩ := List.mem_map.mp hmem
  rw [List.mem_range'_1] at hi
  have hvalue : (UInt8.ofNat i).toNat = i := by
    rw [UInt8.toNat_ofNat', Nat.mod_eq_of_lt (by omega)]
  refine ⟨fun hzero => ?_, UInt8.le_iff_toNat_le.mpr ?_⟩
  · rw [hzero] at hvalue
    have hpos := hi.1
    rw [← hvalue] at hpos
    exact absurd hpos (by decide)
  · rw [hvalue]
    show i ≤ 31
    omega

/-- The instance of an endpoint is one of those that are counted. -/
theorem exists_instance (hnonzero : endPoint ≠ 0) (hle : endPoint ≤ n.numEndPoints)
    (hcount : n.sameClassCount ≤ 31) :
    ∃ inst ∈ (List.range' 1 n.sameClassCount).map UInt8.ofNat, n.HasEndPoint inst ∧
      endPoint = n.sameClassEndPoint inst := by
  have hpos : endPoint.toNat ≠ 0 := fun h => hnonzero (UInt8.toNat_inj.mp h)
  have hle' : endPoint.toNat ≤ n.numEndPoints.toNat := UInt8.le_iff_toNat_le.mp hle
  rw [sameClassCount] at hcount ⊢
  by_cases hroot : n.options.mapRootToEndPoint = false
  · rw [if_pos hroot] at hcount ⊢
    have hnext : (endPoint + 1).toNat = endPoint.toNat + 1 := by
      rw [UInt8.toNat_add]
      exact Nat.mod_eq_of_lt (by simp; omega)
    refine ⟨endPoint + 1, mem_insts (by omega) (by omega), .inr fun hone => ?_, ?_⟩
    · have hvalue := congrArg UInt8.toNat hone
      rw [hnext] at hvalue
      simp at hvalue
      exact hpos hvalue
    · rw [sameClassEndPoint, if_pos hroot, UInt8.add_sub_cancel]
  · rw [if_neg hroot] at hcount ⊢
    refine ⟨endPoint, mem_insts (by omega) hle', .inl (by simpa using hroot), ?_⟩
    rw [sameClassEndPoint, if_neg hroot]

theorem Holds.store (h : n.Holds A) (report : CapabilityReport) : (n.store report).Holds A := by
  have hcleared : ({ n with
      endPointCommandClasses := []
      accepted := n.accepted ++ [report] } : MultiChannelNode).Holds A := ⟨h.mapped, h.covered⟩
  exact hcleared.extends (extends_store n report)

theorem Numbered.store (h : n.Numbered) (report : CapabilityReport) : (n.store report).Numbered := by
  have hcleared : ({ n with
      endPointCommandClasses := []
      accepted := n.accepted ++ [report] } : MultiChannelNode).Numbered := h
  exact hcleared.extends (extends_store n report)

theorem Invariant.sameClass (h : n.Invariant) {report : CapabilityReport}
    (hsame : n.endPointsAreSameClass = true) (hfits : (n.store report).FitsSameClass report) :
    (run (fun n' inst => run (fun n' id =>
        n'.sameClassTurn inst ((n.store report).sameClassEndPoint inst) id)
      n' (n.store report).reportedClasses) (n.store report)
      ((List.range' 1 (n.store report).sameClassCount).map UInt8.ofNat)).Invariant := by
  have hext := extends_store n report
  have hstored := h.holds.store report
  have hnumbered := (h.numbered hsame).store report
  by_cases hidle : ∀ id ∈ (n.store report).reportedClasses, supportsMultiInstance id = true →
      (n.store report).commandClasses id = none
  · rw [sameClassTurns_idle _ _ _ hidle]
    refine ⟨⟨hstored.mapped, fun id e hA => ?_⟩, fun _ => hnumbered⟩
    obtain hold | ⟨hmem, -⟩ := (advertises_store report id e).mp hA.2
    · exact hstored.covered id e ⟨hA.1, hold⟩
    · have hnone := hidle id hmem hA.1
      rw [Covers, hnone]
      exact there_store hmem hnone
  · simp only [not_forall] at hidle
    obtain ⟨id, hmem, hsupports, hthere⟩ := hidle
    obtain ⟨hcount, hin⟩ := hfits.2 id hmem hsupports hthere
    obtain ⟨hlast, hnumbered', hturns⟩ := hstored.sameClassInstances hnumbered rfl
      (fun _ hinst => insts_le hcount hinst) fun id hmem => there_store hmem
    refine hturns.invariant (fun _ => hnumbered') hlast fun id e hsupports hA => ?_
    obtain hold | ⟨hmem, he⟩ := (advertises_store report id e).mp hA
    · exact .inl ⟨hsupports, hold⟩
    · have hrange : e ≠ 0 ∧ e ≤ (n.store report).numEndPoints := by
        obtain rfl | ⟨-, hnonzero, hle⟩ := he
        · refine ⟨fun hzero => ?_, hin⟩
          have hpos := report.isEndPoint.1
          rw [hzero] at hpos
          exact absurd hpos (by decide)
        · exact ⟨hnonzero, hext.numEndPoints ▸ hle⟩
      obtain ⟨inst, hinst, hmaps, he⟩ := exists_instance hrange.1 hrange.2 hcount
      exact .inr ⟨hsupports, inst, hinst, hmaps, hmem, he⟩

theorem Invariant.different (h : n.Invariant) {report : CapabilityReport}
    (hsame : n.endPointsAreSameClass = false)
    (hfits : Along (fun n id => n.turn report.endPoint id)
      (fun n id => n.FitsTurn report.endPoint id) (n.store report) (n.store report).reportedClasses) :
    (run (fun n id => n.turn report.endPoint id) (n.store report)
      (n.store report).reportedClasses).Invariant := by
  have hsame' : (n.store report).endPointsAreSameClass = false :=
    (extends_store n report).sameClass.trans hsame
  have hnonzero : report.endPoint ≠ 0 := by
    intro hzero
    have hpos := report.isEndPoint.1
    rw [hzero] at hpos
    exact absurd hpos (by decide)
  obtain ⟨hlast, hturns⟩ := (h.holds.store report).turns
    (fun id e hA => (advertises_store report id e).mpr (.inl hA.2)) hnonzero
    (fun id hmem => (advertises_store report id _).mpr (.inr ⟨hmem, .inl rfl⟩))
    (fun id hmem => there_store hmem) hfits
  refine hturns.invariant (fun htrue => ?_) hlast fun id e hsupports hA => ?_
  · exact Bool.noConfusion (htrue.symm.trans hsame')
  · obtain hold | ⟨hmem, he⟩ := (advertises_store report id e).mp hA
    · exact .inl ⟨hsupports, hold⟩
    · obtain he | ⟨htrue, -⟩ := he
      · exact .inr ⟨hsupports, hmem, he⟩
      · exact Bool.noConfusion (htrue.symm.trans hsame)

theorem Invariant.handle (h : n.Invariant) {report : CapabilityReport} (hfits : n.Fits report) :
    ∃ n', n.handleMultiChannelCapabilityReport report = some n' ∧ n'.Invariant := by
  rw [handleMultiChannelCapabilityReport]
  cases hignores : n.ignores report with
  | true => exact ⟨n, rfl, h⟩
  | false =>
      obtain ⟨hfitsSame, hfitsDifferent⟩ := hfits hignores
      have hsame' := (extends_store n report).sameClass
      rw [if_neg Bool.false_ne_true]
      dsimp only
      cases hsame : n.endPointsAreSameClass with
      | true =>
          have hfits := hfitsSame hsame
          rw [if_pos (hsame'.trans hsame), countTo, if_pos hfits.1]
          exact ⟨_, rfl, h.sameClass hsame hfits⟩
      | false =>
          have hnot : ¬(n.store report).endPointsAreSameClass = true := by
            rw [hsame'.trans hsame]
            exact Bool.false_ne_true
          rw [if_neg hnot]
          exact ⟨_, rfl, h.different hsame (hfitsDifferent hsame)⟩

/-- No endpoint has been mapped yet. -/
structure Fresh (n : MultiChannelNode) : Prop where
  accepted : n.accepted = []
  unmapped : ∀ id cc i, n.commandClasses id = some cc → cc.endPointMap i = none

end MultiChannelNode

end OpenZWave
