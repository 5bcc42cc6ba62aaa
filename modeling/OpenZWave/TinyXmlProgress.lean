import OpenZWave.TinyXmlParse

/-!
# Loading ends

Every loop of the parser leaves less of the file than it found, so that loading ends for
every file, well formed or not.
-/

namespace OpenZWave.TiXml

/-- A parser ends, with at most so many bytes left. -/
def Within {α : Type} (rest : α → Option Bytes) (length : Nat) : Except Fault α → Prop
  | .ok x => ∀ p ∈ rest x, p.length ≤ length
  | .error fault => fault ≠ .diverges

section

variable {α β : Type} {rest : α → Option Bytes} {rest' : β → Option Bytes} {length length' : Nat}

theorem Within.mono {r : Except Fault α} (h : Within rest length r) (hle : length ≤ length') :
    Within rest length' r := by
  cases r with
  | ok x => exact fun p hp => (h p hp).trans hle
  | error fault => exact h

theorem Within.bind {r : Except Fault α} {next : α → Except Fault β} (h : Within rest length r)
    (hnext : ∀ x, (∀ p ∈ rest x, p.length ≤ length) → Within rest' length' (next x)) :
    Within rest' length' (r >>= next) := by
  cases r with
  | ok x => exact hnext x h
  | error fault => exact h

theorem Within.map {r : Except Fault α} (h : Within rest length r) {f : α → β}
    (hf : ∀ x, rest' (f x) = rest x) : Within rest' length (f <$> r) := by
  cases r with
  | ok x =>
      intro p hp
      rw [hf] at hp
      exact h p hp
  | error fault => exact h

/-- A parser that stops. -/
theorem within_none {x : α} (h : rest x = none) : Within rest length (.ok x) := by
  intro p hp
  rw [h] at hp
  cases hp

theorem within_some {x : α} {p : Bytes} (h : rest x = some p) (hle : p.length ≤ length) :
    Within rest length (.ok x) := by
  intro q hq
  rw [h] at hq
  cases hq
  exact hle

end

/-! ## Texts -/

theorem utf8ByteTable_pos (c : UInt8) : 1 ≤ utf8ByteTable c := by
  rw [utf8ByteTable]
  split_ifs <;> decide

theorem length_entity_pos : ∀ e ∈ entity, 1 ≤ e.1.length := by decide

theorem getEntity_shorter (encoding : Encoding) {p : Bytes} (h : p ≠ []) :
    ∀ rest ∈ (getEntity encoding p).2, rest.length + 1 ≤ p.length := by
  have hpos := List.length_pos_iff.mpr h
  intro rest hrest
  rw [getEntity] at hrest
  by_cases hreference : p.getD 1 0 = '#'.toUInt8 ∧ p.getD 2 0 ≠ 0
  · rw [if_pos hreference] at hrest
    dsimp only at hrest
    generalize hq : p.drop (if p.getD 2 0 == 'x'.toUInt8 then 3 else 2) = q at hrest
    have hdrop : q.length ≤ p.length := by
      rw [← hq, List.length_drop]
      exact Nat.sub_le _ _
    by_cases hlong : q.length ≤ (q.takeWhile (· != ';'.toUInt8)).length
    · rw [if_pos hlong] at hrest
      cases hrest
    · rw [if_neg hlong] at hrest
      split at hrest
      · cases hrest
      · cases hrest
        rw [List.length_drop]
        omega
  · rw [if_neg hreference] at hrest
    split at hrest
    · rename_i e hfind
      have he := length_entity_pos e (List.mem_of_find?_eq_some hfind)
      cases hrest
      rw [List.length_drop]
      omega
    · cases hrest
      rw [List.length_drop]
      omega

/-- A character is read, and less is left. -/
theorem getChar_within (encoding : Encoding) {p : Bytes} (h : p ≠ []) :
    Within Prod.snd (p.length - 1) (getChar encoding p) := by
  have hpos := List.length_pos_iff.mpr h
  have hlength : 1 ≤ if encoding = .utf8 then utf8ByteTable (p.headD 0) else 1 := by
    split
    · exact utf8ByteTable_pos _
    · exact le_rfl
  rw [getChar]
  revert hlength
  generalize (if encoding = .utf8 then utf8ByteTable (p.headD 0) else 1) = length
  intro hlength
  by_cases hone : length = 1
  · rw [if_pos hone]
    split
    · intro rest hrest
      have hless := getEntity_shorter encoding h rest hrest
      omega
    · exact within_some rfl (by rw [List.length_drop])
  · rw [if_neg hone]
    split
    · exact Fault.noConfusion
    · refine within_some rfl ?_
      rw [List.length_drop]
      omega

theorem keepLoop_within (encoding : Encoding) (endTag : Bytes) {fuel : Nat} (text : Bytes)
    {p : Bytes} (h : p.length ≤ fuel) :
    Within Prod.snd p.length (keepLoop encoding endTag fuel text p) := by
  induction fuel generalizing text p with
  | zero =>
      rw [keepLoop, if_pos (.inl (List.length_eq_zero_iff.mp (Nat.le_zero.mp h)))]
      exact within_some rfl le_rfl
  | succ fuel ih =>
      rw [keepLoop]
      split
      · exact within_some rfl le_rfl
      · rename_i hgo
        have hne : p ≠ [] := fun heq => hgo (.inl heq)
        have hpos := List.length_pos_iff.mpr hne
        refine (getChar_within encoding hne).bind fun r hr => ?_
        split
        · exact within_none rfl
        · rename_i q hq
          have hless := hr q hq
          exact (ih _ (by omega)).mono (by omega)

/-- Behind a character that is no end tag less is left. -/
theorem condenseLoop_within (encoding : Encoding) (endTag : Bytes) {fuel : Nat}
    (whitespace : Bool) (text : Bytes) {p : Bytes} (h : p.length ≤ fuel) :
    Within Prod.snd p.length (condenseLoop encoding endTag fuel whitespace text p) ∧
      (¬ (p = [] ∨ endTag.isPrefixOf p = true) →
        Within Prod.snd (p.length - 1) (condenseLoop encoding endTag fuel whitespace text p)) := by
  induction fuel generalizing whitespace text p with
  | zero =>
      have hstop : p = [] ∨ endTag.isPrefixOf p = true :=
        .inl (List.length_eq_zero_iff.mp (Nat.le_zero.mp h))
      rw [condenseLoop, if_pos hstop]
      exact ⟨within_some rfl le_rfl, fun hgo => absurd hstop hgo⟩
  | succ fuel ih =>
      by_cases hstop : p = [] ∨ endTag.isPrefixOf p = true
      · rw [condenseLoop, if_pos hstop]
        exact ⟨within_some rfl le_rfl, fun hgo => absurd hstop hgo⟩
      · have hne : p ≠ [] := fun heq => hstop (.inl heq)
        have hpos := List.length_pos_iff.mpr hne
        have hless : Within Prod.snd (p.length - 1)
            (condenseLoop encoding endTag (fuel + 1) whitespace text p) := by
          rw [condenseLoop, if_neg hstop]
          split
          · have hdrop := (ih true text (p := p.drop 1) (by rw [List.length_drop]; omega)).1
            rwa [List.length_drop] at hdrop
          · refine (getChar_within encoding hne).bind fun r hr => ?_
            split
            · exact within_none rfl
            · rename_i q hq
              have hshorter := hr q hq
              exact (ih _ _ (by omega)).1.mono hshorter
        exact ⟨hless.mono (Nat.sub_le _ _), fun _ => hless⟩

theorem readText_within (encoding : Encoding) (trimWhiteSpace : Bool) (endTag p : Bytes) :
    Within Prod.snd p.length (readText encoding trimWhiteSpace endTag p) := by
  rw [readText]
  split
  · cases hskip : skipWhiteSpace encoding p with
    | none => exact within_none rfl
    | some q =>
        exact (condenseLoop_within encoding endTag false [] le_rfl).1.mono
          (length_skipWhiteSpace_le hskip)
  · exact keepLoop_within encoding endTag [] le_rfl

/-! ## Tags -/

theorem length_dropWhile_le (t : Bytes) (q : UInt8 → Bool) : (t.dropWhile q).length ≤ t.length :=
  (List.dropWhile_suffix q).length_le

theorem length_drop_le (t : Bytes) (n : Nat) : (t.drop n).length ≤ t.length := by
  rw [List.length_drop]
  exact Nat.sub_le _ _

/-- A name is not empty. -/
theorem length_readName {p name rest : Bytes} (h : readName p = some (name, rest)) :
    rest.length + 1 ≤ p.length := by
  cases p with
  | nil => cases h
  | cons c p =>
      rw [readName] at h
      split at h
      · rename_i hfirst
        have hname : isNameByte c = true := by
          rw [isNameByte, isAlphaNum]
          revert hfirst
          cases isAlpha c <;> cases c == '_'.toUInt8 <;> simp
        cases h
        rw [List.dropWhile_cons_of_pos hname, List.length_cons]
        exact Nat.succ_le_succ (length_dropWhile_le p _)
      · cases h

theorem unquotedLoop_length (p : Bytes) :
    ∀ rest ∈ (unquotedLoop p).2, rest.length ≤ p.length := by
  induction p with
  | nil =>
      intro rest hrest
      cases hrest
      exact le_rfl
  | cons c p ih =>
      intro rest hrest
      rw [unquotedLoop] at hrest
      split at hrest
      · cases hrest
        exact le_rfl
      · split at hrest
        · cases hrest
        · exact (ih rest hrest).trans (Nat.le_succ _)

theorem parseAttribute_within (encoding : Encoding) (p : Bytes) :
    Within Parsed.p (p.length - 1) (parseAttribute encoding p) := by
  rw [parseAttribute]
  split
  · exact within_none rfl
  · exact within_none rfl
  · rename_i p₁ _ hskip
    have h₁ := length_skipWhiteSpace_le hskip
    split
    · exact within_none rfl
    · exact within_none rfl
    · rename_i name p₂ _ hname
      have h₂ := length_readName hname
      split
      · exact within_none rfl
      · exact within_none rfl
      · rename_i c p₃ hskip₃
        have h₃ := length_skipWhiteSpace_le hskip₃
        rw [List.length_cons] at h₃
        split
        · exact within_none rfl
        · split
          · exact within_none rfl
          · exact within_none rfl
          · rename_i c p₄ hskip₄
            have h₄ := length_skipWhiteSpace_le hskip₄
            rw [List.length_cons] at h₄
            split
            · refine (readText_within encoding false [c] p₄).bind fun r hr => ?_
              split
              · exact within_none rfl
              · exact Fault.noConfusion
              · rename_i p₅ hp₅
                have h₅ := hr _ hp₅
                rw [List.length_cons] at h₅
                exact within_some rfl (by omega)
            · intro rest hrest
              have hrest' := unquotedLoop_length (c :: p₄) rest hrest
              rw [List.length_cons] at hrest'
              omega

/-- The reader of values ends on what is shorter. -/
def EndsBelow (R : Bytes → Except Fault (Parsed (List XmlNode))) (length : Nat) : Prop :=
  ∀ p : Bytes, p.length < length → Within Parsed.p p.length (R p)

theorem attributeLoop_within (encoding : Encoding)
    {R : Bytes → Except Fault (Parsed (List XmlNode))} (value : Bytes) {fuel : Nat}
    (attributeSet : List (Bytes × Bytes)) {p : Bytes} (hR : EndsBelow R p.length)
    (h : p.length ≤ fuel) :
    Within Parsed.p p.length (attributeLoop encoding R value fuel attributeSet p) := by
  induction fuel generalizing attributeSet p with
  | zero =>
      have hempty : p = [] := List.length_eq_zero_iff.mp (Nat.le_zero.mp h)
      subst hempty
      exact within_some rfl le_rfl
  | succ fuel ih =>
      rw [attributeLoop]
      split
      · exact within_some rfl le_rfl
      · exact within_none rfl
      · rename_i c q hskip
        have hq := length_skipWhiteSpace_le hskip
        rw [List.length_cons] at hq
        split
        · split
          · exact within_none rfl
          · exact within_some rfl ((length_drop_le q 1).trans (by omega))
        · split
          · refine (hR q (by omega)).bind fun r hr => ?_
            split
            · exact within_none rfl
            · exact within_none rfl
            · rename_i rest hrest
              have hless := hr _ hrest
              split
              · exact within_some rfl ((length_drop_le _ _).trans (by omega))
              · exact within_none rfl
          · refine (parseAttribute_within encoding (c :: q)).bind fun a ha => ?_
            split
            · exact within_none rfl
            · exact within_none rfl
            · rename_i rest hrest
              have hless := ha _ hrest
              rw [List.length_cons] at hless
              split
              · exact within_none rfl
              · exact (ih _ (fun s hs => hR s (by omega)) (by omega)).mono (by omega)

theorem parseElement_within (encoding : Encoding)
    {R : Bytes → Except Fault (Parsed (List XmlNode))} {p : Bytes} (hR : EndsBelow R p.length)
    (h : p ≠ []) : Within Parsed.p (p.length - 1) (parseElement encoding R p) := by
  have hpos := List.length_pos_iff.mpr h
  rw [parseElement]
  split
  · exact Fault.noConfusion
  · rename_i q hskip
    have hq := length_skipWhiteSpace_le hskip
    rw [List.length_drop] at hq
    split
    · exact within_none rfl
    · exact within_none rfl
    · rename_i value rest _ hname
      have hrest := length_readName hname
      exact (attributeLoop_within encoding value [] (fun s hs => hR s (by omega)) le_rfl).mono
        (by omega)

theorem untilTag_length (tag p : Bytes) : (untilTag tag p).2.length ≤ p.length := by
  induction p with
  | nil => exact le_rfl
  | cons c p ih =>
      rw [untilTag]
      split
      · exact le_rfl
      · exact ih.trans (Nat.le_succ _)

theorem parseRaw_within (node : Bytes → XmlNode) {startTag : Bytes} (tag : Bytes) {p : Bytes}
    (hstart : startTag ≠ []) : Within Parsed.p (p.length - 1) (parseRaw node startTag tag p) := by
  have hpos := List.length_pos_iff.mpr hstart
  have huntil := untilTag_length tag (p.drop startTag.length)
  rw [List.length_drop] at huntil
  rw [parseRaw]
  split
  · exact Fault.noConfusion
  · exact within_some rfl ((length_drop_le _ _).trans (by omega))

theorem parseUnknown_within (p : Bytes) :
    Within Parsed.p (p.length - 1) (.ok (parseUnknown p)) := by
  refine within_some rfl ((length_drop_le _ _).trans ((length_dropWhile_le _ _).trans ?_))
  rw [List.length_drop]

/-- What is left in front of a byte that is no white space is all, or less. -/
theorem skip_shorter (encoding : Encoding) (blank : UInt8 → Bool) (p : Bytes) :
    (skip encoding blank p).length < p.length ∨
      skip encoding blank p = p ∧ ∀ c ∈ p.head?, blank c = false := by
  cases p with
  | nil =>
      right
      exact ⟨rfl, fun _ hc => by cases hc⟩
  | cons c p =>
      rw [skip_cons, List.length_cons]
      split
      · have hdrop : (skip encoding blank (p.drop 2)).length ≤ (p.drop 2).length :=
          length_skipLoop_le _ _ _ _
        have hlength := length_drop_le p 2
        left
        omega
      · split
        · have hless : (skip encoding blank p).length ≤ p.length := length_skipLoop_le _ _ _ _
          left
          omega
        · rename_i hblank
          right
          refine ⟨rfl, ?_⟩
          intro d hd
          cases hd
          exact Bool.eq_false_iff.mpr hblank

theorem declarationLoop_within (encoding : Encoding) {fuel : Nat} (parts : Parts) {p : Bytes}
    (h : p.length ≤ fuel) : Within Parsed.p p.length (declarationLoop encoding fuel parts p) := by
  induction fuel generalizing parts p with
  | zero =>
      have hempty : p = [] := List.length_eq_zero_iff.mp (Nat.le_zero.mp h)
      subst hempty
      exact within_none rfl
  | succ fuel ih =>
      rw [declarationLoop]
      split
      · exact within_none rfl
      · rename_i hne
        have hpos := List.length_pos_iff.mpr hne
        split
        · exact within_some rfl (length_drop_le p 1)
        · rename_i hend
          split
          · exact Fault.noConfusion
          · exact Fault.noConfusion
          · rename_i q _ hskip
            have hq := length_skipWhiteSpace_le hskip
            split
            · refine (parseAttribute_within encoding q).bind fun a ha => ?_
              split
              · exact within_none rfl
              · rename_i rest hrest
                have hless := ha _ hrest
                exact (ih _ (by omega)).mono (by omega)
            · have hless : (q.dropWhile fun c => c != '>'.toUInt8 && !isWhiteSpace c).length + 1 ≤
                  p.length := by
                rw [skipWhiteSpace, if_neg hne, Option.some.injEq] at hskip
                have hdrop := length_dropWhile_le q fun c => c != '>'.toUInt8 && !isWhiteSpace c
                rcases skip_shorter encoding isWhiteSpace p with hshorter | ⟨hsame, hfirst⟩
                · rw [hskip] at hshorter
                  omega
                · rw [hskip] at hsame
                  subst hsame
                  obtain ⟨c, q, rfl⟩ := List.exists_cons_of_ne_nil hne
                  have hgo : (c != '>'.toUInt8 && !isWhiteSpace c) = true := by
                    have hspace := hfirst c rfl
                    rw [List.headD_cons] at hend
                    simp [hspace, hend]
                  rw [List.dropWhile_cons, if_pos hgo, List.length_cons]
                  exact Nat.succ_le_succ (length_dropWhile_le q _)
              exact (ih _ (by omega)).mono (by omega)

/-! ## Values -/

/-- A text that is not empty is read. -/
theorem readText_shorter (encoding : Encoding) {c : UInt8} (hc : c ≠ '<'.toUInt8) (p : Bytes) :
    Within Prod.snd p.length (readText encoding true (bytes ['<']) (c :: p)) := by
  have hskip : skipWhiteSpace encoding (c :: p) = some (skip encoding isWhiteSpace (c :: p)) :=
    if_neg (List.cons_ne_nil c p)
  rw [readText, if_pos rfl, hskip]
  have hloop := fun text => condenseLoop_within encoding (bytes ['<']) false text
    (le_refl (skip encoding isWhiteSpace (c :: p)).length)
  rcases skip_shorter encoding isWhiteSpace (c :: p) with hless | ⟨hsame, -⟩
  · exact (hloop []).1.mono (Nat.le_of_lt_succ hless)
  · have hgo : ¬ (c :: p = [] ∨ (bytes ['<']).isPrefixOf (c :: p) = true) := by
      simp [bytes, hc.symm]
    rw [hsame] at hloop ⊢
    exact (hloop []).2 hgo

theorem parseNode_within (encoding : Encoding)
    {R : Bytes → Except Fault (Parsed (List XmlNode))} {p : Bytes} (hR : EndsBelow R p.length)
    (h : p ≠ []) : Within (Option.bind · Parsed.p) (p.length - 1) (parseNode encoding R p) := by
  rw [parseNode]
  split
  · exact within_none rfl
  · have hloop := declarationLoop_within encoding ([], [], []) (length_drop_le p 5)
    have hpos := List.length_pos_iff.mpr h
    refine (hloop.mono ?_).map fun _ => rfl
    rw [List.length_drop]
    omega
  · exact (parseRaw_within _ _ (List.cons_ne_nil _ _)).map fun _ => rfl
  · exact (parseRaw_within _ _ (List.cons_ne_nil _ _)).map fun _ => rfl
  · exact parseUnknown_within p
  · exact (parseElement_within encoding hR h).map fun _ => rfl

theorem readValue_within (encoding : Encoding) {fuel : Nat} (children : List XmlNode) {p : Bytes}
    (h : p.length ≤ fuel) : Within Parsed.p p.length (readValue encoding fuel children p) := by
  induction fuel generalizing children p with
  | zero =>
      have hempty : p = [] := List.length_eq_zero_iff.mp (Nat.le_zero.mp h)
      subst hempty
      exact within_none rfl
  | succ fuel ih =>
      rw [readValue]
      split
      · exact within_none rfl
      · exact within_some rfl (Nat.zero_le _)
      · rename_i c q hskip
        have hq := length_skipWhiteSpace_le hskip
        rw [List.length_cons] at hq
        split
        · exact within_some rfl (by rw [List.length_cons]; exact hq)
        · dsimp only
          by_cases htext : c ≠ '<'.toUInt8
          · rw [if_pos htext]
            refine (readText_shorter encoding htext q).bind fun r hr => ?_
            split
            · exact within_none rfl
            · rename_i rest hrest
              have hless := hr rest hrest
              exact (ih _ (by omega)).mono (by omega)
          · rw [if_neg htext]
            have hR : EndsBelow (readValue encoding fuel []) (c :: q).length := by
              intro s hs
              rw [List.length_cons] at hs
              exact ih [] (by omega)
            refine (parseNode_within encoding hR (List.cons_ne_nil c q)).bind fun node hnode => ?_
            split
            · exact within_none rfl
            · rename_i node
              split
              · exact within_none rfl
              · rename_i rest hrest
                have hless := hnode rest hrest
                rw [List.length_cons] at hless
                refine ((ih _ (by omega)).bind fun r hr => ?_)
                intro s hs
                have hsLess := hr s hs
                omega

/-! ## Files -/

theorem documentLoop_ends {fuel : Nat} (encoding : Encoding) (nodes : List XmlNode) {p : Bytes}
    (h : p.length ≤ fuel) :
    Within (fun _ => none) 0 (documentLoop fuel encoding nodes p) := by
  induction fuel generalizing encoding nodes p with
  | zero =>
      rw [documentLoop, if_pos (List.length_eq_zero_iff.mp (Nat.le_zero.mp h))]
      exact within_none rfl
  | succ fuel ih =>
      rw [documentLoop]
      split
      · exact within_none rfl
      · rename_i hne
        have hpos := List.length_pos_iff.mpr hne
        have hR : EndsBelow (readValue encoding p.length []) p.length :=
          fun s hs => readValue_within encoding [] hs.le
        refine (parseNode_within encoding hR hne).bind fun node hnode => ?_
        split
        · exact within_none rfl
        · rename_i node
          dsimp only
          split
          · exact within_none rfl
          · rename_i q hq
            obtain ⟨rest, hrest, hskip⟩ := Option.bind_eq_some_iff.mp hq
            have hless := hnode rest hrest
            have hshorter := length_skipWhiteSpace_le hskip
            exact (ih _ _ (by omega)).bind fun _ _ => within_none rfl

/-- Every file is loaded, or the parser stops in it. -/
theorem loadFile_ends (encoding : Encoding) (file : Bytes) :
    loadFile encoding file ≠ .error .diverges := by
  have hparse : ∀ p, Within (fun _ => none) 0 (parseDocument encoding p) := by
    intro p
    rw [parseDocument]
    split
    · exact within_none rfl
    · exact (documentLoop_ends _ [] le_rfl).bind fun _ _ => within_none rfl
  rw [loadFile]
  split
  · intro hdiverges
    cases hdiverges
  · intro hdiverges
    have hends := hparse (normalizeLines (cString file))
    rw [hdiverges] at hends
    exact hends rfl

end OpenZWave.TiXml
