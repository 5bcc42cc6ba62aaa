import OpenZWave.Lib.WordBytes
import OpenZWave.TinyXmlParse

/-!
# Saving and loading a document

A document that is saved and loaded is the document again, apart from its texts: the
texts between two nodes become one, without what is skipped in front, with single
blanks, and not at all when nothing else is in it.
-/

namespace OpenZWave.TiXml

/-! ## What can be saved -/

/-- The name of an element or an attribute. -/
structure ValidName (name : Bytes) : Prop where
  first : ∃ c l, name = c :: l ∧ (isAlpha c || c == '_'.toUInt8) = true ∧ c ≠ 0xEF
  all : ∀ d ∈ name, isNameByte d = true

/-- Whether it is one. -/
def isValidName : Bytes → Bool
  | [] => false
  | c :: l => (isAlpha c || c == '_'.toUInt8) && c != 0xEF && (c :: l).all isNameByte

/-- A value that is escaped. -/
def Plain (t : Bytes) : Prop := Sequenced t ∧ ¬ HasReference t

/-- Bytes that are written as they are. -/
def Raw (t : Bytes) : Prop := ∀ c ∈ t, c ≠ 0 ∧ c ≠ '\r'.toUInt8

instance (t : Bytes) : Decidable (Raw t) :=
  List.decidableBAll (fun c => c ≠ 0 ∧ c ≠ '\r'.toUInt8) t

/-- The value of a part of a declaration, which is not escaped. -/
structure PlainPart (v : Bytes) : Prop where
  sequenced : Sequenced v
  raw : Raw v
  amp : '&'.toUInt8 ∉ v
  quote : doubleQuote ∉ v

/-- An end tag is first found where it is written. -/
def Unbroken (tag v : Bytes) : Prop := untilTag tag (v ++ tag) = (v, tag)

mutual

/-- A node that comes back when it is saved and loaded. -/
def XmlNode.Writable : XmlNode → Prop
  | .element value attributeSet children =>
      ValidName value ∧ (attributeSet.map Prod.fst).Nodup ∧
        (∀ a ∈ attributeSet, ValidName a.1 ∧ Plain a.2) ∧ AllWritable children
  | .text value cdata =>
      if cdata then Raw value ∧ Unbroken (bytes [']', ']', '>']) value else Plain value
  | .comment value => Raw value ∧ Unbroken (bytes ['-', '-', '>']) value
  | .declaration version encoding standalone =>
      PlainPart version ∧ PlainPart encoding ∧ PlainPart standalone
  | .unknown value =>
      Raw value ∧ '>'.toUInt8 ∉ value ∧ value.head? ≠ some '/'.toUInt8 ∧
        identify ('<'.toUInt8 :: value ++ bytes ['>']) = some .unknown

def AllWritable : List XmlNode → Prop
  | [] => True
  | node :: nodes => node.Writable ∧ AllWritable nodes

end

/-- What loading makes of the text between two nodes. -/
def loadedText (t : Bytes) : List XmlNode :=
  let value := condense false (skipText t)
  if value.all isWhiteSpace then [] else [.text value false]

mutual

def XmlNode.loaded : XmlNode → XmlNode
  | .element value attributeSet children => .element value attributeSet (loadedChildren [] children)
  | node => node

/-- The children after the text `t` in front of them. -/
def loadedChildren (t : Bytes) : List XmlNode → List XmlNode
  | [] => loadedText t
  | .text value false :: nodes => loadedChildren (t ++ value) nodes
  | node :: nodes => loadedText t ++ node.loaded :: loadedChildren [] nodes

end

/-- A document that comes back: it has no text beside its nodes. -/
structure XmlDocument.Writable (doc : XmlDocument) : Prop where
  nodes : AllWritable doc.nodes
  tags : ∀ node ∈ doc.nodes, ∀ value, node ≠ .text value false
  nonempty : doc.nodes ≠ []

/-- A document that says that it is in UTF-8, with a mark or in its declaration. -/
def XmlDocument.Utf8 (doc : XmlDocument) : Prop :=
  doc.useMicrosoftBOM = true ∨
    ∃ v e s nodes, doc.nodes = .declaration v e s :: nodes ∧
      encodingAfter .unknown (.declaration v e s) = .utf8

/-! ## Names and values -/

theorem validName_of_isValidName {name : Bytes} (h : isValidName name = true) :
    ValidName name := by
  cases name with
  | nil => cases h
  | cons c l =>
      rw [isValidName, Bool.and_eq_true, Bool.and_eq_true, bne_iff_ne, List.all_eq_true] at h
      exact ⟨⟨c, l, rfl, h.1⟩, h.2⟩

set_option maxRecDepth 4000 in
theorem isWhiteSpace_of_nameByte {c : UInt8} (h : isNameByte c = true) :
    isWhiteSpace c = false := by
  have hall : ∀ b, isNameByte b = true → isWhiteSpace b = false :=
    WordBytes.forall_byte (by decide)
  exact hall c h

theorem skip_self {encoding : Encoding} {c : UInt8} (hmark : c ≠ 0xEF)
    (hspace : isWhiteSpace c = false) (p : Bytes) :
    skipWhiteSpace encoding (c :: p) = some (c :: p) := by
  rw [skipWhiteSpace, if_neg (List.cons_ne_nil c p), skip_cons, not_isMark hmark,
    if_neg (fun h => Bool.false_ne_true h.2), hspace, if_neg Bool.false_ne_true]

theorem skip_space_cons {encoding : Encoding} {c : UInt8} (hmark : c ≠ 0xEF)
    (hspace : isWhiteSpace c = false) (p : Bytes) :
    skipWhiteSpace encoding (' '.toUInt8 :: c :: p) = some (c :: p) := by
  have hskip : skipWhiteSpace encoding (c :: p) = some (c :: p) := skip_self hmark hspace p
  rw [skipWhiteSpace, if_neg (List.cons_ne_nil c p)] at hskip
  have hblank : isWhiteSpace ' '.toUInt8 = true := rfl
  rw [skipWhiteSpace, if_neg (List.cons_ne_nil _ _), skip_cons, not_isMark (by decide),
    if_neg (fun h => Bool.false_ne_true h.2), if_pos hblank, hskip]

theorem ValidName.skip {name : Bytes} (h : ValidName name) (encoding : Encoding) (rest : Bytes) :
    skipWhiteSpace encoding (name ++ rest) = some (name ++ rest) := by
  obtain ⟨c, l, rfl, -, hmark⟩ := h.first
  exact skip_self hmark (isWhiteSpace_of_nameByte (h.all c List.mem_cons_self)) _

/-- A name is read up to the first byte that is none of a name. -/
theorem ValidName.readName {name : Bytes} (h : ValidName name) {d : UInt8}
    (hd : isNameByte d = false) (rest : Bytes) :
    TiXml.readName (name ++ d :: rest) = some (name, d :: rest) := by
  obtain ⟨c, l, rfl, hfirst, -⟩ := h.first
  have htake : (c :: l ++ d :: rest).takeWhile isNameByte = c :: l := by
    rw [List.takeWhile_append_of_pos h.all, List.takeWhile_cons_of_neg (by simp [hd]),
      List.append_nil]
  have hdrop : (c :: l ++ d :: rest).dropWhile isNameByte = d :: rest := by
    rw [List.dropWhile_append_of_pos h.all, List.dropWhile_cons_of_neg (by simp [hd])]
  rw [List.cons_append] at htake hdrop ⊢
  rw [TiXml.readName, if_pos hfirst, htake, hdrop]

/-- An attribute is read when its value is. -/
theorem parseAttribute_of {encoding : Encoding} {name v x : Bytes} (hname : ValidName name)
    {q : UInt8} (hq : q = singleQuote ∨ q = doubleQuote) {rest : Bytes}
    (hread : readText encoding false [q] (x ++ q :: rest) = .ok (v, some (q :: rest))) :
    parseAttribute encoding (name ++ '='.toUInt8 :: q :: (x ++ q :: rest)) =
      .ok ⟨(name, v), some rest, none⟩ := by
  have hequals : skipWhiteSpace encoding ('='.toUInt8 :: q :: (x ++ q :: rest)) =
      some ('='.toUInt8 :: q :: (x ++ q :: rest)) := skip_self (by decide) (by decide) _
  have hquote : skipWhiteSpace encoding (q :: (x ++ q :: rest)) = some (q :: (x ++ q :: rest)) := by
    rcases hq with rfl | rfl <;> exact skip_self (by decide) (by decide) _
  have hskip := hname.skip encoding ('='.toUInt8 :: q :: (x ++ q :: rest))
  have hreadName := hname.readName (d := '='.toUInt8) (by decide) (q :: (x ++ q :: rest))
  obtain ⟨c, l, rfl, -, -⟩ := hname.first
  rw [parseAttribute, hskip]
  simp only [List.cons_append] at hreadName ⊢
  simp only [hreadName, hequals, hquote, ne_eq, not_true, if_false, hq, if_true, hread]
  rfl

theorem getChar_raw {u : Bytes} (h : Sequence u) (hamp : '&'.toUInt8 ∉ u) (rest : Bytes) :
    getChar .utf8 (u ++ rest) = .ok (u, some rest) := by
  cases h with
  | single htable =>
      rename_i c
      have hc : c ≠ '&'.toUInt8 := fun heq => hamp (by rw [heq]; exact List.mem_cons_self)
      rw [getChar]
      simp only [List.cons_append, List.nil_append, List.headD_cons, if_true, htable, if_neg hc,
        List.drop_succ_cons, List.drop_zero]
  | several htable hne hl =>
      have hread := (Sequence.several htable hne hl).getChar_escape rest
      rwa [Sequence.escape_several htable hne hl] at hread

/-- One turn of the loop, for a character that is read whole. -/
theorem keepLoop_turn {encoding : Encoding} {q : UInt8} {fuel : Nat} {text u p p' : Bytes}
    (hread : getChar encoding p = .ok (u, some p')) (hp : ∃ c l, p = c :: l ∧ c ≠ q) :
    keepLoop encoding [q] (fuel + 1) text p = keepLoop encoding [q] fuel (text ++ u) p' := by
  obtain ⟨c, l, rfl, hc⟩ := hp
  have hgo : ¬ (c :: l = [] ∨ [q].isPrefixOf (c :: l) = true) := by
    simp [Ne.symm hc]
  rw [keepLoop, if_neg hgo, hread]
  rfl

theorem Sequence.ne_nil {u : Bytes} (h : Sequence u) : u ≠ [] := by
  cases h <;> exact List.cons_ne_nil _ _

/-- The value of a part of a declaration is read in any encoding. -/
theorem keepLoop_raw (encoding : Encoding) {v : Bytes} (h : Sequenced v)
    (hamp : '&'.toUInt8 ∉ v) (hquote : doubleQuote ∉ v) (rest : Bytes) {fuel : Nat} (text : Bytes)
    (hfuel : v.length ≤ fuel) :
    keepLoop encoding [doubleQuote] fuel text (v ++ doubleQuote :: rest) =
      .ok (text ++ v, some (doubleQuote :: rest)) := by
  have hend : ∀ fuel text, keepLoop encoding [doubleQuote] fuel text (doubleQuote :: rest) =
      .ok (text, some (doubleQuote :: rest)) := keepLoop_end (.inr (by simp))
  by_cases hutf8 : encoding = .utf8
  · subst hutf8
    induction h generalizing fuel text with
    | nil => rw [List.nil_append, hend, List.append_nil]
    | append hu ht ih =>
        rename_i u t
        rw [List.mem_append, not_or] at hamp hquote
        have hpos := List.length_pos_iff.mpr hu.ne_nil
        rw [List.length_append] at hfuel
        obtain ⟨fuel, rfl⟩ : ∃ n, fuel = n + 1 := ⟨fuel - 1, by omega⟩
        have hhead : ∃ c l, u ++ (t ++ doubleQuote :: rest) = c :: l ∧ c ≠ doubleQuote := by
          obtain ⟨c, l, rfl⟩ := List.exists_cons_of_ne_nil hu.ne_nil
          exact ⟨c, _, rfl, fun heq => hquote.1 (by rw [heq]; exact List.mem_cons_self)⟩
        rw [List.append_assoc, keepLoop_turn (getChar_raw hu hamp.1 _) hhead,
          ih hamp.2 hquote.2 _ (by omega), List.append_assoc]
  · clear h
    induction v generalizing fuel text with
    | nil => rw [List.nil_append, hend, List.append_nil]
    | cons c v ih =>
        rw [List.mem_cons, not_or] at hamp hquote
        rw [List.length_cons] at hfuel
        obtain ⟨fuel, rfl⟩ : ∃ n, fuel = n + 1 := ⟨fuel - 1, by omega⟩
        have hread : getChar encoding (c :: (v ++ doubleQuote :: rest)) =
            .ok ([c], some (v ++ doubleQuote :: rest)) := by
          rw [getChar]
          simp only [List.headD_cons, if_neg hutf8, if_neg (Ne.symm hamp.1), if_true,
            List.drop_succ_cons, List.drop_zero]
        rw [List.cons_append, keepLoop_turn hread ⟨c, _, rfl, Ne.symm hquote.1⟩,
          ih hamp.2 hquote.2 _ (by omega), List.append_assoc, List.singleton_append]

/-! ## Declarations -/

theorem cString_eq {t : Bytes} (h : ∀ c ∈ t, c ≠ 0) : cString t = t := by
  rw [cString, List.takeWhile_eq_self_iff]
  intro c hc
  simpa using h c hc

theorem parseAttribute_raw (encoding : Encoding) {name v : Bytes} (hname : ValidName name)
    (hv : PlainPart v) (rest : Bytes) :
    parseAttribute encoding (name ++ '='.toUInt8 :: doubleQuote :: (v ++ doubleQuote :: rest)) =
      .ok ⟨(name, v), some rest, none⟩ := by
  refine parseAttribute_of hname (.inr rfl) ?_
  have hfuel : v.length ≤ (v ++ doubleQuote :: rest).length := by
    rw [List.length_append]
    omega
  have hread := keepLoop_raw encoding hv.sequenced hv.amp hv.quote rest [] hfuel
  rwa [List.nil_append] at hread

theorem validName_part (part : Part) : ValidName part.name := by
  cases part <;> exact validName_of_isValidName rfl

theorem partAt_name (part : Part) (rest : Bytes) :
    partAt (part.name ++ '='.toUInt8 :: rest) = some part := by
  cases part <;> rfl

theorem declarationLoop_part (encoding : Encoding) (part : Part) {value : Bytes}
    (h : PlainPart value) (hne : value ≠ []) (rest : Bytes) (fuel : Nat) (parts : Parts) :
    declarationLoop encoding (fuel + 1) parts (' '.toUInt8 :: (printPart part value ++ rest)) =
      declarationLoop encoding fuel (part.set parts value) (' '.toUInt8 :: rest) := by
  have hvalue : cString value = value := cString_eq fun c hc => (h.raw c hc).1
  have hprint : printPart part value ++ rest =
      part.name ++ '='.toUInt8 :: doubleQuote :: (value ++ doubleQuote :: ' '.toUInt8 :: rest) := by
    rw [printPart, if_neg hne, hvalue]
    simp only [List.append_assoc, List.cons_append, List.nil_append]
  have hattribute := parseAttribute_raw encoding (validName_part part) h (' '.toUInt8 :: rest)
  have hat := partAt_name part (doubleQuote :: (value ++ doubleQuote :: ' '.toUInt8 :: rest))
  obtain ⟨c, l, hname, -, hmark⟩ := (validName_part part).first
  have hspace : isWhiteSpace c = false :=
    isWhiteSpace_of_nameByte ((validName_part part).all c (by rw [hname]; exact List.mem_cons_self))
  rw [hprint, declarationLoop, if_neg (List.cons_ne_nil _ _), List.headD_cons,
    if_neg (by decide)]
  rw [hname, List.cons_append] at hattribute hat ⊢
  simp only [skip_space_cons hmark hspace, hat, hattribute]
  change declarationLoop encoding fuel (part.set parts (cString value)) _ = _
  rw [hvalue]

/-- A part that is empty is not written, and not read. -/
theorem declarationLoop_parts (encoding : Encoding) {v e s : Bytes} (hv : PlainPart v)
    (he : PlainPart e) (hs : PlainPart s) (rest : Bytes) {fuel : Nat} (hfuel : 5 ≤ fuel) :
    declarationLoop encoding fuel ([], [], []) (' '.toUInt8 :: (printPart .version v ++
        (printPart .encoding e ++ (printPart .standalone s ++ (bytes ['?', '>'] ++ rest))))) =
      .ok ⟨.declaration v e s, some rest, none⟩ := by
  have hstep : ∀ (fuel : Nat) (part : Part) {value : Bytes} (parts : Parts) (rest : Bytes),
      PlainPart value → 1 ≤ fuel → part.set parts [] = parts →
      ∃ fuel', fuel ≤ fuel' + 1 ∧
        declarationLoop encoding fuel parts (' '.toUInt8 :: (printPart part value ++ rest)) =
          declarationLoop encoding fuel' (part.set parts value) (' '.toUInt8 :: rest) := by
    intro fuel part value parts rest hvalue hpos hparts
    by_cases hne : value = []
    · refine ⟨fuel, by omega, ?_⟩
      rw [hne, hparts]
      rfl
    · obtain ⟨fuel, rfl⟩ : ∃ n, fuel = n + 1 := ⟨fuel - 1, by omega⟩
      exact ⟨fuel, le_rfl, declarationLoop_part encoding part hvalue hne rest fuel parts⟩
  obtain ⟨fuel₁, hfuel₁, h₁⟩ := hstep fuel .version ([], [], []) _ hv (by omega) rfl
  obtain ⟨fuel₂, hfuel₂, h₂⟩ := hstep fuel₁ .encoding (v, [], []) _ he (by omega) rfl
  obtain ⟨fuel₃, hfuel₃, h₃⟩ := hstep fuel₂ .standalone (v, e, []) _ hs (by omega) rfl
  obtain ⟨n, rfl⟩ : ∃ n, fuel₃ = n + 2 := ⟨fuel₃ - 2, by omega⟩
  rw [h₁]
  refine h₂.trans (h₃.trans ?_)
  have hskip : skipWhiteSpace encoding (' '.toUInt8 :: (bytes ['?', '>'] ++ rest)) =
      some (bytes ['?', '>'] ++ rest) := skip_space_cons (by decide) (by decide) _
  rw [declarationLoop, if_neg (List.cons_ne_nil _ _), List.headD_cons, if_neg (by decide)]
  simp only [hskip]
  rfl

/-! ## Nodes -/

theorem untilTag_append {tag v : Bytes} (h : Unbroken tag v) (hne : tag ≠ []) (rest : Bytes) :
    untilTag tag (v ++ (tag ++ rest)) = (v, tag ++ rest) := by
  induction v with
  | nil =>
      obtain ⟨c, l, rfl⟩ := List.exists_cons_of_ne_nil hne
      rw [List.nil_append, List.cons_append, untilTag]
      exact if_pos (by simp)
  | cons c v ih =>
      have hgo : ¬ tag.isPrefixOf (c :: (v ++ tag)) = true := by
        intro hstarts
        have huntil : untilTag tag (c :: v ++ tag) = (c :: v, tag) := h
        rw [List.cons_append, untilTag, if_pos hstarts, Prod.mk.injEq] at huntil
        exact List.cons_ne_nil c v huntil.1.symm
      have htail : Unbroken tag v := by
        have huntil : untilTag tag (c :: v ++ tag) = (c :: v, tag) := h
        rw [List.cons_append, untilTag, if_neg hgo, Prod.mk.injEq, List.cons.injEq] at huntil
        exact Prod.ext huntil.1.2 huntil.2
      have hgo' : ¬ tag.isPrefixOf (c :: (v ++ (tag ++ rest))) = true := by
        intro hstarts
        rw [List.isPrefixOf_iff_prefix] at hgo hstarts
        refine hgo (List.prefix_of_prefix_length_le hstarts ?_ ?_)
        · exact ⟨rest, by simp⟩
        · rw [List.length_cons, List.length_append]
          omega
      rw [List.cons_append, untilTag, if_neg hgo', ih htail]

theorem parseRaw_append (node : Bytes → XmlNode) (startTag : Bytes) {tag v : Bytes}
    (h : Unbroken tag v) (hne : tag ≠ []) (rest : Bytes) :
    parseRaw node startTag tag (startTag ++ (v ++ (tag ++ rest))) =
      .ok ⟨node v, some rest, none⟩ := by
  have happend : tag ++ rest ≠ [] := fun heq => hne (List.append_eq_nil_iff.mp heq).1
  simp only [parseRaw, List.drop_left, untilTag_append h hne, if_neg happend]

theorem parseUnknown_append {v : Bytes} (h : '>'.toUInt8 ∉ v) (rest : Bytes) :
    parseUnknown ('<'.toUInt8 :: (v ++ '>'.toUInt8 :: rest)) = ⟨.unknown v, some rest, none⟩ := by
  have hall : ∀ c ∈ v, (c != '>'.toUInt8) = true := by
    intro c hc
    rw [bne_iff_ne]
    rintro rfl
    exact h hc
  rw [parseUnknown, List.drop_succ_cons, List.drop_zero, List.takeWhile_append_of_pos hall,
    List.dropWhile_append_of_pos hall, List.takeWhile_cons_of_neg (by simp),
    List.dropWhile_cons_of_neg (by simp), List.append_nil, List.drop_succ_cons, List.drop_zero]

theorem isPrefixOf_of_not_mem {tag : Bytes} {d : UInt8} (h : d ∉ tag) (x rest : Bytes) :
    tag.isPrefixOf (x ++ d :: rest) = tag.isPrefixOf x := by
  induction tag generalizing x with
  | nil => rfl
  | cons c tag ih =>
      rw [List.mem_cons, not_or] at h
      cases x with
      | nil => simp [List.isPrefixOf, Ne.symm h.1]
      | cons b x => simp only [List.cons_append, List.isPrefixOf, ih h.2]

/-- What is identified depends on nothing behind the end of the tag. -/
theorem identify_tag (v rest : Bytes) :
    identify ('<'.toUInt8 :: (v ++ '>'.toUInt8 :: rest)) =
      identify ('<'.toUInt8 :: (v ++ '>'.toUInt8 :: [])) := by
  have hstarts : ∀ tag : Bytes, '>'.toUInt8 ∉ tag → ∀ rest,
      tag.isPrefixOf ('<'.toUInt8 :: (v ++ '>'.toUInt8 :: rest)) =
        tag.isPrefixOf ('<'.toUInt8 :: v) :=
    fun tag h rest => isPrefixOf_of_not_mem h ('<'.toUInt8 :: v) rest
  have hnoCase : ∀ rest, stringEqualNoCase ('<'.toUInt8 :: (v ++ '>'.toUInt8 :: rest))
      (bytes ['<', '?', 'x', 'm', 'l']) =
        ((bytes ['<', '?', 'x', 'm', 'l']).map toLower).isPrefixOf
          (('<'.toUInt8 :: v).map toLower) := by
    intro rest
    rw [stringEqualNoCase, ← List.cons_append, List.map_append, List.map_cons]
    exact isPrefixOf_of_not_mem (by decide) _ _
  have hsecond : ∀ rest, ('<'.toUInt8 :: (v ++ '>'.toUInt8 :: rest)).getD 1 0 =
      v.headD '>'.toUInt8 := by
    intro rest
    cases v <;> rfl
  have hcomment := hstarts (bytes ['<', '!', '-', '-']) (by decide)
  have hcdata := hstarts (bytes ['<', '!', '[', 'C', 'D', 'A', 'T', 'A', '[']) (by decide)
  have hdtd := hstarts (bytes ['<', '!']) (by decide)
  simp only [identify, hnoCase, hcomment, hcdata, hdtd, hsecond]
  rfl

/-! ## Start tags -/

theorem Raw.append {t t' : Bytes} (h : Raw t) (h' : Raw t') : Raw (t ++ t') := by
  intro c hc
  rcases List.mem_append.mp hc with hmem | hmem
  · exact h c hmem
  · exact h' c hmem

theorem Raw.cons {c : UInt8} {t : Bytes} (hc : c ≠ 0 ∧ c ≠ '\r'.toUInt8) (h : Raw t) :
    Raw (c :: t) := by
  intro d hd
  rcases List.mem_cons.mp hd with rfl | hmem
  · exact hc
  · exact h d hmem

theorem raw_blank {ws : Bytes} (h : ∀ c ∈ ws, c = '\n'.toUInt8 ∨ c = '\t'.toUInt8) : Raw ws := by
  intro c hc
  rcases h c hc with rfl | rfl <;> decide

theorem raw_indent (depth : Nat) : Raw (indent depth) :=
  raw_blank fun _ hc => .inr (List.eq_of_mem_replicate hc)

theorem raw_newline : Raw ['\n'.toUInt8] :=
  raw_blank fun _ hc => .inl (List.mem_singleton.mp hc)

theorem raw_encodeByte (c : UInt8) : Raw (encodeByte c) := by
  have hall : ∀ n < 32, Raw (bytes ['&', '#', 'x'] ++
      [hexDigit (UInt8.ofNat n / 16), hexDigit (UInt8.ofNat n % 16), ';'.toUInt8]) := by
    decide
  rcases encodeByte_cases c with ⟨e, he, -, hcode⟩ | ⟨hcontrol, hcode⟩ | ⟨hle, -, hcode⟩
  · rw [hcode]
    simp only [entity, List.mem_cons, List.not_mem_nil, or_false] at he
    rcases he with rfl | rfl | rfl | rfl | rfl <;> decide
  · have hc := hall c.toNat (UInt8.lt_iff_toNat_lt.mp hcontrol)
    rw [UInt8.ofNat_toNat] at hc
    rw [hcode]
    exact hc
  · rw [hcode]
    intro d hd
    rw [List.mem_singleton] at hd
    subst hd
    constructor
    · rintro rfl
      exact absurd hle (by decide)
    · rintro rfl
      exact absurd hle (by decide)

theorem raw_escape (t : Bytes) : Raw (escape t) := by
  intro d hd
  obtain ⟨c, -, hmem⟩ := List.mem_flatMap.mp hd
  exact raw_encodeByte c d hmem

theorem Raw.cString {t : Bytes} (h : Raw t) : TiXml.cString t = t :=
  cString_eq fun c hc => (h c hc).1

theorem printed_value {t : Bytes} (h : ¬ HasReference t) :
    cString (encodeString false t) = escape t := by
  rw [encodeString_eq h, (raw_escape t).cString]

theorem ValidName.raw {name : Bytes} (h : ValidName name) : Raw name := by
  intro c hc
  have hname := h.all c hc
  constructor
  · rintro rfl
    exact absurd hname (by decide)
  · rintro rfl
    exact absurd hname (by decide)

set_option maxRecDepth 4000 in
theorem encodeByte_of_nameByte {c : UInt8} (h : isNameByte c = true) : encodeByte c = [c] := by
  have hall : ∀ b, isNameByte b = true → encodeByte b = [b] := WordBytes.forall_byte (by decide)
  exact hall c h

/-- A name is written as it is. -/
theorem ValidName.printed {name : Bytes} (h : ValidName name) :
    TiXml.cString (encodeString false name) = name := by
  have hescape : ∀ l : Bytes, (∀ d ∈ l, isNameByte d = true) → escape l = l := by
    intro l hl
    induction l with
    | nil => rfl
    | cons d l ih =>
        have hd := encodeByte_of_nameByte (hl d List.mem_cons_self)
        have htail := ih fun e he => hl e (List.mem_cons_of_mem d he)
        rw [escape, List.flatMap_cons, hd, ← escape, htail]
        rfl
  have hreference : ¬ HasReference name := by
    intro href
    have hamp : '&'.toUInt8 ∈ name := href.subset (by decide)
    exact absurd (h.all _ hamp) (by decide)
  rw [printed_value hreference, hescape name h.all]

/-- The quotes around a value. -/
def quoteFor (v : Bytes) : UInt8 := if v.contains doubleQuote then singleQuote else doubleQuote

theorem printAttribute_eq {a : Bytes × Bytes} (hname : ValidName a.1) (hv : Plain a.2)
    (rest : Bytes) :
    printAttribute a ++ rest =
      a.1 ++ '='.toUInt8 :: quoteFor a.2 :: (escape a.2 ++ quoteFor a.2 :: rest) := by
  rw [printAttribute, hname.printed, printed_value hv.2, quoteFor]
  split <;> simp only [List.append_assoc, List.cons_append, List.nil_append]

theorem parseAttribute_print {a : Bytes × Bytes} (hname : ValidName a.1) (hv : Plain a.2)
    (rest : Bytes) :
    parseAttribute .utf8 (printAttribute a ++ rest) = .ok ⟨a, some rest, none⟩ := by
  have hq : quoteFor a.2 = singleQuote ∨ quoteFor a.2 = doubleQuote := by
    rw [quoteFor]
    split
    · exact .inl rfl
    · exact .inr rfl
  have hread := keepLoop_escape hv.1 hq rest [] le_rfl
  rw [List.nil_append] at hread
  rw [printAttribute_eq hname hv]
  exact parseAttribute_of hname hq hread

theorem printAttributes_eq {attributeSet : List (Bytes × Bytes)}
    (h : ∀ a ∈ attributeSet, ValidName a.1) :
    printAttributes attributeSet =
      attributeSet.flatMap fun a => ' '.toUInt8 :: printAttribute a := by
  rw [printAttributes, List.takeWhile_eq_self_iff.mpr]
  intro a ha
  obtain ⟨c, l, hname, -⟩ := (h a ha).first
  simp [hname]

/-- An attribute with a new name is read. -/
theorem attributeLoop_turn (R : Bytes → Except Fault (Parsed (List XmlNode))) (value : Bytes)
    {a : Bytes × Bytes} {read : List (Bytes × Bytes)} (hname : ValidName a.1) (hv : Plain a.2)
    (hfresh : read.any (fun b => b.1 == a.1) = false) {rest : Bytes} (hrest : rest ≠ [])
    (fuel : Nat) :
    attributeLoop .utf8 R value (fuel + 1) read (' '.toUInt8 :: (printAttribute a ++ rest)) =
      attributeLoop .utf8 R value fuel (read ++ [a]) rest := by
  have hattribute := parseAttribute_print hname hv rest
  obtain ⟨d, p, rfl⟩ := List.exists_cons_of_ne_nil hrest
  obtain ⟨c, l, hcons, -, hmark⟩ := hname.first
  have hc : isNameByte c = true := hname.all c (by rw [hcons]; exact List.mem_cons_self)
  have hslash : c ≠ '/'.toUInt8 := by
    rintro rfl
    exact absurd hc (by decide)
  have hgreater : c ≠ '>'.toUInt8 := by
    rintro rfl
    exact absurd hc (by decide)
  rw [printAttribute_eq hname hv, hcons, List.cons_append] at hattribute
  rw [printAttribute_eq hname hv, hcons, List.cons_append, attributeLoop]
  simp only [skip_space_cons hmark (isWhiteSpace_of_nameByte hc), if_neg hslash,
    if_neg hgreater, hattribute]
  change (if read.any (fun b => b.1 == a.1) = true then _ else _) = _
  rw [hfresh, if_neg Bool.false_ne_true]

/-- The attributes of a start tag are read one after the other. -/
theorem attributeLoop_attributes (R : Bytes → Except Fault (Parsed (List XmlNode)))
    (value : Bytes) (attributeSet read : List (Bytes × Bytes))
    (h : ∀ a ∈ attributeSet, ValidName a.1 ∧ Plain a.2)
    (hnodup : ((read ++ attributeSet).map Prod.fst).Nodup) {rest : Bytes} (hrest : rest ≠ [])
    {fuel : Nat} (hfuel : attributeSet.length ≤ fuel) :
    ∃ fuel', attributeLoop .utf8 R value fuel read
        ((attributeSet.flatMap fun a => ' '.toUInt8 :: printAttribute a) ++ rest) =
      attributeLoop .utf8 R value fuel' (read ++ attributeSet) rest := by
  induction attributeSet generalizing read fuel with
  | nil => exact ⟨fuel, by rw [List.append_nil]; rfl⟩
  | cons a attributeSet ih =>
      rw [List.length_cons] at hfuel
      obtain ⟨fuel, rfl⟩ : ∃ n, fuel = n + 1 := ⟨fuel - 1, by omega⟩
      obtain ⟨hname, hv⟩ := h a List.mem_cons_self
      have happend : (read ++ [a]) ++ attributeSet = read ++ a :: attributeSet := by
        rw [List.append_assoc, List.singleton_append]
      have hfresh : read.any (fun b => b.1 == a.1) = false := by
        rw [List.any_eq_false]
        intro b hb heq
        rw [beq_iff_eq] at heq
        rw [List.map_append, List.nodup_append] at hnodup
        exact hnodup.2.2 b.1 (List.mem_map_of_mem hb) a.1
          (List.mem_map_of_mem List.mem_cons_self) heq
      obtain ⟨fuel', hloop⟩ := ih (read ++ [a]) (fun b hb => h b (List.mem_cons_of_mem a hb))
        (by rw [happend]; exact hnodup) (by omega : attributeSet.length ≤ fuel)
      refine ⟨fuel', ?_⟩
      rw [← happend, ← hloop, List.flatMap_cons, List.cons_append, List.cons_append,
        List.append_assoc]
      exact attributeLoop_turn R value hname hv hfresh
        (fun heq => hrest (List.append_eq_nil_iff.mp heq).2) fuel

theorem attributeLoop_empty (R : Bytes → Except Fault (Parsed (List XmlNode))) (value : Bytes)
    (attributeSet : List (Bytes × Bytes)) (rest : Bytes) (fuel : Nat) :
    attributeLoop .utf8 R value fuel attributeSet (bytes [' ', '/', '>'] ++ rest) =
      .ok ⟨.element value attributeSet [], some rest, none⟩ := by
  have hskip : skipWhiteSpace .utf8 (bytes [' ', '/', '>'] ++ rest) =
      some ('/'.toUInt8 :: '>'.toUInt8 :: rest) := skip_space_cons (by decide) (by decide) _
  rw [attributeLoop]
  simp only [hskip]
  rfl

/-- The start tag ends, and the value and the end tag follow. -/
theorem attributeLoop_value {R : Bytes → Except Fault (Parsed (List XmlNode))}
    {value p rest : Bytes} {children : List XmlNode} (attributeSet : List (Bytes × Bytes))
    (h : R p = .ok ⟨children, some (endTag value ++ rest), none⟩) (fuel : Nat) :
    attributeLoop .utf8 R value fuel attributeSet ('>'.toUInt8 :: p) =
      .ok ⟨.element value attributeSet children, some rest, none⟩ := by
  have hskip : skipWhiteSpace .utf8 ('>'.toUInt8 :: p) = some ('>'.toUInt8 :: p) :=
    skip_self (by decide) (by decide) p
  have hstarts : (endTag value).isPrefixOf (endTag value ++ rest) = true := by
    rw [List.isPrefixOf_iff_prefix]
    exact List.prefix_append _ _
  have hslash : ¬ '>'.toUInt8 = '/'.toUInt8 := by decide
  rw [attributeLoop]
  simp only [hskip, if_neg hslash, if_true, h]
  change (if (endTag value).isPrefixOf (endTag value ++ rest) then _ else _) = _
  rw [if_pos hstarts, List.drop_left]
  rfl

/-! ## Elements -/

set_option maxRecDepth 4000 in
theorem identify_element {c : UInt8} (h : (isAlpha c || c == '_'.toUInt8) = true) (p : Bytes) :
    identify ('<'.toUInt8 :: c :: p) = some .element := by
  have hall : ∀ b, (isAlpha b || b == '_'.toUInt8) = true →
      toLower b ≠ '?'.toUInt8 ∧ b ≠ '!'.toUInt8 :=
    WordBytes.forall_byte (by decide)
  obtain ⟨hquestion, hbang⟩ := hall c h
  have hdeclaration : stringEqualNoCase ('<'.toUInt8 :: c :: p) (bytes ['<', '?', 'x', 'm', 'l']) =
      false := by
    have hne : toLower '?'.toUInt8 ≠ toLower c := hquestion.symm
    simp [stringEqualNoCase, bytes, List.isPrefixOf, hne]
  have hmark : ∀ l : Bytes, ('<'.toUInt8 :: '!'.toUInt8 :: l).isPrefixOf ('<'.toUInt8 :: c :: p) =
      false := by
    intro l
    simp [List.isPrefixOf, Ne.symm hbang]
  rw [identify, List.headD_cons, if_neg (not_not_intro rfl), hdeclaration,
    if_neg Bool.false_ne_true]
  refine (if_neg (by rw [bytes, List.map, List.map, hmark]; simp)).trans ?_
  refine (if_neg (by rw [bytes, List.map, List.map, hmark]; simp)).trans ?_
  refine (if_neg (by rw [bytes, List.map, List.map, hmark]; simp)).trans ?_
  exact if_pos h

theorem length_attributes (attributeSet : List (Bytes × Bytes)) :
    attributeSet.length ≤
      (attributeSet.flatMap fun a => ' '.toUInt8 :: printAttribute a).length := by
  induction attributeSet with
  | nil => exact le_rfl
  | cons a attributeSet ih =>
      rw [List.flatMap_cons, List.length_append, List.length_cons, List.length_cons]
      omega

/-- An element is read when what follows its attributes is. -/
theorem parseElement_print {R : Bytes → Except Fault (Parsed (List XmlNode))} {value : Bytes}
    {attributeSet : List (Bytes × Bytes)} {tail rest : Bytes} {children : List XmlNode}
    (hvalue : ValidName value) (hattributes : ∀ a ∈ attributeSet, ValidName a.1 ∧ Plain a.2)
    (hnodup : (attributeSet.map Prod.fst).Nodup)
    (hhead : ∃ d l, tail = d :: l ∧ isNameByte d = false)
    (htail : ∀ fuel, attributeLoop .utf8 R value fuel attributeSet tail =
      .ok ⟨.element value attributeSet children, some rest, none⟩) :
    parseElement .utf8 R ('<'.toUInt8 :: (value ++ (printAttributes attributeSet ++ tail))) =
      .ok ⟨.element value attributeSet children, some rest, none⟩ := by
  have hprint := printAttributes_eq fun a ha => (hattributes a ha).1
  obtain ⟨d, l, hbehind, hd⟩ : ∃ d l, printAttributes attributeSet ++ tail = d :: l ∧
      isNameByte d = false := by
    cases attributeSet with
    | nil => exact hhead
    | cons a attributeSet =>
        rw [hprint]
        exact ⟨_, _, rfl, by decide⟩
  have hne : tail ≠ [] := by
    obtain ⟨d, l, rfl, -⟩ := hhead
    exact List.cons_ne_nil d l
  have hfuel : attributeSet.length ≤ (printAttributes attributeSet ++ tail).length := by
    rw [hprint, List.length_append]
    exact (length_attributes attributeSet).trans (Nat.le_add_right _ _)
  obtain ⟨fuel', hloop⟩ := attributeLoop_attributes R value attributeSet [] hattributes hnodup hne
    hfuel
  rw [← hprint, hbehind, List.nil_append, htail] at hloop
  rw [parseElement, List.drop_succ_cons, List.drop_zero, hvalue.skip, hbehind]
  simp only [hvalue.readName hd]
  exact hloop

/-- White space only. -/
def Blank (ws : Bytes) : Prop := ∀ c ∈ ws, isWhiteSpace c = true

theorem Blank.append {ws ws' : Bytes} (h : Blank ws) (h' : Blank ws') : Blank (ws ++ ws') := by
  intro c hc
  rcases List.mem_append.mp hc with hmem | hmem
  · exact h c hmem
  · exact h' c hmem

theorem blank_nil : Blank [] := fun _ h => absurd h List.not_mem_nil

theorem blank_newline : Blank ['\n'.toUInt8] := by
  intro c hc
  rw [List.mem_singleton] at hc
  rw [hc]
  rfl

theorem blank_indent (depth : Nat) : Blank (indent depth) := by
  intro c hc
  rw [List.eq_of_mem_replicate hc]
  rfl

/-- Children with something behind them that is skipped, and an end tag. -/
def childrenText (depth : Nat) (nodes : List XmlNode) (ws more : Bytes) : Bytes :=
  printChildren depth nodes ++ (ws ++ (bytes ['<', '/'] ++ more))

/-- The reader of values reads what is written of children, up to a length. -/
def ReadsChildren (R : Bytes → Except Fault (Parsed (List XmlNode))) (length : Nat) : Prop :=
  ∀ depth nodes ws more, AllWritable nodes → Blank ws →
    (childrenText depth nodes ws more).length < length →
      R (childrenText depth nodes ws more) =
        .ok ⟨loadedChildren [] nodes, some (bytes ['<', '/'] ++ more), none⟩

/-- What is written behind the attributes of an element. -/
def closing (depth : Nat) (value : Bytes) : List XmlNode → Bytes
  | [] => bytes [' ', '/', '>']
  | [.text text cdata] => bytes ['>'] ++ printText (depth + 1) text cdata ++ endTag value
  | children =>
      bytes ['>'] ++ printChildren (depth + 1) children ++ '\n'.toUInt8 :: indent depth ++
        endTag value

theorem print_element (depth : Nat) (value : Bytes) (attributeSet : List (Bytes × Bytes))
    (children : List XmlNode) :
    (XmlNode.element value attributeSet children).print depth =
      indent depth ++ '<'.toUInt8 :: cString value ++ printAttributes attributeSet ++
        closing depth value children := by
  unfold closing
  split
  · rw [XmlNode.print]
  · rw [XmlNode.print]
  · rename_i hnil htext
    rw [XmlNode.print]
    · exact hnil
    · exact htext

/-- With children the tag ends, and they are written in front of an end tag. -/
theorem closing_eq (depth : Nat) {value : Bytes} (hvalue : ValidName value)
    {children : List XmlNode} (hne : children ≠ []) :
    ∃ ws, Blank ws ∧ Raw ws ∧ closing depth value children =
      '>'.toUInt8 :: childrenText (depth + 1) children ws (value ++ bytes ['>']) := by
  have hend : endTag value = bytes ['<', '/'] ++ (value ++ bytes ['>']) := by
    rw [endTag, hvalue.raw.cString, List.append_assoc]
  have hform : ∀ ws, bytes ['>'] ++ printChildren (depth + 1) children ++ ws ++ endTag value =
      '>'.toUInt8 :: childrenText (depth + 1) children ws (value ++ bytes ['>']) := by
    intro ws
    rw [hend, childrenText, List.append_assoc, List.append_assoc]
    rfl
  unfold closing
  split
  · exact absurd rfl hne
  · rename_i text cdata
    have hprint : printChildren (depth + 1) [.text text cdata] =
        printText (depth + 1) text cdata := by
      rw [printChildren, printChildren, XmlNode.print, List.append_nil]
      rfl
    refine ⟨[], blank_nil, fun _ hmem => absurd hmem List.not_mem_nil, ?_⟩
    rw [← hform, hprint, List.append_nil]
  · exact ⟨_, blank_newline.append (blank_indent depth), raw_newline.append (raw_indent depth),
      hform _⟩

/-! ## Nodes -/

/-- A node is read back from behind white space. -/
def ReadsBack (node : XmlNode) (written : Bytes) : Prop :=
  ∃ lead body trail, Blank lead ∧ Blank trail ∧ written = lead ++ (body ++ trail) ∧
    (∃ d m, body = '<'.toUInt8 :: d :: m ∧ d ≠ '/'.toUInt8) ∧
    ∀ R rest, ReadsChildren R (body ++ rest).length →
      parseNode .utf8 R (body ++ rest) = .ok (some ⟨node.loaded, some rest, none⟩)

/-- A declaration is read in any encoding. -/
theorem parseNode_declaration (encoding : Encoding)
    (R : Bytes → Except Fault (Parsed (List XmlNode))) (depth : Nat) {v e s : Bytes}
    (h : (XmlNode.declaration v e s).Writable) (rest : Bytes) :
    parseNode encoding R ((XmlNode.declaration v e s).print depth ++ rest) =
      .ok (some ⟨.declaration v e s, some rest, none⟩) := by
  rw [XmlNode.Writable] at h
  obtain ⟨hv, he, hs⟩ := h
  have hform : (XmlNode.declaration v e s).print depth ++ rest =
      bytes ['<', '?', 'x', 'm', 'l'] ++ (' '.toUInt8 :: (printPart .version v ++
        (printPart .encoding e ++ (printPart .standalone s ++ (bytes ['?', '>'] ++ rest))))) := by
    rw [XmlNode.print]
    simp only [List.append_assoc]
    rfl
  have hfuel : 5 ≤ ((XmlNode.declaration v e s).print depth ++ rest).length := by
    rw [hform, List.length_append]
    exact Nat.le_add_right 5 _
  have hloop := declarationLoop_parts encoding hv he hs rest hfuel
  have hidentify : identify ((XmlNode.declaration v e s).print depth ++ rest) =
      some .declaration := by
    rw [hform]
    rfl
  have hdrop : ((XmlNode.declaration v e s).print depth ++ rest).drop 5 =
      ' '.toUInt8 :: (printPart .version v ++
        (printPart .encoding e ++ (printPart .standalone s ++ (bytes ['?', '>'] ++ rest)))) := by
    rw [hform]
    rfl
  rw [parseNode, hidentify]
  simp only [hdrop, hloop]
  rfl

theorem print_declaration (depth : Nat) (v e s : Bytes) :
    ∃ m, (XmlNode.declaration v e s).print depth = '<'.toUInt8 :: '?'.toUInt8 :: m := by
  rw [XmlNode.print]
  exact ⟨_, rfl⟩

theorem readsBack_declaration (depth : Nat) {v e s : Bytes}
    (h : (XmlNode.declaration v e s).Writable) :
    ReadsBack (.declaration v e s) ((XmlNode.declaration v e s).print depth) := by
  obtain ⟨m, hprint⟩ := print_declaration depth v e s
  refine ⟨[], (XmlNode.declaration v e s).print depth, [], blank_nil, blank_nil, by simp,
    ⟨_, m, hprint, by decide⟩, ?_⟩
  intro R rest _
  exact parseNode_declaration .utf8 R depth h rest

theorem readsBack_comment (depth : Nat) {value : Bytes} (h : (XmlNode.comment value).Writable) :
    ReadsBack (.comment value) ((XmlNode.comment value).print depth) := by
  rw [XmlNode.Writable] at h
  refine ⟨indent depth, bytes ['<', '!', '-', '-'] ++ value ++ bytes ['-', '-', '>'], [],
    blank_indent depth, blank_nil, ?_,
    ⟨_, _, rfl, by decide⟩, ?_⟩
  · rw [XmlNode.print, h.1.cString, List.append_nil]
    simp only [List.append_assoc]
  · intro R rest _
    have hread := parseRaw_append .comment (bytes ['<', '!', '-', '-']) h.2
      (List.cons_ne_nil _ _) rest
    have hidentify : identify (bytes ['<', '!', '-', '-'] ++
        (value ++ (bytes ['-', '-', '>'] ++ rest))) = some .comment := rfl
    rw [List.append_assoc, List.append_assoc, parseNode, hidentify]
    simp only [hread]
    rfl

theorem readsBack_cdata (depth : Nat) {value : Bytes} (h : (XmlNode.text value true).Writable) :
    ReadsBack (.text value true) ((XmlNode.text value true).print depth) := by
  rw [XmlNode.Writable, if_pos rfl] at h
  refine ⟨'\n'.toUInt8 :: indent depth,
    bytes ['<', '!', '[', 'C', 'D', 'A', 'T', 'A', '['] ++ value ++ bytes [']', ']', '>'],
    ['\n'.toUInt8], blank_newline.append (blank_indent depth), blank_newline, ?_,
    ⟨_, _, rfl, by decide⟩, ?_⟩
  · rw [XmlNode.print, printText, if_pos rfl, h.1.cString]
    simp only [List.append_assoc]
    rfl
  · intro R rest _
    have hread := parseRaw_append (XmlNode.text · true)
      (bytes ['<', '!', '[', 'C', 'D', 'A', 'T', 'A', '[']) h.2
      (List.cons_ne_nil _ _) rest
    have hidentify : identify (bytes ['<', '!', '[', 'C', 'D', 'A', 'T', 'A', '['] ++
        (value ++ (bytes [']', ']', '>'] ++ rest))) = some .cdata := rfl
    rw [List.append_assoc, List.append_assoc, parseNode, hidentify]
    simp only [hread]
    rfl

theorem readsBack_unknown (depth : Nat) {value : Bytes} (h : (XmlNode.unknown value).Writable) :
    ReadsBack (.unknown value) ((XmlNode.unknown value).print depth) := by
  rw [XmlNode.Writable] at h
  obtain ⟨hraw, hgreater, hslash, hidentify⟩ := h
  refine ⟨indent depth, '<'.toUInt8 :: (value ++ bytes ['>']), [], blank_indent depth, blank_nil,
    ?_, ?_, ?_⟩
  · rw [XmlNode.print, hraw.cString, List.append_nil, List.append_assoc, List.cons_append]
  · cases value with
    | nil => exact ⟨_, _, rfl, by decide⟩
    | cons c value => exact ⟨c, _, rfl, fun heq => hslash (congrArg some heq)⟩
  · intro R rest _
    have hform : '<'.toUInt8 :: (value ++ bytes ['>']) ++ rest =
        '<'.toUInt8 :: (value ++ '>'.toUInt8 :: rest) := by
      rw [List.cons_append, List.append_assoc]
      rfl
    have hunknown : identify ('<'.toUInt8 :: (value ++ '>'.toUInt8 :: rest)) = some .unknown := by
      rw [identify_tag]
      exact hidentify
    rw [hform, parseNode, hunknown]
    simp only [parseUnknown_append hgreater]
    rfl

theorem readsBack_element (depth : Nat) {value : Bytes} {attributeSet : List (Bytes × Bytes)}
    {children : List XmlNode} (h : (XmlNode.element value attributeSet children).Writable) :
    ReadsBack (.element value attributeSet children)
      ((XmlNode.element value attributeSet children).print depth) := by
  rw [XmlNode.Writable] at h
  obtain ⟨hvalue, hnodup, hattributes, hchildren⟩ := h
  obtain ⟨c, l, hcons, hfirst, -⟩ := hvalue.first
  refine ⟨indent depth,
    '<'.toUInt8 :: (value ++ (printAttributes attributeSet ++ closing depth value children)), [],
    blank_indent depth, blank_nil, ?_, ⟨c, _, by rw [hcons]; rfl, ?_⟩, ?_⟩
  · rw [print_element, hvalue.raw.cString, List.append_nil]
    simp only [List.append_assoc, List.cons_append]
  · rintro rfl
    exact absurd hfirst (by decide)
  · intro R rest hread
    have hidentify : identify ('<'.toUInt8 :: (value ++ (printAttributes attributeSet ++
        (closing depth value children ++ rest)))) = some .element := by
      rw [hcons, List.cons_append]
      exact identify_element hfirst _
    have hform : '<'.toUInt8 :: (value ++ (printAttributes attributeSet ++
        closing depth value children)) ++ rest = '<'.toUInt8 :: (value ++
          (printAttributes attributeSet ++ (closing depth value children ++ rest))) := by
      simp only [List.append_assoc, List.cons_append]
    rw [hform] at hread ⊢
    rw [parseNode, hidentify]
    have hparse : parseElement .utf8 R ('<'.toUInt8 :: (value ++ (printAttributes attributeSet ++
        (closing depth value children ++ rest)))) =
          .ok ⟨.element value attributeSet (loadedChildren [] children), some rest, none⟩ := by
      by_cases hne : children = []
      · subst hne
        exact parseElement_print hvalue hattributes hnodup ⟨_, _, rfl, by decide⟩
          (attributeLoop_empty R value attributeSet rest)
      · obtain ⟨ws, hws, -, hclosing⟩ := closing_eq depth hvalue hne
        have htext : closing depth value children ++ rest = '>'.toUInt8 ::
            childrenText (depth + 1) children ws (value ++ (bytes ['>'] ++ rest)) := by
          rw [hclosing]
          simp only [childrenText, List.append_assoc, List.cons_append]
        have hvalueRead : R (childrenText (depth + 1) children ws
            (value ++ (bytes ['>'] ++ rest))) =
              .ok ⟨loadedChildren [] children, some (endTag value ++ rest), none⟩ := by
          rw [hread (depth + 1) children ws _ hchildren hws, endTag, hvalue.raw.cString]
          · simp only [List.append_assoc]
          · rw [htext]
            simp only [List.length_cons, List.length_append]
            omega
        rw [htext]
        exact parseElement_print hvalue hattributes hnodup ⟨_, _, rfl, by decide⟩
          (attributeLoop_value attributeSet hvalueRead)
    simp only [hparse]
    rw [XmlNode.loaded]
    rfl

/-- A node that is no text between tags is read back. -/
theorem readsBack {node : XmlNode} (h : node.Writable) (htag : ∀ value, node ≠ .text value false)
    (depth : Nat) : ReadsBack node (node.print depth) := by
  cases node with
  | element value attributeSet children => exact readsBack_element depth h
  | text value cdata =>
      cases cdata with
      | false => exact absurd rfl (htag value)
      | true => exact readsBack_cdata depth h
  | comment value => exact readsBack_comment depth h
  | declaration version encoding standalone => exact readsBack_declaration depth h
  | unknown value => exact readsBack_unknown depth h

/-! ## Values -/

theorem readValue_skip {encoding : Encoding} {p p' : Bytes}
    (h : skipWhiteSpace encoding p = skipWhiteSpace encoding p') (fuel : Nat)
    (children : List XmlNode) :
    readValue encoding fuel children p = readValue encoding fuel children p' := by
  unfold readValue
  rw [h]

theorem readValue_end (fuel : Nat) (children : List XmlNode) (more : Bytes) :
    readValue .utf8 fuel children (bytes ['<', '/'] ++ more) =
      .ok ⟨children, some (bytes ['<', '/'] ++ more), none⟩ := by
  have hskip : skipWhiteSpace .utf8 (bytes ['<', '/'] ++ more) =
      some (bytes ['<', '/'] ++ more) := skip_self (by decide) (by decide) _
  unfold readValue
  rw [hskip]
  exact if_pos rfl

/-- The text in front of a tag is read, or skipped. -/
theorem readValue_text {t lead ws : Bytes} (h : Sequenced t) (hlead : Blank lead) (hws : Blank ws)
    (m : Bytes) {fuel : Nat}
    (hfuel : (lead ++ (escape t ++ (ws ++ '<'.toUInt8 :: m))).length ≤ fuel)
    (children : List XmlNode) :
    ∃ fuel', ('<'.toUInt8 :: m).length ≤ fuel' ∧ fuel' ≤ fuel ∧
      readValue .utf8 fuel children (lead ++ (escape t ++ (ws ++ '<'.toUInt8 :: m))) =
        readValue .utf8 fuel' (children ++ loadedText t) ('<'.toUInt8 :: m) := by
  have htag : skipWhiteSpace .utf8 ('<'.toUInt8 :: m) = some ('<'.toUInt8 :: m) :=
    skip_self (by decide) (by decide) m
  have htagSkip : skip .utf8 isWhiteSpace ('<'.toUInt8 :: m) = '<'.toUInt8 :: m := by
    rw [skipWhiteSpace, if_neg (List.cons_ne_nil _ _), Option.some.injEq] at htag
    exact htag
  have hskip : ∀ {t}, Sequenced t → ∀ {lead}, Blank lead →
      skipWhiteSpace .utf8 (lead ++ (escape t ++ (ws ++ '<'.toUInt8 :: m))) =
        some (if skipText t = [] then '<'.toUInt8 :: m
          else escape (skipText t) ++ (ws ++ '<'.toUInt8 :: m)) := by
    intro t ht lead hlead
    rw [skipWhiteSpace, if_neg (by simp), skip_space hlead, skip_escape ht, skip_space hws,
      htagSkip]
  have hlength : ('<'.toUInt8 :: m).length ≤ fuel := by
    simp only [List.length_append] at hfuel
    omega
  by_cases hnone : skipText t = []
  · refine ⟨fuel, hlength, le_rfl, ?_⟩
    have hloaded : loadedText t = [] := by
      rw [loadedText, hnone]
      rfl
    rw [hloaded, List.append_nil]
    refine readValue_skip ?_ fuel children
    rw [hskip h hlead, if_pos hnone, htag]
  · obtain ⟨c, l, hcons, hc⟩ : ∃ c l, escape (skipText t) = c :: l ∧ c ≠ '<'.toUInt8 := by
      have hseq := h.skipText
      revert hnone
      generalize skipText t = u at hseq
      intro hnone
      cases hseq with
      | nil => exact absurd rfl hnone
      | append hu ht =>
          rename_i u t
          obtain ⟨d, l, hescape, hd, -⟩ := hu.head_escape
          exact ⟨d, l ++ escape t, by rw [escape_append, hescape, List.cons_append], hd⟩
    have hagain := hskip h.skipText blank_nil
    rw [skipText_skipText h, if_neg hnone, List.nil_append] at hagain
    have hread : readText .utf8 true (bytes ['<'])
        (escape (skipText t) ++ (ws ++ '<'.toUInt8 :: m)) =
          .ok (condense false (skipText t), some ('<'.toUInt8 :: m)) := by
      rw [readText, if_pos rfl, hagain]
      exact condenseLoop_escape h.skipText hws m false [] (by simp only [List.length_append]; omega)
    have hfirst : skipWhiteSpace .utf8 (lead ++ (escape t ++ (ws ++ '<'.toUInt8 :: m))) =
        some (c :: (l ++ (ws ++ '<'.toUInt8 :: m))) := by
      rw [hskip h hlead, if_neg hnone, hcons, List.cons_append]
    have hlong : (c :: (l ++ (ws ++ '<'.toUInt8 :: m))).length ≤ fuel :=
      (length_skipWhiteSpace_le hfirst).trans hfuel
    have hgo : ¬ (bytes ['<', '/']).isPrefixOf (c :: (l ++ (ws ++ '<'.toUInt8 :: m))) = true := by
      simp [bytes, List.isPrefixOf, hc.symm]
    obtain ⟨n, rfl⟩ : ∃ n, fuel = n + 1 := ⟨fuel - 1, by rw [List.length_cons] at hlong; omega⟩
    refine ⟨n, ?_, Nat.le_succ n, ?_⟩
    · simp only [List.length_cons, List.length_append] at hlong ⊢
      omega
    · rw [hcons, List.cons_append] at hread
      rw [readValue, hfirst]
      simp only [if_neg hgo, if_pos hc, hread]
      change readValue .utf8 n (if (condense false (skipText t)).all isWhiteSpace then children
        else children ++ [.text (condense false (skipText t)) false]) _ = _
      rw [loadedText]
      split
      · rw [List.append_nil]
      · rfl

/-- A node is read, and then what is behind it. -/
theorem readValue_node {node : XmlNode} {d : UInt8} (hd : d ≠ '/'.toUInt8) {m rest : Bytes}
    {n : Nat} (hparse : parseNode .utf8 (readValue .utf8 n []) ('<'.toUInt8 :: d :: m) =
      .ok (some ⟨node, some rest, none⟩)) {children read : List XmlNode} {p : Option Bytes}
    (hrest : readValue .utf8 n (children ++ [node]) rest = .ok ⟨read, p, none⟩) :
    readValue .utf8 (n + 1) children ('<'.toUInt8 :: d :: m) = .ok ⟨read, p, none⟩ := by
  have hskip : skipWhiteSpace .utf8 ('<'.toUInt8 :: d :: m) = some ('<'.toUInt8 :: d :: m) :=
    skip_self (by decide) (by decide) _
  have hgo : ¬ (bytes ['<', '/']).isPrefixOf ('<'.toUInt8 :: d :: m) = true := by
    simp [bytes, List.isPrefixOf, hd.symm]
  rw [readValue, hskip]
  simp only [if_neg hgo, ne_eq, not_true, if_false, hparse]
  change (do
    let r ← readValue .utf8 n (children ++ [node]) rest
    return { r with error := none <|> r.error }) = _
  rw [hrest]
  rfl

/-- What is written of children is read back. -/
theorem readValue_children (fuel : Nat) :
    ∀ (depth : Nat) (nodes : List XmlNode) (t lead ws more : Bytes) (children : List XmlNode),
      Sequenced t → Blank lead → Blank ws → AllWritable nodes →
      (lead ++ (escape t ++ childrenText depth nodes ws more)).length ≤ fuel →
      readValue .utf8 fuel children (lead ++ (escape t ++ childrenText depth nodes ws more)) =
        .ok ⟨children ++ loadedChildren t nodes, some (bytes ['<', '/'] ++ more), none⟩ := by
  induction fuel using Nat.strong_induction_on with
  | _ fuel ihFuel =>
      intro depth nodes
      induction nodes with
      | nil =>
          intro t lead ws more children ht hlead hws _ hfuel
          obtain ⟨fuel', -, -, hread⟩ := readValue_text ht hlead hws ('/'.toUInt8 :: more) hfuel
            children
          exact hread.trans (readValue_end fuel' _ more)
      | cons node nodes ih =>
          intro t lead ws more children ht hlead hws hwritable hfuel
          obtain ⟨hnode, hnodes⟩ := hwritable
          by_cases htext : ∃ value, node = .text value false
          · obtain ⟨value, rfl⟩ := htext
            rw [XmlNode.Writable, if_neg Bool.false_ne_true] at hnode
            have hform : escape t ++ childrenText depth (.text value false :: nodes) ws more =
                escape (t ++ value) ++ childrenText depth nodes ws more := by
              rw [childrenText, printChildren, XmlNode.print, printText, if_neg Bool.false_ne_true,
                printed_value hnode.2, escape_append]
              simp only [XmlNode.isText, if_true, childrenText, List.append_assoc, List.nil_append]
            rw [hform] at hfuel ⊢
            exact ih (t ++ value) lead ws more children (ht.concat hnode.1) hlead hws hnodes hfuel
          · have htag : ∀ value, node ≠ .text value false := fun value heq => htext ⟨value, heq⟩
            obtain ⟨before, body, trail, hbefore, htrail, hprint, ⟨d, m, hbody, hd⟩, hback⟩ :=
              readsBack hnode htag depth
            have hbreak : Blank (if node.isText then [] else ['\n'.toUInt8]) := by
              split
              · exact blank_nil
              · exact blank_newline
            let rest := trail ++ (escape [] ++ childrenText depth nodes ws more)
            have hform : childrenText depth (node :: nodes) ws more =
                ((if node.isText then [] else ['\n'.toUInt8]) ++ before) ++
                  '<'.toUInt8 :: (d :: m ++ rest) := by
              rw [childrenText, printChildren, hprint, hbody]
              simp only [rest, childrenText, escape, List.flatMap_nil, List.append_assoc,
                List.cons_append, List.nil_append]
            rw [hform] at hfuel ⊢
            obtain ⟨fuel', hlength, hle, hread⟩ := readValue_text ht hlead (hbreak.append hbefore)
              (d :: m ++ rest) hfuel children
            rw [List.length_cons, List.cons_append, List.length_cons] at hlength
            obtain ⟨n, rfl⟩ : ∃ n, fuel' = n + 1 := ⟨fuel' - 1, by omega⟩
            have hinner : ReadsChildren (readValue .utf8 n []) (body ++ rest).length := by
              intro depth nodes ws more hnodes hws hlong
              have hvalue := ihFuel n (by omega) depth nodes [] [] ws more [] .nil blank_nil hws
                hnodes (by
                  rw [hbody] at hlong
                  simp only [escape, List.flatMap_nil, List.nil_append, List.cons_append,
                    List.length_cons] at hlong ⊢
                  omega)
              exact hvalue
            have hparse := hback _ rest hinner
            rw [hbody] at hparse
            have hlast := ihFuel n (by omega) depth nodes [] trail ws more
              (children ++ loadedText t ++ [node.loaded]) .nil htrail hws hnodes (by
                simp only [rest, List.length_append] at hlength ⊢
                omega)
            have hchildren : children ++ loadedText t ++ [node.loaded] ++ loadedChildren [] nodes =
                children ++ (loadedText t ++ node.loaded :: loadedChildren [] nodes) := by
              simp only [List.append_assoc, List.singleton_append]
            rw [hread, loadedChildren, ← hchildren]
            · exact readValue_node hd hparse hlast
            · exact htag

end OpenZWave.TiXml
