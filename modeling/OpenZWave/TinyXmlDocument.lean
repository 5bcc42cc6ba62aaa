import OpenZWave.TinyXmlRoundTrip

/-!
# Documents that are saved and loaded

The lines of a file hold no carriage return, so that `LoadFile` leaves them as they are;
its nodes are read one after the other, in the encoding that is given or that the byte
order mark or the declaration names.
-/

namespace OpenZWave.TiXml

/-! ## The bytes of a file -/

theorem raw_printAttribute {a : Bytes × Bytes} (hname : ValidName a.1) (hv : Plain a.2) :
    Raw (printAttribute a) := by
  have hprint := printAttribute_eq hname hv []
  rw [List.append_nil] at hprint
  have hquote : quoteFor a.2 ≠ 0 ∧ quoteFor a.2 ≠ '\r'.toUInt8 := by
    rw [quoteFor]
    split <;> decide
  have hend : Raw [quoteFor a.2] := Raw.cons hquote fun _ h => absurd h List.not_mem_nil
  rw [hprint]
  exact hname.raw.append (Raw.cons (by decide)
    (Raw.cons hquote ((raw_escape a.2).append hend)))

theorem raw_printAttributes {attributeSet : List (Bytes × Bytes)}
    (h : ∀ a ∈ attributeSet, ValidName a.1 ∧ Plain a.2) : Raw (printAttributes attributeSet) := by
  rw [printAttributes_eq fun a ha => (h a ha).1]
  intro c hc
  obtain ⟨a, ha, hmem⟩ := List.mem_flatMap.mp hc
  exact Raw.cons (by decide) (raw_printAttribute (h a ha).1 (h a ha).2) c hmem

theorem raw_printText (depth : Nat) {value : Bytes} {cdata : Bool}
    (h : (XmlNode.text value cdata).Writable) : Raw (printText depth value cdata) := by
  rw [XmlNode.Writable] at h
  cases cdata with
  | true =>
      rw [if_pos rfl] at h
      rw [printText, if_pos rfl, h.1.cString]
      exact (((Raw.cons (by decide) (raw_indent depth)).append (by decide)).append
        h.1).append (by decide)
  | false =>
      rw [if_neg Bool.false_ne_true] at h
      rw [printText, if_neg Bool.false_ne_true, printed_value h.2]
      exact raw_escape value

theorem raw_printPart (part : Part) {value : Bytes} (h : PlainPart value) :
    Raw (printPart part value) := by
  rw [printPart]
  split
  · exact fun _ hmem => absurd hmem List.not_mem_nil
  · have hopen : Raw ['='.toUInt8, doubleQuote] := by decide
    have hclose : Raw [doubleQuote, ' '.toUInt8] := by decide
    rw [h.raw.cString]
    exact (((validName_part part).raw.append hopen).append h.raw).append hclose

mutual

theorem XmlNode.raw_print (node : XmlNode) (depth : Nat) (h : node.Writable) :
    Raw (node.print depth) := by
  cases node with
  | element value attributeSet children =>
      rw [XmlNode.Writable] at h
      obtain ⟨hvalue, -, hattributes, hchildren⟩ := h
      rw [print_element, hvalue.raw.cString]
      have hclosing : Raw (closing depth value children) := by
        by_cases hne : children = []
        · rw [hne]
          exact (by decide : Raw (bytes [' ', '/', '>']))
        · obtain ⟨ws, -, hws, hclosing⟩ := closing_eq depth hvalue hne
          rw [hclosing]
          exact Raw.cons (by decide) ((raw_printChildren children (depth + 1) hchildren).append
            (hws.append ((by decide : Raw (bytes ['<', '/'])).append
              (hvalue.raw.append (by decide)))))
      exact (((raw_indent depth).append (Raw.cons (by decide) hvalue.raw)).append
        (raw_printAttributes hattributes)).append hclosing
  | text value cdata => exact raw_printText depth h
  | comment value =>
      rw [XmlNode.Writable] at h
      rw [XmlNode.print, h.1.cString]
      exact (((raw_indent depth).append (by decide)).append h.1).append
        (by decide)
  | declaration version encoding standalone =>
      rw [XmlNode.Writable] at h
      obtain ⟨hversion, hencoding, hstandalone⟩ := h
      rw [XmlNode.print]
      exact ((((by decide : Raw (bytes ['<', '?', 'x', 'm', 'l', ' '])).append
        (raw_printPart .version hversion)).append
        (raw_printPart .encoding hencoding)).append (raw_printPart .standalone hstandalone)).append
          (by decide)
  | unknown value =>
      rw [XmlNode.Writable] at h
      rw [XmlNode.print, h.1.cString]
      exact ((raw_indent depth).append (Raw.cons (by decide) h.1)).append (by decide)

theorem raw_printChildren (nodes : List XmlNode) (depth : Nat) (h : AllWritable nodes) :
    Raw (printChildren depth nodes) := by
  cases nodes with
  | nil => exact fun _ hmem => absurd hmem List.not_mem_nil
  | cons node nodes =>
      rw [printChildren]
      have hbreak : Raw (if node.isText then [] else ['\n'.toUInt8]) := by
        split
        · exact fun _ hmem => absurd hmem List.not_mem_nil
        · exact raw_newline
      exact (hbreak.append (node.raw_print depth h.1)).append (raw_printChildren nodes depth h.2)

end

/-! ## Nodes of a document -/

/-- The nodes of a document in the file. -/
def documentText (nodes : List XmlNode) : Bytes :=
  nodes.flatMap fun node => node.print 0 ++ ['\n'.toUInt8]

theorem raw_documentText {nodes : List XmlNode} (h : AllWritable nodes) :
    Raw (documentText nodes) := by
  induction nodes with
  | nil => decide
  | cons node nodes ih =>
      rw [documentText, List.flatMap_cons]
      exact ((node.raw_print 0 h.1).append raw_newline).append (ih h.2)

theorem normalizeLines_eq {t : Bytes} (h : Raw t) : normalizeLines t = t := by
  induction t with
  | nil => rfl
  | cons c t ih =>
      rw [normalizeLines, if_neg (h c List.mem_cons_self).2,
        ih fun d hd => h d (List.mem_cons_of_mem c hd)]

/-- One turn of the loop of a document. -/
theorem documentLoop_turn {encoding : Encoding} {node : XmlNode} {p rest : Bytes} (hp : p ≠ [])
    (hparse : parseNode encoding (readValue encoding p.length []) p =
      .ok (some ⟨node, some rest, none⟩))
    (hafter : encodingAfter encoding node = .utf8) (hrest : rest ≠ []) {fuel : Nat}
    {nodes read : List XmlNode}
    (hloop : documentLoop fuel .utf8 (nodes ++ [node]) (skip .utf8 isWhiteSpace rest) =
      .ok (read, none)) :
    documentLoop (fuel + 1) encoding nodes p = .ok (read, none) := by
  have hskip : skipWhiteSpace .utf8 rest = some (skip .utf8 isWhiteSpace rest) := if_neg hrest
  rw [documentLoop, if_neg hp, hparse]
  simp only [bind, Except.bind, Option.bind, hafter, hskip, hloop]
  rfl

theorem encodingAfter_utf8 (node : XmlNode) : encodingAfter .utf8 node = .utf8 := by
  cases node <;> rfl

theorem readsChildren_readValue (fuel : Nat) :
    ReadsChildren (readValue .utf8 fuel []) fuel := by
  intro depth nodes ws more hnodes hws hlength
  exact readValue_children fuel depth nodes [] [] ws more [] .nil blank_nil hws hnodes hlength.le

/-- The nodes of a document are read one after the other. -/
theorem documentLoop_nodes {nodes : List XmlNode} (h : AllWritable nodes)
    (htags : ∀ node ∈ nodes, ∀ value, node ≠ .text value false) {fuel : Nat}
    (read : List XmlNode)
    (hfuel : (skip .utf8 isWhiteSpace (documentText nodes)).length ≤ fuel) :
    documentLoop fuel .utf8 read (skip .utf8 isWhiteSpace (documentText nodes)) =
      .ok (read ++ nodes.map XmlNode.loaded, none) := by
  induction nodes generalizing fuel read with
  | nil =>
      rw [List.map_nil, List.append_nil]
      cases fuel <;> rfl
  | cons node nodes ih =>
      obtain ⟨lead, body, trail, hlead, htrail, hprint, ⟨d, m, hbody, -⟩, hback⟩ :=
        readsBack h.1 (htags node List.mem_cons_self) 0
      let rest := trail ++ ('\n'.toUInt8 :: documentText nodes)
      have hform : documentText (node :: nodes) = lead ++ (body ++ rest) := by
        rw [documentText, List.flatMap_cons, hprint]
        simp only [rest, documentText, List.append_assoc, List.cons_append, List.nil_append]
      have hskip : skip .utf8 isWhiteSpace (documentText (node :: nodes)) = body ++ rest := by
        have hself : skipWhiteSpace .utf8 (body ++ rest) = some (body ++ rest) := by
          rw [hbody]
          exact skip_self (by decide) (by decide) _
        have hne : body ++ rest ≠ [] := by
          rw [hbody]
          exact List.cons_ne_nil _ _
        rw [skipWhiteSpace, if_neg hne, Option.some.injEq] at hself
        rw [hform, skip_space hlead, hself]
      have hafter : skip .utf8 isWhiteSpace rest =
          skip .utf8 isWhiteSpace (documentText nodes) := by
        rw [skip_space htrail, skip_blank (by decide) (by decide)]
      have hparse := hback (readValue .utf8 (body ++ rest).length []) rest
        (readsChildren_readValue _)
      have hshorter : (skip .utf8 isWhiteSpace (documentText nodes)).length ≤
          (documentText nodes).length := length_skipLoop_le _ _ _ _
      rw [hskip, hbody] at hfuel
      simp only [rest, List.length_append, List.length_cons] at hfuel
      obtain ⟨fuel, rfl⟩ : ∃ n, fuel = n + 1 := ⟨fuel - 1, by omega⟩
      have hlong : (skip .utf8 isWhiteSpace (documentText nodes)).length ≤ fuel := by omega
      have hlast := ih h.2 (fun node hmem => htags node (List.mem_cons_of_mem _ hmem))
        (read ++ [node.loaded]) hlong
      rw [List.append_assoc, List.singleton_append] at hlast
      rw [hskip, List.map_cons]
      refine documentLoop_turn ?_ hparse (encodingAfter_utf8 _) ?_ ?_
      · rw [hbody]
        exact List.cons_ne_nil _ _
      · simp [rest]
      · rw [hafter]
        exact hlast

/-! ## Files -/

theorem XmlDocument.Writable.saved {doc : XmlDocument} (h : doc.Writable) :
    normalizeLines (cString (saveFile doc)) = saveFile doc := by
  have hraw : Raw (saveFile doc) := by
    have hmark : Raw (if doc.useMicrosoftBOM then [0xEF, 0xBB, 0xBF] else []) := by
      split <;> decide
    exact hmark.append (raw_documentText h.nodes)
  rw [hraw.cString, normalizeLines_eq hraw]

theorem saveFile_eq (doc : XmlDocument) : ∃ mark, saveFile doc = mark ++ documentText doc.nodes ∧
    (doc.useMicrosoftBOM = true ∧ mark = [0xEF, 0xBB, 0xBF] ∨
      doc.useMicrosoftBOM = false ∧ mark = []) := by
  cases hmark : doc.useMicrosoftBOM with
  | true => exact ⟨_, by rw [saveFile, hmark]; rfl, .inl ⟨rfl, rfl⟩⟩
  | false => exact ⟨_, by rw [saveFile, hmark]; rfl, .inr ⟨rfl, rfl⟩⟩

theorem documentText_declaration (v e s : Bytes) (nodes : List XmlNode) :
    documentText (.declaration v e s :: nodes) = (XmlNode.declaration v e s).print 0 ++
      ('\n'.toUInt8 :: documentText nodes) := by
  rw [documentText, List.flatMap_cons, List.append_assoc]
  rfl

/-- The nodes behind a declaration are read as it says. -/
theorem documentLoop_declared {v e s : Bytes} {nodes : List XmlNode}
    (h : AllWritable (.declaration v e s :: nodes))
    (htags : ∀ node ∈ nodes, ∀ value, node ≠ .text value false)
    (hutf8 : encodingAfter .unknown (.declaration v e s) = .utf8) :
    documentLoop (documentText (.declaration v e s :: nodes)).length .unknown []
        (documentText (.declaration v e s :: nodes)) =
      .ok (.declaration v e s :: nodes.map XmlNode.loaded, none) := by
  obtain ⟨m, hprint⟩ := print_declaration 0 v e s
  have hform := documentText_declaration v e s nodes
  have hparse := parseNode_declaration .unknown
    (readValue .unknown (documentText (.declaration v e s :: nodes)).length []) 0 h.1
    ('\n'.toUInt8 :: documentText nodes)
  rw [← hform] at hparse
  have hne : documentText (.declaration v e s :: nodes) ≠ [] := by
    rw [hform, hprint]
    exact List.cons_ne_nil _ _
  have hshorter : (skip .utf8 isWhiteSpace (documentText nodes)).length ≤
      (documentText nodes).length := length_skipLoop_le _ _ _ _
  obtain ⟨fuel, hfuel⟩ : ∃ n, (documentText (.declaration v e s :: nodes)).length = n + 1 :=
    ⟨_, (Nat.succ_pred (fun heq => hne (List.length_eq_zero_iff.mp heq))).symm⟩
  have hlong : (documentText nodes).length ≤ fuel := by
    rw [hform, List.length_append, List.length_cons] at hfuel
    omega
  have hskip : skip .utf8 isWhiteSpace ('\n'.toUInt8 :: documentText nodes) =
      skip .utf8 isWhiteSpace (documentText nodes) := skip_blank (by decide) (by decide) _
  have hlast := documentLoop_nodes h.2 htags ([] ++ [.declaration v e s]) (hshorter.trans hlong)
  rw [← hskip] at hlast
  rw [hfuel]
  exact documentLoop_turn hne hparse hutf8 (List.cons_ne_nil _ _) hlast

theorem XmlDocument.Writable.documentText_ne_nil {doc : XmlDocument} (h : doc.Writable) :
    documentText doc.nodes ≠ [] := by
  obtain ⟨node, nodes, hcons⟩ := List.exists_cons_of_ne_nil h.nonempty
  rw [hcons, documentText, List.flatMap_cons]
  simp

/-- The file is loaded when its nodes are read behind what is skipped. -/
theorem loadFile_of {encoding : Encoding} {doc : XmlDocument} (h : doc.Writable) (mark : Bool)
    {p : Bytes}
    (hmark : (encoding == .unknown && (saveFile doc).take 3 == [0xEF, 0xBB, 0xBF]) = mark)
    (hskip : skipWhiteSpace (if mark then .utf8 else encoding) (saveFile doc) = some p)
    (hloop : documentLoop p.length (if mark then .utf8 else encoding) [] p =
      .ok (doc.nodes.map XmlNode.loaded, none)) :
    loadFile encoding (saveFile doc) = .ok (⟨doc.nodes.map XmlNode.loaded, mark⟩, none) := by
  have hloaded : (doc.nodes.map XmlNode.loaded).isEmpty = false := by
    obtain ⟨node, nodes, hcons⟩ := List.exists_cons_of_ne_nil h.nonempty
    rw [hcons]
    rfl
  have hne : saveFile doc ≠ [] := by
    intro hempty
    rw [hempty] at hskip
    cases hskip
  rw [loadFile, if_neg hne, h.saved, parseDocument, hmark]
  simp only [hskip]
  change (do
    let r ← documentLoop p.length (if mark then .utf8 else encoding) [] p
    return ((⟨r.1, mark⟩ : XmlDocument),
      if r.1.isEmpty then r.2 <|> some XmlError.documentEmpty else r.2)) = _
  rw [hloop]
  change Except.ok (_, if (doc.nodes.map XmlNode.loaded).isEmpty then _ else _) = _
  rw [hloaded]
  rfl

/-- A document that is saved, and loaded in UTF-8 or as the file says, comes back with its
texts as they are loaded. The mark is noticed only in a file whose encoding is not given. -/
theorem loadFile_saveFile (encoding : Encoding) (doc : XmlDocument) (h : doc.Writable)
    (hencoding : encoding = .utf8 ∨ encoding = .unknown ∧ doc.Utf8) :
    loadFile encoding (saveFile doc) =
      .ok (⟨doc.nodes.map XmlNode.loaded, encoding == .unknown && doc.useMicrosoftBOM⟩, none) := by
  obtain ⟨mark, hsave, hcases⟩ := saveFile_eq doc
  have hne := h.documentText_ne_nil
  have hutf8 : skipWhiteSpace .utf8 (saveFile doc) =
      some (skip .utf8 isWhiteSpace (documentText doc.nodes)) := by
    have hskip : skip .utf8 isWhiteSpace (mark ++ documentText doc.nodes) =
        skip .utf8 isWhiteSpace (documentText doc.nodes) := by
      rcases hcases with ⟨-, rfl⟩ | ⟨-, rfl⟩
      · exact skip_of_mark isWhiteSpace (by decide) _
      · rfl
    rw [hsave, skipWhiteSpace, if_neg (fun heq => hne (List.append_eq_nil_iff.mp heq).2), hskip]
  have hnodes := documentLoop_nodes h.nodes h.tags [] le_rfl
  rcases hencoding with rfl | ⟨rfl, hsays⟩
  · exact loadFile_of h false rfl hutf8 hnodes
  · rcases hcases with ⟨hmark, rfl⟩ | ⟨hmark, rfl⟩
    · rw [hmark]
      exact loadFile_of h true (by rw [hsave]; rfl) hutf8 hnodes
    · obtain ⟨v, e, s, nodes, hcons, hdeclared⟩ :=
        hsays.resolve_left (by rw [hmark]; exact Bool.false_ne_true)
      have hwritable := h.nodes
      have htags := h.tags
      rw [hcons] at hwritable htags
      obtain ⟨m, hprint⟩ := print_declaration 0 v e s
      have hform : saveFile doc = '<'.toUInt8 :: '?'.toUInt8 ::
          (m ++ '\n'.toUInt8 :: documentText nodes) := by
        rw [hsave, hcons, documentText_declaration, hprint]
        rfl
      rw [hmark]
      refine loadFile_of h false (p := saveFile doc) ?_ ?_ ?_
      · rw [hform]
        rfl
      · rw [hform]
        exact skip_self (by decide) (by decide) _
      · rw [hsave, hcons]
        exact documentLoop_declared hwritable
          (fun node hmem => htags node (List.mem_cons_of_mem _ hmem)) hdeclared

/-- Every byte is a character of its own. -/
def isSmall (t : Bytes) : Bool := t.all fun c => c < 0xC2

theorem sequenced_of_isSmall {t : Bytes} (h : isSmall t = true) : Sequenced t := by
  induction t with
  | nil => exact .nil
  | cons c t ih =>
      rw [isSmall, List.all_cons, Bool.and_eq_true, decide_eq_true_eq] at h
      exact .append (.single (if_pos h.1)) (ih h.2)

theorem plainPart_of_isSmall {v : Bytes} (h : isSmall v = true) (hraw : Raw v)
    (hamp : '&'.toUInt8 ∉ v) (hquote : doubleQuote ∉ v) : PlainPart v :=
  ⟨sequenced_of_isSmall h, hraw, hamp, hquote⟩

/-- Texts with characters that are escaped and blanks that are not kept. -/
def dimmer : XmlDocument :=
  { nodes := [
      .declaration (bytes ['1', '.', '0']) (bytes ['u', 't', 'f', '-', '8']) [],
      .element (bytes ['V', 'a', 'l', 'u', 'e']) [(bytes ['i', 'd'], bytes ['\"', '<'])]
        [.text (bytes [' ', 'a', ' ']) false, .text (bytes [' ', '&']) false,
          .element (bytes ['M', 'a', 'x']) [] [.text (bytes ['9', '9']) false],
          .text (bytes ['\n']) false, .comment (bytes ['-'])]]
    useMicrosoftBOM := false }

theorem writable_dimmer : dimmer.Writable where
  nonempty := List.cons_ne_nil _ _
  nodes := by
    have hplain : ∀ {v : Bytes}, isSmall v = true → ¬ HasReference v → Plain v :=
      fun hsmall href => ⟨sequenced_of_isSmall hsmall, href⟩
    have hname : ∀ {name : Bytes}, isValidName name = true → ValidName name :=
      validName_of_isValidName
    simp only [dimmer, AllWritable, XmlNode.Writable, List.forall_mem_singleton, and_true]
    refine ⟨⟨plainPart_of_isSmall rfl (by decide) (by decide) (by decide),
      plainPart_of_isSmall rfl (by decide) (by decide) (by decide),
      plainPart_of_isSmall rfl (by decide) (by decide) (by decide)⟩,
      hname rfl, by decide, ⟨hname rfl, hplain rfl ?_⟩, hplain rfl ?_, hplain rfl ?_,
      ⟨hname rfl, by decide, fun a ha => absurd ha List.not_mem_nil, hplain rfl ?_⟩,
      hplain rfl ?_, by decide, rfl⟩
    all_goals (unfold HasReference; decide)
  tags := by
    intro node hnode value
    simp only [dimmer, List.mem_cons, List.not_mem_nil, or_false] at hnode
    rcases hnode with rfl | rfl <;> exact XmlNode.noConfusion

/-- The first two texts become one, and the one that is a line end is dropped. -/
theorem loadFile_dimmer : loadFile .unknown (saveFile dimmer) = .ok (⟨[
    .declaration (bytes ['1', '.', '0']) (bytes ['u', 't', 'f', '-', '8']) [],
    .element (bytes ['V', 'a', 'l', 'u', 'e']) [(bytes ['i', 'd'], bytes ['\"', '<'])]
      [.text (bytes ['a', ' ', '&']) false,
        .element (bytes ['M', 'a', 'x']) [] [.text (bytes ['9', '9']) false],
        .comment (bytes ['-'])]], false⟩, none) :=
  loadFile_saveFile .unknown dimmer writable_dimmer
    (.inr ⟨rfl, .inr ⟨_, _, _, _, rfl, rfl⟩⟩)

end OpenZWave.TiXml
