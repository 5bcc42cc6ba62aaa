import OpenZWave.TinyXmlText

/-!
# Document files

`Print` and `SaveFile` of `tinyxml.cpp`, and `Parse` and `LoadFile`. An element is
read with its start tag, its value and its end tag; the value is texts and nodes in
any order. A parser returns what it read so far also when it fails. The first error
that is set is kept; where in the file it is, which is only reported, is left out.
-/

namespace OpenZWave.TiXml

/-- The errors that are set while a file is read. -/
inductive XmlError
  | failedToReadElementName | readingElementValue | readingAttributes | parsingElement
  | parsingEmpty | readingEndTag | documentEmpty
  deriving DecidableEq, Repr

/-- `TiXmlNode` without the document itself. -/
inductive XmlNode
  | element (value : Bytes) (attributeSet : List (Bytes × Bytes)) (children : List XmlNode)
  | text (value : Bytes) (cdata : Bool)
  | comment (value : Bytes)
  | declaration (version encoding standalone : Bytes)
  | unknown (value : Bytes)

/-- `TiXmlDocument`. -/
structure XmlDocument where
  nodes : List XmlNode
  useMicrosoftBOM : Bool

/-! ## Writing -/

/-- What `fprintf` writes of a string. -/
def cString (s : Bytes) : Bytes := s.takeWhile (· != 0)

def indent (depth : Nat) : Bytes := List.replicate depth '\t'.toUInt8

/-- `TiXmlAttribute::Print`. -/
def printAttribute (attrib : Bytes × Bytes) : Bytes :=
  let n := cString (encodeString false attrib.1)
  let v := cString (encodeString false attrib.2)
  if attrib.2.contains doubleQuote then
    n ++ ['='.toUInt8, singleQuote] ++ v ++ [singleQuote]
  else n ++ ['='.toUInt8, doubleQuote] ++ v ++ [doubleQuote]

/-- The attributes up to one that looks like the sentinel. -/
def printAttributes (attributeSet : List (Bytes × Bytes)) : Bytes :=
  (attributeSet.takeWhile fun a => a.1 ≠ [] || a.2 ≠ []).flatMap fun a =>
    ' '.toUInt8 :: printAttribute a

/-- `TiXmlText::Print`. -/
def printText (depth : Nat) (value : Bytes) (cdata : Bool) : Bytes :=
  if cdata then
    '\n'.toUInt8 :: indent depth ++ bytes ['<', '!', '[', 'C', 'D', 'A', 'T', 'A', '['] ++
      cString value ++ bytes [']', ']', '>', '\n']
  else cString (encodeString false value)

/-- The parts of a declaration. -/
inductive Part
  | version | encoding | standalone
  deriving DecidableEq, Repr

def Part.name : Part → Bytes
  | .version => bytes ['v', 'e', 'r', 's', 'i', 'o', 'n']
  | .encoding => bytes ['e', 'n', 'c', 'o', 'd', 'i', 'n', 'g']
  | .standalone => bytes ['s', 't', 'a', 'n', 'd', 'a', 'l', 'o', 'n', 'e']

def printPart (part : Part) (value : Bytes) : Bytes :=
  if value = [] then []
  else part.name ++ ['='.toUInt8, doubleQuote] ++ cString value ++ [doubleQuote, ' '.toUInt8]

/-- The end tag of an element. -/
def endTag (value : Bytes) : Bytes := bytes ['<', '/'] ++ cString value ++ bytes ['>']

/-- `ToText`. -/
def XmlNode.isText : XmlNode → Bool
  | .text _ _ => true
  | _ => false

mutual

def XmlNode.print (depth : Nat) : XmlNode → Bytes
  | .element value attributeSet children =>
      indent depth ++ '<'.toUInt8 :: cString value ++ printAttributes attributeSet ++
        match children with
        | [] => bytes [' ', '/', '>']
        | [.text text cdata] => bytes ['>'] ++ printText (depth + 1) text cdata ++ endTag value
        | children =>
            bytes ['>'] ++ printChildren (depth + 1) children ++ '\n'.toUInt8 :: indent depth ++
              endTag value
  | .text value cdata => printText depth value cdata
  | .comment value =>
      indent depth ++ bytes ['<', '!', '-', '-'] ++ cString value ++ bytes ['-', '-', '>']
  | .declaration version encoding standalone =>
      bytes ['<', '?', 'x', 'm', 'l', ' '] ++
        printPart .version version ++ printPart .encoding encoding ++
        printPart .standalone standalone ++
        bytes ['?', '>']
  | .unknown value => indent depth ++ '<'.toUInt8 :: cString value ++ bytes ['>']

/-- The children of an element that has other children than one text. -/
def printChildren (depth : Nat) : List XmlNode → Bytes
  | [] => []
  | node :: nodes =>
      (if node.isText then [] else ['\n'.toUInt8]) ++ node.print depth ++ printChildren depth nodes

end

/-- `TiXmlDocument::SaveFile`. -/
def saveFile (doc : XmlDocument) : Bytes :=
  (if doc.useMicrosoftBOM then [0xEF, 0xBB, 0xBF] else []) ++
    doc.nodes.flatMap fun node => node.print 0 ++ ['\n'.toUInt8]

/-! ## Reading -/

/-- What a parser made, where it stopped (null is `none`), and the first error it set. -/
structure Parsed (α : Type) where
  value : α
  p : Option Bytes
  error : Option XmlError

/-- An attribute value without quotes. -/
def unquotedLoop : Bytes → Bytes × Option Bytes
  | [] => ([], some [])
  | c :: p =>
      if isWhiteSpace c || c == '/'.toUInt8 || c == '>'.toUInt8 then ([], some (c :: p))
      else if c = singleQuote ∨ c = doubleQuote then ([], none)
      else (c :: (unquotedLoop p).1, (unquotedLoop p).2)

/-- `TiXmlAttribute::Parse`, where the callers read what follows a closing quote. -/
def parseAttribute (encoding : Encoding) (p : Bytes) : Except Fault (Parsed (Bytes × Bytes)) :=
  match skipWhiteSpace encoding p with
  | none | some [] => .ok ⟨([], []), none, none⟩
  | some p =>
      match readName p with
      | none => .ok ⟨([], []), none, some .readingAttributes⟩
      | some (name, []) => .ok ⟨(name, []), none, some .readingAttributes⟩
      | some (name, p) =>
          match skipWhiteSpace encoding p with
          | none | some [] => .ok ⟨(name, []), none, some .readingAttributes⟩
          | some (c :: p) =>
              if c ≠ '='.toUInt8 then .ok ⟨(name, []), none, some .readingAttributes⟩
              else
                match skipWhiteSpace encoding p with
                | none | some [] => .ok ⟨(name, []), none, some .readingAttributes⟩
                | some (c :: p) =>
                    if c = singleQuote ∨ c = doubleQuote then do
                      let r ← readText encoding false [c] p
                      match r.2 with
                      | none => return ⟨(name, r.1), none, none⟩
                      | some [] => .error .outside
                      | some (_ :: p) => return ⟨(name, r.1), some p, none⟩
                    else
                      let r := unquotedLoop (c :: p)
                      .ok ⟨(name, r.1), r.2, if r.2.isNone then some .readingAttributes else none⟩

/-- `SetValue` of the attribute that is there. -/
def setValue (name value : Bytes) (attributeSet : List (Bytes × Bytes)) : List (Bytes × Bytes) :=
  attributeSet.map fun a => if a.1 = name then (name, cString value) else a

/-- The rest of `TiXmlElement::Parse` after the name: attributes, and the end of the tag.
`readValue` reads the value. -/
def attributeLoop (encoding : Encoding) (readValue : Bytes → Except Fault (Parsed (List XmlNode)))
    (value : Bytes) : Nat → List (Bytes × Bytes) → Bytes → Except Fault (Parsed XmlNode)
  | fuel, attributeSet, p =>
      match skipWhiteSpace encoding p with
      | none => .ok ⟨.element value attributeSet [], some p, none⟩
      | some [] => .ok ⟨.element value attributeSet [], none, some .readingAttributes⟩
      | some (c :: p) =>
          if c = '/'.toUInt8 then
            if p.headD 0 ≠ '>'.toUInt8 then
              .ok ⟨.element value attributeSet [], none, some .parsingEmpty⟩
            else .ok ⟨.element value attributeSet [], some (p.drop 1), none⟩
          else if c = '>'.toUInt8 then do
            let r ← readValue p
            match r.p with
            | none | some [] =>
                return ⟨.element value attributeSet r.value, none, r.error <|> some .readingEndTag⟩
            | some p =>
                if (endTag value).isPrefixOf p then
                  return ⟨.element value attributeSet r.value, some (p.drop (endTag value).length),
                    r.error⟩
                else
                  return ⟨.element value attributeSet r.value, none,
                    r.error <|> some .readingEndTag⟩
          else
            match fuel with
            | 0 => .error .diverges
            | fuel + 1 => do
                let a ← parseAttribute encoding (c :: p)
                match a.p with
                | none | some [] =>
                    return ⟨.element value attributeSet [], none,
                      a.error <|> some .parsingElement⟩
                | some p =>
                    -- a second attribute of one name ends the element without an error
                    if attributeSet.any (·.1 == a.value.1) then
                      return ⟨.element value (setValue a.value.1 a.value.2 attributeSet) [], none,
                        none⟩
                    else attributeLoop encoding readValue value fuel (attributeSet ++ [a.value]) p

/-- `TiXmlElement::Parse`, from `<` on. -/
def parseElement (encoding : Encoding) (readValue : Bytes → Except Fault (Parsed (List XmlNode)))
    (p : Bytes) : Except Fault (Parsed XmlNode) :=
  match skipWhiteSpace encoding (p.drop 1) with
  | none => .error .assertion
  | some p =>
      match readName p with
      | none => .ok ⟨.element [] [] [], none, some .failedToReadElementName⟩
      | some (value, []) => .ok ⟨.element value [] [], none, some .failedToReadElementName⟩
      | some (value, p) => attributeLoop encoding readValue value p.length [] p

/-- Bytes up to an end tag, and the rest. -/
def untilTag (tag : Bytes) : Bytes → Bytes × Bytes
  | [] => ([], [])
  | c :: p =>
      if tag.isPrefixOf (c :: p) then ([], c :: p)
      else (c :: (untilTag tag p).1, (untilTag tag p).2)

/-- `TiXmlComment::Parse` and `TiXmlText::Parse` for character data: the bytes up to the
end tag, which is stepped over even when it is not there. -/
def parseRaw (node : Bytes → XmlNode) (startTag tag p : Bytes) : Except Fault (Parsed XmlNode) :=
  let r := untilTag tag (p.drop startTag.length)
  if r.2 = [] then .error .outside
  else .ok ⟨node r.1, some (r.2.drop tag.length), none⟩

/-- `TiXmlUnknown::Parse`. -/
def parseUnknown (p : Bytes) : Parsed XmlNode :=
  ⟨.unknown ((p.drop 1).takeWhile (· != '>'.toUInt8)),
    some (((p.drop 1).dropWhile (· != '>'.toUInt8)).drop 1), none⟩

def toLower (c : UInt8) : UInt8 := if 65 ≤ c ∧ c ≤ 90 then c + 32 else c

/-- `StringEqual` without regard to case. -/
def stringEqualNoCase (p tag : Bytes) : Bool := (tag.map toLower).isPrefixOf (p.map toLower)

/-- The part that is named at `p`, as they are asked for. -/
def partAt (p : Bytes) : Option Part :=
  [.version, .encoding, .standalone].find? fun part => stringEqualNoCase p part.name

/-- The version, the encoding and the standalone value. -/
abbrev Parts := Bytes × Bytes × Bytes

def Part.set (parts : Parts) (value : Bytes) : Part → Parts
  | .version => (value, parts.2)
  | .encoding => (parts.1, value, parts.2.2)
  | .standalone => (parts.1, parts.2.1, value)

/-- The loop of `TiXmlDeclaration::Parse`. Its attributes belong to no document, so that
their errors are not set. -/
def declarationLoop (encoding : Encoding) : Nat → Parts → Bytes → Except Fault (Parsed XmlNode)
  | fuel, parts, p =>
      if p = [] then .ok ⟨.declaration parts.1 parts.2.1 parts.2.2, none, none⟩
      else if p.headD 0 = '>'.toUInt8 then
        .ok ⟨.declaration parts.1 parts.2.1 parts.2.2, some (p.drop 1), none⟩
      else
        match fuel with
        | 0 => .error .diverges
        | fuel + 1 =>
            match skipWhiteSpace encoding p with
            | none | some [] => .error .assertion
            | some p =>
                match partAt p with
                | some part => do
                    let a ← parseAttribute encoding p
                    let parts := part.set parts (cString a.value.2)
                    match a.p with
                    | none => return ⟨.declaration parts.1 parts.2.1 parts.2.2, none, none⟩
                    | some p => declarationLoop encoding fuel parts p
                | none =>
                    declarationLoop encoding fuel parts
                      (p.dropWhile fun c => c != '>'.toUInt8 && !isWhiteSpace c)

/-- What `Identify` creates. -/
inductive NodeKind
  | declaration | comment | cdata | unknown | element
  deriving DecidableEq, Repr

/-- `TiXmlNode::Identify`, at a place where white space has been skipped. -/
def identify (p : Bytes) : Option NodeKind :=
  if p.headD 0 ≠ '<'.toUInt8 then none
  else if stringEqualNoCase p (bytes ['<', '?', 'x', 'm', 'l']) then some .declaration
  else if (bytes ['<', '!', '-', '-']).isPrefixOf p then some .comment
  else if (bytes ['<', '!', '[', 'C', 'D', 'A', 'T', 'A', '[']).isPrefixOf p then some .cdata
  else if (bytes ['<', '!']).isPrefixOf p then some .unknown
  else if isAlpha (p.getD 1 0) || p.getD 1 0 == '_'.toUInt8 then some .element
  else some .unknown

/-- `Identify` and `Parse` of the node. -/
def parseNode (encoding : Encoding) (readValue : Bytes → Except Fault (Parsed (List XmlNode)))
    (p : Bytes) : Except Fault (Option (Parsed XmlNode)) :=
  match identify p with
  | none => .ok none
  | some .declaration => some <$> declarationLoop encoding p.length ([], [], []) (p.drop 5)
  | some .comment =>
      some <$> parseRaw .comment (bytes ['<', '!', '-', '-']) (bytes ['-', '-', '>']) p
  | some .cdata =>
      some <$> parseRaw (.text · true) (bytes ['<', '!', '[', 'C', 'D', 'A', 'T', 'A', '['])
        (bytes [']', ']', '>']) p
  | some .unknown => .ok (some (parseUnknown p))
  | some .element => some <$> parseElement encoding readValue p

/-- `TiXmlElement::ReadValue`. -/
def readValue (encoding : Encoding) :
    Nat → List XmlNode → Bytes → Except Fault (Parsed (List XmlNode))
  | fuel, children, p =>
      match skipWhiteSpace encoding p with
      | none => .ok ⟨children, none, some .readingElementValue⟩
      | some [] => .ok ⟨children, some [], none⟩
      | some (c :: p) =>
          if (bytes ['<', '/']).isPrefixOf (c :: p) then .ok ⟨children, some (c :: p), none⟩
          else
            match fuel with
            | 0 => .error .diverges
            | fuel + 1 =>
                if c ≠ '<'.toUInt8 then do
                  let r ← readText encoding true (bytes ['<']) (c :: p)
                  let children :=
                    if r.1.all isWhiteSpace then children else children ++ [.text r.1 false]
                  match r.2 with
                  | none => return ⟨children, none, some .readingElementValue⟩
                  | some p => readValue encoding fuel children p
                else do
                  let node ← parseNode encoding (readValue encoding fuel []) (c :: p)
                  match node with
                  | none => return ⟨children, none, none⟩
                  | some node =>
                      match node.p with
                      | none =>
                          return ⟨children ++ [node.value], none,
                            node.error <|> some .readingElementValue⟩
                      | some p =>
                          let r ← readValue encoding fuel (children ++ [node.value]) p
                          return { r with error := node.error <|> r.error }

/-- The encoding after a node of the document. -/
def encodingAfter (encoding : Encoding) : XmlNode → Encoding
  | .declaration _ enc _ =>
      if encoding ≠ .unknown then encoding
      else if enc = [] ∨ stringEqualNoCase enc (bytes ['U', 'T', 'F', '-', '8']) ∨
          stringEqualNoCase enc (bytes ['U', 'T', 'F', '8']) then .utf8
      else .legacy
  | _ => encoding

/-- The loop of `TiXmlDocument::Parse`. -/
def documentLoop : Nat → Encoding → List XmlNode → Bytes →
    Except Fault (List XmlNode × Option XmlError)
  | fuel, encoding, nodes, p =>
      if p = [] then .ok (nodes, none)
      else
        match fuel with
        | 0 => .error .diverges
        | fuel + 1 => do
            let node ← parseNode encoding (readValue encoding p.length []) p
            match node with
            | none => return (nodes, none)
            | some node =>
                let encoding := encodingAfter encoding node.value
                match node.p.bind (skipWhiteSpace encoding) with
                | none => return (nodes ++ [node.value], node.error)
                | some p =>
                    let r ← documentLoop fuel encoding (nodes ++ [node.value]) p
                    return (r.1, node.error <|> r.2)

/-- `TiXmlDocument::Parse` of a new document. The mark is looked for in a file whose
encoding is not given. -/
def parseDocument (encoding : Encoding) (p : Bytes) :
    Except Fault (XmlDocument × Option XmlError) :=
  let useMicrosoftBOM := encoding == .unknown && p.take 3 == [0xEF, 0xBB, 0xBF]
  let encoding := if useMicrosoftBOM then Encoding.utf8 else encoding
  match skipWhiteSpace encoding p with
  | none => .ok (⟨[], useMicrosoftBOM⟩, some .documentEmpty)
  | some p => do
      let r ← documentLoop p.length encoding [] p
      return (⟨r.1, useMicrosoftBOM⟩, if r.1.isEmpty then r.2 <|> some .documentEmpty else r.2)

/-- The line ends of `LoadFile`. -/
def normalizeLines : Bytes → Bytes
  | [] => []
  | c :: p =>
      if c = '\r'.toUInt8 then
        if p.headD 0 = '\n'.toUInt8 then normalizeLines p else '\n'.toUInt8 :: normalizeLines p
      else c :: normalizeLines p

/-- `TiXmlDocument::LoadFile`, for what the file contains. -/
def loadFile (encoding : Encoding) (file : Bytes) : Except Fault (XmlDocument × Option XmlError) :=
  if file = [] then .ok (⟨[], false⟩, some .documentEmpty)
  else parseDocument encoding (normalizeLines (cString file))

end OpenZWave.TiXml
