import OpenZWave.Lib.NumberText
import OpenZWave.Lib.WhileLoop
import Mathlib.Data.List.TakeWhile

/-!
# Options on the command line

`Options::ParseOptionsString` reads options from a text: `--`, the name of an option, and its
values up to the next word with `--` in front, all with blanks between them. It looks for a
hyphen with `find_first_of`, takes two characters for the start of an option, and reads words
with `find` and `substr`.

A position in the text is the rest of the text from it on. A position behind the end, `npos` or
one that is reached by adding to another, is `none`: nothing is found from it, and `substr`
throws.
-/

namespace OpenZWave

open NumberText WhileLoop

inductive OptionType
  | invalid | bool | int | string
  deriving DecidableEq, Repr

/-- `Options::Option`. -/
structure OptionValue where
  type : OptionType
  valueBool : Bool
  valueInt : Int32
  valueString : List Char
  append : Bool
  deriving DecidableEq, Repr

/-- `Options::Option::SetValueFromString`. -/
def OptionValue.setValueFromString (option : OptionValue) (value : List Char) :
    Bool × OptionValue :=
  match option.type with
  | .bool =>
      let lowerValue := value.map Char.toLower
      if lowerValue = "true".toList ∨ lowerValue = "1".toList then
        (true, { option with valueBool := true })
      else if lowerValue = "false".toList ∨ lowerValue = "0".toList then
        (true, { option with valueBool := false })
      else (false, option)
  | .int => (true, { option with valueInt := atoi (cStr value) })
  | .string =>
      if option.append ∧ 0 < option.valueString.length then
        (true, { option with valueString := option.valueString ++ ',' :: value })
      else (true, { option with valueString := value })
  | .invalid => (false, option)

/-- The options under their names in lower case. -/
abbrev Options : Type := List Char → Option OptionValue

/-- `Options::Find`, with the name under which the option is found. -/
def Options.find (options : Options) (name : List Char) : Option (List Char × OptionValue) :=
  let lowername := name.map Char.toLower
  (options lowername).map fun option => (lowername, option)

/-- The option that is found and no value so far. -/
def Options.startReading (options : Options) (name : List Char) : Option (List Char × ℕ) :=
  (options.find name).map fun option => (option.1, 0)

/-- What is done with an option: `SetValueFromString` with a value, or the end of the values
when there was none. Both are told with the text from there on. -/
inductive OptionCall
  | setValue (name value rest : List Char)
  | noValue (name rest : List Char)
  deriving DecidableEq, Repr

def OptionCall.name : OptionCall → List Char
  | .setValue name _ _ => name
  | .noValue name _ => name

def OptionCall.rest : OptionCall → List Char
  | .setValue _ _ rest => rest
  | .noValue _ rest => rest

/-- The options after a call. Without a value a bool becomes true. -/
def Options.apply (options : Options) : OptionCall → Options
  | .setValue name value _ =>
      Function.update options name
        ((options name).map fun option => (option.setValueFromString value).2)
  | .noValue name _ =>
      Function.update options name ((options name).map fun option =>
        if option.type = .bool then { option with valueBool := true } else option)

/-- No value is right for a bool only. -/
def Options.accepts (options : Options) : OptionCall → Bool
  | .setValue .. => true
  | .noValue name _ => (options name).any fun option => decide (option.type = .bool)

/-- What has been done so far, with the result `res`. -/
structure Parsed where
  options : Options
  calls : List OptionCall
  res : Bool

def Parsed.make (parsed : Parsed) (call : OptionCall) : Parsed where
  options := parsed.options.apply call
  calls := parsed.calls ++ [call]
  res := parsed.res && parsed.options.accepts call

inductive ParseError
  /-- `substr` throws for a position behind the end. -/
  | outOfRange
  deriving DecidableEq, Repr

/-- The position of a character. -/
def findChar (c : Char) (start : Option (List Char)) : Option (List Char) :=
  match start with
  | none => none
  | some text =>
      match text.dropWhile (· ≠ c) with
      | [] => none
      | pos => some pos

/-- The position a number of characters further. -/
def advance (n : ℕ) (pos : List Char) : Option (List Char) :=
  if n ≤ pos.length then some (pos.drop n) else none

/-- The text up to the next blank, or to the end, and the position behind it. -/
def readWord (start : Option (List Char)) : Except ParseError (List Char × Option (List Char)) :=
  match start with
  | none => .error .outOfRange
  | some text =>
      match findChar ' ' start with
      | none => .ok (text, none)
      | some pos => .ok (text.takeWhile (· ≠ ' '), advance 1 pos)

/-- The state of the loops: the position, and in the inner loop the option whose values are read
and the number of them. -/
structure ParseState where
  start : Option (List Char)
  reading : Option (List Char × ℕ)
  parsed : Parsed

/-- A turn of the outer loop, which looks for an option. -/
def optionTurn (start : Option (List Char)) (parsed : Parsed) :
    Except ParseError Parsed ⊕ ParseState :=
  match findChar '-' start with
  | none => .inl (.ok parsed)
  | some pos =>
      match readWord (advance 2 pos) with
      | .error e => .inl (.error e)
      | .ok (optionName, start) =>
          .inr ⟨start, parsed.options.startReading optionName, parsed⟩

/-- A word that is read as a value, unless it is empty, and the number of values. -/
def Parsed.readValue (parsed : Parsed) (name : List Char) (numValues : ℕ)
    (value rest : List Char) : ℕ × Parsed :=
  if 0 < value.length then (numValues + 1, parsed.make (.setValue name value rest))
  else (numValues, parsed)

/-- The end of the values of an option. -/
def Parsed.endValues (parsed : Parsed) (name : List Char) (numValues : ℕ) (rest : List Char) :
    Parsed :=
  if numValues = 0 then parsed.make (.noValue name rest) else parsed

/-- A turn of the inner loop, which reads a value. -/
def valueTurn (start : Option (List Char)) (name : List Char) (numValues : ℕ) (parsed : Parsed) :
    Except ParseError Parsed ⊕ ParseState :=
  match readWord start with
  | .error e => .inl (.error e)
  | .ok (value, next) =>
      if value.take 2 = ['-', '-'] then
        -- The value is the next option: the position is set back to its beginning.
        .inr ⟨start, none, parsed.endValues name numValues (start.getD [])⟩
      else
        let read := parsed.readValue name numValues value (start.getD [])
        .inr ⟨next, if next = none then none else some (name, read.1), read.2⟩

/-- A turn of the loop that is under way. -/
def parseTurn (state : ParseState) : Except ParseError Parsed ⊕ ParseState :=
  match state.reading with
  | none => optionTurn state.start state.parsed
  | some (name, numValues) => valueTurn state.start name numValues state.parsed

/-- `Options::ParseOptionsString`, with a bound on the turns of its loops. -/
def parseOptionsString (options : Options) (commandLine : List Char) (turns : ℕ) :
    Option (Except ParseError Parsed) :=
  run parseTurn turns ⟨some commandLine, none, ⟨options, [], true⟩⟩

/-! ## Words -/

/-- The position in front of a list of words, with blanks between them. -/
def place (words : List (List Char)) : Option (List Char) :=
  if words = [] then none else some ([' '].intercalate words)

theorem place_cons (word : List Char) (words : List (List Char)) :
    place (word :: words) = some (word ++ match place words with
      | none => []
      | some text => ' ' :: text) := by
  rw [place, if_neg (List.cons_ne_nil _ _)]
  cases words with
  | nil => simp [place]
  | cons w ws => simp [place, List.intercalate_cons_of_ne_nil]

/-- Every text is a list of words. -/
theorem place_splitOn (text : List Char) : place (text.splitOn ' ') = some text := by
  rw [place, if_neg (List.splitOn_ne_nil _ _), List.intercalate_splitOn]

theorem findChar_append {c : Char} {word text : List Char} (h : c ∉ word) :
    findChar c (some (word ++ c :: text)) = some (c :: text) := by
  have hdrop : (word ++ c :: text).dropWhile (fun d => decide (d ≠ c)) = c :: text := by
    rw [List.dropWhile_append_of_pos]
    · exact List.dropWhile_cons_of_neg (by simp)
    · intro d hd
      exact decide_eq_true (fun heq => h (heq ▸ hd))
  rw [findChar, hdrop]

theorem findChar_of_not_mem {c : Char} {text : List Char} (h : c ∉ text) :
    findChar c (some text) = none := by
  have hdrop : text.dropWhile (fun d => decide (d ≠ c)) = [] := by
    apply List.dropWhile_eq_nil_iff.mpr
    exact fun d hd => decide_eq_true (fun heq => h (heq ▸ hd))
  rw [findChar, hdrop]

theorem readWord_place {word : List Char} (h : ' ' ∉ word) (words : List (List Char)) :
    readWord (place (word :: words)) = .ok (word, place words) := by
  rw [place_cons]
  cases hplace : place words with
  | none =>
      dsimp only
      rw [List.append_nil, readWord, findChar_of_not_mem h]
  | some text =>
      dsimp only
      have htake : (word ++ ' ' :: text).takeWhile (fun d => decide (d ≠ ' ')) = word := by
        rw [List.takeWhile_append_of_pos, List.takeWhile_cons_of_neg (by simp), List.append_nil]
        exact fun d hd => decide_eq_true (fun heq => h (heq ▸ hd))
      rw [readWord, findChar_append h]
      dsimp only
      rw [htake]
      simp [advance]

/-- What follows the first hyphen of a word. -/
def behindHyphen (word : List Char) : Option (List Char) :=
  (findChar '-' (some word)).map List.tail

theorem behindHyphen_append {before : List Char} (h : '-' ∉ before) (after : List Char) :
    behindHyphen (before ++ '-' :: after) = some after := by
  rw [behindHyphen, findChar_append h]
  rfl

theorem behindHyphen_eq_none_iff {word : List Char} : behindHyphen word = none ↔ '-' ∉ word := by
  constructor
  · intro hnone hmem
    obtain ⟨before, after, rfl, hbefore⟩ := List.eq_append_cons_of_mem hmem
    rw [behindHyphen_append hbefore] at hnone
    cases hnone
  · intro hnot
    rw [behindHyphen, findChar_of_not_mem hnot]
    rfl

theorem behindHyphen_eq_some_iff {word after : List Char} :
    behindHyphen word = some after ↔
      ∃ before, '-' ∉ before ∧ word = before ++ '-' :: after := by
  constructor
  · intro hsome
    have hmem : '-' ∈ word := by
      by_contra hnot
      rw [behindHyphen_eq_none_iff.mpr hnot] at hsome
      cases hsome
    obtain ⟨before, after', rfl, hbefore⟩ := List.eq_append_cons_of_mem hmem
    rw [behindHyphen_append hbefore] at hsome
    cases hsome
    exact ⟨before, hbefore, rfl⟩
  · rintro ⟨before, hbefore, rfl⟩
    exact behindHyphen_append hbefore after

/-- Words without a hyphen are passed. -/
theorem findChar_place_of_not_mem {word : List Char} (h : '-' ∉ word) (words : List (List Char)) :
    findChar '-' (place (word :: words)) = findChar '-' (place words) := by
  rw [place_cons]
  cases hplace : place words with
  | none =>
      dsimp only
      rw [List.append_nil, findChar_of_not_mem h]
      rfl
  | some text =>
      dsimp only
      have hdrop : (word ++ ' ' :: text).dropWhile (fun d => decide (d ≠ '-')) =
          text.dropWhile fun d => decide (d ≠ '-') := by
        rw [List.dropWhile_append_of_pos, List.dropWhile_cons_of_pos (by decide)]
        exact fun d hd => decide_eq_true (fun heq => h (heq ▸ hd))
      rw [findChar, findChar, hdrop]

/-- Two characters from the first hyphen of a word is the start of a word, inside of it or behind
it. -/
theorem findChar_place {word after : List Char} (h : behindHyphen word = some after)
    (words : List (List Char)) :
    ∃ pos, findChar '-' (place (word :: words)) = some pos ∧
      advance 2 pos = match after with
        | [] => place words
        | _ :: name => place (name :: words) := by
  obtain ⟨before, hbefore, rfl⟩ := behindHyphen_eq_some_iff.mp h
  rw [place_cons, List.append_assoc, List.cons_append]
  refine ⟨_, findChar_append hbefore, ?_⟩
  cases after with
  | nil =>
      cases place words with
      | none => rfl
      | some text => simp [advance]
  | cons c name => simp [advance, place_cons]

/-! ## The parser on words -/

/-- What the loops do with a list of words: while no option is read the words are searched for a
hyphen, otherwise they are its values. -/
def scanWords (reading : Option (List Char × ℕ)) (words : List (List Char)) (parsed : Parsed) :
    Except ParseError Parsed :=
  match reading, words with
  | none, [] => .ok parsed
  | none, word :: words =>
      match behindHyphen word with
      | none => scanWords none words parsed
      | some [] =>
          match words with
          | [] => .error .outOfRange
          | name :: words => scanWords (parsed.options.startReading name) words parsed
      | some (_ :: name) => scanWords (parsed.options.startReading name) words parsed
  | some _, [] => .error .outOfRange
  | some (name, numValues), value :: words =>
      if value.take 2 = ['-', '-'] then
        scanWords none (value :: words)
          (parsed.endValues name numValues ([' '].intercalate (value :: words)))
      else
        let read := parsed.readValue name numValues value ([' '].intercalate (value :: words))
        match words with
        | [] => .ok read.2
        | word :: words => scanWords (some (name, read.1)) (word :: words) read.2
termination_by (words.length, if reading.isSome then 1 else 0)

theorem scanWords_absent {word : List Char} (h : '-' ∉ word) (words : List (List Char))
    (parsed : Parsed) : scanWords none (word :: words) parsed = scanWords none words parsed := by
  rw [scanWords.eq_def]
  simp only [behindHyphen_eq_none_iff.mpr h]

theorem scanWords_inside {before : List Char} (h : '-' ∉ before) (c : Char) (name : List Char)
    (words : List (List Char)) (parsed : Parsed) :
    scanWords none ((before ++ '-' :: c :: name) :: words) parsed =
      scanWords (parsed.options.startReading name) words parsed := by
  rw [scanWords.eq_def]
  simp only [behindHyphen_append h]

theorem scanWords_behind {before : List Char} (h : '-' ∉ before) (name : List Char)
    (words : List (List Char)) (parsed : Parsed) :
    scanWords none ((before ++ ['-']) :: name :: words) parsed =
      scanWords (parsed.options.startReading name) words parsed := by
  rw [scanWords.eq_def]
  simp only [behindHyphen_append h]

/-- The search for an option finds the name that the first hyphen leads to. -/
theorem optionTurn_place {words rest : List (List Char)} {name : List Char} {parsed : Parsed}
    {pos : List Char} (hpos : findChar '-' (place words) = some pos)
    (hadvance : advance 2 pos = place (name :: rest)) (hname : ' ' ∉ name) :
    parseTurn ⟨place words, none, parsed⟩ =
      .inr ⟨place rest, parsed.options.startReading name, parsed⟩ := by
  simp only [parseTurn, optionTurn, hpos, hadvance, readWord_place hname]

/-- The loops on a text are the parser on its words. -/
theorem returns_iff_scanWords {reading : Option (List Char × ℕ)} {words : List (List Char)}
    {parsed : Parsed} {result : Except ParseError Parsed} (hwords : ∀ w ∈ words, ' ' ∉ w) :
    Returns parseTurn ⟨place words, reading, parsed⟩ result ↔
      scanWords reading words parsed = result := by
  fun_induction scanWords reading words parsed with
  | case1 parsed => exact returns_of_inl rfl
  | case2 parsed word words hnone ih =>
      have hturn : parseTurn ⟨place (word :: words), none, parsed⟩ =
          parseTurn ⟨place words, none, parsed⟩ := by
        simp only [parseTurn, optionTurn,
          findChar_place_of_not_mem (behindHyphen_eq_none_iff.mp hnone)]
      rw [returns_congr hturn]
      exact ih fun w hw => hwords w (List.mem_cons_of_mem _ hw)
  | case3 parsed word hlast =>
      obtain ⟨pos, hpos, hadvance⟩ := findChar_place hlast []
      apply returns_of_inl
      have hbehind : advance 2 pos = none := hadvance
      simp only [parseTurn, optionTurn, hpos, hbehind, readWord]
  | case4 parsed word hlast name words ih =>
      obtain ⟨pos, hpos, hadvance⟩ := findChar_place hlast (name :: words)
      rw [returns_of_inr (optionTurn_place hpos hadvance (hwords name (by simp)))]
      exact ih fun w hw => hwords w (by simp [hw])
  | case5 parsed word words c name hinside ih =>
      obtain ⟨pos, hpos, hadvance⟩ := findChar_place hinside words
      obtain ⟨before, -, hword⟩ := behindHyphen_eq_some_iff.mp hinside
      have hname : ' ' ∉ name := by
        intro hmem
        apply hwords word List.mem_cons_self
        rw [hword]
        simp [hmem]
      rw [returns_of_inr (optionTurn_place hpos hadvance hname)]
      exact ih fun w hw => hwords w (List.mem_cons_of_mem _ hw)
  | case6 parsed option => exact returns_of_inl rfl
  | case7 parsed name numValues value words hnext ih =>
      have hread := readWord_place (hwords value List.mem_cons_self) words
      have hturn : parseTurn ⟨place (value :: words), some (name, numValues), parsed⟩ =
          .inr ⟨place (value :: words), none,
            parsed.endValues name numValues ([' '].intercalate (value :: words))⟩ := by
        simp only [parseTurn, valueTurn, hread, if_pos hnext]
        rfl
      rw [returns_of_inr hturn]
      exact ih hwords
  | case8 parsed name numValues value hvalue read =>
      have hread := readWord_place (hwords value List.mem_cons_self) []
      have hturn : parseTurn ⟨place [value], some (name, numValues), parsed⟩ =
          .inr ⟨none, none, read.2⟩ := by
        simp only [parseTurn, valueTurn, hread, if_neg hvalue]
        rfl
      rw [returns_of_inr hturn]
      exact returns_of_inl rfl
  | case9 parsed name numValues value hvalue word words read ih =>
      have hread := readWord_place (hwords value List.mem_cons_self) (word :: words)
      have hturn : parseTurn ⟨place (value :: word :: words), some (name, numValues), parsed⟩ =
          .inr ⟨place (word :: words), some (name, read.1), read.2⟩ := by
        simp only [parseTurn, valueTurn, hread, if_neg hvalue]
        rfl
      rw [returns_of_inr hturn]
      exact ih fun w hw => hwords w (List.mem_cons_of_mem _ hw)

/-! ## The types of the options -/

/-- The types, which a call does not change. -/
def Options.typeOf (options : Options) (name : List Char) : Option OptionType :=
  (options name).map OptionValue.type

theorem type_setValueFromString (option : OptionValue) (value : List Char) :
    (option.setValueFromString value).2.type = option.type := by
  rw [OptionValue.setValueFromString]
  split
  · dsimp only
    split
    · rfl
    · split <;> rfl
  · rfl
  · split <;> rfl
  · rfl

theorem typeOf_apply (options : Options) (call : OptionCall) :
    (options.apply call).typeOf = options.typeOf := by
  ext1 key
  cases call with
  | setValue name value rest =>
      by_cases hkey : key = name
      · subst hkey
        simp [Options.typeOf, Options.apply, Function.comp_def, type_setValueFromString]
      · simp [Options.typeOf, Options.apply, Function.update_of_ne hkey]
  | noValue name rest =>
      by_cases hkey : key = name
      · subst hkey
        have htype : ∀ option : OptionValue,
            (if option.type = .bool then { option with valueBool := true } else option).type =
              option.type := fun option => by split <;> rfl
        simp [Options.typeOf, Options.apply, Function.comp_def, htype]
      · simp [Options.typeOf, Options.apply, Function.update_of_ne hkey]

@[simp] theorem typeOf_make (parsed : Parsed) (call : OptionCall) :
    (parsed.make call).options.typeOf = parsed.options.typeOf :=
  typeOf_apply parsed.options call

@[simp] theorem typeOf_endValues (parsed : Parsed) (name : List Char) (numValues : ℕ)
    (rest : List Char) :
    (parsed.endValues name numValues rest).options.typeOf = parsed.options.typeOf := by
  rw [Parsed.endValues]
  split <;> simp

@[simp] theorem typeOf_readValue (parsed : Parsed) (name : List Char) (numValues : ℕ)
    (value rest : List Char) :
    (parsed.readValue name numValues value rest).2.options.typeOf = parsed.options.typeOf := by
  rw [Parsed.readValue]
  split <;> simp

theorem startReading_eq (options : Options) (name : List Char) :
    options.startReading name =
      (options.typeOf (name.map Char.toLower)).map fun _ => (name.map Char.toLower, 0) := by
  simp [Options.startReading, Options.find, Options.typeOf, Function.comp_def]

/-! ## Texts that are read to their end -/

/-- An option of that name is known. -/
def Known (types : List Char → Option OptionType) (name : List Char) : Bool :=
  (types (name.map Char.toLower)).isSome

theorem isSome_startReading (options : Options) (name : List Char) :
    (options.startReading name).isSome = Known options.typeOf name := by
  rw [startReading_eq, Option.isSome_map, Known]

/-- The words that are read without an exception. The first hyphen of a word leads to a name: the
rest of the word after one more character, or the next word. A known option is followed by a word;
its values end at a word that starts with two hyphens or at the end. -/
inductive Readable (types : List Char → Option OptionType) : Bool → List (List Char) → Prop
  | done : Readable types false []
  | plain {word words} : '-' ∉ word → Readable types false words →
      Readable types false (word :: words)
  | inside {before c name words} : '-' ∉ before → Readable types (Known types name) words →
      Readable types false ((before ++ '-' :: c :: name) :: words)
  | behind {before name words} : '-' ∉ before → Readable types (Known types name) words →
      Readable types false ((before ++ ['-']) :: name :: words)
  | next {word words} : word.take 2 = ['-', '-'] → Readable types false (word :: words) →
      Readable types true (word :: words)
  | last {value} : value.take 2 ≠ ['-', '-'] → Readable types true [value]
  | value {value word words} : value.take 2 ≠ ['-', '-'] →
      Readable types true (word :: words) → Readable types true (value :: word :: words)

theorem readable_of_scanWords {reading : Option (List Char × ℕ)} {words : List (List Char)}
    {parsed result : Parsed} (h : scanWords reading words parsed = .ok result) :
    Readable parsed.options.typeOf reading.isSome words := by
  fun_induction scanWords reading words parsed with
  | case1 parsed => exact .done
  | case2 parsed word words hnone ih => exact .plain (behindHyphen_eq_none_iff.mp hnone) (ih h)
  | case3 parsed word hlast => cases h
  | case4 parsed word hlast name words ih =>
      obtain ⟨before, hbefore, rfl⟩ := behindHyphen_eq_some_iff.mp hlast
      exact .behind hbefore (isSome_startReading _ _ ▸ ih h)
  | case5 parsed word words c name hinside ih =>
      obtain ⟨before, hbefore, rfl⟩ := behindHyphen_eq_some_iff.mp hinside
      exact .inside hbefore (isSome_startReading _ _ ▸ ih h)
  | case6 parsed option => cases h
  | case7 parsed name numValues value words hnext ih =>
      have hrest := ih h
      rw [typeOf_endValues] at hrest
      exact .next hnext hrest
  | case8 parsed name numValues value hvalue read => exact .last hvalue
  | case9 parsed name numValues value hvalue word words read ih =>
      have hrest := ih h
      rw [typeOf_readValue] at hrest
      exact .value hvalue hrest

theorem scanWords_of_readable {types : List Char → Option OptionType} {isReading : Bool}
    {words : List (List Char)} (h : Readable types isReading words)
    {reading : Option (List Char × ℕ)} (hreading : reading.isSome = isReading) {parsed : Parsed}
    (htypes : parsed.options.typeOf = types) :
    ∃ result, scanWords reading words parsed = .ok result := by
  induction h generalizing reading parsed with
  | done =>
      obtain rfl := Option.isSome_eq_false_iff.mp hreading |> Option.isNone_iff_eq_none.mp
      exact ⟨parsed, by rw [scanWords]⟩
  | plain hword _ ih =>
      obtain rfl := Option.isSome_eq_false_iff.mp hreading |> Option.isNone_iff_eq_none.mp
      rw [scanWords_absent hword]
      exact ih rfl htypes
  | inside hbefore _ ih =>
      obtain rfl := Option.isSome_eq_false_iff.mp hreading |> Option.isNone_iff_eq_none.mp
      rw [scanWords_inside hbefore]
      exact ih (htypes ▸ isSome_startReading _ _) htypes
  | behind hbefore _ ih =>
      obtain rfl := Option.isSome_eq_false_iff.mp hreading |> Option.isNone_iff_eq_none.mp
      rw [scanWords_behind hbefore]
      exact ih (htypes ▸ isSome_startReading _ _) htypes
  | next hnext _ ih =>
      obtain ⟨⟨name, numValues⟩, rfl⟩ := Option.isSome_iff_exists.mp hreading
      rw [scanWords, if_pos hnext]
      exact ih rfl ((typeOf_endValues _ _ _ _).trans htypes)
  | last hvalue =>
      obtain ⟨⟨name, numValues⟩, rfl⟩ := Option.isSome_iff_exists.mp hreading
      rw [scanWords, if_neg hvalue]
      exact ⟨_, rfl⟩
  | value hvalue _ ih =>
      obtain ⟨⟨name, numValues⟩, rfl⟩ := Option.isSome_iff_exists.mp hreading
      rw [scanWords, if_neg hvalue]
      exact ih rfl ((typeOf_readValue _ _ _ _ _).trans htypes)

theorem not_mem_of_mem_splitOn {c : Char} {word text : List Char} (h : word ∈ text.splitOn c) :
    c ∉ word := by
  induction text generalizing word with
  | nil =>
      rw [List.splitOn_nil, List.mem_singleton] at h
      simp [h]
  | cons d text ih =>
      rw [List.splitOn_cons_eq_if_modifyHead] at h
      by_cases hd : (d == c) = true
      · rw [if_pos hd, List.mem_cons] at h
        rcases h with rfl | h
        · simp
        · exact ih h
      · rw [if_neg hd] at h
        cases hwords : text.splitOn c with
        | nil => exact absurd hwords (List.splitOn_ne_nil c text)
        | cons w ws =>
            rw [hwords] at h ih
            rw [List.modifyHead_cons, List.mem_cons] at h
            rcases h with rfl | h
            · have hw := ih List.mem_cons_self
              have hne : c ≠ d := fun heq => hd (by simp [heq])
              simp [hne, hw]
            · exact ih (List.mem_cons_of_mem w h)

/-- The loops on any text. -/
theorem returns_iff_scanWords_splitOn (parsed : Parsed) (text : List Char)
    (result : Except ParseError Parsed) :
    Returns parseTurn ⟨some text, none, parsed⟩ result ↔
      scanWords none (text.splitOn ' ') parsed = result := by
  have hwords := @returns_iff_scanWords none (text.splitOn ' ') parsed result
    fun _ hword => not_mem_of_mem_splitOn hword
  rwa [place_splitOn] at hwords

/-- A text is read to its end iff its words are. -/
theorem returns_ok_iff (options : Options) (text : List Char) :
    (∃ parsed turns, parseOptionsString options text turns = some (.ok parsed)) ↔
      Readable options.typeOf false (text.splitOn ' ') := by
  have hparse : (∃ parsed turns, parseOptionsString options text turns = some (.ok parsed)) ↔
      ∃ parsed, scanWords none (text.splitOn ' ') ⟨options, [], true⟩ = .ok parsed :=
    exists_congr fun parsed => returns_iff_scanWords_splitOn _ text _
  rw [hparse]
  constructor
  · rintro ⟨parsed, hparsed⟩
    exact readable_of_scanWords hparsed
  · exact fun hreadable => scanWords_of_readable hreadable rfl rfl

end OpenZWave
