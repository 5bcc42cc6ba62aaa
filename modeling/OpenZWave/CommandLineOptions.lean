import OpenZWave.CommandLine

/-!
# Command lines of options

What `Options::ParseOptionsString` does with a command line that is written as options with
their values: which lines are read as they are written, and what derails the search for the
next option. The text that a call is told with is the place of the call in the line.
-/

namespace OpenZWave

open NumberText WhileLoop

/-- An option as it is written. -/
structure CommandOption where
  name : List Char
  values : List (List Char)

namespace CommandOption

def words (option : CommandOption) : List (List Char) :=
  ('-' :: '-' :: option.name) :: option.values

/-- Names and values are words, and no value is taken for an option. -/
structure WellFormed (option : CommandOption) : Prop where
  name : ' ' ∉ option.name
  values : ∀ value ∈ option.values,
    value ≠ [] ∧ ' ' ∉ value ∧ value.take 2 ≠ ['-', '-']

end CommandOption

/-- The words of a line, from some values on. -/
def lineWords (values : List (List Char)) (line : List CommandOption) : List (List Char) :=
  values ++ line.flatMap CommandOption.words

def commandLine (line : List CommandOption) : List Char := [' '].intercalate (lineWords [] line)

/-- The calls for the values of an option, each told with the rest of the line. -/
def valueCalls (name : List Char) (line : List CommandOption) : List (List Char) → List OptionCall
  | [] => []
  | value :: values =>
      .setValue name value ([' '].intercalate (lineWords (value :: values) line)) ::
        valueCalls name line values

/-- The calls for a known option. -/
def optionCalls (name : List Char) (values : List (List Char)) (line : List CommandOption) :
    List OptionCall :=
  if values = [] then [.noValue name (commandLine line)] else valueCalls name line values

/-- The calls that a line asks for: those of its known options, in order. -/
def expectedCalls (types : List Char → Option OptionType) : List CommandOption → List OptionCall
  | [] => []
  | option :: line =>
      (if Known types option.name then
        optionCalls (option.name.map Char.toLower) option.values line
      else []) ++ expectedCalls types line

variable {types : List Char → Option OptionType}

/-- A line that is read as it is written, from some values of an unknown option on: every known
option is followed by a word, and no hyphen in a value of an unknown option leads to the name of
a known one or past one. -/
inductive SafeLine (types : List Char → Option OptionType) :
    List (List Char) → List CommandOption → Prop
  | nil : SafeLine types [] []
  | known {name values line} : Known types name = true → (values ≠ [] ∨ line ≠ []) →
      SafeLine types [] line → SafeLine types [] (⟨name, values⟩ :: line)
  | unknown {name values line} : Known types name = false → SafeLine types values line →
      SafeLine types [] (⟨name, values⟩ :: line)
  | plain {value values line} : '-' ∉ value → SafeLine types values line →
      SafeLine types (value :: values) line
  | inside {before c name values line} : '-' ∉ before → Known types name = false →
      SafeLine types values line → SafeLine types ((before ++ '-' :: c :: name) :: values) line
  | behindValue {before value values line} : '-' ∉ before → Known types value = false →
      SafeLine types values line → SafeLine types ((before ++ ['-']) :: value :: values) line
  | behindOption {before name values line} : '-' ∉ before →
      Known types ('-' :: '-' :: name) = false → Known types name = false →
      SafeLine types values line → SafeLine types [before ++ ['-']] (⟨name, values⟩ :: line)

/-! ## The values of a known option -/

theorem lineWords_cons (option : CommandOption) (line : List CommandOption) :
    lineWords [] (option :: line) =
      ('-' :: '-' :: option.name) :: lineWords option.values line := by
  simp [lineWords, CommandOption.words]

theorem startReading_of_known {parsed : Parsed} {name : List Char}
    (h : Known parsed.options.typeOf name = true) :
    parsed.options.startReading name = some (name.map Char.toLower, 0) := by
  obtain ⟨type, htype⟩ := Option.isSome_iff_exists.mp h
  rw [startReading_eq, htype]
  rfl

theorem startReading_of_unknown {parsed : Parsed} {name : List Char}
    (h : Known parsed.options.typeOf name = false) : parsed.options.startReading name = none := by
  rw [startReading_eq, Option.map_eq_none_iff]
  exact Option.isNone_iff_eq_none.mp (Option.isSome_eq_false_iff.mp h)

@[simp] theorem typeOf_foldl_make (calls : List OptionCall) (parsed : Parsed) :
    (calls.foldl Parsed.make parsed).options.typeOf = parsed.options.typeOf := by
  induction calls generalizing parsed with
  | nil => rfl
  | cons call calls ih => rw [List.foldl_cons, ih, typeOf_make]

@[simp] theorem calls_foldl_make (calls : List OptionCall) (parsed : Parsed) :
    (calls.foldl Parsed.make parsed).calls = parsed.calls ++ calls := by
  induction calls generalizing parsed with
  | nil => simp
  | cons call calls ih => rw [List.foldl_cons, ih, Parsed.make, List.append_assoc]; rfl

/-- A value is set; behind the last word the search for an option goes on. -/
theorem scanWords_value {name value : List Char} {words : List (List Char)} {numValues : ℕ}
    {parsed : Parsed} (hnil : value ≠ []) (htwo : value.take 2 ≠ ['-', '-']) :
    scanWords (some (name, numValues)) (value :: words) parsed =
      scanWords (if words = [] then none else some (name, numValues + 1)) words
        (parsed.make (.setValue name value ([' '].intercalate (value :: words)))) := by
  have hread : parsed.readValue name numValues value ([' '].intercalate (value :: words)) =
      (numValues + 1, parsed.make (.setValue name value ([' '].intercalate (value :: words)))) :=
    if_pos (List.length_pos_iff.mpr hnil)
  rw [scanWords, if_neg htwo]
  simp only [hread]
  cases words with
  | nil =>
      rw [if_pos rfl, scanWords]
  | cons word words => rw [if_neg (List.cons_ne_nil _ _)]

theorem lineWords_eq_nil_iff {values : List (List Char)} {line : List CommandOption} :
    lineWords values line = [] ↔ values = [] ∧ line = [] := by
  rw [lineWords, List.append_eq_nil_iff]
  cases line with
  | nil => simp
  | cons option line => simp [CommandOption.words]

/-- The values of a known option are set one after the other, up to the next option. -/
theorem scanWords_values {name : List Char} {values : List (List Char)}
    {line : List CommandOption} {numValues : ℕ} {parsed : Parsed}
    (hvalues : ∀ value ∈ values, value ≠ [] ∧ ' ' ∉ value ∧ value.take 2 ≠ ['-', '-'])
    (hne : values ≠ [] ∨ (0 < numValues ∧ line ≠ [])) :
    scanWords (some (name, numValues)) (lineWords values line) parsed =
      scanWords none (lineWords [] line)
        ((valueCalls name line values).foldl Parsed.make parsed) := by
  induction values generalizing numValues parsed with
  | nil =>
      obtain ⟨hpos, hline⟩ := hne.resolve_left (fun h => h rfl)
      obtain ⟨option, line, rfl⟩ := List.exists_cons_of_ne_nil hline
      rw [lineWords_cons, scanWords, if_pos (by rfl), Parsed.endValues, if_neg (by omega)]
      rfl
  | cons value values ih =>
      obtain ⟨hnil, -, htwo⟩ := hvalues value List.mem_cons_self
      have hrest := fun v hv => hvalues v (List.mem_cons_of_mem _ hv)
      have hwords : lineWords (value :: values) line = value :: lineWords values line := rfl
      rw [hwords, scanWords_value hnil htwo, valueCalls, List.foldl_cons, hwords]
      by_cases hend : lineWords values line = []
      · obtain ⟨rfl, rfl⟩ := lineWords_eq_nil_iff.mp hend
        rw [if_pos hend]
        rfl
      · rw [if_neg hend]
        apply ih hrest
        rw [lineWords_eq_nil_iff] at hend
        by_cases hvalues : values = []
        · exact Or.inr ⟨Nat.succ_pos _, fun hline => hend ⟨hvalues, hline⟩⟩
        · exact Or.inl hvalues

/-- A known option that is followed by a word is read with its values. -/
theorem scanWords_option {name : List Char} {values : List (List Char)}
    {line : List CommandOption} {parsed : Parsed}
    (hvalues : ∀ value ∈ values, value ≠ [] ∧ ' ' ∉ value ∧ value.take 2 ≠ ['-', '-'])
    (hne : values ≠ [] ∨ line ≠ []) :
    scanWords (some (name, 0)) (lineWords values line) parsed =
      scanWords none (lineWords [] line)
        ((optionCalls name values line).foldl Parsed.make parsed) := by
  by_cases hnil : values = []
  · subst hnil
    obtain ⟨option, line, rfl⟩ := List.exists_cons_of_ne_nil (hne.resolve_left fun h => h rfl)
    rw [optionCalls, if_pos rfl, lineWords_cons, scanWords, if_pos (by rfl), Parsed.endValues,
      if_pos rfl, List.foldl_cons, List.foldl_nil, commandLine, lineWords_cons]
  · rw [optionCalls, if_neg hnil]
    exact scanWords_values hvalues (Or.inl hnil)

/-- The first word of an option leads to its name. -/
theorem scanWords_name (name : List Char) (words : List (List Char)) (parsed : Parsed) :
    scanWords none (('-' :: '-' :: name) :: words) parsed =
      scanWords (parsed.options.startReading name) words parsed :=
  @scanWords_inside [] List.not_mem_nil '-' name words parsed

/-! ## Lines that are safe -/

/-- What is derailed by no value is read as it is written. -/
theorem scanWords_of_safe {values : List (List Char)} {line : List CommandOption}
    (h : SafeLine types values line) (hline : ∀ option ∈ line, option.WellFormed) {parsed : Parsed}
    (htypes : parsed.options.typeOf = types) :
    scanWords none (lineWords values line) parsed =
      .ok ((expectedCalls types line).foldl Parsed.make parsed) := by
  induction h generalizing parsed with
  | nil => rw [lineWords, List.flatMap_nil, List.append_nil, scanWords]; rfl
  | @known name values line hknown hne _ ih =>
      subst htypes
      have hoption := hline _ List.mem_cons_self
      rw [lineWords_cons, scanWords_name, startReading_of_known hknown,
        scanWords_option hoption.values hne, ih (fun o ho => hline o (List.mem_cons_of_mem _ ho))
          (typeOf_foldl_make _ _), expectedCalls, if_pos hknown, List.foldl_append]
  | @unknown name values line hunknown _ ih =>
      subst htypes
      rw [lineWords_cons, scanWords_name, startReading_of_unknown hunknown,
        ih (fun o ho => hline o (List.mem_cons_of_mem _ ho)) rfl, expectedCalls,
        if_neg (Bool.eq_false_iff.mp hunknown), List.nil_append]
  | plain hvalue _ ih => exact (scanWords_absent hvalue _ _).trans (ih hline htypes)
  | @inside before c name values line hbefore hunknown _ ih =>
      subst htypes
      refine (scanWords_inside hbefore c name _ _).trans ?_
      rw [startReading_of_unknown hunknown]
      exact ih hline rfl
  | @behindValue before value values line hbefore hunknown _ ih =>
      subst htypes
      refine (scanWords_behind hbefore value _ _).trans ?_
      rw [startReading_of_unknown hunknown]
      exact ih hline rfl
  | @behindOption before name values line hbefore hunknown hname _ ih =>
      subst htypes
      refine (scanWords_behind hbefore ('-' :: '-' :: name) _ _).trans ?_
      rw [startReading_of_unknown hunknown, expectedCalls, if_neg (Bool.eq_false_iff.mp hname),
        List.nil_append]
      exact ih (fun o ho => hline o (List.mem_cons_of_mem _ ho)) rfl

/-! ## Lines that are not safe -/

theorem length_intercalate_cons (word : List Char) (words : List (List Char)) :
    ([' '].intercalate words).length + word.length ≤
      ([' '].intercalate (word :: words)).length := by
  cases words with
  | nil => simp
  | cons w ws =>
      rw [List.intercalate_cons_of_ne_nil (List.cons_ne_nil _ _)]
      simp only [List.length_append, List.length_singleton]
      omega

theorem calls_endValues (parsed : Parsed) (name : List Char) (numValues : ℕ) (rest : List Char) :
    (parsed.endValues name numValues rest).calls =
      parsed.calls ++ if numValues = 0 then [.noValue name rest] else [] := by
  rw [Parsed.endValues]
  split
  · rfl
  · rw [List.append_nil]

theorem calls_readValue (parsed : Parsed) (name : List Char) (numValues : ℕ)
    (value rest : List Char) :
    (parsed.readValue name numValues value rest).2.calls =
      parsed.calls ++ if 0 < value.length then [.setValue name value rest] else [] := by
  rw [Parsed.readValue]
  split
  · rfl
  · rw [List.append_nil]

/-- Every call is told with a rest of the words; behind the name of an option it is shorter. -/
theorem calls_of_scanWords {reading : Option (List Char × ℕ)} {words : List (List Char)}
    {parsed result : Parsed} (h : scanWords reading words parsed = .ok result) :
    ∃ calls, result.calls = parsed.calls ++ calls ∧ ∀ call ∈ calls,
      call.rest.length + (if reading.isSome then 0 else 1) ≤ ([' '].intercalate words).length := by
  fun_induction scanWords reading words parsed with
  | case1 parsed =>
      cases h
      exact ⟨[], by simp, fun _ hcall => absurd hcall List.not_mem_nil⟩
  | case2 parsed word words hnone ih =>
      obtain ⟨calls, hcalls, hrest⟩ := ih h
      exact ⟨calls, hcalls, fun call hcall =>
        (hrest call hcall).trans (Nat.le_of_add_right_le (length_intercalate_cons word words))⟩
  | case3 parsed word hlast => cases h
  | case4 parsed word hlast name words ih =>
      obtain ⟨before, -, rfl⟩ := behindHyphen_eq_some_iff.mp hlast
      obtain ⟨calls, hcalls, hrest⟩ := ih h
      refine ⟨calls, hcalls, fun call hcall => ?_⟩
      have hname := length_intercalate_cons name words
      have hword := length_intercalate_cons (before ++ ['-']) (name :: words)
      have hcall := hrest call hcall
      simp only [Option.isSome_none, if_neg Bool.false_ne_true]
      rw [List.length_append, List.length_singleton] at hword
      omega
  | case5 parsed word words c name hinside ih =>
      obtain ⟨before, -, rfl⟩ := behindHyphen_eq_some_iff.mp hinside
      obtain ⟨calls, hcalls, hrest⟩ := ih h
      refine ⟨calls, hcalls, fun call hcall => ?_⟩
      have hword := length_intercalate_cons (before ++ '-' :: c :: name) words
      have hcall := hrest call hcall
      simp only [Option.isSome_none, if_neg Bool.false_ne_true]
      rw [List.length_append, List.length_cons] at hword
      omega
  | case6 parsed option => cases h
  | case7 parsed name numValues value words hnext ih =>
      obtain ⟨calls, hcalls, hrest⟩ := ih h
      rw [calls_endValues, List.append_assoc] at hcalls
      refine ⟨_, hcalls, fun call hcall => ?_⟩
      rcases List.mem_append.mp hcall with hmade | hcall
      · split at hmade
        · rw [List.mem_singleton.mp hmade]
          exact Nat.le_refl _
        · cases hmade
      · exact Nat.le_of_add_right_le (hrest call hcall)
  | case8 parsed name numValues value hvalue read =>
      cases h
      refine ⟨_, calls_readValue parsed name numValues value _, fun call hmade => ?_⟩
      split at hmade
      · rw [List.mem_singleton.mp hmade]
        exact Nat.le_refl _
      · cases hmade
  | case9 parsed name numValues value hvalue word words read ih =>
      obtain ⟨calls, hcalls, hrest⟩ := ih h
      rw [calls_readValue, List.append_assoc] at hcalls
      refine ⟨_, hcalls, fun call hcall => ?_⟩
      rcases List.mem_append.mp hcall with hmade | hcall
      · split at hmade
        · rw [List.mem_singleton.mp hmade]
          exact Nat.le_refl _
        · cases hmade
      · exact (hrest call hcall).trans
          (Nat.le_of_add_right_le (length_intercalate_cons value (word :: words)))

/-- A known option is followed by a call, which is told with what follows the name. -/
theorem first_call_of_scanWords {name : List Char} {words : List (List Char)}
    {parsed result : Parsed} (hwords : ∀ word ∈ words.head?, word ≠ [])
    (h : scanWords (some (name, 0)) words parsed = .ok result) :
    ∃ call calls, result.calls = parsed.calls ++ call :: calls ∧
      call.rest = [' '].intercalate words ∧ call.name = name := by
  cases words with
  | nil =>
      rw [scanWords] at h
      cases h
  | cons word words =>
      by_cases htwo : word.take 2 = ['-', '-']
      · rw [scanWords, if_pos htwo] at h
        obtain ⟨calls, hcalls, -⟩ := calls_of_scanWords h
        rw [calls_endValues, if_pos rfl, List.append_assoc] at hcalls
        exact ⟨_, calls, hcalls, rfl, rfl⟩
      · rw [scanWords_value (hwords word rfl) htwo] at h
        obtain ⟨calls, hcalls, -⟩ := calls_of_scanWords h
        rw [Parsed.make, List.append_assoc] at hcalls
        exact ⟨_, calls, hcalls, rfl, rfl⟩

/-- The calls of a known option are told with what follows its name, from the values on. -/
theorem optionCalls_eq_cons (name : List Char) (values : List (List Char))
    (line : List CommandOption) :
    ∃ call calls, optionCalls name values line = call :: calls ∧
      call.rest = [' '].intercalate (lineWords values line) ∧ call.name = name := by
  cases values with
  | nil => exact ⟨_, [], rfl, rfl, rfl⟩
  | cons value values => exact ⟨_, _, rfl, rfl, rfl⟩

theorem length_lineWords (values : List (List Char)) (line : List CommandOption) :
    ([' '].intercalate (lineWords [] line)).length ≤
      ([' '].intercalate (lineWords values line)).length := by
  induction values with
  | nil => exact Nat.le_refl _
  | cons value values ih =>
      have hvalue := length_intercalate_cons value (lineWords values line)
      exact ih.trans (Nat.le_of_add_right_le hvalue)

theorem rest_optionCalls {name : List Char} {values : List (List Char)}
    {line : List CommandOption} {call : OptionCall} (h : call ∈ optionCalls name values line) :
    call.rest.length ≤ ([' '].intercalate (lineWords values line)).length := by
  rw [optionCalls] at h
  split at h
  · rw [List.mem_singleton.mp h]
    exact length_lineWords values line
  · induction values with
    | nil => cases h
    | cons value values ih =>
        rcases List.mem_cons.mp h with rfl | h
        · exact Nat.le_refl _
        · by_cases hnil : values = []
          · subst hnil
            cases h
          · exact (ih hnil h).trans
              (Nat.le_of_add_right_le (length_intercalate_cons value (lineWords values line)))

/-- The calls that a line asks for are told with less than the line. -/
theorem rest_expectedCalls {line : List CommandOption} {call : OptionCall}
    (h : call ∈ expectedCalls types line) :
    call.rest.length < ([' '].intercalate (lineWords [] line)).length := by
  induction line with
  | nil => cases h
  | cons option line ih =>
      have hname := length_intercalate_cons ('-' :: '-' :: option.name)
        (lineWords option.values line)
      rw [List.length_cons] at hname
      rw [lineWords_cons]
      rw [expectedCalls] at h
      rcases List.mem_append.mp h with h | h
      · split at h
        · have hrest := rest_optionCalls h
          omega
        · cases h
      · have hline := length_lineWords option.values line
        have hrest := ih h
        omega

theorem head_lineWords {values : List (List Char)} {line : List CommandOption}
    (hvalues : ∀ value ∈ values, value ≠ []) :
    ∀ word ∈ (lineWords values line).head?, word ≠ [] := by
  cases values with
  | cons value values =>
      rintro _ ⟨⟩
      exact hvalues value List.mem_cons_self
  | nil =>
      cases line with
      | nil => nofun
      | cons option line =>
          rintro _ ⟨⟩
          exact List.cons_ne_nil _ _

/-- A name that is found in front of the rest of a line makes a call that the rest does not ask
for. -/
theorem unknown_of_scanWords {name : List Char} {words : List (List Char)}
    {line : List CommandOption} {parsed result : Parsed}
    (h : scanWords (parsed.options.startReading name) words parsed = .ok result)
    (hcalls : result.calls = parsed.calls ++ expectedCalls types line)
    (hwords : ∀ word ∈ words.head?, word ≠ [])
    (hlength : ([' '].intercalate (lineWords [] line)).length ≤ ([' '].intercalate words).length) :
    Known parsed.options.typeOf name = false := by
  apply Bool.eq_false_iff.mpr
  intro hknown
  rw [startReading_of_known hknown] at h
  obtain ⟨call, calls, hmade, hrest, -⟩ := first_call_of_scanWords hwords h
  rw [hmade, List.append_cancel_left_eq] at hcalls
  have hshort := rest_expectedCalls (hcalls ▸ List.mem_cons_self : call ∈ expectedCalls types line)
  rw [hrest] at hshort
  omega

/-- An option whose two hyphens are taken for a part of its name loses its calls. -/
theorem unknown_of_behind {name : List Char} {values : List (List Char)}
    {line : List CommandOption} {parsed result : Parsed} (hvalues : ∀ value ∈ values, value ≠ [])
    (h : scanWords (parsed.options.startReading ('-' :: '-' :: name)) (lineWords values line)
      parsed = .ok result)
    (hcalls : result.calls =
      parsed.calls ++ expectedCalls parsed.options.typeOf (⟨name, values⟩ :: line)) :
    Known parsed.options.typeOf ('-' :: '-' :: name) = false ∧
      Known parsed.options.typeOf name = false := by
  have hhead := @head_lineWords values line hvalues
  cases hknown : Known parsed.options.typeOf name with
  | false =>
      rw [expectedCalls, if_neg (Bool.eq_false_iff.mp hknown), List.nil_append] at hcalls
      exact ⟨unknown_of_scanWords h hcalls hhead (length_lineWords values line), rfl⟩
  | true =>
      exfalso
      obtain ⟨first, rest, hoption, hrest, hname⟩ :=
        optionCalls_eq_cons (name.map Char.toLower) values line
      rw [expectedCalls, if_pos hknown] at hcalls
      simp only [hoption, List.cons_append] at hcalls
      cases hbehind : Known parsed.options.typeOf ('-' :: '-' :: name) with
      | true =>
          rw [startReading_of_known hbehind] at h
          obtain ⟨call, calls, hmade, -, hcall⟩ := first_call_of_scanWords hhead h
          rw [hmade, List.append_cancel_left_eq] at hcalls
          obtain ⟨rfl, -⟩ := List.cons.inj hcalls
          rw [hcall] at hname
          have hlength := congrArg List.length hname
          simp only [List.map_cons, List.length_cons, List.length_map] at hlength
          omega
      | false =>
          rw [startReading_of_unknown hbehind] at h
          obtain ⟨calls, hmade, hshort⟩ := calls_of_scanWords h
          rw [hmade, List.append_cancel_left_eq] at hcalls
          have hless := hshort first (hcalls ▸ List.mem_cons_self)
          rw [hrest] at hless
          exact absurd hless (Nat.not_succ_le_self _)

/-- The calls that a line asks for are made only if nothing in it derails the search. -/
theorem safe_of_scanWords {values : List (List Char)} {line : List CommandOption}
    {parsed result : Parsed} (hvalues : ∀ value ∈ values, value ≠ [])
    (hline : ∀ option ∈ line, option.WellFormed)
    (h : scanWords none (lineWords values line) parsed = .ok result)
    (hcalls : result.calls =
      parsed.calls ++ expectedCalls parsed.options.typeOf line) :
    SafeLine parsed.options.typeOf values line := by
  induction hlength : (lineWords values line).length using Nat.strong_induction_on
    generalizing values line parsed with
  | h n ih =>
      subst hlength
      cases values with
      | nil =>
          cases line with
          | nil => exact .nil
          | cons option line =>
              obtain ⟨name, values⟩ := option
              have hoption := hline _ List.mem_cons_self
              have hrest := fun o ho => hline o (List.mem_cons_of_mem _ ho)
              have hnonempty := fun v hv => (hoption.values v hv).1
              rw [lineWords_cons, scanWords_name] at h
              rw [lineWords_cons] at ih
              cases hknown : Known parsed.options.typeOf name with
              | false =>
                  rw [startReading_of_unknown hknown] at h
                  rw [expectedCalls, if_neg (Bool.eq_false_iff.mp hknown),
                    List.nil_append] at hcalls
                  exact .unknown hknown (ih _ (Nat.lt_succ_self _) hnonempty hrest h hcalls rfl)
              | true =>
                  rw [startReading_of_known hknown] at h
                  have hne : values ≠ [] ∨ line ≠ [] := by
                    by_contra hnot
                    obtain ⟨rfl, rfl⟩ : values = [] ∧ line = [] := by simpa using hnot
                    rw [lineWords, List.flatMap_nil, List.append_nil, scanWords] at h
                    cases h
                  rw [scanWords_option hoption.values hne] at h
                  rw [expectedCalls, if_pos hknown] at hcalls
                  apply SafeLine.known hknown hne
                  have hsafe := @ih (lineWords [] line).length ?_ [] line _ ?_ hrest h ?_ rfl
                  · rwa [typeOf_foldl_make] at hsafe
                  · simp only [lineWords, List.nil_append, List.length_append, List.length_cons]
                    omega
                  · exact fun _ hmem => absurd hmem List.not_mem_nil
                  · rw [typeOf_foldl_make, calls_foldl_make, hcalls, List.append_assoc]
      | cons value values =>
          have hnonempty := fun v hv => hvalues v (List.mem_cons_of_mem _ hv)
          have hwords : lineWords (value :: values) line = value :: lineWords values line := rfl
          rw [hwords] at h ih
          have hless : (lineWords values line).length < (value :: lineWords values line).length :=
            Nat.lt_succ_self _
          cases hhyphen : behindHyphen value with
          | none =>
              have hvalue := behindHyphen_eq_none_iff.mp hhyphen
              rw [scanWords_absent hvalue] at h
              exact .plain hvalue (ih _ hless hnonempty hline h hcalls rfl)
          | some after =>
              obtain ⟨before, hbefore, rfl⟩ := behindHyphen_eq_some_iff.mp hhyphen
              cases after with
              | cons c name =>
                  rw [scanWords_inside hbefore] at h
                  have hunknown := unknown_of_scanWords h hcalls (head_lineWords hnonempty)
                    (length_lineWords values line)
                  rw [startReading_of_unknown hunknown] at h
                  exact .inside hbefore hunknown (ih _ hless hnonempty hline h hcalls rfl)
              | nil =>
                  cases values with
                  | cons name values =>
                      have hname : lineWords (name :: values) line =
                        name :: lineWords values line := rfl
                      rw [hname] at h ih
                      have hrest := fun v hv => hnonempty v (List.mem_cons_of_mem _ hv)
                      rw [scanWords_behind hbefore] at h
                      have hunknown := unknown_of_scanWords h hcalls (head_lineWords hrest)
                        (length_lineWords values line)
                      rw [startReading_of_unknown hunknown] at h
                      refine .behindValue hbefore hunknown (ih _ ?_ hrest hline h hcalls rfl)
                      simp only [List.length_cons]
                      omega
                  | nil =>
                      cases line with
                      | nil =>
                          rw [lineWords, List.flatMap_nil, List.append_nil, scanWords.eq_def] at h
                          simp only [behindHyphen_append hbefore] at h
                          cases h
                      | cons option line =>
                          obtain ⟨name, values⟩ := option
                          have hrest := fun v hv => ((hline _ List.mem_cons_self).values v hv).1
                          rw [lineWords_cons] at h ih
                          rw [scanWords_behind hbefore] at h
                          obtain ⟨hunknown, hname⟩ := unknown_of_behind hrest h hcalls
                          rw [startReading_of_unknown hunknown] at h
                          rw [expectedCalls, if_neg (Bool.eq_false_iff.mp hname),
                            List.nil_append] at hcalls
                          refine .behindOption hbefore hunknown hname (ih _ ?_ hrest
                            (fun o ho => hline o (List.mem_cons_of_mem _ ho)) h hcalls rfl)
                          simp only [List.length_cons]
                          omega

/-! ## Command lines -/

theorem options_foldl_make (calls : List OptionCall) (parsed : Parsed) :
    (calls.foldl Parsed.make parsed).options = calls.foldl Options.apply parsed.options := by
  induction calls generalizing parsed with
  | nil => rfl
  | cons call calls ih => exact ih _

/-- What is accepted is told by the types. -/
theorem accepts_noValue {options : Options} {name rest : List Char} :
    options.accepts (.noValue name rest) = true ↔ options.typeOf name = some .bool := by
  rw [Options.accepts, Options.typeOf]
  cases options name with
  | none => simp
  | some option => simp

theorem accepts_congr {options other : Options} (h : options.typeOf = other.typeOf)
    (call : OptionCall) :
    options.accepts call = other.accepts call := by
  cases call with
  | setValue => rfl
  | noValue name rest =>
      apply Bool.eq_iff_iff.mpr
      rw [accepts_noValue, accepts_noValue, h]

theorem res_foldl_make (calls : List OptionCall) (parsed : Parsed) :
    (calls.foldl Parsed.make parsed).res = (parsed.res && calls.all parsed.options.accepts) := by
  induction calls generalizing parsed with
  | nil => simp
  | cons call calls ih =>
      have hsame : (parsed.make call).options.accepts = parsed.options.accepts :=
        funext (accepts_congr (typeOf_make parsed call))
      rw [List.foldl_cons, ih, hsame, List.all_cons, ← Bool.and_assoc]
      rfl

theorem all_accepts_valueCalls (options : Options) (name : List Char) (line : List CommandOption)
    (values : List (List Char)) : (valueCalls name line values).all options.accepts = true := by
  induction values with
  | nil => rfl
  | cons value values ih =>
      rw [valueCalls, List.all_cons, ih]
      rfl

/-- A line makes the result false iff a known option that is no bool has no value. -/
theorem all_accepts_expectedCalls (options : Options) (line : List CommandOption) :
    (expectedCalls options.typeOf line).all options.accepts = false ↔
      ∃ option ∈ line, option.values = [] ∧
        ∃ type, options.typeOf (option.name.map Char.toLower) = some type ∧ type ≠ .bool := by
  induction line with
  | nil => simp [expectedCalls]
  | cons option line ih =>
      rw [expectedCalls, List.all_append, Bool.and_eq_false_iff, ih, List.exists_mem_cons_iff]
      apply or_congr ?_ Iff.rfl
      rw [Known]
      cases htype : options.typeOf (option.name.map Char.toLower) with
      | none => simp
      | some type =>
          rw [if_pos Option.isSome_some, optionCalls]
          by_cases hvalues : option.values = []
          · rw [if_pos hvalues, List.all_cons, List.all_nil, Bool.and_true,
              ← Bool.not_eq_true, accepts_noValue, htype]
            simp [hvalues]
          · rw [if_neg hvalues, all_accepts_valueCalls]
            simp [hvalues]

/-- A line of options is parsed word by word. -/
theorem parse_commandLine {line : List CommandOption} (hline : ∀ option ∈ line, option.WellFormed)
    (options : Options) (result : Except ParseError Parsed) :
    (∃ turns, parseOptionsString options (commandLine line) turns = some result) ↔
      scanWords none (lineWords [] line) ⟨options, [], true⟩ = result := by
  by_cases hnil : line = []
  · subst hnil
    have hend : parseTurn ⟨some (commandLine []), none, ⟨options, [], true⟩⟩ =
        .inl (.ok ⟨options, [], true⟩) := rfl
    rw [lineWords, List.flatMap_nil, List.append_nil, scanWords]
    exact returns_of_inl hend
  · have hwords : ∀ word ∈ lineWords [] line, ' ' ∉ word := by
      intro word hword
      obtain ⟨option, hoption, hword⟩ := List.mem_flatMap.mp hword
      rcases List.mem_cons.mp hword with rfl | hvalue
      · simpa using (hline option hoption).name
      · exact ((hline option hoption).values word hvalue).2.1
    have hplace : place (lineWords [] line) = some (commandLine line) :=
      if_neg fun h => hnil (lineWords_eq_nil_iff.mp h).2
    have hreturns := @returns_iff_scanWords none _ ⟨options, [], true⟩ result hwords
    rwa [hplace] at hreturns

/-- The parser ends on every text, with an exception unless the words can be read to their end. A
line of options is read as it is written iff it is safe: then each known option gets its own
values in order, one without values becomes true if it is a bool and makes the result false if
not, and nothing else is done. -/
theorem options_parsed_iff (options : Options) :
    (∀ text, ∃ result turns, parseOptionsString options text turns = some result) ∧
    (∀ text, (∃ parsed turns, parseOptionsString options text turns = some (.ok parsed)) ↔
      Readable options.typeOf false (text.splitOn ' ')) ∧
    ∀ line : List CommandOption, (∀ option ∈ line, option.WellFormed) →
      ((∃ parsed turns,
          parseOptionsString options (commandLine line) turns = some (.ok parsed) ∧
          parsed.calls = expectedCalls options.typeOf line ∧
          parsed.options = (expectedCalls options.typeOf line).foldl Options.apply options ∧
          (parsed.res = false ↔ ∃ option ∈ line, option.values = [] ∧
            ∃ type, options.typeOf (option.name.map Char.toLower) = some type ∧
              type ≠ .bool)) ↔
        SafeLine options.typeOf [] line) := by
  refine ⟨fun text => ?_, returns_ok_iff options, fun line hline => ⟨?_, fun hsafe => ?_⟩⟩
  · exact ⟨_, (returns_iff_scanWords_splitOn ⟨options, [], true⟩ text _).mpr rfl⟩
  · rintro ⟨parsed, turns, hparse, hcalls, -, -⟩
    have hscan := (parse_commandLine hline options _).mp ⟨turns, hparse⟩
    exact @safe_of_scanWords [] line _ _ nofun hline hscan hcalls
  · obtain ⟨turns, hparse⟩ :=
      (parse_commandLine hline options _).mpr (scanWords_of_safe hsafe hline rfl)
    refine ⟨_, turns, hparse, ?_, options_foldl_make _ _, ?_⟩
    · rw [calls_foldl_make, List.nil_append]
    · rw [res_foldl_make, Bool.true_and]
      exact all_accepts_expectedCalls options line

/-- A bool at the end of the line without a value: the position is behind the end. -/
theorem last_option_throws :
    ¬ ∃ parsed turns, parseOptionsString
      (Function.update (fun _ => none) "logging".toList (some ⟨.bool, false, 0, [], false⟩))
      "--Logging".toList turns = some (.ok parsed) := by
  generalize hoptions : Function.update (fun _ => none) "logging".toList
    (some (⟨.bool, false, 0, [], false⟩ : OptionValue)) = options
  rintro ⟨parsed, hreturns⟩
  have hname : parseTurn ⟨some "--Logging".toList, none, ⟨options, [], true⟩⟩ =
      .inr ⟨none, some ("logging".toList, 0), ⟨options, [], true⟩⟩ := by
    subst hoptions
    rfl
  have hvalue : parseTurn ⟨none, some ("logging".toList, 0), ⟨options, [], true⟩⟩ =
      .inl (.error .outOfRange) := rfl
  have hthrown := (returns_of_inl hvalue).mp ((returns_of_inr hname).mp hreturns)
  cases hthrown

end OpenZWave
