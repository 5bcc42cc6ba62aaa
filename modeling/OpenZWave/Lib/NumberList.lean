import OpenZWave.Lib.NumberText
import OpenZWave.Lib.WhileLoop
import Mathlib.Data.List.TakeWhile

/-!
# Lists of numbers read with `strtol`

The loop `while (*pos) { n = strtol(pos, &pos, base); ...; if (*pos == ',') ++pos; }` over a
text. It goes on as long as a number is read or a comma follows; at any other character it
stands still.
-/

namespace NumberText

variable {base : ℕ}

/-! ## The number in front of a text -/

/-- A text starts with a number: blanks, a sign, in base sixteen a prefix, and digits as far
as they go. -/
def Leads (base : ℕ) (text : List Char) (n : ℤ) (rest : List Char) : Prop :=
  ∃ blanks sign leading digits, (∀ c ∈ blanks, isSpace c = true) ∧
    sign ∈ [[], ['-'], ['+']] ∧
    readBase base (leading ++ digits ++ rest) = (base, digits ++ rest) ∧
    digits ≠ [] ∧ (∀ c ∈ digits, (digit? base c).isSome) ∧ Stops base rest ∧
    text = blanks ++ (sign ++ (leading ++ digits ++ rest)) ∧
    n = clampLong (signed (decide (sign = ['-'])) (readDigits base 0 digits).1)

theorem le_iff_toNat_le {c d : Char} : c ≤ d ↔ c.toNat ≤ d.toNat := Iff.rfl

theorem isSpace_iff {c : Char} :
    isSpace c = true ↔ c.toNat = 32 ∨ (9 ≤ c.toNat ∧ c.toNat ≤ 13) := by
  rw [isSpace, Bool.or_eq_true, beq_iff_eq, Bool.and_eq_true, decide_eq_true_iff,
    decide_eq_true_iff, le_iff_toNat_le, le_iff_toNat_le, ← Char.toNat_inj]
  rfl

/-- The characters of digits. -/
theorem toNat_of_isSome {c : Char} (h : (digit? base c).isSome) :
    (48 ≤ c.toNat ∧ c.toNat ≤ 57) ∨ (97 ≤ c.toNat ∧ c.toNat ≤ 102) ∨
      (65 ≤ c.toNat ∧ c.toNat ≤ 70) := by
  by_contra hnot
  have hdecimal : ¬ ('0' ≤ c ∧ c ≤ '9') := fun h => hnot (Or.inl h)
  have hlower : ¬ ('a' ≤ c ∧ c ≤ 'f') := fun h => hnot (Or.inr (Or.inl h))
  have hupper : ¬ ('A' ≤ c ∧ c ≤ 'F') := fun h => hnot (Or.inr (Or.inr h))
  simp [digit?, hdecimal, hlower, hupper] at h

theorem isSpace_eq_false {c : Char} (h : (digit? base c).isSome) : isSpace c = false := by
  apply Bool.eq_false_iff.mpr
  intro hspace
  have hdigit := toNat_of_isSome h
  have hblank := isSpace_iff.mp hspace
  omega

theorem ne_of_digit {c d : Char} (h : (digit? base c).isSome) (hd : digit? base d = none) :
    c ≠ d := by
  rintro rfl
  rw [hd] at h
  cases h

/-- A comma or a sign is no digit. -/
theorem digit?_eq_none {c : Char} (h : c.toNat < 48) : digit? base c = none := by
  apply Option.not_isSome_iff_eq_none.mp
  intro hdigit
  have hcode := toNat_of_isSome hdigit
  omega

theorem dropWhile_blanks {blanks text : List Char} (hblanks : ∀ c ∈ blanks, isSpace c = true)
    (htext : ∀ c ∈ text.head?, isSpace c = false) :
    (blanks ++ text).dropWhile isSpace = text := by
  rw [List.dropWhile_append_of_pos hblanks]
  cases text with
  | nil => rfl
  | cons c cs => exact List.dropWhile_cons_of_neg (by simp [htext c rfl])

theorem readSign_of_ne {text : List Char} (h : ∀ c ∈ text.head?, c ≠ '-' ∧ c ≠ '+') :
    readSign text = (false, text) := by
  rw [readSign.eq_def]
  split
  · exact absurd rfl (h '-' rfl).1
  · exact absurd rfl (h '+' rfl).2
  · rfl

/-- A number is skipped as a whole or starts with a zero. -/
theorem head_leading {leading text : List Char} (hbase : base = 10 ∨ base = 16)
    (h : readBase base (leading ++ text) = (base, text)) :
    leading = [] ∨ (leading ++ text).head? = some '0' := by
  have hskip : base = 10 ∨ skipHexPrefix (leading ++ text) = text := by
    rcases hbase with rfl | rfl
    · exact Or.inl rfl
    · exact Or.inr (congrArg Prod.snd h)
  rcases hskip with rfl | hskip
  · exact Or.inl (List.append_left_eq_self.mp (congrArg Prod.snd h))
  · by_cases hzero : (leading ++ text).head? = some '0'
    · exact Or.inr hzero
    · cases leading with
      | nil => exact Or.inl rfl
      | cons d ds =>
          rw [List.cons_append, skipHexPrefix_of_ne (fun heq => hzero (by rw [heq]; rfl))] at hskip
          have hlength := congrArg List.length hskip
          rw [List.length_cons, List.length_append] at hlength
          omega

theorem readDigits_of_isSome {digits rest : List Char} (value : ℕ)
    (hdigits : ∀ c ∈ digits, (digit? base c).isSome) (hrest : Stops base rest) :
    readDigits base value (digits ++ rest) = ((readDigits base value digits).1, rest) := by
  induction digits generalizing value with
  | nil => exact readDigits_of_stops hrest
  | cons c cs ih =>
      obtain ⟨d, hd⟩ := Option.isSome_iff_exists.mp (hdigits c List.mem_cons_self)
      rw [List.cons_append, readDigits, readDigits, hd]
      exact ih _ fun c hc => hdigits c (List.mem_cons_of_mem _ hc)

/-- The number in front is what is read. -/
theorem Leads.strtol_eq {text rest : List Char} {n : ℤ} (hbase : base = 10 ∨ base = 16)
    (h : Leads base text n rest) : strtol base text = (n, rest) := by
  obtain ⟨blanks, sign, leading, digits, hblanks, hsign, hskip, hne, hdigits, hstops, rfl, rfl⟩ := h
  obtain ⟨c, cs, rfl⟩ := List.exists_cons_of_ne_nil hne
  have hc := hdigits c List.mem_cons_self
  -- The first character behind the sign is a digit.
  have hhead : ∀ d ∈ (leading ++ (c :: cs) ++ rest).head?, (digit? base d).isSome := by
    intro d hd
    rw [List.append_assoc] at hskip hd
    rcases head_leading hbase hskip with rfl | hzero
    · cases hd
      exact hc
    · rw [hzero] at hd
      cases hd
      rcases hbase with rfl | rfl <;> rfl
  have hread : readSign (sign ++ (leading ++ (c :: cs) ++ rest)) =
      (decide (sign = ['-']), leading ++ (c :: cs) ++ rest) := by
    simp only [List.mem_cons, List.not_mem_nil, or_false] at hsign
    rcases hsign with rfl | rfl | rfl
    · apply readSign_of_ne
      intro d hd
      have hdigit := hhead d hd
      exact ⟨ne_of_digit hdigit (digit?_eq_none (by decide)),
        ne_of_digit hdigit (digit?_eq_none (by decide))⟩
    · rfl
    · rfl
  have hstart : (blanks ++ (sign ++ (leading ++ (c :: cs) ++ rest))).dropWhile isSpace =
      sign ++ (leading ++ (c :: cs) ++ rest) := by
    apply dropWhile_blanks hblanks
    intro d hd
    simp only [List.mem_cons, List.not_mem_nil, or_false] at hsign
    rcases hsign with rfl | rfl | rfl
    · exact isSpace_eq_false (hhead d hd)
    · cases hd
      rfl
    · cases hd
      rfl
  have hfirst : (c :: cs ++ rest).head?.bind (digit? base) ≠ none :=
    Option.isSome_iff_ne_none.mp hc
  simp only [strtol, hstart, hread, hskip, if_neg hfirst, readDigits_of_isSome 0 hdigits hstops]

theorem exists_sign (text : List Char) :
    ∃ sign ∈ [[], ['-'], ['+']], ∃ rest, text = sign ++ rest ∧
      readSign text = (decide (sign = ['-']), rest) := by
  rw [readSign.eq_def]
  split
  · exact ⟨['-'], by simp, _, rfl, rfl⟩
  · exact ⟨['+'], by simp, _, rfl, rfl⟩
  · exact ⟨[], by simp, _, rfl, rfl⟩

theorem exists_leading (hbase : base = 10 ∨ base = 16) (text : List Char) :
    ∃ leading rest, text = leading ++ rest ∧ readBase base text = (base, rest) := by
  rcases hbase with rfl | rfl
  · exact ⟨[], text, rfl, rfl⟩
  · obtain ⟨leading, hleading⟩ := skipHexPrefix_suffix text
    exact ⟨leading, skipHexPrefix text, hleading.symm, rfl⟩

theorem exists_digits (base : ℕ) (text : List Char) :
    ∃ digits rest, text = digits ++ rest ∧ (∀ c ∈ digits, (digit? base c).isSome) ∧
      Stops base rest := by
  refine ⟨text.takeWhile fun c => (digit? base c).isSome,
    text.dropWhile fun c => (digit? base c).isSome, List.takeWhile_append_dropWhile.symm,
    fun c hc => ?_, fun c hc => ?_⟩
  · exact @List.mem_takeWhile_imp _ (fun c => (digit? base c).isSome) _ _ hc
  have hnot := List.head?_dropWhile_not (fun c => (digit? base c).isSome) text
  rw [hc] at hnot
  simpa using hnot

theorem Leads.length_lt {text rest : List Char} {n : ℤ} (h : Leads base text n rest) :
    rest.length < text.length := by
  obtain ⟨blanks, sign, leading, digits, -, -, -, hne, -, -, rfl, -⟩ := h
  have hpos := List.length_pos_iff.mpr hne
  simp only [List.length_append]
  omega

/-- Where no number is in front nothing is read. -/
theorem strtol_eq_or_leads (hbase : base = 10 ∨ base = 16) (text : List Char) :
    strtol base text = (0, text) ∨ ∃ n rest, Leads base text n rest := by
  obtain ⟨sign, hsign, unsigned, hunsigned, hreadSign⟩ := exists_sign (text.dropWhile isSpace)
  obtain ⟨leading, numeral, hnumeral, hreadBase⟩ := exists_leading hbase unsigned
  obtain ⟨digits, rest, rfl, hdigits, hstops⟩ := exists_digits base numeral
  by_cases hne : digits = []
  · subst hne
    have hnone : ([] ++ rest).head?.bind (digit? base) = none := Option.bind_eq_none_iff.mpr hstops
    left
    simp only [strtol, hreadSign, hreadBase, if_pos hnone]
  · right
    refine ⟨_, rest, text.takeWhile isSpace, sign, leading, digits,
      fun d hd => List.mem_takeWhile_imp hd, hsign, ?_, hne, hdigits, hstops, ?_, rfl⟩
    · rw [List.append_assoc, ← hnumeral]
      exact hreadBase
    · rw [List.append_assoc leading, ← hnumeral, ← hunsigned]
      exact List.takeWhile_append_dropWhile.symm

/-! ## The loop -/

/-- A text starts with numbers and commas: each field is the number, zero if there is none,
and whether a comma follows it. -/
inductive Reads (base : ℕ) : List Char → List (ℤ × Bool) → List Char → Prop
  | done (text : List Char) : Reads base text [] text
  | comma {text rest : List Char} {fields : List (ℤ × Bool)} :
      Reads base text fields rest → Reads base (',' :: text) ((0, true) :: fields) rest
  | number {text next rest : List Char} {n : ℤ} {fields : List (ℤ × Bool)} :
      Leads base text n next → next.head? ≠ some ',' → Reads base next fields rest →
        Reads base text ((n, false) :: fields) rest
  | separated {text next rest : List Char} {n : ℤ} {fields : List (ℤ × Bool)} :
      Leads base text n (',' :: next) → Reads base next fields rest →
        Reads base text ((n, true) :: fields) rest

/-- Neither a number nor a comma is in front. -/
def Stuck (base : ℕ) (text : List Char) : Prop :=
  text ≠ [] ∧ text.head? ≠ some ',' ∧ strtol base text = (0, text)

theorem exists_reads (hbase : base = 10 ∨ base = 16) (text : List Char) :
    ∃ fields rest, Reads base text fields rest ∧ (rest = [] ∨ Stuck base rest) := by
  induction hlength : text.length using Nat.strong_induction_on generalizing text with
  | h length ih =>
      subst hlength
      by_cases hnil : text = []
      · exact ⟨[], text, .done text, Or.inl hnil⟩
      · by_cases hcomma : text.head? = some ','
        · obtain ⟨next, rfl⟩ := List.head?_eq_some_iff.mp hcomma
          obtain ⟨fields, rest, hreads, hrest⟩ := ih _ (Nat.lt_succ_self _) next rfl
          exact ⟨_, rest, hreads.comma, hrest⟩
        · rcases strtol_eq_or_leads hbase text with hnone | ⟨n, next, hleads⟩
          · exact ⟨[], text, .done text, Or.inr ⟨hnil, hcomma, hnone⟩⟩
          · have hless := hleads.length_lt
            by_cases hnext : next.head? = some ','
            · obtain ⟨next, rfl⟩ := List.head?_eq_some_iff.mp hnext
              obtain ⟨fields, rest, hreads, hrest⟩ :=
                ih _ ((Nat.lt_succ_self _).trans hless) next rfl
              exact ⟨_, rest, hreads.separated hleads, hrest⟩
            · obtain ⟨fields, rest, hreads, hrest⟩ := ih _ hless next rfl
              exact ⟨_, rest, hreads.number hleads hnext, hrest⟩

/-! ## Lists that are well formed -/

/-- The fields of a list: a comma follows each number but the last. -/
def separate : List ℤ → List (ℤ × Bool)
  | [] => []
  | [n] => [(n, false)]
  | n :: m :: numbers => (n, true) :: separate (m :: numbers)

theorem Numeral.leads {text : List Char} {n : ℤ} (hbase : base = 10 ∨ base = 16)
    (h : Numeral base text n) : Leads base text n [] := by
  rcases strtol_eq_or_leads hbase text with hnone | ⟨m, rest, hleads⟩
  · rw [h.2] at hnone
    exact absurd (Prod.mk.inj hnone).2.symm h.1
  · have hread := hleads.strtol_eq hbase
    rw [h.2] at hread
    obtain ⟨rfl, rfl⟩ := Prod.mk.inj hread
    exact hleads

theorem Leads.append_comma {text : List Char} {n : ℤ} (hbase : base = 10 ∨ base = 16)
    (h : Leads base text n []) (rest : List Char) :
    Leads base (text ++ ',' :: rest) n (',' :: rest) := by
  obtain ⟨blanks, sign, leading, digits, hblanks, hsign, hskip, hne, hdigits, -, rfl, hn⟩ := h
  refine ⟨blanks, sign, leading, digits, hblanks, hsign, ?_, hne, hdigits,
    stops_cons (digit?_eq_none (by decide)), by simp, hn⟩
  rw [List.append_nil] at hskip
  rcases hbase with rfl | rfl
  · have heq : leading ++ digits = digits := congrArg Prod.snd hskip |>.trans (List.append_nil _)
    rw [heq]
    rfl
  · have heq : skipHexPrefix (leading ++ digits) = digits :=
      congrArg Prod.snd hskip |>.trans (List.append_nil _)
    have hnil : leading ++ digits ≠ [] := List.append_ne_nil_of_right_ne_nil leading hne
    change (16, skipHexPrefix (leading ++ digits ++ ',' :: rest)) = _
    rw [skipHexPrefix_append hnil rfl (by decide), heq]

/-- Numerals with commas between them are read one after the other. -/
theorem reads_intercalate (hbase : base = 10 ∨ base = 16) {texts : List (List Char)}
    {numbers : List ℤ} (h : List.Forall₂ (Numeral base) texts numbers) :
    Reads base ([','].intercalate texts) (separate numbers) [] := by
  induction h with
  | nil => exact .done []
  | @cons text n texts numbers htext hrest ih =>
      have hleads := htext.leads hbase
      cases hrest with
      | nil =>
          rw [List.intercalate_singleton]
          exact .number hleads nofun (.done [])
      | @cons text' n' texts numbers htext' hrest =>
          rw [List.intercalate_cons_of_ne_nil (List.cons_ne_nil _ _), List.append_assoc]
          exact .separated (hleads.append_comma hbase _) ih

section

variable {σ α : Type*} (base) (going : σ → Bool) (exit : σ → α) (body : σ → ℤ → Bool → α ⊕ σ)

/-- A turn of the loop. The body gets the number and whether a comma follows it. -/
def listTurn : List Char × σ → α ⊕ (List Char × σ)
  | (pos, s) =>
      if pos = [] ∨ going s = false then .inl (exit s)
      else
        let read := strtol base pos
        let comma := decide (read.2.head? = some ',')
        (body s read.1 comma).map id fun s' => (if comma then read.2.tail else read.2, s')

/-- The bodies of the turns that read the fields. -/
def feed : σ → List (ℤ × Bool) → α ⊕ σ
  | s, [] => .inr s
  | s, (n, comma) :: fields =>
      if going s then
        match body s n comma with
        | .inl a => .inl a
        | .inr s' => feed s' fields
      else .inl (exit s)

variable {base going exit body} {text next rest : List Char} {fields : List (ℤ × Bool)}

theorem strtol_comma (hbase : base = 10 ∨ base = 16) (text : List Char) :
    strtol base (',' :: text) = (0, ',' :: text) := by
  have hread : readBase base (',' :: text) = (base, ',' :: text) := by
    rcases hbase with rfl | rfl
    · rfl
    · exact congrArg (Prod.mk 16) (skipHexPrefix_of_ne (by decide))
  have hsign : readSign ((',' :: text).dropWhile isSpace) = (false, ',' :: text) := rfl
  have hdigit : (',' :: text).head?.bind (digit? base) = none := digit?_eq_none (by decide)
  simp only [strtol, hsign, hread, if_pos hdigit]

theorem listTurn_of_read {s : σ} {n : ℤ} (hpos : text ≠ []) (hgoing : going s = true)
    (hread : strtol base text = (n, rest)) :
    listTurn base going exit body (text, s) =
      (body s n (decide (rest.head? = some ','))).map id fun s' =>
        (if rest.head? = some ',' then rest.tail else rest, s') := by
  simp [listTurn, hpos, hgoing, hread]

/-- One field: the turn reads it, and the loop goes on behind it. -/
theorem returns_field {n : ℤ} {comma : Bool} {s : σ} {a : α} {outcome : σ → Prop}
    (hturn : going s = true → listTurn base going exit body (text, s) =
      (body s n comma).map id fun s' => (next, s'))
    (hnext : ∀ s, WhileLoop.Returns (listTurn base going exit body) (next, s) a ↔
      (feed going exit body s fields).elim (· = a) outcome) :
    WhileLoop.Returns (listTurn base going exit body) (text, s) a ↔
      (feed going exit body s ((n, comma) :: fields)).elim (· = a) outcome := by
  rw [feed]
  by_cases hgoing : going s = true
  · rw [if_pos hgoing]
    have hturn := hturn hgoing
    cases hbody : body s n comma with
    | inl b =>
        rw [hbody] at hturn
        exact WhileLoop.returns_of_inl hturn
    | inr s' =>
        rw [hbody] at hturn
        exact (WhileLoop.returns_of_inr hturn).trans (hnext s')
  · rw [if_neg hgoing]
    apply WhileLoop.returns_of_inl
    simp [listTurn, hgoing]

/-- The loop goes through the fields. -/
theorem returns_reads (hbase : base = 10 ∨ base = 16) (h : Reads base text fields rest) (s : σ)
    (a : α) :
    WhileLoop.Returns (listTurn base going exit body) (text, s) a ↔
      (feed going exit body s fields).elim (· = a) fun s' =>
        WhileLoop.Returns (listTurn base going exit body) (rest, s') a := by
  induction h generalizing s with
  | done text => rfl
  | comma hreads ih =>
      apply returns_field (fun hgoing => ?_) ih
      exact listTurn_of_read (List.cons_ne_nil _ _) hgoing (strtol_comma hbase _)
  | number hleads hnext hreads ih =>
      have hpos := List.ne_nil_of_length_pos (Nat.zero_lt_of_lt hleads.length_lt)
      apply returns_field (fun hgoing => ?_) ih
      rw [listTurn_of_read hpos hgoing (hleads.strtol_eq hbase), decide_eq_false hnext]
      simp only [if_neg hnext]
  | separated hleads hreads ih =>
      have hpos := List.ne_nil_of_length_pos (Nat.zero_lt_of_lt hleads.length_lt)
      apply returns_field (fun hgoing => ?_) ih
      exact listTurn_of_read hpos hgoing (hleads.strtol_eq hbase)

theorem returns_of_feed (hbase : base = 10 ∨ base = 16) (h : Reads base text fields rest) {s : σ}
    {a : α} (hfeed : feed going exit body s fields = .inl a) :
    WhileLoop.Returns (listTurn base going exit body) (text, s) a := by
  rw [returns_reads hbase h, hfeed]
  rfl

theorem terminates_iff_of_feed (hbase : base = 10 ∨ base = 16) (h : Reads base text fields rest)
    {s s' : σ} (hfeed : feed going exit body s fields = .inr s') :
    WhileLoop.Terminates (listTurn base going exit body) (text, s) ↔
      WhileLoop.Terminates (listTurn base going exit body) (rest, s') := by
  apply exists_congr
  intro a
  rw [returns_reads hbase h, hfeed]
  rfl

/-- A text that consists of fields is read to its end. -/
theorem returns_iff_of_reads (hbase : base = 10 ∨ base = 16) (h : Reads base text fields []) {s : σ}
    {a : α} :
    WhileLoop.Returns (listTurn base going exit body) (text, s) a ↔
      (feed going exit body s fields).elim id exit = a := by
  rw [returns_reads hbase h]
  cases feed going exit body s fields with
  | inl a => rfl
  | inr s' =>
      have hend : listTurn base going exit body ([], s') = .inl (exit s') := rfl
      exact WhileLoop.returns_of_inl hend

/-- Where it is stuck, the body gets a zero over and over. -/
theorem listTurn_of_stuck (h : Stuck base text) {s : σ} (hgoing : going s = true) :
    listTurn base going exit body (text, s) =
      (body s 0 false).map id fun s' => (text, s') := by
  obtain ⟨hpos, hcomma, hread⟩ := h
  rw [listTurn_of_read hpos hgoing hread, if_neg hcomma, decide_eq_false hcomma]

/-- A body that never leaves the loop does not end where it is stuck. -/
theorem not_terminates_of_stuck {I : σ → Prop} (h : Stuck base text)
    (hbody : ∀ s, I s → going s = true ∧ ∃ s', body s 0 false = .inr s' ∧ I s') {s : σ}
    (hs : I s) : ¬ WhileLoop.Terminates (listTurn base going exit body) (text, s) := by
  apply WhileLoop.not_terminates (I := fun state => state.1 = text ∧ I state.2) ?_ ⟨rfl, hs⟩
  rintro ⟨pos, s⟩ ⟨rfl, hs⟩
  obtain ⟨hgoing, s', hnext, hI⟩ := hbody s hs
  refine ⟨(pos, s'), ?_, rfl, hI⟩
  rw [listTurn_of_stuck h hgoing, hnext]
  rfl

end

end NumberText
