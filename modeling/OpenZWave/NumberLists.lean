import OpenZWave.NodeCache
import OpenZWave.Lib.NumberList

/-!
# Lists of numbers in texts

The three loops over lists of numbers with commas between them: `ShouldSecureCommandClass` of
`ZWSecurity.cpp` reads the classes of the option `CustomSecuredCC`, the constructor of
`DeviceClass` the mandatory classes of an element, and `Node::ReadXML` the neighbors. A number
is read with `strtol`, a comma is skipped, and at any other character the loop stands still.
-/

namespace OpenZWave

open NumberText WhileLoop

inductive SecurityStrategy
  | essential | supported
  deriving DecidableEq, Repr

/-- The options that say which classes are secured. -/
structure SecurityOptions where
  securityStrategy : List Char
  customSecuredCC : List Char

/-- The loop over the classes of the option: the class that is asked for ends it. -/
def customBody (commandClass : UInt8) : Unit → ℤ → Bool → SecurityStrategy ⊕ Unit :=
  fun _ number _ =>
    if commandClass = UInt8.ofInt number then .inl .supported else .inr ()

def customTurn (commandClass : UInt8) :
    List Char × Unit → SecurityStrategy ⊕ (List Char × Unit) :=
  listTurn 16 (fun _ => true) (fun _ => .essential) (customBody commandClass)

/-- `ShouldSecureCommandClass`, with a bound on the turns of its loop. -/
def shouldSecureCommandClass (options : SecurityOptions) (commandClass : UInt8) (turns : ℕ) :
    Option SecurityStrategy :=
  let securestrategy := options.securityStrategy.map Char.toUpper
  if securestrategy = "ESSENTIAL".toList then some .essential
  else if securestrategy = "SUPPORTED".toList then some .supported
  else if securestrategy = "CUSTOM".toList then
    run (customTurn commandClass) turns (cStr options.customSecuredCC, ())
  else some .essential

/-- The classes of a generic or specific type of devices. -/
structure DeviceClass where
  label : List Char
  /-- With a zero at the end. -/
  mandatoryCommandClasses : Option (List UInt8)
  basicMapping : UInt8
  deriving DecidableEq, Repr

def mandatoryBody (ccs : List UInt8) (number : ℤ) (_ : Bool) : List UInt8 ⊕ List UInt8 :=
  .inr (ccs ++ [UInt8.ofInt number])

def mandatoryTurn : List Char × List UInt8 → List UInt8 ⊕ (List Char × List UInt8) :=
  listTurn 16 (fun _ => true) id mandatoryBody

/-- What the element says, with the classes that the loop has read. -/
def DeviceClass.ofElement (element : TiXmlElement) (mandatory : Option (List UInt8)) :
    DeviceClass where
  label := (element.getAttribute "label").getD []
  mandatoryCommandClasses := mandatory
  basicMapping := ((element.getAttribute "basic").map fun str =>
    UInt8.ofInt (strtol 16 str).1).getD 0

/-- `DeviceClass::DeviceClass`, with a bound on the turns of its loop. -/
def DeviceClass.create (element : TiXmlElement) (turns : ℕ) : Option DeviceClass :=
  match element.getAttribute "command_classes" with
  | none => some (.ofElement element none)
  | some str =>
      (run mandatoryTurn turns (str, [])).map fun ccs => .ofElement element (some (ccs ++ [0]))

def neighborsBody (state : ℕ × Vector UInt8 29) (number : ℤ) (comma : Bool) :
    Vector UInt8 29 ⊕ (ℕ × Vector UInt8 29) :=
  .inr (if comma then state.1 + 1 else state.1,
    state.2.setIfInBounds state.1 (UInt8.ofInt number))

/-- A turn of the loop over the neighbors. -/
def neighborsTurn : List Char × (ℕ × Vector UInt8 29) →
    Vector UInt8 29 ⊕ (List Char × (ℕ × Vector UInt8 29)) :=
  listTurn 10 (fun state => decide (state.1 < 29)) Prod.snd neighborsBody

namespace NodeData

theorem neighborsTurn_of_going {pos : List Char} {i : ℕ} {neighbors : Vector UInt8 29}
    (hgoing : ¬ (pos = [] ∨ 29 ≤ i)) :
    neighborsTurn (pos, i, neighbors) =
      .inr (if (strtol 10 pos).2.head? = some ',' then (strtol 10 pos).2.tail
          else (strtol 10 pos).2,
        if (strtol 10 pos).2.head? = some ',' then i + 1 else i,
        neighbors.setIfInBounds i (UInt8.ofInt (strtol 10 pos).1)) := by
  obtain ⟨hpos, hi⟩ := not_or.mp hgoing
  have hread : strtol 10 pos = ((strtol 10 pos).1, (strtol 10 pos).2) := rfl
  rw [neighborsTurn, listTurn_of_read hpos ?_ hread]
  · simp [neighborsBody]
  · exact decide_eq_true (Nat.not_le.mp hi)

/-- `readNeighbors` is the result of the loop, if there is one. -/
theorem readNeighbors_eq_some_iff {pos : List Char} {i : ℕ} {neighbors result : Vector UInt8 29} :
    readNeighbors pos i neighbors = some result ↔
      Returns neighborsTurn (pos, i, neighbors) result := by
  fun_induction readNeighbors pos i neighbors with
  | case1 pos i neighbors hend =>
      have hstop : neighborsTurn (pos, i, neighbors) = .inl neighbors := by
        apply if_pos
        simpa using hend
      rw [returns_of_inl hstop, Option.some_inj]
  | case2 pos i neighbors hgoing read after hcomma ih =>
      have hturn := @neighborsTurn_of_going _ _ neighbors hgoing
      rw [if_pos hcomma, if_pos hcomma] at hturn
      rw [ih, returns_of_inr hturn]
  | case3 pos i neighbors hgoing read after hcomma hless ih =>
      have hturn := @neighborsTurn_of_going _ _ neighbors hgoing
      rw [if_neg hcomma, if_neg hcomma] at hturn
      rw [ih, returns_of_inr hturn]
  | case4 pos i neighbors hgoing read hcomma hless =>
      obtain ⟨hpos, hi⟩ := not_or.mp hgoing
      have hread : strtol 10 pos = (0, pos) := by
        rcases strtol_eq_or_leads (Or.inl rfl) pos with hnone | ⟨n, rest, hleads⟩
        · exact hnone
        · have hsome := hleads.strtol_eq (Or.inl rfl)
          have hshort : (strtol 10 pos).2.length < pos.length := by
            rw [hsome]
            exact hleads.length_lt
          exact absurd hshort hless
      have hfirst : pos.head? ≠ some ',' := by
        have hrest : (strtol 10 pos).2.head? ≠ some ',' := hcomma
        rwa [hread] at hrest
      have hstuck : Stuck 10 pos := ⟨hpos, hfirst, hread⟩
      have hend : ¬ Terminates neighborsTurn (pos, i, neighbors) := by
        apply not_terminates_of_stuck hstuck (I := fun state => state.1 < 29) ?_
          (Nat.not_le.mp hi)
        exact fun state hstate => ⟨decide_eq_true hstate, _, rfl, hstate⟩
      exact ⟨nofun, fun hreturns => absurd ⟨result, hreturns⟩ hend⟩

end NodeData

/-! ## The bodies of the loops -/

theorem feed_custom (commandClass : UInt8) (fields : List (ℤ × Bool)) :
    feed (fun _ => true) (fun _ => .essential) (customBody commandClass) () fields =
      if ∃ field ∈ fields, commandClass = UInt8.ofInt field.1 then .inl .supported
      else .inr () := by
  induction fields with
  | nil => rfl
  | cons field fields ih =>
      rw [feed, if_pos rfl, customBody]
      by_cases hfirst : commandClass = UInt8.ofInt field.1
      · rw [if_pos hfirst, if_pos ⟨field, List.mem_cons_self, hfirst⟩]
      · rw [if_neg hfirst]
        refine ih.trans (if_congr ?_ rfl rfl)
        simp [hfirst]

theorem feed_mandatory (ccs : List UInt8) (fields : List (ℤ × Bool)) :
    feed (fun _ => true) id mandatoryBody ccs fields =
      .inr (ccs ++ fields.map fun field => UInt8.ofInt field.1) := by
  induction fields generalizing ccs with
  | nil => rw [List.map_nil, List.append_nil, feed]
  | cons field fields ih =>
      rw [feed, if_pos rfl, mandatoryBody]
      refine (ih _).trans ?_
      rw [List.append_assoc, List.singleton_append, List.map_cons]

/-- Each comma is one neighbor further, and up to the last one the loop goes on. -/
theorem feed_neighbors {i : ℕ} (neighbors : Vector UInt8 29) {fields : List (ℤ × Bool)}
    (hroom : i + fields.countP Prod.snd < 29) :
    ∃ after, feed (fun state => decide (state.1 < 29)) Prod.snd neighborsBody (i, neighbors)
      fields = .inr (i + fields.countP Prod.snd, after) := by
  induction fields generalizing i neighbors with
  | nil => exact ⟨neighbors, rfl⟩
  | cons field fields ih =>
      have hi : decide (i < 29) = true := decide_eq_true (by omega)
      rw [feed, if_pos hi, neighborsBody]
      cases hcomma : field.2 with
      | false =>
          rw [List.countP_cons_of_neg (by simp [hcomma])] at hroom ⊢
          exact ih _ hroom
      | true =>
          rw [List.countP_cons_of_pos hcomma] at hroom ⊢
          obtain ⟨after, hafter⟩ := ih (i := i + 1)
            (neighbors.setIfInBounds i (UInt8.ofInt field.1)) (by omega)
          exact ⟨after, hafter.trans (by rw [Nat.add_right_comm, Nat.add_assoc])⟩

/-- The place that the loop has come to when it goes on. -/
theorem feed_neighbors_place {i : ℕ} {neighbors : Vector UInt8 29} {fields : List (ℤ × Bool)}
    {state : ℕ × Vector UInt8 29}
    (h : feed (fun state => decide (state.1 < 29)) Prod.snd neighborsBody (i, neighbors)
      fields = .inr state) : state.1 = i + fields.countP Prod.snd := by
  induction fields generalizing i neighbors with
  | nil =>
      cases h
      rfl
  | cons field fields ih =>
      rw [feed] at h
      by_cases hi : decide (i < 29) = true
      · rw [if_pos hi, neighborsBody] at h
        cases hcomma : field.2 with
        | false =>
            rw [hcomma] at h
            rw [List.countP_cons_of_neg (by simp [hcomma])]
            exact ih h
        | true =>
            rw [hcomma] at h
            rw [List.countP_cons_of_pos hcomma, ih h]
            simp only [if_true]
            omega
      · rw [if_neg hi] at h
        cases h

/-! ## Which texts end the loops -/

/-- The loop over the option ends at the class that is asked for or at the end of the text;
class zero is what is read where the loop stands still. -/
theorem terminates_customTurn_iff (commandClass : UInt8) (text : List Char) :
    Terminates (customTurn commandClass) (text, ()) ↔
      ∃ fields rest, Reads 16 text fields rest ∧
        (rest = [] ∨ commandClass = 0 ∨ ∃ field ∈ fields, commandClass = UInt8.ofInt field.1) := by
  obtain ⟨fields, rest, hreads, hrest⟩ := exists_reads (Or.inr rfl) text
  have hfeed := feed_custom commandClass fields
  constructor
  · intro hends
    refine ⟨fields, rest, hreads, ?_⟩
    by_cases hlisted : ∃ field ∈ fields, commandClass = UInt8.ofInt field.1
    · exact Or.inr (Or.inr hlisted)
    · rw [if_neg hlisted] at hfeed
      refine hrest.imp id fun hstuck => Or.inl ?_
      by_contra hzero
      apply not_terminates_of_stuck hstuck (I := fun _ => True) ?_ trivial
        ((terminates_iff_of_feed (Or.inr rfl) hreads hfeed).mp hends)
      exact fun s _ => ⟨rfl, s, if_neg hzero, trivial⟩
  · rintro ⟨fields', rest', hreads', rfl | rfl | hlisted⟩
    · exact ⟨_, (returns_iff_of_reads (Or.inr rfl) hreads').mpr rfl⟩
    · by_cases hlisted : ∃ field ∈ fields, 0 = UInt8.ofInt field.1
      · rw [if_pos hlisted] at hfeed
        exact ⟨_, returns_of_feed (Or.inr rfl) hreads hfeed⟩
      · rw [if_neg hlisted] at hfeed
        apply (terminates_iff_of_feed (Or.inr rfl) hreads hfeed).mpr
        rcases hrest with rfl | hstuck
        · exact terminates_of_inl rfl
        · exact terminates_of_inl (listTurn_of_stuck hstuck rfl)
    · have hfeed' := feed_custom commandClass fields'
      rw [if_pos hlisted] at hfeed'
      exact ⟨_, returns_of_feed (Or.inr rfl) hreads' hfeed'⟩

theorem terminates_mandatoryTurn_iff (text : List Char) (ccs : List UInt8) :
    Terminates mandatoryTurn (text, ccs) ↔ ∃ fields, Reads 16 text fields [] := by
  constructor
  · intro hends
    obtain ⟨fields, rest, hreads, rfl | hstuck⟩ := exists_reads (Or.inr rfl) text
    · exact ⟨fields, hreads⟩
    · exfalso
      apply not_terminates_of_stuck hstuck (I := fun _ => True) ?_ trivial
        ((terminates_iff_of_feed (Or.inr rfl) hreads (feed_mandatory ccs fields)).mp hends)
      exact fun ccs _ => ⟨rfl, ccs ++ [UInt8.ofInt 0], rfl, trivial⟩
  · rintro ⟨fields, hreads⟩
    exact ⟨_, (returns_iff_of_reads (Or.inr rfl) hreads).mpr rfl⟩

/-- The loop over the neighbors also ends after as many commas as there are bytes. -/
theorem terminates_neighborsTurn_iff (text : List Char) (neighbors : Vector UInt8 29) :
    Terminates neighborsTurn (text, 0, neighbors) ↔
      ∃ fields rest, Reads 10 text fields rest ∧ (rest = [] ∨ 29 ≤ fields.countP Prod.snd) := by
  constructor
  · intro hends
    obtain ⟨fields, rest, hreads, rfl | hstuck⟩ := exists_reads (Or.inl rfl) text
    · exact ⟨fields, [], hreads, Or.inl rfl⟩
    · refine ⟨fields, rest, hreads, Or.inr (Nat.not_lt.mp fun hroom => ?_)⟩
      have hroom' : 0 + fields.countP Prod.snd < 29 := by omega
      obtain ⟨after, hfeed⟩ := feed_neighbors neighbors hroom'
      apply not_terminates_of_stuck hstuck (I := fun state => state.1 < 29) ?_ hroom'
        ((terminates_iff_of_feed (Or.inl rfl) hreads hfeed).mp hends)
      exact fun state hstate => ⟨decide_eq_true hstate, _, rfl, hstate⟩
  · rintro ⟨fields, rest, hreads, rfl | hfull⟩
    · exact ⟨_, (returns_iff_of_reads (Or.inl rfl) hreads).mpr rfl⟩
    · cases hfeed : feed (fun state => decide (state.1 < 29)) Prod.snd neighborsBody
        (0, neighbors) fields with
      | inl result => exact ⟨result, returns_of_feed (Or.inl rfl) hreads hfeed⟩
      | inr state =>
          have hplace := feed_neighbors_place hfeed
          apply (terminates_iff_of_feed (Or.inl rfl) hreads hfeed).mpr
          apply terminates_of_inl (a := state.2)
          apply if_pos
          right
          exact decide_eq_false (by omega)

/-! ## Lists that are well formed -/

/-- The neighbors from a place on are those of the list. -/
theorem feed_separate (numbers : List ℤ) (i : ℕ) (neighbors : Vector UInt8 29) {j : ℕ}
    (hj : j < 29) :
    ((feed (fun state => decide (state.1 < 29)) Prod.snd neighborsBody (i, neighbors)
      (separate numbers)).elim id Prod.snd)[j] =
      if i ≤ j then (numbers[j - i]?.map UInt8.ofInt).getD neighbors[j] else neighbors[j] := by
  fun_induction separate numbers generalizing i neighbors with
  | case1 => simp [feed]
  | case2 n =>
      by_cases hi : i < 29
      · rw [feed, if_pos (decide_eq_true hi)]
        change (neighbors.setIfInBounds i (UInt8.ofInt n))[j] = _
        rw [Vector.getElem_setIfInBounds hj]
        rcases Nat.lt_trichotomy i j with hlt | rfl | hgt
        · rw [if_neg (by omega), if_pos hlt.le, List.getElem?_eq_none (by simp; omega)]
          rfl
        · simp
        · rw [if_neg (by omega), if_neg (by omega)]
      · rw [feed, if_neg (by simpa using hi), if_neg (by omega)]
        rfl
  | case3 n m numbers ih =>
      by_cases hi : i < 29
      · rw [feed, if_pos (decide_eq_true hi)]
        refine (ih (i + 1) (neighbors.setIfInBounds i (UInt8.ofInt n))).trans ?_
        rw [Vector.getElem_setIfInBounds hj]
        rcases Nat.lt_trichotomy i j with hlt | rfl | hgt
        · have hshift : j - i = j - (i + 1) + 1 := by omega
          rw [if_pos (Nat.succ_le_of_lt hlt), if_neg (by omega), if_pos hlt.le, hshift,
            List.getElem?_cons_succ]
        · simp
        · rw [if_neg (by omega), if_neg (by omega), if_neg (by omega)]
      · rw [feed, if_neg (by simpa using hi), if_neg (by omega)]
        rfl

theorem map_fst_separate (numbers : List ℤ) : (separate numbers).map Prod.fst = numbers := by
  fun_induction separate numbers with
  | case1 => rfl
  | case2 n => rfl
  | case3 n m numbers ih => exact congrArg (n :: ·) ih

/-- A byte of the list is the number that is asked for. -/
theorem eq_ofInt_iff {commandClass : UInt8} {n : ℤ} (hlow : 0 ≤ n) (hhigh : n < 256) :
    commandClass = UInt8.ofInt n ↔ (commandClass.toNat : ℤ) = n := by
  have hbyte : ((UInt8.ofInt n).toNat : ℤ) = n := by
    rw [UInt8.ofInt, UInt8.toNat_ofNat']
    omega
  rw [← UInt8.toNat_inj]
  omega

/-- The texts of a list whose numbers are bytes. -/
def ListsBytes (base : ℕ) (text : List Char) (numbers : List ℤ) : Prop :=
  (∃ texts, text = [','].intercalate texts ∧ List.Forall₂ (Numeral base) texts numbers) ∧
    ∀ n ∈ numbers, 0 ≤ n ∧ n < 256

theorem ListsBytes.reads {base : ℕ} (hbase : base = 10 ∨ base = 16) {text : List Char}
    {numbers : List ℤ} (h : ListsBytes base text numbers) :
    Reads base text (separate numbers) [] := by
  obtain ⟨⟨texts, rfl, htexts⟩, -⟩ := h
  exact reads_intercalate hbase htexts

theorem returns_customTurn {commandClass : UInt8} {text : List Char} {numbers : List ℤ}
    (h : ListsBytes 16 text numbers) (strategy : SecurityStrategy) :
    Returns (customTurn commandClass) (text, ()) strategy ↔
      strategy = if (commandClass.toNat : ℤ) ∈ numbers then .supported else .essential := by
  have hlisted : (∃ field ∈ separate numbers, commandClass = UInt8.ofInt field.1) ↔
      (commandClass.toNat : ℤ) ∈ numbers := by
    constructor
    · rintro ⟨field, hfield, hclass⟩
      have hmem := List.mem_map_of_mem (f := Prod.fst) hfield
      rw [map_fst_separate] at hmem
      obtain ⟨hlow, hhigh⟩ := h.2 _ hmem
      exact (eq_ofInt_iff hlow hhigh).mp hclass ▸ hmem
    · intro hmem
      obtain ⟨hlow, hhigh⟩ := h.2 _ hmem
      rw [← map_fst_separate numbers] at hmem
      obtain ⟨field, hfield, hclass⟩ := List.mem_map.mp hmem
      exact ⟨field, hfield, hclass ▸ (eq_ofInt_iff hlow hhigh).mpr rfl⟩
  rw [customTurn, returns_iff_of_reads (Or.inr rfl) (h.reads (Or.inr rfl)), feed_custom,
    if_congr hlisted rfl rfl, eq_comm]
  split <;> rfl

theorem returns_mandatoryTurn {text : List Char} {numbers : List ℤ}
    (h : ListsBytes 16 text numbers) (ccs : List UInt8) :
    Returns mandatoryTurn (text, []) ccs ↔ ccs = numbers.map UInt8.ofInt := by
  have hbytes : (separate numbers).map (fun field => UInt8.ofInt field.1) =
      numbers.map UInt8.ofInt := by
    rw [← congrArg (List.map UInt8.ofInt) (map_fst_separate numbers), List.map_map]
    rfl
  rw [mandatoryTurn, returns_iff_of_reads (Or.inr rfl) (h.reads (Or.inr rfl)), feed_mandatory,
    Sum.elim_inr, id, List.nil_append, hbytes, eq_comm]

/-! ## The three lists -/

/-- The loops end exactly where every character up to the place where they stop is part of a
number or a comma, and yield the numbers of a list of bytes: the classes that are secured, the
mandatory classes and the neighbors. -/
theorem lists_read_iff (options : SecurityOptions) (element : TiXmlElement)
    (neighborList : List Char) (neighbors : Vector UInt8 29) :
    (options.securityStrategy.map Char.toUpper = "CUSTOM".toList →
      (∀ commandClass,
        (∃ turns strategy, shouldSecureCommandClass options commandClass turns = some strategy) ↔
          ∃ fields rest, Reads 16 (cStr options.customSecuredCC) fields rest ∧
            (rest = [] ∨ commandClass = 0 ∨
              ∃ field ∈ fields, commandClass = UInt8.ofInt field.1)) ∧
      ∀ numbers, ListsBytes 16 (cStr options.customSecuredCC) numbers → ∀ commandClass strategy,
        (∃ turns, shouldSecureCommandClass options commandClass turns = some strategy) ↔
          strategy = if (commandClass.toNat : ℤ) ∈ numbers then .supported else .essential) ∧
    (∀ str, element.getAttribute "command_classes" = some str →
      ((∃ turns created, DeviceClass.create element turns = some created) ↔
        ∃ fields, Reads 16 str fields []) ∧
      ∀ numbers, ListsBytes 16 str numbers → ∀ created,
        (∃ turns, DeviceClass.create element turns = some created) ↔
          created = .ofElement element (some (numbers.map UInt8.ofInt ++ [0]))) ∧
    ((∃ result, NodeData.readNeighbors (cStr neighborList) 0 neighbors = some result) ↔
      ∃ fields rest, Reads 10 (cStr neighborList) fields rest ∧
        (rest = [] ∨ 29 ≤ fields.countP Prod.snd)) ∧
    ∀ numbers, ListsBytes 10 (cStr neighborList) numbers →
      ∃ result, NodeData.readNeighbors (cStr neighborList) 0 neighbors = some result ∧
        ∀ j (hj : j < 29), result[j] = (numbers[j]?.map UInt8.ofInt).getD neighbors[j] := by
  refine ⟨fun hcustom => ?_, fun str hstr => ?_, ?_, fun numbers hlist => ?_⟩
  · have hrun : ∀ commandClass turns, shouldSecureCommandClass options commandClass turns =
        run (customTurn commandClass) turns (cStr options.customSecuredCC, ()) := by
      intro commandClass turns
      rw [shouldSecureCommandClass, hcustom]
      rfl
    simp only [hrun]
    refine ⟨fun commandClass => ?_, fun numbers hlist commandClass strategy => ?_⟩
    · rw [exists_comm]
      exact terminates_customTurn_iff commandClass _
    · exact returns_customTurn hlist strategy
  · have hcreate : ∀ turns, DeviceClass.create element turns =
        (run mandatoryTurn turns (str, [])).map fun ccs =>
          DeviceClass.ofElement element (some (ccs ++ [0])) := by
      intro turns
      rw [DeviceClass.create, hstr]
    simp only [hcreate, Option.map_eq_some_iff]
    refine ⟨?_, fun numbers hlist created => ?_⟩
    · rw [← terminates_mandatoryTurn_iff str []]
      constructor
      · rintro ⟨turns, -, ccs, hccs, -⟩
        exact ⟨ccs, turns, hccs⟩
      · rintro ⟨ccs, turns, hccs⟩
        exact ⟨turns, _, ccs, hccs, rfl⟩
    · constructor
      · rintro ⟨turns, ccs, hccs, rfl⟩
        rw [(returns_mandatoryTurn hlist ccs).mp ⟨turns, hccs⟩]
      · rintro rfl
        obtain ⟨turns, hccs⟩ := (returns_mandatoryTurn hlist _).mpr rfl
        exact ⟨turns, _, hccs, rfl⟩
  · simp only [NodeData.readNeighbors_eq_some_iff]
    exact terminates_neighborsTurn_iff _ neighbors
  · refine ⟨_, NodeData.readNeighbors_eq_some_iff.mpr
      ((returns_iff_of_reads (Or.inl rfl) (hlist.reads (Or.inl rfl))).mpr rfl), fun j hj => ?_⟩
    rw [feed_separate numbers 0 neighbors hj, if_pos (Nat.zero_le j), Nat.sub_zero]

/-- A semicolon between the classes of the option is never passed. -/
theorem list_never_read :
    ¬ ∃ turns strategy, shouldSecureCommandClass
      ⟨"CUSTOM".toList, "0x62;0x4c".toList⟩ 0x4c turns = some strategy := by
  rintro ⟨turns, strategy, hread⟩
  have hstuck : Stuck 16 ";0x4c".toList := ⟨by decide, by decide, rfl⟩
  have hfirst : customTurn 0x4c ("0x62;0x4c".toList, ()) = .inr (";0x4c".toList, ()) := rfl
  apply not_terminates_of_stuck hstuck (I := fun _ => True) ?_ trivial
    ⟨strategy, (returns_of_inr hfirst).mp ⟨turns, hread⟩⟩
  exact fun s _ => ⟨rfl, s, rfl, trivial⟩

end OpenZWave
