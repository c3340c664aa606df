import Chip8.Proofs.Cpu.Record
import Chip8.Proofs.Text.Words

/-!
# Reading a printed trace

A printed trace shows of each step only what is different after it: the registers that changed, the index register if
it changed, and where the program counter went if it did not just move on. A reader who knows the state before one of
the entries finds that entry among the printed lines and applies line by line what is printed from there on, and nothing
else, up to the heading of the final state. The reading is then what is printed under that heading: no change is left
out. Main statement: `reading_of_trace`.
-/

namespace Chip8

/-! ## The reader -/

/-- What a reader of a trace keeps: the registers by name, the index register and the program counter. -/
structure Reading where
  registers : List (String × Int)
  index : Int
  pc : Int
  deriving DecidableEq, Repr

namespace Reading

/-- What there is to read of a state. -/
def ofSnapshot (s : Snapshot) : Reading where
  registers := (Machine.namedRegisters s.registers).map fun (name, value) => (name, value.toNat)
  index := s.index
  pc := s.pc

/-- The reading as a final state is printed. -/
def lines (r : Reading) : List String :=
  ["  Registers: " ++ " ".intercalate (r.registers.map fun (name, value) => name ++ "=" ++ Text.hex 2 value),
   "  PC: " ++ Text.hex 3 r.pc ++ "  I: " ++ Text.hex 3 r.index]

/-- Does the character come between the words of a line? -/
def separates (c : Char) : Bool := c == ' ' || c == ',' || c == ':'

/-- The words of a line. -/
def words (line : List Char) : List (List Char) := Text.runs separates line

/-- The registers with a new value for one of them. -/
def assigned (registers : List (String × Int)) (name : String) (value : Int) : List (String × Int) :=
  registers.map fun r => if r.1 = name then (name, value) else r

/-- The registers after a row of changes. Each one is a name, the value before, an arrow and the value after. -/
def changed : List (List Char) → List (String × Int) → List (String × Int)
  | name :: _ :: _ :: value :: rest, registers =>
    changed rest (((Text.hexValue? value).map (assigned registers (String.ofList name))).getD registers)
  | _, registers => registers

/-- The number that a line sets something to: it comes last, behind an arrow. -/
def target? : List (List Char) → Option Int
  | [_, _, value] => Text.hexValue? value
  | _ => none

/-- What the words of a line say. A line that begins with an address is an instruction, which moves the program counter
on. Of the others, those that begin with a heading for changes set what they say, and the rest say nothing. -/
def readWords (r : Reading) : List (List Char) → Reading
  | [] => r
  | first :: rest =>
    match Text.hexValue? first with
    | some address => { r with pc := address + 2 }
    | none =>
      if first = "Changes".toList then { r with registers := changed rest r.registers }
      else if first = "I".toList then { r with index := (target? rest).getD r.index }
      else if first = "PC".toList then { r with pc := (target? rest).getD r.pc }
      else r

/-- The reading after a line. -/
def readLine (r : Reading) (line : String) : Reading := r.readWords (words line.toList)

/-- The reading after some lines. -/
def read (r : Reading) (lines : List String) : Reading := lines.foldl readLine r

/-- Does an entry begin with the line? -/
def beginsEntry (line : String) : Bool := "\n[Cycle ".toList.isPrefixOf line.toList

/-- The lines from an entry on. The entries are counted from zero. -/
def fromEntry : Nat → List String → List String
  | _, [] => []
  | 0, line :: rest => if beginsEntry line then line :: rest else fromEntry 0 rest
  | k + 1, line :: rest => fromEntry (if beginsEntry line then k else k + 1) rest

/-- The heading over the final state. -/
def finalHeading : String := "FINAL STATE"

/-- The reading after all that is printed from an entry on and in front of the final state. -/
def readFrom (r : Reading) (k : Nat) (printed : List String) : Reading :=
  r.read (fromEntry k (printed.takeWhile (· != finalHeading)))

/-- What is printed of the final state, behind its heading and the rule under that. -/
def finalState (printed : List String) : List String := (printed.dropWhile (· != finalHeading)).drop 2

variable {r : Reading}

/-! ## Words of a line -/

/-- Text without separators, and not empty. -/
def IsWord (w : List Char) : Prop := w ≠ [] ∧ ∀ c ∈ w, separates c = false

instance (w : List Char) : Decidable (IsWord w) :=
  decidable_of_iff (w.isEmpty = false ∧ w.all (fun c => !separates c) = true) (by simp [IsWord])

theorem words_of_isWord {w : List Char} (h : IsWord w) : words w = [w] := Text.runs_of_word h.1 h.2

theorem words_append {s : Char} (hs : separates s = true) (a b : List Char) :
    words (a ++ s :: b) = words a ++ words b := Text.runs_append hs a b

theorem words_cons {s : Char} (hs : separates s = true) (b : List Char) : words (s :: b) = words b :=
  Text.runs_cons hs b

theorem words_word_append {w : List Char} (h : IsWord w) {s : Char} (hs : separates s = true) (b : List Char) :
    words (w ++ s :: b) = w :: words b := Text.runs_word_append h.1 h.2 hs b

theorem separates_of_digit {c : Char} (h : (Program.digitValue? c).isSome = true) : separates c = false := by
  by_contra hsep
  simp only [separates, Bool.not_eq_false, Bool.or_eq_true, beq_iff_eq, or_assoc] at hsep
  rcases hsep with rfl | rfl | rfl <;> exact absurd h (by decide)

/-- A number is a word. -/
theorem isWord_hex (width : Nat) (n : Int) : IsWord (Text.hex width n).toList := by
  refine ⟨Text.hex_ne_nil width n, fun c hc => ?_⟩
  rcases Text.eq_minus_or_digit hc with rfl | hdigit
  · decide
  · exact separates_of_digit hdigit

/-- The name of a register is a word. -/
theorem isWord_registerName (x : Nat) : IsWord (Machine.registerName x).toList := by
  have hname : (Machine.registerName x).toList = 'V' :: (Text.hex 0 x).toList := String.toList_append
  refine ⟨by simp [hname], fun c hc => ?_⟩
  rw [hname, List.mem_cons] at hc
  rcases hc with rfl | hc
  · decide
  · exact (isWord_hex 0 x).2 c hc

theorem words_named {name : String} (h : IsWord name.toList) (body : String) :
    words (name ++ ": " ++ body).toList = name.toList :: words body.toList := by
  calc words (name ++ ": " ++ body).toList
    _ = words (name.toList ++ ':' :: ' ' :: body.toList) := by simp
    _ = _ := by rw [words_word_append h rfl, words_cons rfl]

/-- A line with a heading. -/
theorem words_headed (heading : String) (h : IsWord heading.toList) (body : String) :
    words ("  " ++ heading ++ ": " ++ body).toList = heading.toList :: words body.toList := by
  calc words ("  " ++ heading ++ ": " ++ body).toList
    _ = words (' ' :: ' ' :: (heading ++ ": " ++ body).toList) := by simp
    _ = _ := by rw [words_cons rfl, words_cons rfl, words_named h]

/-- A difference is three words: the value before, an arrow and the value after. -/
theorem words_difference (width : Nat) (a b : Int) :
    words (Text.hex width a ++ " -> " ++ Text.hex width b).toList =
      [(Text.hex width a).toList, "->".toList, (Text.hex width b).toList] := by
  calc words (Text.hex width a ++ " -> " ++ Text.hex width b).toList
    _ = words ((Text.hex width a).toList ++ ' ' :: ("->".toList ++ ' ' :: (Text.hex width b).toList)) := by simp
    _ = _ := by
      rw [words_word_append (isWord_hex width a) rfl, words_word_append (by decide) rfl,
        words_of_isWord (isWord_hex width b)]

/-- The words of a change of a register. -/
def changeWords (c : RegisterChange) : List (List Char) :=
  [c.name.toList, (Text.hex 2 c.before.toNat).toList, "->".toList, (Text.hex 2 c.after.toNat).toList]

theorem words_text {c : RegisterChange} (hname : IsWord c.name.toList) : words c.text.toList = changeWords c := by
  rw [RegisterChange.text, String.append_assoc, String.append_assoc, ← @String.append_assoc (Text.hex 2 _),
    words_named hname, words_difference, changeWords]

theorem words_changesText {changes : List RegisterChange} (h : ∀ c ∈ changes, IsWord c.name.toList) :
    words (changesText changes).toList = changes.flatMap changeWords := by
  induction changes with
  | nil => rfl
  | cons c changes ih =>
    obtain ⟨hc, hchanges⟩ := List.forall_mem_cons.1 h
    cases changes with
    | nil => simp [changesText, words_text hc]
    | cons c' changes =>
      have hjoin : (changesText (c :: c' :: changes)).toList =
          c.text.toList ++ ',' :: ' ' :: (changesText (c' :: changes)).toList := by
        simp [changesText, String.intercalate_cons_cons]
      rw [hjoin, words_append rfl, words_cons rfl, words_text hc, ih hchanges, List.flatMap_cons (x := c)]

/-! ## Lines of an entry -/

/-- The registers after a change. -/
def applied (registers : List (String × Int)) (c : RegisterChange) : List (String × Int) :=
  assigned registers c.name c.after.toNat

theorem changed_changeWords (changes : List RegisterChange) (registers : List (String × Int)) :
    changed (changes.flatMap changeWords) registers =
      changes.foldl applied registers := by
  induction changes generalizing registers with
  | nil => rfl
  | cons c changes ih =>
    rw [List.foldl_cons, ← ih, List.flatMap_cons, changeWords, applied]
    simp [changed, Text.hexValue?_hex]

/-- The first line of an entry says nothing about the state. -/
theorem readLine_first (r : Reading) (cycle : Int) (outcome : String) :
    r.readLine ("\n[Cycle " ++ Text.decimal cycle ++ "] " ++ outcome) = r := by
  have hwords : words ("\n[Cycle " ++ Text.decimal cycle ++ "] " ++ outcome).toList =
      "\n[Cycle".toList :: words (Text.decimal cycle ++ "] " ++ outcome).toList := by
    rw [← words_word_append (s := ' ') (by decide) rfl]
    simp
  rw [readLine, hwords]
  rfl

theorem readLine_instruction (r : Reading) (pc : Int) (text : String) :
    r.readLine ("  " ++ Text.hex 3 pc ++ ": " ++ text) = { r with pc := pc + 2 } := by
  rw [readLine, words_headed _ (isWord_hex 3 pc), readWords, Text.hexValue?_hex]

theorem readLine_changes (r : Reading) {changes : List RegisterChange} (h : ∀ c ∈ changes, IsWord c.name.toList) :
    r.readLine ("  Changes: " ++ changesText changes) = { r with registers := changes.foldl applied r.registers } := by
  have hwords := words_headed "Changes" (by decide) (changesText changes)
  rw [words_changesText h] at hwords
  rw [← changed_changeWords, readLine, show "  Changes: " = "  " ++ "Changes" ++ ": " from rfl, hwords]
  rfl

theorem readLine_index (r : Reading) (a b : Int) :
    r.readLine ("  I: " ++ Text.hex 3 a ++ " -> " ++ Text.hex 3 b) = { r with index := b } := by
  have hwords := words_headed "I" (by decide) (Text.hex 3 a ++ " -> " ++ Text.hex 3 b)
  rw [words_difference, ← String.append_assoc, ← String.append_assoc] at hwords
  rw [readLine, show "  I: " = "  " ++ "I" ++ ": " from rfl, hwords]
  show { r with index := (Text.hexValue? (Text.hex 3 b).toList).getD r.index } = _
  rw [Text.hexValue?_hex, Option.getD_some]

theorem readLine_pc (r : Reading) (a b : Int) :
    r.readLine ("  PC: " ++ Text.hex 3 a ++ " -> " ++ Text.hex 3 b) = { r with pc := b } := by
  have hwords := words_headed "PC" (by decide) (Text.hex 3 a ++ " -> " ++ Text.hex 3 b)
  rw [words_difference, ← String.append_assoc, ← String.append_assoc] at hwords
  rw [readLine, show "  PC: " = "  " ++ "PC" ++ ": " from rfl, hwords]
  show { r with pc := (Text.hexValue? (Text.hex 3 b).toList).getD r.pc } = _
  rw [Text.hexValue?_hex, Option.getD_some]

/-! ## Changes of registers -/

theorem registerName_injective {x y : Nat} (h : Machine.registerName x = Machine.registerName y) : x = y := by
  have hhex : (Text.hex 0 x).toList = (Text.hex 0 y).toList := by
    simpa [Machine.registerName] using congrArg String.toList h
  exact Int.ofNat_inj.1 (Text.hex_injective (String.toList_inj.1 hhex))

theorem getElem?_namedRegisters (registers : Array UInt8) (x : Nat) :
    (Machine.namedRegisters registers)[x]? = registers[x]?.map fun value => (Machine.registerName x, value) := by
  simp [Machine.namedRegisters, List.getElem?_zipIdx, Function.comp_def]

/-- The changes are those of the registers whose values differ. -/
theorem mem_registerChanges {p : Passage} {c : RegisterChange} :
    c ∈ p.registerChanges ↔ ∃ (x : Nat) (a b : UInt8), p.before.registers[x]? = some a ∧
      p.after.registers[x]? = some b ∧ a ≠ b ∧ c = ⟨Machine.registerName x, a, b⟩ := by
  rw [Passage.registerChanges, List.mem_mergeSort, List.mem_filterMap]
  constructor
  · rintro ⟨⟨⟨name, a⟩, b⟩, hmem, hchange⟩
    obtain ⟨x, hx⟩ := List.mem_iff_getElem?.1 hmem
    obtain ⟨hbefore, hafter⟩ := List.getElem?_zip_eq_some.1 hx
    rw [getElem?_namedRegisters, Option.map_eq_some_iff] at hbefore
    obtain ⟨a', ha, hnamed⟩ := hbefore
    cases hnamed
    obtain ⟨hne, rfl⟩ : a ≠ b ∧ ⟨Machine.registerName x, a, b⟩ = c := by simpa using hchange
    exact ⟨x, a, b, ha, by simpa using hafter, hne, rfl⟩
  · rintro ⟨x, a, b, ha, hb, hne, rfl⟩
    refine ⟨((Machine.registerName x, a), b), List.mem_iff_getElem?.2 ⟨x, ?_⟩, if_neg hne⟩
    rw [List.getElem?_zip_eq_some, getElem?_namedRegisters, ha]
    exact ⟨rfl, by simpa using hb⟩

/-- Assigning to registers one by one leaves each register with the last value for its name. -/
theorem foldl_applied (changes : List RegisterChange) (registers : List (String × Int)) :
    changes.foldl applied registers =
      registers.map (changes.foldl fun r c => if r.1 = c.name then (c.name, (c.after.toNat : Int)) else r) := by
  induction changes generalizing registers with
  | nil => exact (List.map_id registers).symm
  | cons c changes ih =>
    rw [List.foldl_cons, ih, applied, assigned, List.map_map]
    rfl

/-- What the changes with a name say is what the register gets. -/
theorem foldl_change {changes : List RegisterChange} {name : String} {value target : Int}
    (hsame : ∀ c ∈ changes, c.name = name → (c.after.toNat : Int) = target)
    (hsome : value = target ∨ ∃ c ∈ changes, c.name = name) :
    changes.foldl (fun r c => if r.1 = c.name then (c.name, (c.after.toNat : Int)) else r) (name, value) =
      (name, target) := by
  induction changes generalizing value with
  | nil => simpa using hsome
  | cons c changes ih =>
    obtain ⟨hc, hchanges⟩ := List.forall_mem_cons.1 hsame
    rw [List.foldl_cons]
    by_cases hname : c.name = name
    · simp only [hname, hc hname, if_true]
      exact ih hchanges (.inl rfl)
    · rw [if_neg (Ne.symm hname)]
      refine ih hchanges (hsome.imp_right ?_)
      rintro ⟨c', hmem, hname'⟩
      rcases List.mem_cons.1 hmem with rfl | hmem
      · exact absurd hname' hname
      · exact ⟨c', hmem, hname'⟩

/-- The changes turn the registers before into the registers after. -/
theorem foldl_registerChanges {p : Passage} (hsize : p.after.registers.size = p.before.registers.size) :
    p.registerChanges.foldl applied (ofSnapshot p.before).registers = (ofSnapshot p.after).registers := by
  rw [foldl_applied]
  refine List.ext_getElem? fun x => ?_
  simp only [ofSnapshot, List.getElem?_map, getElem?_namedRegisters, Option.map_map]
  by_cases hx : x < p.before.registers.size
  · have hx' : x < p.after.registers.size := by omega
    simp only [Array.getElem?_eq_getElem hx, Array.getElem?_eq_getElem hx', Option.map_some, Function.comp_def]
    congr 1
    refine foldl_change ?_ ?_
    · intro c hc hname
      obtain ⟨y, a, b, -, hb, -, rfl⟩ := mem_registerChanges.1 hc
      obtain rfl := registerName_injective hname
      rw [Array.getElem?_eq_getElem hx', Option.some_inj] at hb
      rw [hb]
    · by_cases hsame : p.before.registers[x] = p.after.registers[x]
      · exact .inl (by rw [hsame])
      · exact .inr ⟨_, mem_registerChanges.2 ⟨x, _, _, Array.getElem?_eq_getElem hx, Array.getElem?_eq_getElem hx',
          hsame, rfl⟩, rfl⟩
  · have hbefore : p.before.registers[x]? = none := Array.getElem?_eq_none (by omega)
    have hafter : p.after.registers[x]? = none := Array.getElem?_eq_none (by omega)
    rw [hbefore, hafter]
    rfl

/-! ## Entries -/

theorem read_append (r : Reading) (lines more : List String) : r.read (lines ++ more) = (r.read lines).read more :=
  List.foldl_append

theorem read_singleton (r : Reading) (line : String) : r.read [line] = r.readLine line := rfl

theorem read_changes (r : Reading) (p : Passage) :
    r.read (if p.registerChanges.isEmpty then [] else ["  Changes: " ++ changesText p.registerChanges]) =
      { r with registers := p.registerChanges.foldl applied r.registers } := by
  have hnames : ∀ c ∈ p.registerChanges, IsWord c.name.toList := by
    intro c hc
    obtain ⟨x, a, b, -, -, -, rfl⟩ := mem_registerChanges.1 hc
    exact isWord_registerName x
  split
  · next hempty => rw [List.isEmpty_iff.1 hempty]; rfl
  · rw [read_singleton, readLine_changes r hnames]

theorem read_index {p : Passage} (h : r.index = p.before.index) :
    r.read (if p.indexChanged then
        ["  I: " ++ Text.hex 3 p.before.index ++ " -> " ++ Text.hex 3 p.after.index] else []) =
      { r with index := p.after.index } := by
  split
  · rw [read_singleton, readLine_index]
  · next hsame =>
    have hindex : r.index = p.after.index := by simpa [Passage.indexChanged, h] using hsame
    rw [← hindex]
    rfl

theorem read_pc {p : Passage} {pc : Int} (h : r.pc = pc + 2) :
    r.read (if p.jumped pc then ["  PC: " ++ Text.hex 3 pc ++ " -> " ++ Text.hex 3 p.after.pc] else []) =
      { r with pc := p.after.pc } := by
  split
  · rw [read_singleton, readLine_pc]
  · next hsame =>
    have hpc : p.after.pc = pc + 2 := by simpa [Passage.jumped] using hsame
    rw [hpc, ← h]
    rfl

/-- **An entry tells the whole step.** Its lines turn the reading before into the reading after. -/
theorem read_entry {e : TraceEntry} {p : Passage} (hpassage : e.passage = some p)
    (hsize : p.after.registers.size = p.before.registers.size) :
    (ofSnapshot p.before).read e.lines = ofSnapshot p.after := by
  have hhead (outcome : String) : (ofSnapshot p.before).read ["\n[Cycle " ++ Text.decimal e.cycle ++ "] " ++ outcome,
      "  " ++ Text.hex 3 e.pc ++ ": " ++ e.wordText ++ "  " ++ e.instruction] =
        { ofSnapshot p.before with pc := e.pc + 2 } := by
    have hline : "  " ++ Text.hex 3 e.pc ++ ": " ++ e.wordText ++ "  " ++ e.instruction =
        "  " ++ Text.hex 3 e.pc ++ ": " ++ (e.wordText ++ "  " ++ e.instruction) := by simp only [String.append_assoc]
    rw [hline, read, List.foldl_cons, List.foldl_cons, List.foldl_nil, readLine_first, readLine_instruction]
  rw [TraceEntry.lines, hpassage]
  simp only [read_append, hhead, read_changes]
  rw [read_index rfl, read_pc rfl, foldl_registerChanges hsize]
  rfl

/-- A reading shows nothing of the timers. -/
theorem ofSnapshot_of_butTimers {m n : Machine} (h : m.ButTimers n) : ofSnapshot n.snapshot = ofSnapshot m.snapshot :=
  h.agree (f := fun m => ofSnapshot m.snapshot) fun _ => rfl

theorem read_stride {t : Stride} (hsize : t.after.registers.size = t.before.registers.size) :
    (ofSnapshot t.before.snapshot).read t.entry.lines = ofSnapshot t.after.snapshot :=
  read_entry (p := ⟨t.before.snapshot, t.after.snapshot⟩) rfl hsize

/-- **Entry by entry** the reading follows the strides to the end. -/
theorem read_strides {t : Stride} {ts : List Stride}
    (hsize : ∀ u ∈ t :: ts, u.after.registers.size = u.before.registers.size)
    (hjoined : (t :: ts).IsChain fun t u => t.after.ButTimers u.before) :
    (ofSnapshot t.before.snapshot).read ((t :: ts).flatMap fun u => u.entry.lines) =
      ofSnapshot ((t :: ts).getLast (List.cons_ne_nil t ts)).after.snapshot := by
  induction ts generalizing t with
  | nil =>
    rw [List.flatMap_singleton]
    exact read_stride (hsize t List.mem_cons_self)
  | cons u ts ih =>
    obtain ⟨ht, hts⟩ := List.forall_mem_cons.1 hsize
    obtain ⟨htu, hjoined⟩ := List.isChain_cons_cons.1 hjoined
    rw [List.flatMap_cons, read_append, read_stride ht, ← ofSnapshot_of_butTimers htu, ih hts hjoined,
      List.getLast_cons_cons]

/-! ## The printed lines -/

section

variable {line : String} {k : Nat} {lines rest : List String}

/-- Is the line set in, as all lines are that say something about a state? -/
def IsIndented (line : String) : Prop := line.toList.head? = some ' '

theorem IsIndented.append (h : IsIndented line) (text : String) : IsIndented (line ++ text) := by
  rw [IsIndented, String.toList_append, List.head?_append, h]
  rfl

theorem beginsEntry_of_isIndented (h : IsIndented line) : beginsEntry line = false := by
  rw [IsIndented] at h
  rw [beginsEntry]
  cases hline : line.toList with
  | nil => rw [hline] at h; cases h
  | cons c cs =>
    rw [hline] at h
    cases h
    rfl

theorem ne_finalHeading_of_isIndented (h : IsIndented line) : line ≠ finalHeading := by
  rintro rfl
  exact absurd h (by rw [IsIndented]; decide)

theorem ne_finalHeading_of_beginsEntry (h : beginsEntry line = true) : line ≠ finalHeading := by
  rintro rfl
  exact absurd h (by decide)

theorem beginsEntry_first (cycle : Int) (outcome : String) :
    beginsEntry ("\n[Cycle " ++ Text.decimal cycle ++ "] " ++ outcome) = true := by
  rw [beginsEntry, List.isPrefixOf_iff_prefix, String.append_assoc, String.append_assoc, String.toList_append]
  exact List.prefix_append _ _

/-- An entry begins with its first line, and its other lines are set in. -/
theorem exists_lines (e : TraceEntry) :
    ∃ first others, e.lines = first :: others ∧ beginsEntry first = true ∧ ∀ line ∈ others, IsIndented line := by
  have hinstruction : IsIndented ("  " ++ Text.hex 3 e.pc ++ ": " ++ e.wordText ++ "  " ++ e.instruction) :=
    (((((show IsIndented "  " from rfl).append _).append _).append _).append _).append _
  rw [TraceEntry.lines]
  cases e.passage with
  | none => exact ⟨_, _, rfl, beginsEntry_first _ _, List.forall_mem_singleton.2 hinstruction⟩
  | some p =>
    have hchanges : IsIndented ("  Changes: " ++ changesText p.registerChanges) :=
      (show IsIndented "  Changes: " from rfl).append _
    have hindex : IsIndented ("  I: " ++ Text.hex 3 p.before.index ++ " -> " ++ Text.hex 3 p.after.index) :=
      (((show IsIndented "  I: " from rfl).append _).append _).append _
    have hpc : IsIndented ("  PC: " ++ Text.hex 3 e.pc ++ " -> " ++ Text.hex 3 p.after.pc) :=
      (((show IsIndented "  PC: " from rfl).append _).append _).append _
    refine ⟨_, _, rfl, beginsEntry_first _ _, ?_⟩
    simp only [List.append_eq, List.forall_mem_append, List.forall_mem_singleton]
    refine ⟨⟨⟨hinstruction, ?_⟩, ?_⟩, ?_⟩ <;> split <;> simp [hchanges, hindex, hpc]

theorem fromEntry_append (h : ∀ line ∈ lines, beginsEntry line = false) (k : Nat) (rest : List String) :
    fromEntry k (lines ++ rest) = fromEntry k rest := by
  induction lines with
  | nil => rfl
  | cons line lines ih =>
    obtain ⟨hline, hlines⟩ := List.forall_mem_cons.1 h
    cases k <;> simp [fromEntry, hline, ih hlines]

/-- The entries are printed in order, each from its first line on. -/
theorem fromEntry_flatMap {entries : List TraceEntry} (hk : k < entries.length) (rest : List String) :
    fromEntry k (entries.flatMap TraceEntry.lines ++ rest) = (entries.drop k).flatMap TraceEntry.lines ++ rest := by
  induction entries generalizing k with
  | nil => cases hk
  | cons e entries ih =>
    obtain ⟨first, others, hlines, hfirst, hothers⟩ := exists_lines e
    have hskip : ∀ line ∈ others, beginsEntry line = false := fun line hline =>
      beginsEntry_of_isIndented (hothers line hline)
    rw [List.flatMap_cons, hlines, List.cons_append, List.cons_append]
    cases k with
    | zero =>
      rw [fromEntry, if_pos hfirst, List.drop_zero, List.flatMap_cons, hlines, List.cons_append, List.cons_append]
    | succ k =>
      rw [fromEntry, if_pos hfirst, List.append_assoc, fromEntry_append hskip, ih (Nat.lt_of_succ_lt_succ hk),
        List.drop_succ_cons]

theorem ne_finalHeading_of_mem_lines {e : TraceEntry} (h : line ∈ e.lines) : line ≠ finalHeading := by
  obtain ⟨first, others, hlines, hfirst, hothers⟩ := exists_lines e
  rw [hlines] at h
  rcases List.mem_cons.1 h with rfl | h
  · exact ne_finalHeading_of_beginsEntry hfirst
  · exact ne_finalHeading_of_isIndented (hothers line h)

/-- A rule says nothing about the state. -/
theorem readLine_rule (r : Reading) : r.readLine ("\n" ++ ruleText 70 '=') = r := by
  have hwords : words ("\n" ++ ruleText 70 '=').toList = [("\n" ++ ruleText 70 '=').toList] := by decide +kernel
  rw [readLine, hwords]
  rfl

end

end Reading

namespace Cpu

variable {δ ρ : Type}

/-- What is printed in front of the heading of the final state. -/
def upToFinal (c : Cpu δ ρ) : List String :=
  [ruleText 70 '=', "CHIP-8 EXECUTION TRACE", ruleText 70 '='] ++ c.trace.entries.toList.flatMap TraceEntry.lines ++
    ["\n" ++ ruleText 70 '=']

theorem traceLines_eq (c : Cpu δ ρ) :
    c.traceLines = c.upToFinal ++ Reading.finalHeading :: ruleText 70 '=' :: c.finalLines := by
  simp [traceLines, upToFinal, Reading.finalHeading]

theorem ne_finalHeading (c : Cpu δ ρ) : ∀ line ∈ c.upToFinal, (line != Reading.finalHeading) = true := by
  intro line hline
  rw [bne_iff_ne]
  simp only [upToFinal, List.mem_append, List.mem_cons, List.not_mem_nil, or_false, List.mem_flatMap] at hline
  rcases hline with (hline | ⟨e, -, he⟩) | rfl
  · rcases hline with rfl | rfl | rfl <;> decide +kernel
  · exact Reading.ne_finalHeading_of_mem_lines he
  · decide +kernel

/-- The final state is printed under its heading. -/
theorem finalState_traceLines (c : Cpu δ ρ) : Reading.finalState c.traceLines = c.finalLines := by
  rw [Reading.finalState, traceLines_eq, List.dropWhile_append_of_pos c.ne_finalHeading]
  rfl

/-- Reading a trace from an entry on is reading the lines of that entry and of all later ones. -/
theorem readFrom_traceLines {c : Cpu δ ρ} {k : Nat} (hk : k < c.trace.entries.size) (r : Reading) :
    r.readFrom k c.traceLines = r.read ((c.trace.entries.toList.drop k).flatMap TraceEntry.lines) := by
  have hheading : ∀ line ∈ [ruleText 70 '=', "CHIP-8 EXECUTION TRACE", ruleText 70 '='],
      Reading.beginsEntry line = false := by decide +kernel
  have hfront : c.traceLines.takeWhile (· != Reading.finalHeading) = c.upToFinal := by
    rw [traceLines_eq, List.takeWhile_append_of_pos c.ne_finalHeading]
    simp
  rw [Reading.readFrom, hfront, upToFinal, List.append_assoc, Reading.fromEntry_append hheading,
    Reading.fromEntry_flatMap (by simpa using hk), Reading.read_append, Reading.read_singleton, Reading.readLine_rule]

/-- The reading of a processor is printed as its final state. -/
theorem lines_ofSnapshot (c : Cpu δ ρ) :
    (Reading.ofSnapshot c.machine.snapshot).lines = c.finalLines.take 2 := by
  simp [Reading.lines, Reading.ofSnapshot, finalLines, registersText, Machine.registersText, Machine.snapshot,
    Function.comp_def]

/-- Reading the lines of a kept entry and of all later ones leads from where the entry began to where the processor
is. -/
theorem read_kept {c : Cpu δ ρ} {limit : Option Nat} {ts : List Stride} (hrecorded : c.Recorded limit ts)
    (hsize : ∀ t ∈ ts, t.after.registers.size = t.before.registers.size)
    {earlier later : List TraceEntry} {e : TraceEntry} (hkept : c.trace.entries.toList = earlier ++ e :: later) :
    ∃ p, e.passage = some p ∧
      (Reading.ofSnapshot p.before).read ((e :: later).flatMap TraceEntry.lines) =
        Reading.ofSnapshot c.machine.snapshot := by
  -- What is kept is the end of the record, so the entries in question are those of the last strides.
  obtain ⟨front, hfront⟩ := Trace.newest_suffix limit (ts.map Stride.entry)
  rw [← hrecorded.kept, hkept, ← List.append_assoc] at hfront
  obtain ⟨before, rest, hstrides, -, hrest⟩ := List.map_eq_append_iff.1 hfront.symm
  obtain ⟨u, us, rfl, rfl, rfl⟩ := List.map_eq_cons_iff.1 hrest
  have hlast : u :: us <:+ ts := ⟨before, hstrides.symm⟩
  have hread := Reading.read_strides (fun t ht => hsize t (hlast.mem ht)) (hrecorded.joined.suffix hlast)
  have hend : ((u :: us).getLast (List.cons_ne_nil u us)).after.ButTimers c.machine := by
    refine hrecorded.reached _ ?_
    rw [hstrides, List.getLast?_append_of_ne_nil _ (List.cons_ne_nil u us), List.getLast?_eq_getLast_of_ne_nil]
    rfl
  have hfinal := hread.trans (Reading.ofSnapshot_of_butTimers hend).symm
  rw [← List.flatMap_map (f := Stride.entry)] at hfinal
  exact ⟨_, rfl, hfinal⟩

variable [RandomSource ρ] {c : Cpu FrameBuffer ρ} {ts : List Stride}

/-- A stride leads from where the processor is to where its step takes it. -/
theorem ends_of_stride? {t : Stride} (h : c.stride? = some t) :
    t.before = c.machine ∧ t.after = (step.after c).machine := by
  rw [stride?] at h
  split at h
  · next hstep =>
    cases h
    rw [Act.after_of_ok hstep]
    exact ⟨rfl, rfl⟩
  · next hstep =>
    cases h
    rw [Act.after_of_error hstep]
    exact ⟨rfl, rfl⟩
  · cases h

/-- No stride changes the number of registers. -/
theorem size_stridesFrom (hm : c.machine.SoundApart)
    (hts : ∀ t ∈ ts, t.after.registers.size = t.before.registers.size) (hs : List Handling) :
    ∀ t ∈ c.stridesFrom ts hs, t.after.registers.size = t.before.registers.size := by
  induction hs generalizing c ts with
  | nil => exact hts
  | cons h hs ih =>
    refine ih (soundApart_handled hm [h]) ?_
    cases h with
    | step =>
      intro t ht
      rcases List.mem_append.1 ht with ht | ht
      · exact hts t ht
      · obtain ⟨hbefore, hafter⟩ := ends_of_stride? (Option.mem_toList.1 ht)
        rw [hbefore, hafter]
        exact (soundApart_step hm).registers.trans hm.registers.symm
    | load rom =>
      rw [stridesAfter]
      split
      · exact fun t ht => by cases ht
      · exact hts
    | setDelay value | setSound value | tick | key event => exact hts

/-- **The printed trace leaves no change out.** Whatever is done to a processor with a trace and a display with pixels
after a program was loaded, take any entry that its trace has kept, and the state that the entry began in. Reading the
printed lines from that entry on leads to the registers, the index register and the program counter of the processor,
and they are what is printed under the heading of the final state. -/
theorem reading_of_trace {rom : List UInt8} {c₀ c : Cpu FrameBuffer ρ} (hload : loadProgram rom c₀ = .ok () c)
    (hon : c.trace.limit ≠ some 0) (hwidth : 1 ≤ c.device.width) (hheight : 1 ≤ c.device.height)
    (hs : List Handling) {k : Nat} {e : TraceEntry} (hkept : (c.handled hs).trace.entries[k]? = some e) :
    ∃ p, e.passage = some p ∧
      let printed := (c.handled hs).traceLines
      let r := (Reading.ofSnapshot p.before).readFrom k printed
      r = Reading.ofSnapshot (c.handled hs).machine.snapshot ∧ r.lines = (Reading.finalState printed).take 2 := by
  have hm : c.machine.SoundApart := (Machine.bounded_of_start (bounded_of_loadProgram hload).1).apart
  have hrecorded := recorded_handled (recorded_loaded hload) hon hm hwidth hheight hs
  have hsize : ∀ t ∈ c.stridesFrom [] hs, t.after.registers.size = t.before.registers.size :=
    size_stridesFrom hm (fun t ht => by cases ht) hs
  obtain ⟨hk, he⟩ := Array.getElem?_eq_some_iff.1 hkept
  have hdrop : (c.handled hs).trace.entries.toList.drop k =
      e :: (c.handled hs).trace.entries.toList.drop (k + 1) := by
    rw [List.drop_eq_getElem_cons (by simpa using hk), Array.getElem_toList, he]
  obtain ⟨p, hpassage, hread⟩ := read_kept hrecorded hsize (hdrop ▸ (List.take_append_drop k _).symm)
  rw [← hdrop, ← readFrom_traceLines hk] at hread
  refine ⟨p, hpassage, hread, ?_⟩
  rw [hread, finalState_traceLines, lines_ofSnapshot]

/-- With room for two entries, the first step of a program is forgotten, and the third one faults. -/
theorem reading_of_trace_forgetful :
    let c₀ : Cpu FrameBuffer Cycle := { forgetful with trace := { limit := some 2 } }
    ∃ (c d : Cpu FrameBuffer Cycle) (e : TraceEntry) (p : Passage),
      loadProgram [0x60, 0x05, 0xA3, 0x00, 0x00, 0x00] c₀ = .ok () c ∧
      c.handled [.step, .step, .setDelay 9, .step] = d ∧ d.machine.halted = true ∧ d.trace.entries.size = 2 ∧
      d.trace.entries[0]? = some e ∧ e.passage = some p ∧ p.before.pc = 0x202 ∧
      ((Reading.ofSnapshot p.before).readFrom 0 d.traceLines).lines = (Reading.finalState d.traceLines).take 2 := by
  intro c₀
  have hload : loadProgram [0x60, 0x05, 0xA3, 0x00, 0x00, 0x00] c₀ =
      .ok () ((loadProgram [0x60, 0x05, 0xA3, 0x00, 0x00, 0x00]).after c₀) := rfl
  have hsize : (((loadProgram [0x60, 0x05, 0xA3, 0x00, 0x00, 0x00]).after c₀).handled
      [.step, .step, .setDelay 9, .step]).trace.entries.size = 2 := by decide +kernel
  have hfirst := Array.getElem?_eq_getElem (show 0 < _ by rw [hsize]; decide)
  obtain ⟨p, hpassage, -, hlines⟩ := reading_of_trace hload (by decide) (by decide) (by decide)
    [.step, .step, .setDelay 9, .step] hfirst
  have hpc : ((((loadProgram [0x60, 0x05, 0xA3, 0x00, 0x00, 0x00]).after c₀).handled
      [.step, .step, .setDelay 9, .step]).trace.entries[0]?.bind (·.passage)).map (·.before.pc) = some 0x202 := by
    decide +kernel
  rw [hfirst, Option.bind_some, hpassage] at hpc
  exact ⟨_, _, _, p, hload, rfl, by decide +kernel, hsize, hfirst, hpassage, Option.some.inj hpc, hlines⟩

end Cpu

end Chip8
