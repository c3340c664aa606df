import Chip8.Decoder
import Chip8.Machine.Snapshot

/-!
# Traces

A trace keeps the last steps of a machine, each with the state before and after it. What a printed entry shows of the
two states is their difference: the registers that changed, the index register if it changed, and the program counter
if it did not just move on to the next instruction. Main statements: `size_push_le` and `push_unbounded`.
-/

namespace Chip8

/-- The state before and after a step. -/
structure Passage where
  before : Snapshot
  after : Snapshot
  deriving DecidableEq, Repr

/-- One step. The opcode is missing if it could not be fetched, the decoded word if it is no instruction, and the
passage if the trace is off. -/
structure TraceEntry where
  cycle : Int
  pc : Int
  word : Option UInt16
  decoded : Option Decoded
  passage : Option Passage
  error : Option String := none
  deriving DecidableEq, Repr

namespace TraceEntry

/-- The assembly text of a step. -/
def instruction (e : TraceEntry) : String :=
  match e.decoded, e.word with
  | some decoded, _ => decoded.shown
  | none, some word => Decoder.dataText word
  | none, none => "<FETCH FAULT>"

/-- The opcode in four digits, or dashes. -/
def wordText (e : TraceEntry) : String :=
  match e.word with
  | some word => Text.hex 4 word.toNat
  | none => "----"

end TraceEntry

/-! ## Differences -/

/-- A register with its value before and after. -/
structure RegisterChange where
  name : String
  before : UInt8
  after : UInt8
  deriving DecidableEq, Repr

namespace Passage

/-- The registers that changed, by name. -/
def registerChanges (p : Passage) : List RegisterChange :=
  let both := (Machine.namedRegisters p.before.registers).zip p.after.registers.toList
  let changed := both.filterMap fun ((name, before), after) =>
    if before = after then none else some ⟨name, before, after⟩
  changed.mergeSort fun a b => decide (a.name ≤ b.name)

/-- Did the index register change? -/
def indexChanged (p : Passage) : Bool := p.before.index != p.after.index

/-- Did the program counter do anything but move on from `pc` to the next instruction? -/
def jumped (p : Passage) (pc : Int) : Bool := p.after.pc != pc + 2

end Passage

/-- A change of a register in text. -/
def RegisterChange.text (c : RegisterChange) : String :=
  c.name ++ ": " ++ Text.hex 2 c.before.toNat ++ " -> " ++ Text.hex 2 c.after.toNat

/-- The changes of registers in one line. -/
def changesText (changes : List RegisterChange) : String := ", ".intercalate (changes.map RegisterChange.text)

/-! ## Bounded traces -/

/-- The last steps, oldest first, at most `limit` of them. Without a limit all are kept. -/
structure Trace where
  limit : Option Nat
  entries : Array TraceEntry := #[]
  deriving Repr

namespace Trace

/-- Is anything kept at all? -/
def isOn (t : Trace) : Bool := t.limit != some 0

/-- The last entries of a row. -/
def lastEntries (limit : Nat) (entries : Array TraceEntry) : Array TraceEntry :=
  if entries.size ≤ limit then entries else entries.extract (entries.size - limit) entries.size

/-- Adds an entry, and drops the oldest one if there is no room for it. -/
def push (t : Trace) (e : TraceEntry) : Trace :=
  match t.limit with
  | none => { t with entries := t.entries.push e }
  | some limit => { t with entries := lastEntries limit (t.entries.push e) }

/-- A trace with the same limit and no entries. -/
def cleared (t : Trace) : Trace := { t with entries := #[] }

/-- The errors of the entries kept. -/
def errors (t : Trace) : List String := t.entries.toList.filterMap (·.error)

theorem size_lastEntries_le (limit : Nat) (entries : Array TraceEntry) : (lastEntries limit entries).size ≤ limit := by
  unfold lastEntries
  split
  · assumption
  · simp only [Array.size_extract]
    omega

theorem push_unbounded {t : Trace} (h : t.limit = none) (e : TraceEntry) :
    (t.push e).entries = t.entries.push e := by
  simp [push, h]

theorem size_push_le {t : Trace} {limit : Nat} (h : t.limit = some limit) (e : TraceEntry) :
    (t.push e).entries.size ≤ limit := by
  simp only [push, h]
  exact size_lastEntries_le _ _

end Trace

end Chip8
