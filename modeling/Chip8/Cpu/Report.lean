import Chip8.Cpu.Basic
import Chip8.Text.Quoted

/-!
# Reports

What a processor says about itself: a summary of its state, and its trace in full.
-/

namespace Chip8

/-- The final state and statistics of a run. -/
structure Summary where
  state : Snapshot
  traceLength : Nat
  fault : Option String
  errors : List String
  deriving DecidableEq, Repr

/-- The answer to a yes-or-no question in a report. -/
def truthText (b : Bool) : String := if b then "True" else "False"

/-- Lines of text, each with its end. -/
def linesText (lines : List String) : String := String.join (lines.map (· ++ "\n"))

/-- A rule of one character across the page. -/
def ruleText (width : Nat) (c : Char) : String := String.ofList (List.replicate width c)

namespace TraceEntry

/-- An entry in lines: count and outcome, address, opcode and instruction, and the differences there are. -/
def lines (e : TraceEntry) : List String :=
  let outcome := match e.error with
    | none => "OK"
    | some error => "ERROR: " ++ error
  let head := ["\n[Cycle " ++ Text.decimal e.cycle ++ "] " ++ outcome,
    "  " ++ Text.hex 3 e.pc ++ ": " ++ e.wordText ++ "  " ++ e.instruction]
  match e.passage with
  | none => head
  | some p =>
    let changes := p.registerChanges
    head ++
      (if changes.isEmpty then [] else ["  Changes: " ++ changesText changes]) ++
      (if p.indexChanged then ["  I: " ++ Text.hex 3 p.before.index ++ " -> " ++ Text.hex 3 p.after.index] else []) ++
      (if p.jumped e.pc then ["  PC: " ++ Text.hex 3 e.pc ++ " -> " ++ Text.hex 3 p.after.pc] else [])

end TraceEntry

namespace Cpu

variable {δ ρ : Type}

/-- The summary of a processor. -/
def summary (c : Cpu δ ρ) : Summary where
  state := c.machine.snapshot
  traceLength := c.trace.entries.size
  fault := c.fault.map Fault.text
  errors := c.trace.errors

/-- The registers in one line. -/
def registersText (c : Cpu δ ρ) : String := Machine.registersText c.machine.registers

/-- The final state in lines. -/
def finalLines (c : Cpu δ ρ) : List String :=
  ["  Registers: " ++ c.registersText,
   "  PC: " ++ Text.hex 3 c.machine.pc ++ "  I: " ++ Text.hex 3 c.machine.index,
   "  Stack: " ++ Text.quotedList (c.machine.live.map (Text.hex 3)),
   "  Cycles: " ++ Text.decimal c.machine.cycles,
   "  Halted: " ++ truthText c.machine.halted]

/-- The trace and the final state in lines. -/
def traceLines (c : Cpu δ ρ) : List String :=
  let rule := ruleText 70 '='
  [rule, "CHIP-8 EXECUTION TRACE", rule] ++ c.trace.entries.toList.flatMap TraceEntry.lines ++
    ["\n" ++ rule, "FINAL STATE", rule] ++ c.finalLines

end Cpu

end Chip8
