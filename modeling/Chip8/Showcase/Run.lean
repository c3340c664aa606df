import Chip8.CommandLine.Folder
import Chip8.Cpu.Report
import Chip8.Program.Hex
import Chip8.Program.Listing
import Chip8.Random.Twister
import Chip8.Showcase.Amount
import Chip8.Showcase.Picture

/-!
# The showcase

Runs a program for a number of cycles and shows everything about it: a summary with a listing, the trace, the
registers and the picture. A file takes precedence over a program text. A wrong value or a missing file that comes to
light before the first cycle is told in the summary. Any other failure is handed on, and so is a number of cycles that
is none.
-/

namespace Chip8.Showcase

/-- What the showcase shows. -/
structure Result where
  summary : String
  trace : String := ""
  registers : String := ""
  picture : Picture

/-- What the showcase is asked to run. -/
structure Order where
  program : String
  romFile : Option String := none
  cycles : Amount
  seed : Amount

/-! ## Loading -/

/-- The program to run, or why there is none. -/
def Order.rom (o : Order) (find : String → Found) : Except String (List UInt8) :=
  match o.romFile.filter (fun name => !name.isEmpty) with
  | some name => ((find name).read (plainPath name)).mapError Mishap.message
  | none =>
    if Text.isAllBlank o.program.toList then .error "No program provided"
    else (Program.ofText o.program).mapError Program.TokenError.message

/-- A processor with the program, or why there is none. -/
def Order.prepare (o : Order) (rom : List UInt8) : Except Failure (Cpu FrameBuffer Twister) := do
  let seed ← o.seed.toInt.mapError .mishap
  let cpu ← (Cpu.create FrameBuffer.standard (Twister.ofSeed seed) 10000 none).mapError .mishap
  match Cpu.loadProgram rom cpu with
  | .ok () cpu => .ok cpu
  | .error e _ => .error e

/-! ## Texts -/

/-- Lines of text with ends between them. -/
def joined (lines : List String) : String := "\n".intercalate lines

/-- A row of a listing in text. -/
def rowText (r : Program.Row) : String :=
  Text.hex 3 r.address ++ ": " ++ Text.hex 4 r.word.toNat ++ "  " ++ r.text

/-- The summary: sizes and counts, the fault if there was one, and the first rows of the listing. -/
def summaryText (c : Cpu FrameBuffer Twister) (rom : List UInt8) (fault : Option Fault) (rows : List Program.Row) :
    String :=
  joined (["EXECUTION SUMMARY", ruleText 40 '=',
      "ROM size: " ++ Text.decimal rom.length ++ " bytes",
      "Cycles: " ++ Text.decimal c.machine.cycles,
      "Halted: " ++ (if c.machine.halted then "Yes" else "No"),
      "Lit pixels: " ++ Text.decimal c.device.litPixels.length] ++
    (fault.map fun f => "\nFault: " ++ f.text).toList ++
    ["\nDISASSEMBLY", ruleText 40 '-'] ++ (rows.take 32).map rowText)

/-- An entry of the trace in lines. -/
def entryLines (e : TraceEntry) : List String :=
  let changes := match e.passage with
    | some p => p.registerChanges
    | none => []
  ["\n--- Cycle " ++ Text.decimal e.cycle ++ " (PC=" ++ Text.hex 3 e.pc ++ ") ---",
   "Opcode:      " ++ e.wordText,
   "Instruction: " ++ e.instruction] ++
    (e.error.map fun error => "Error:       " ++ error).toList ++
    (if changes.isEmpty then [] else ["Changes:     " ++ changesText changes])

/-- The first entries of the trace, and how many more there are. -/
def traceText (entries : List TraceEntry) : String :=
  joined (["EXECUTION TRACE", ruleText 60 '='] ++ (entries.take 100).flatMap entryLines ++
    (if entries.length > 100 then
      ["\n... (" ++ Text.decimal (entries.length - 100 : Nat) ++ " more entries)"] else []))

/-- A register in a line; a star marks those that are not zero. -/
def registerLine (name : String) (value : UInt8) : String :=
  "  " ++ name ++ ": 0x" ++ Text.hex 2 value.toNat ++ " (" ++ Text.rightAligned 3 (Text.decimal value.toNat) ++ ")" ++
    (if value ≠ 0 then " *" else "")

/-- The registers, pointers and timers. -/
def registersText (c : Cpu FrameBuffer Twister) : String :=
  let m := c.machine
  joined (["FINAL REGISTERS", ruleText 30 '='] ++
    ((Machine.namedRegisters m.registers).map fun (name, value) => registerLine name value) ++
    ["", "POINTERS", ruleText 30 '-',
     "  PC: 0x" ++ Text.hex 3 m.pc,
     "  I:  0x" ++ Text.hex 3 m.index,
     "  Stack: " ++ Text.quotedList (m.live.map fun address => "0x" ++ Text.hex 3 address),
     "  DT: " ++ Text.decimal m.delayTimer ++ "  ST: " ++ Text.decimal m.soundTimer])

/-! ## Running -/

/-- Everything about a run that has ended. -/
def resultOf (c : Cpu FrameBuffer Twister) (rom : List UInt8) (fault : Option Fault) : Except Failure Result := do
  let rows ← Program.listing Decoder.standard rom 0x200
  return {
    summary := summaryText c rom fault rows
    trace := traceText c.trace.entries.toList
    registers := registersText c
    picture := pictureOf c.device }

/-- The result of an order that came to nothing. -/
def failedResult (message : String) : Result :=
  { summary := "Error: " ++ message, picture := pictureOf FrameBuffer.standard }

/-- Runs a prepared processor for the number of cycles ordered. -/
def Order.runOn (o : Order) (rom : List UInt8) (cpu : Cpu FrameBuffer Twister) : Except Failure Result :=
  match o.cycles.toInt with
  | .error m => .error (.mishap m)
  | .ok cycles => match Cpu.run (some cycles) cpu with
    | .ok _ cpu => resultOf cpu rom none
    | .error (.fault f) cpu => resultOf cpu rom (some f)
    | .error e _ => .error e

/-- Runs an order. -/
def run (find : String → Found) (o : Order) : Except Failure Result :=
  match o.rom find with
  | .error message => .ok (failedResult message)
  | .ok rom => match o.prepare rom with
    | .error (.mishap m) => if m.kind = .value then .ok (failedResult m.message) else .error (.mishap m)
    | .error e => .error e
    | .ok cpu => o.runOn rom cpu

end Chip8.Showcase
