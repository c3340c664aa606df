import Chip8.CommandLine.Arguments
import Chip8.CommandLine.Folder
import Chip8.Cpu.Report
import Chip8.Display.Window
import Chip8.Host.Basic
import Chip8.Program.Hex
import Chip8.Random.Twister

/-!
# The command line

Reads a program from a file or from the command line itself, runs it without a screen for a number of cycles or in a
window until it is closed, and prints a report: the full trace, a summary with the picture, or just the registers
that are not zero.
-/

namespace Chip8.CommandLine

/-- How the program ended. -/
inductive Ending where
  | exit (code : Nat)
  | usage (e : UsageError)
  | help
  | died (e : Failure)
  deriving DecidableEq, Repr

/-- What the program printed, how it ended, the window with the clock if one was open, and the notes to report. -/
structure Outcome where
  printed : List String := []
  ending : Ending
  shown : Option (Window × Clock) := none
  notes : List Note := []

/-! ## Loading -/

/-- A program to run and what was printed about it, or the end. -/
def load (find : String → Found) (settings : Settings) : Except Outcome (List UInt8 × List String) :=
  let said := fun line => if settings.quiet then [] else [line]
  if settings.rom.isEmpty then
    match Program.ofText settings.hex with
    | .error e => .error { ending := .usage (.badProgram e.message) }
    | .ok rom => .ok (rom, said "Running inline program")
  else match find settings.rom with
    | .file rom =>
      .ok (rom, said ("Loading ROM: " ++ settings.rom ++ " (" ++ Text.decimal rom.length ++ " bytes)"))
    | .directory => .error { ending := .died (.mishap (.notAFile settings.rom)) }
    | .nameTooLong => .error { ending := .died (.mishap (.nameTooLong settings.rom)) }
    | .nothing | .behindFile | .noPath =>
      .error { printed := ["Error: ROM file not found: " ++ settings.rom], ending := .exit 1 }

/-! ## Reports -/

section
variable {δ ρ : Type}

/-- The registers that are not zero, in lines. -/
def nonzeroLines (registers : Array UInt8) : List String :=
  ((Machine.namedRegisters registers).filter fun (_, value) => value ≠ 0).map fun (name, value) =>
    name ++ "=" ++ Text.hex 2 value.toNat

/-- The summary in lines, with the picture if there is one. -/
def summaryLines (c : Cpu δ ρ) (picture : Option String) : List String :=
  let errors := c.summary.errors
  ["",
   "Cycles: " ++ Text.decimal c.machine.cycles,
   "Halted: " ++ truthText c.machine.halted,
   "PC: " ++ Text.hex 3 c.machine.pc ++ "  I: " ++ Text.hex 3 c.machine.index,
   "Registers: " ++ c.registersText] ++
    (if errors.isEmpty then [] else ["Errors: " ++ Text.quotedList errors]) ++
    (match picture with
      | some picture => ["", picture]
      | none => [])

/-- The report that the settings ask for. -/
def reportLines (settings : Settings) (c : Cpu δ ρ) (picture : Option String) : List String :=
  if settings.trace then c.traceLines
  else if settings.quiet then nonzeroLines c.machine.registers
  else summaryLines c picture

/-- The notes that the settings let through: warnings, or all of them. -/
def reportedNotes (settings : Settings) (c : Cpu δ ρ) : List Note :=
  c.journal.toList.filter fun n => settings.verbose || decide (n.level = .warning)

/-- The end of a run: the fault if there was one, then the report. -/
def finish (settings : Settings) (printed : List String) (fault : Option Fault) (c : Cpu δ ρ)
    (picture : Option String) : Outcome where
  printed := printed ++ (fault.map fun f => "Execution error: " ++ f.text).toList ++ reportLines settings c picture
  ending := .exit (if fault.isSome then 1 else 0)
  notes := reportedNotes settings c

end

/-! ## Running -/

/-- The random source that the settings ask for. -/
def randomSource (settings : Settings) : Except Mishap Twister :=
  match settings.seed with
  | .unset => .ok (.ofSeed 0)
  | .number n => .ok (.ofSeed n)
  | .blank => .error .blankSeed

/-- A processor with a program, or the end. -/
def prepare {δ : Type} (settings : Settings) (printed : List String) (rom : List UInt8) (device : δ) :
    Except Outcome (Cpu δ Twister) :=
  let created := do
    let random ← randomSource settings
    Cpu.create device random (settings.maxCycles.getD 0) (some 1000)
  match created with
  | .error m => .error { printed, ending := .died (.mishap m) }
  | .ok cpu => match Cpu.loadProgram rom cpu with
    | .ok () cpu => .ok cpu
    | .error (.mishap m) _ => .error { printed := printed ++ ["Error: " ++ m.message], ending := .exit 1 }
    | .error e _ => .error { printed, ending := .died e }

/-- The heading of a run without a screen. -/
def headingLines (settings : Settings) : List String :=
  if settings.quiet then [] else [ruleText 64 '-', "Executing...", ruleText 64 '-']

/-- Runs without a screen. -/
def runHeadless (settings : Settings) (printed : List String) (rom : List UInt8) : Except Outcome Outcome := do
  let cpu ← prepare settings printed rom FrameBuffer.standard
  let printed := printed ++ headingLines settings
  if settings.maxCycles.isNone then .error { printed, ending := .died (.mishap .blankCycles) }
  else match Cpu.run none cpu with
    | .ok _ cpu => return finish settings printed none cpu (cpu.device.renderText "#" ".")
    | .error (.fault f) cpu => return finish settings printed (some f) cpu (cpu.device.renderText "#" ".")
    | .error e _ => .error { printed, ending := .died e }

/-- The onlookers of a window: events before each frame, rendering after it. -/
def windowOnlookers {ρ : Type} : Onlookers (Session Window ρ Unit) where
  shouldStop := some fun s =>
    let (go, window) := s.cpu.device.processEvents
    (!go, { s with cpu := Cpu.devicePart.put s.cpu window })
  afterFrame s := { s with cpu := Cpu.devicePart.put s.cpu s.cpu.device.render }

/-- A host of the speed that the settings ask for. -/
def hostOf (settings : Settings) : Except Mishap Host :=
  match settings.speed with
  | some speed => Host.create speed 60
  | none => .error .blankSpeed

/-- Runs in a window that will see the given batches of events. -/
def runInWindow (settings : Settings) (printed : List String) (rom : List UInt8) (events : List (List Event)) :
    Except Outcome Outcome := do
  let window : Window := { scale := settings.scale, pending := events }
  let cpu ← prepare settings printed rom window
  match hostOf settings with
  | .error m => .error { printed, ending := .died (.mishap m) }
  | .ok host =>
    let session : Session Window Twister Unit :=
      { cpu := Cpu.devicePart.put cpu cpu.device.openWindow, host, extra := () }
    -- Every frame takes a batch of events, and the last one asks to quit.
    match Session.run { onlookers := windowOnlookers } (events.length + 2) session with
    | .ok ending s =>
      let cpu := Cpu.devicePart.put s.cpu s.cpu.device.close
      return { finish settings printed ending.fault? cpu none with shown := some (cpu.device, s.clock) }
    | .error e s => .error { printed, ending := .died e, shown := some (s.cpu.device.close, s.clock) }

/-- Runs the command line. -/
def run (find : String → Found) (events : List (List Event)) (argv : List String) : Outcome :=
  match read argv with
  | .error e => { ending := .usage e }
  | .ok .help => { ending := .help }
  | .ok (.run settings) =>
    let outcome : Except Outcome Outcome := do
      let (rom, printed) ← load find settings
      if settings.display then runInWindow settings printed rom events else runHeadless settings printed rom
    match outcome with
    | .ok o => o
    | .error o => o

end Chip8.CommandLine
