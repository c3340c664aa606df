import Chip8.CommandLine.Run
import Chip8.Proofs.CommandLine.Arguments
import Chip8.Proofs.Cpu.Outcome
import Chip8.Proofs.Display.Pixels
import Chip8.Proofs.Program.Listing
import Chip8.Showcase.Run
import Mathlib.Algebra.Group.Int.Defs

/-!
# Two front ends

The command line and the showcase run the same machine. They keep traces of different lengths, have different numbers
of instructions to run by default, and word what they have to say each in its own way. But given the same program text,
number of cycles and seed, they turn the text down with the same message, or they report the same run. Only where the
command line cannot be given what the showcase can be, they differ: a text of two dashes leaves its setting blank, and
numbers with too many digits are not read. Main statements: `agree_of_read` and `frontEnds_agree`.
-/

namespace Chip8

/-! ## What is reported -/

/-- What there is to report of a run, whoever reports it. -/
structure RunReport where
  cycles : Int
  halted : Bool
  registers : Array UInt8
  pc : Int
  index : Int
  fault : Option String
  /-- The number of lit pixels. -/
  lit : Nat
  deriving DecidableEq, Repr

/-- The report of a run that has ended. -/
def RunReport.ofCpu {ρ : Type} (c : Cpu FrameBuffer ρ) (fault : Option Fault) : RunReport where
  cycles := c.machine.cycles
  halted := c.machine.halted
  registers := c.machine.registers
  pc := c.machine.pc
  index := c.machine.index
  fault := fault.map Fault.text
  lit := c.device.litPixels.length

namespace CommandLine.Outcome

/-- The command line turns its input down with a message: as wrong usage, or in a line of its own. -/
def Rejects (o : Outcome) (message : String) : Prop :=
  (∃ e, o.ending = .usage e ∧ e.message = message) ∨
    (o.printed = ["Running inline program", "Error: " ++ message] ∧ o.ending = .exit 1)

/-- The command line reports a run. The picture has a mark for every lit pixel. -/
structure Reports (o : Outcome) (r : RunReport) : Prop where
  printed : ∃ picture, picture.toList.count '#' = r.lit ∧ o.printed =
    ["Running inline program", ruleText 64 '-', "Executing...", ruleText 64 '-'] ++
      (r.fault.map ("Execution error: " ++ ·)).toList ++
      ["",
       "Cycles: " ++ Text.decimal r.cycles,
       "Halted: " ++ truthText r.halted,
       "PC: " ++ Text.hex 3 r.pc ++ "  I: " ++ Text.hex 3 r.index,
       "Registers: " ++ Machine.registersText r.registers] ++
      (r.fault.map fun text => "Errors: " ++ Text.quotedList [text]).toList ++
      ["", picture]
  ending : o.ending = .exit (if r.fault.isSome then 1 else 0)

end CommandLine.Outcome

/-- The showcase reports a run, in its summary and in its register view. -/
structure Showcase.Result.Reports (result : Result) (r : RunReport) : Prop where
  summary : ∃ size listing, result.summary = joined
    (["EXECUTION SUMMARY", ruleText 40 '=',
      "ROM size: " ++ Text.decimal size ++ " bytes",
      "Cycles: " ++ Text.decimal r.cycles,
      "Halted: " ++ (if r.halted then "Yes" else "No"),
      "Lit pixels: " ++ Text.decimal r.lit] ++
      (r.fault.map ("\nFault: " ++ ·)).toList ++ "\nDISASSEMBLY" :: listing)
  registers : ∃ rest, result.registers = joined
    (["FINAL REGISTERS", ruleText 30 '='] ++
      ((Machine.namedRegisters r.registers).map fun (name, value) => registerLine name value) ++
      ["", "POINTERS", ruleText 30 '-',
       "  PC: 0x" ++ Text.hex 3 r.pc,
       "  I:  0x" ++ Text.hex 3 r.index] ++ rest)

/-- Both turn their input down with the same message, or both report the same run. -/
def FrontEndsAgree (o : CommandLine.Outcome) (result : Except Failure Showcase.Result) : Prop :=
  (∃ message, o.Rejects message ∧ result = .ok (Showcase.failedResult message)) ∨
    ∃ (r : RunReport) (shown : Showcase.Result), o.Reports r ∧ result = .ok shown ∧ shown.Reports r

/-! ## The command line -/

namespace CommandLine

/-- The settings with a program text, a number of cycles and a seed. -/
def Settings.ofProgram (text : String) (cycles seed : Int) : Settings :=
  { hex := text, maxCycles := some cycles, seed := .number seed }

section

variable {c d : Cpu FrameBuffer Twister} {fault : Option Fault} {settings : Settings} {printed : List String}
  {rom : List UInt8} {cycles : Int}

theorem runHeadless_of_ended (hprepared : prepare settings printed rom FrameBuffer.standard = .ok c)
    (hcycles : settings.maxCycles = some cycles) (hsteps : Cpu.steps c.maxCycles.toNat c = Cpu.ended fault d) :
    runHeadless settings printed rom =
      .ok (finish settings (printed ++ headingLines settings) fault d (some (d.device.renderText "#" "."))) := by
  cases fault with
  | none =>
    have hrun : Cpu.run none c = .ok d.trace.entries d := Cpu.run_of_completed hsteps
    simp [runHeadless, hprepared, hcycles, hrun, bind, Except.bind, pure, Except.pure]
  | some f =>
    have hrun : Cpu.run none c = .error (.fault f) d := Cpu.run_of_failed hsteps
    simp [runHeadless, hprepared, hcycles, hrun, bind, Except.bind, pure, Except.pure]

theorem reports_finish (hended : d.Ended fault) (htrace : settings.trace = false) (hquiet : settings.quiet = false) :
    (finish settings ("Running inline program" :: headingLines settings) fault d
      (some (d.device.renderText "#" "."))).Reports (.ofCpu d fault) where
  printed := by
    refine ⟨d.device.renderText "#" ".", d.device.count_renderText, ?_⟩
    have herrors := hended.errors
    cases fault with
    | none =>
      simp [finish, headingLines, hquiet, reportLines, htrace, summaryLines, herrors, RunReport.ofCpu,
        Cpu.registersText]
    | some f =>
      simp [finish, headingLines, hquiet, reportLines, htrace, summaryLines, herrors, RunReport.ofCpu,
        Cpu.registersText]
  ending := by cases fault <;> rfl

end

variable {find : String → Found} {events : List (List Event)} {argv : List String} {text : String} {cycles seed : Int}
  {rom : List UInt8} {d : Cpu FrameBuffer Twister} {o : Outcome}
  (hread : read argv = .ok (.run (.ofProgram text cycles seed)))

include hread

theorem run_of_unreadable {e : Program.TokenError} (htext : Program.ofText text = .error e) :
    (run find events argv).Rejects e.message := by
  have hrun : run find events argv = { ending := .usage (.badProgram e.message) } := by
    simp [run, hread, load, Settings.ofProgram, htext, bind, Except.bind]
  rw [hrun]
  exact .inl ⟨_, rfl, rfl⟩

variable (htext : Program.ofText text = .ok rom)

include htext

theorem run_of_readable
    (hran : runHeadless (.ofProgram text cycles seed) ["Running inline program"] rom = .ok o ∨
      runHeadless (.ofProgram text cycles seed) ["Running inline program"] rom = .error o) :
    run find events argv = o := by
  simp only [Settings.ofProgram] at hread hran
  rcases hran with hran | hran
  · simp [run, hread, load, htext, bind, Except.bind, hran]
  · simp [run, hread, load, htext, bind, Except.bind, hran]

theorem run_of_large (hlarge : maxProgramSize < rom.length) :
    (run find events argv).Rejects (Mishap.romTooLarge rom.length).message := by
  obtain ⟨c₀, hcreated, hrun⟩ : ∃ c₀, Cpu.create FrameBuffer.standard (Twister.ofSeed seed) cycles (some 1000) =
      .ok c₀ ∧ c₀.machine.halted = false := ⟨_, rfl, rfl⟩
  have hprepare : prepare (.ofProgram text cycles seed) ["Running inline program"] rom FrameBuffer.standard =
      .error { printed := ["Running inline program", "Error: " ++ (Mishap.romTooLarge rom.length).message],
               ending := .exit 1 } := by
    simp [prepare, Settings.ofProgram, randomSource, hcreated, bind, Except.bind, Cpu.loadProgram_of_large hrun hlarge]
  rw [run_of_readable hread htext (.inr (by rw [runHeadless, hprepare]; rfl))]
  exact .inr ⟨rfl, rfl⟩

theorem run_of_ran {fault : Option Fault}
    (hran : Cpu.Ran (Cpu.create FrameBuffer.standard (Twister.ofSeed seed) cycles (some 1000)) rom cycles.toNat fault d)
    (hended : d.Ended fault) : (run find events argv).Reports (.ofCpu d fault) := by
  obtain ⟨c₀, c, hcreated, hload, hsteps⟩ := hran
  have hcycles : c.maxCycles = cycles := by
    obtain ⟨limit, rfl⟩ := Cpu.create_eq_ok hcreated
    exact (Cpu.made_of_loadProgram hload).2.2
  have hprepare : prepare (.ofProgram text cycles seed) ["Running inline program"] rom FrameBuffer.standard =
      .ok c := by
    simp [prepare, Settings.ofProgram, randomSource, hcreated, bind, Except.bind, hload]
  rw [run_of_readable hread htext (.inl (runHeadless_of_ended hprepare rfl (hcycles ▸ hsteps)))]
  exact reports_finish hended rfl rfl

end CommandLine

/-! ## The showcase -/

namespace Showcase

/-- The order of a program text for a number of cycles with a seed. -/
def Order.ofProgram (text : String) (cycles seed : Int) : Order :=
  { program := text, cycles := .whole cycles, seed := .whole seed }

section

variable {c d : Cpu FrameBuffer Twister} {fault : Option Fault}

theorem runOn_of_ended {o : Order} {cycles : Int} (hcycles : o.cycles = .whole cycles) (rom : List UInt8)
    (hsteps : Cpu.steps cycles.toNat c = Cpu.ended fault d) : o.runOn rom c = resultOf d rom fault := by
  cases fault with
  | none =>
    have hrun : Cpu.run (some cycles) c = .ok d.trace.entries d := Cpu.run_of_completed hsteps
    simp [Order.runOn, hcycles, Amount.toInt, hrun]
  | some f =>
    have hrun : Cpu.run (some cycles) c = .error (.fault f) d := Cpu.run_of_failed hsteps
    simp [Order.runOn, hcycles, Amount.toInt, hrun]

theorem reports_result (c : Cpu FrameBuffer Twister) (fault : Option Fault) (rom : List UInt8) :
    ∃ shown, resultOf c rom fault = .ok shown ∧ shown.Reports (.ofCpu c fault) := by
  obtain ⟨rows, hrows, -⟩ := Program.listing_standard rom 0x200
  refine ⟨_, by rw [resultOf, hrows]; rfl, ?_, ?_⟩
  · refine ⟨rom.length, ruleText 40 '-' :: (rows.take 32).map rowText, ?_⟩
    simp only [summaryText, RunReport.ofCpu, Option.map_map, Function.comp_def, List.append_assoc, List.cons_append,
      List.nil_append]
    rfl
  · refine ⟨["  Stack: " ++ Text.quotedList (c.machine.live.map fun address => "0x" ++ Text.hex 3 address),
      "  DT: " ++ Text.decimal c.machine.delayTimer ++ "  ST: " ++ Text.decimal c.machine.soundTimer], ?_⟩
    simp only [registersText, RunReport.ofCpu, List.append_assoc, List.cons_append, List.nil_append]

end

variable (find : String → Found) {text : String} {cycles seed : Int} {rom : List UInt8}
  {d : Cpu FrameBuffer Twister} (hblank : Text.isAllBlank text.toList = false)

include hblank

theorem run_of_unreadable {e : Program.TokenError} (htext : Program.ofText text = .error e) :
    run find (.ofProgram text cycles seed) = .ok (failedResult e.message) := by
  simp [run, Order.rom, Order.ofProgram, hblank, htext, Except.mapError]

variable (htext : Program.ofText text = .ok rom)

include htext

theorem run_of_large (hlarge : maxProgramSize < rom.length) :
    run find (.ofProgram text cycles seed) = .ok (failedResult (Mishap.romTooLarge rom.length).message) := by
  obtain ⟨d₀, hcreated, hrun⟩ : ∃ d₀, Cpu.create FrameBuffer.standard (Twister.ofSeed seed) 10000 none = .ok d₀ ∧
      d₀.machine.halted = false := ⟨_, rfl, rfl⟩
  simp [run, Order.rom, Order.prepare, Order.ofProgram, hblank, htext, Except.mapError, Amount.toInt, bind, Except.bind,
    hcreated, Cpu.loadProgram_of_large hrun hlarge, Mishap.kind]

theorem run_of_ran {fault : Option Fault}
    (hran : Cpu.Ran (Cpu.create FrameBuffer.standard (Twister.ofSeed seed) 10000 none) rom cycles.toNat fault d) :
    ∃ shown, run find (.ofProgram text cycles seed) = .ok shown ∧ shown.Reports (.ofCpu d fault) := by
  obtain ⟨d₀, c, hcreated, hload, hsteps⟩ := hran
  obtain ⟨shown, hshown, hreports⟩ := reports_result d fault rom
  have hrom : (Order.ofProgram text cycles seed).rom find = .ok rom := by
    simp [Order.rom, Order.ofProgram, hblank, htext, Except.mapError]
  have hprepare : (Order.ofProgram text cycles seed).prepare rom = .ok c := by
    simp [Order.prepare, Order.ofProgram, Except.mapError, Amount.toInt, bind, Except.bind, hcreated, hload]
  refine ⟨shown, ?_, hreports⟩
  rw [run, hrom]
  simp only [hprepare]
  rw [runOn_of_ended rfl rom hsteps, hshown]

end Showcase

/-! ## Agreement -/

section

variable {find find' : String → Found} {events : List (List Event)} {argv : List String} {text : String}
  {cycles seed : Int}

/-- There is always another byte. -/
theorem Twister.endless : RandomSource.Endless fun _ : Twister => True := by
  intro t _
  simp only [RandomSource.next]
  exact ⟨_, _, rfl, trivial⟩

theorem RunReport.ofCpu_of_butTrace {m n : Int} {c d : Cpu FrameBuffer Twister} (h : Cpu.ButTrace m n c d)
    (fault : Option Fault) : RunReport.ofCpu d fault = RunReport.ofCpu c fault := by
  simp only [RunReport.ofCpu, Cpu.machine, Cpu.device, h.rig]

/-- The processors of both run a program that fits to the same end. -/
theorem exists_both_ran (cycles seed : Int) {rom : List UInt8} (hsize : rom.length ≤ maxProgramSize) :
    ∃ fault c d,
      Cpu.Ran (Cpu.create FrameBuffer.standard (Twister.ofSeed seed) cycles (some 1000)) rom cycles.toNat fault c ∧
      c.Ended fault ∧
      Cpu.Ran (Cpu.create FrameBuffer.standard (Twister.ofSeed seed) 10000 none) rom cycles.toNat fault d ∧
      RunReport.ofCpu d fault = RunReport.ofCpu c fault := by
  obtain ⟨c₀, hcreated, hon⟩ : ∃ c₀, Cpu.create FrameBuffer.standard (Twister.ofSeed seed) cycles (some 1000) =
      .ok c₀ ∧ c₀.trace.limit ≠ some 0 := ⟨_, rfl, by simp⟩
  have hcreated' : Cpu.create FrameBuffer.standard (Twister.ofSeed seed) 10000 none = .ok _ := rfl
  obtain ⟨fault, c, d, hc, hended, hd, hsame⟩ :=
    Cpu.exists_ran Twister.endless trivial hcreated hon hcreated' hsize cycles.toNat
  exact ⟨fault, c, d, hc, hended, hd, RunReport.ofCpu_of_butTrace hsame fault⟩

/-- **Whatever is read as the same program comes to the same end.** -/
theorem agree_of_read (hread : CommandLine.read argv = .ok (.run (.ofProgram text cycles seed)))
    (hblank : Text.isAllBlank text.toList = false) :
    FrontEndsAgree (CommandLine.run find events argv) (Showcase.run find' (.ofProgram text cycles seed)) := by
  cases htext : Program.ofText text with
  | error e =>
    exact .inl ⟨e.message, CommandLine.run_of_unreadable hread htext, Showcase.run_of_unreadable find' hblank htext⟩
  | ok rom =>
    rcases Nat.lt_or_ge maxProgramSize rom.length with hlarge | hsize
    · exact .inl ⟨_, CommandLine.run_of_large hread htext hlarge, Showcase.run_of_large find' hblank htext hlarge⟩
    · obtain ⟨fault, c, d, hc, hended, hd, hsame⟩ := exists_both_ran cycles seed hsize
      obtain ⟨shown, hshown, hreports⟩ := Showcase.run_of_ran find' hblank htext hd
      exact .inr ⟨_, shown, CommandLine.run_of_ran hread htext hc hended, hshown, hsame ▸ hreports⟩

/-- **The two front ends agree.** Give both the same program text that is not blank, the same number of cycles and the
same seed. Whenever the command line reads what it is given as that, both turn the text or the size of the program down
with the same message, or both report the same run. With the values attached to their settings it does read that, but
for a text of two dashes and for numbers with more than 4300 digits. -/
theorem frontEnds_agree (find find' : String → Found) (events : List (List Event)) {text : String}
    (hblank : Text.isAllBlank text.toList = false) (cycles seed : Int) :
    (∀ argv, CommandLine.read argv =
        .ok (.run { hex := text, maxCycles := some cycles, seed := .number seed }) →
      FrontEndsAgree (CommandLine.run find events argv)
        (Showcase.run find' { program := text, cycles := .whole cycles, seed := .whole seed })) ∧
    (text ≠ "--" → cycles.natAbs < 10 ^ Text.digitLimit → seed.natAbs < 10 ^ Text.digitLimit →
      FrontEndsAgree (CommandLine.run find events (CommandLine.given text cycles seed))
        (Showcase.run find' { program := text, cycles := .whole cycles, seed := .whole seed })) := by
  refine ⟨fun argv hread => agree_of_read hread hblank, fun hdashes hcycles hseed => ?_⟩
  have hempty : text ≠ "" := by
    rintro rfl
    exact absurd hblank (by decide)
  exact agree_of_read (CommandLine.read_given hempty hdashes hcycles hseed) hblank

/-- The second instruction of nine is none. -/
theorem frontEnds_agree_faulting :
    Text.isAllBlank "6005 ; a register\n0000".toList = false ∧
      FrontEndsAgree (CommandLine.run (fun _ => .nothing) [] (CommandLine.given "6005 ; a register\n0000" 9 (-1)))
        (Showcase.run (fun _ => .nothing)
          { program := "6005 ; a register\n0000", cycles := .whole 9, seed := .whole (-1) }) := by
  have hone : 1 < 10 ^ Text.digitLimit := Nat.one_lt_pow (by decide) (by decide)
  have hnine : 9 < 10 ^ Text.digitLimit := Nat.lt_of_lt_of_le (by decide) (Nat.le_self_pow (by decide) 10)
  exact ⟨by decide, (frontEnds_agree (fun _ => .nothing) (fun _ => .nothing) [] (by decide) 9 (-1)).2 (by decide) hnine
    hone⟩

/-! ## Where they differ -/

/-- Wrong usage is not what the showcase reports, unless it says the same. -/
theorem not_agree_of_usage {o : CommandLine.Outcome} {e : CommandLine.UsageError}
    {result : Except Failure Showcase.Result} (hending : o.ending = .usage e)
    (hresult : result ≠ .ok (Showcase.failedResult e.message)) : ¬ FrontEndsAgree o result := by
  rintro (⟨message, hrejects, rfl⟩ | ⟨r, shown, hreports, -, -⟩)
  · rcases hrejects with ⟨e', he', rfl⟩ | ⟨-, hexit⟩
    · cases hending.symm.trans he'
      exact hresult rfl
    · cases hending.symm.trans hexit
  · cases hending.symm.trans hreports.ending

/-- The summary of a run is no message. -/
theorem Showcase.Result.Reports.ne_failedResult {shown : Showcase.Result} {r : RunReport} (h : shown.Reports r)
    (message : String) : shown ≠ Showcase.failedResult message := by
  rintro rfl
  obtain ⟨size, listing, hsummary⟩ := h.summary
  have hletters := congrArg (fun s : String => s.toList.take 2) hsummary
  simp [Showcase.failedResult, Showcase.joined] at hletters

theorem Showcase.run_ne_failedResult {rom : List UInt8} (hblank : Text.isAllBlank text.toList = false)
    (htext : Program.ofText text = .ok rom) (hsize : rom.length ≤ maxProgramSize) (message : String) :
    Showcase.run find (.ofProgram text cycles seed) ≠ .ok (Showcase.failedResult message) := by
  obtain ⟨fault, c, d, -, -, hran, -⟩ := exists_both_ran cycles seed hsize
  obtain ⟨shown, hshown, hreports⟩ := Showcase.run_of_ran find hblank htext hran
  rw [hshown]
  exact fun heq => hreports.ne_failedResult message (Except.ok.inj heq)

theorem CommandLine.ending_of_unread {e : UsageError} (hread : read argv = .error e) :
    (run find events argv).ending = .usage e := by
  rw [run, hread]

/-- A number with too many digits is turned down by the command line only. -/
theorem not_agree_of_long {rom : List UInt8} (hblank : Text.isAllBlank text.toList = false)
    (htext : Program.ofText text = .ok rom) (hsize : rom.length ≤ maxProgramSize)
    (hlong : 10 ^ Text.digitLimit ≤ cycles.natAbs ∨ 10 ^ Text.digitLimit ≤ seed.natAbs) :
    ¬ FrontEndsAgree (CommandLine.run find events (CommandLine.given text cycles seed))
      (Showcase.run find' (.ofProgram text cycles seed)) := by
  obtain ⟨e, hread⟩ := CommandLine.read_given_of_long text hlong
  exact not_agree_of_usage (CommandLine.ending_of_unread hread) (Showcase.run_ne_failedResult hblank htext hsize _)

/-- A text of two dashes is no program. The command line does not get to see it. -/
theorem not_agree_of_dashes (hcycles : cycles.natAbs < 10 ^ Text.digitLimit)
    (hseed : seed.natAbs < 10 ^ Text.digitLimit) :
    ¬ FrontEndsAgree (CommandLine.run find events (CommandLine.given "--" cycles seed))
      (Showcase.run find' (.ofProgram "--" cycles seed)) := by
  have hread : CommandLine.read (CommandLine.given "--" cycles seed) = .error .nothingToRun := by
    rw [CommandLine.read_given_eq, CommandLine.numberOf_decimal hcycles, CommandLine.numberOf_decimal hseed]
    rfl
  have htext : Program.ofText "--" = .error ⟨1, ['-', '-']⟩ := by decide
  refine not_agree_of_usage (CommandLine.ending_of_unread hread) ?_
  rw [Showcase.run_of_unreadable find' (by decide) htext]
  intro heq
  have hsummary := congrArg Showcase.Result.summary (Except.ok.inj heq)
  exact absurd hsummary (by decide)

/-- They differ on two dashes, and on a program that is run with too many digits in the number of cycles or the seed. -/
theorem frontEnds_disagree :
    let command (text : String) (cycles seed : Int) :=
      CommandLine.run (fun _ => .nothing) [] (CommandLine.given text cycles seed)
    let showcase (text : String) (cycles seed : Int) :=
      Showcase.run (fun _ => .nothing) { program := text, cycles := .whole cycles, seed := .whole seed }
    (Text.isAllBlank "--".toList = false ∧ ¬ FrontEndsAgree (command "--" 0 0) (showcase "--" 0 0)) ∧
      Text.isAllBlank "0000".toList = false ∧
      ¬ FrontEndsAgree (command "0000" (10 ^ Text.digitLimit) 0) (showcase "0000" (10 ^ Text.digitLimit) 0) ∧
      ¬ FrontEndsAgree (command "0000" 0 (10 ^ Text.digitLimit)) (showcase "0000" 0 (10 ^ Text.digitLimit)) := by
  have hzero : (0 : Int).natAbs < 10 ^ Text.digitLimit := Nat.pow_pos (by decide)
  have hlong (digits : Nat) : 10 ^ digits ≤ ((10 : Int) ^ digits).natAbs :=
    Nat.le_of_eq (Int.natAbs_pow 10 digits).symm
  have htext : Program.ofText "0000" = .ok [0, 0] := by decide
  exact ⟨⟨by decide, not_agree_of_dashes hzero hzero⟩, by decide,
    not_agree_of_long (by decide) htext (by decide) (.inl (hlong _)),
    not_agree_of_long (by decide) htext (by decide) (.inr (hlong _))⟩

end

end Chip8
