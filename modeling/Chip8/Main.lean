import Chip8.CommandLine.Run

/-!
# The program

Looks at the file that the command line names, runs the command line, and prints what comes of it. There is no window
system behind this program: a window sees one request to quit.
-/

namespace Chip8

/-- The help page. -/
def helpLines : List String :=
  ["usage: chip8 [--rom FILE | --hex WORDS] [options]",
   "",
   "  -h, --help           show this page",
   "  --rom, -r FILE       program file",
   "  --hex, -x WORDS      program as hex words",
   "  --max-cycles N       cycles to run without a screen (10000)",
   "  --display, -d        run in a window until it is closed",
   "  --speed, -s N        cycles per frame in a window (10)",
   "  --scale N            window pixels per display pixel (10)",
   "  --seed N             seed of the random source",
   "  --trace, -t          print the full trace",
   "  --quiet, -q          print the final registers only",
   "  --verbose, -v        report what happens"]

/-- What is found at a path of the file system. What is there but cannot be read counts as a directory. -/
def findPath (path : String) : IO Found := do
  match ← (IO.FS.readBinFile path).toBaseIO with
  | .ok bytes => return .file bytes.toList
  | .error (.noFileOrDirectory ..) => return .nothing
  | .error _ => return .directory

/-- The path of the file that the command line names, if it names one. -/
def namedFile (argv : List String) : Option String :=
  match CommandLine.read argv with
  | .ok (.run settings) => if settings.rom.isEmpty then none else some settings.rom
  | _ => none

end Chip8

open Chip8

def main (argv : List String) : IO UInt32 := do
  let found ← match namedFile argv with
    | some path => findPath path
    | none => pure .nothing
  let outcome := CommandLine.run (fun _ => found) [] argv
  for note in outcome.notes do
    IO.eprintln (note.level.text ++ ": " ++ note.message)
  for line in outcome.printed do
    IO.println line
  match outcome.ending with
  | .exit code => return UInt32.ofNat code
  | .help =>
    for line in helpLines do
      IO.println line
    return 0
  | .usage e =>
    IO.eprintln ("chip8: error: " ++ e.message)
    return 2
  | .died e =>
    IO.eprintln ("chip8: " ++ e.message)
    return 1
