import Chip8.Text.Quoted

/-!
# Settings of the command line

What can be set on the command line, under which names, and what is wrong with a command line that cannot be read.
-/

namespace Chip8.CommandLine

/-- A setting of the command line. -/
inductive Setting where
  | help
  | rom
  | hex
  | maxCycles
  | display
  | speed
  | scale
  | seed
  | trace
  | quiet
  | verbose
  deriving DecidableEq, Repr

namespace Setting

/-- The names of a setting. -/
def names : Setting → List String
  | help => ["-h", "--help"]
  | rom => ["--rom", "-r"]
  | hex => ["--hex", "-x"]
  | maxCycles => ["--max-cycles"]
  | display => ["--display", "-d"]
  | speed => ["--speed", "-s"]
  | scale => ["--scale"]
  | seed => ["--seed"]
  | trace => ["--trace", "-t"]
  | quiet => ["--quiet", "-q"]
  | verbose => ["--verbose", "-v"]

/-- Every setting, in the order of the help page. -/
def all : List Setting :=
  [help, rom, hex, maxCycles, display, speed, scale, seed, trace, quiet, verbose]

/-- Every name with its setting. -/
def named : List (String × Setting) := all.flatMap fun s => s.names.map fun name => (name, s)

/-- Does the setting take a value, or is it on by being named? -/
def takesValue : Setting → Bool
  | help | display | trace | quiet | verbose => false
  | _ => true

/-- The setting in messages: all its names. -/
def label (s : Setting) : String := "/".intercalate s.names

end Setting

/-- The seed of the random source, if one is given; a given one may be left blank. -/
inductive Seed where
  | unset
  | blank
  | number (n : Int)
  deriving DecidableEq, Repr

/-- The values of the settings. A number may be left blank. -/
structure Settings where
  rom : String := ""
  hex : String := ""
  maxCycles : Option Int := some 10000
  display : Bool := false
  speed : Option Int := some 10
  scale : Option Int := some 10
  seed : Seed := .unset
  trace : Bool := false
  quiet : Bool := false
  verbose : Bool := false
  deriving DecidableEq, Repr

/-- Why a command line cannot be read. -/
inductive UsageError where
  /-- An abbreviation of several names. -/
  | ambiguous (argument : String) (names : List String)
  /-- A setting without its value. -/
  | valueMissing (s : Setting)
  /-- A value for a setting that takes none. -/
  | valueIgnored (s : Setting) (value : String)
  /-- A value that is no whole number. -/
  | notANumber (s : Setting) (value : String)
  /-- Arguments that mean nothing. -/
  | unrecognized (arguments : List String)
  /-- Neither a program nor a file. -/
  | nothingToRun
  /-- A program text that cannot be read. -/
  | badProgram (message : String)
  deriving DecidableEq, Repr

/-- The wording of a usage error. -/
def UsageError.message : UsageError → String
  | ambiguous argument names => "ambiguous option: " ++ argument ++ " could match " ++ ", ".intercalate names
  | valueMissing s => "argument " ++ s.label ++ ": expected one argument"
  | valueIgnored s value => "argument " ++ s.label ++ ": ignored explicit argument " ++ Text.quoted value
  | notANumber s value => "argument " ++ s.label ++ ": invalid int value: " ++ Text.quoted value
  | unrecognized arguments => "unrecognized arguments: " ++ " ".intercalate arguments
  | nothingToRun => "Either --rom or --hex is required"
  | badProgram message => message

end Chip8.CommandLine
