import Chip8.CommandLine.Setting
import Chip8.Text.Integer

/-!
# Reading the command line

An argument that starts with a dash names settings. A long name may be cut short as long as it stays unambiguous, and
may carry its value behind an equals sign. A short name may carry its value at once or behind an equals sign, and
short names without values may be run together, with an equals sign behind the first if one likes. Two dashes attached
as a value leave the setting blank. A negative number, or an argument with a space that is no setting, is a value after
all, and behind two dashes everything is. Arguments that end up without a meaning are collected and complained about
together. Main statement: `unroll_flag`, the rule for names that are run together.
-/

namespace Chip8.CommandLine

/-! ## What an argument is -/

/-- The role of an argument. -/
inductive Role where
  /-- A value, or nothing at all. -/
  | value
  /-- The two dashes behind which everything is a value. -/
  | endOfSettings
  /-- A setting, by its full name, perhaps with a text attached. -/
  | setting (name : List Char) (s : Setting) (attached : Option (List Char))
  /-- It looks like a setting, but there is none of this name. -/
  | unknown
  deriving DecidableEq, Repr

/-- The setting of a full name. -/
def settingOf? (name : List Char) : Option Setting := Setting.named.lookup (String.ofList name)

/-- The part before the first equals sign, and the part after it if there is one. -/
def splitAtEquals (cs : List Char) : List Char × Option (List Char) :=
  match cs.dropWhile (· ≠ '=') with
  | [] => (cs, none)
  | _ :: value => (cs.takeWhile (· ≠ '='), some value)

/-- The settings whose name starts with this text. -/
def startingWith (start : List Char) (attached : Option (List Char)) :
    List (List Char × Setting × Option (List Char)) :=
  (Setting.named.filter fun (name, _) => start.isPrefixOf name.toList).map fun (name, s) => (name.toList, s, attached)

/-- The settings that an argument may mean which is no full name: those that a long name abbreviates, or the one whose
short name it starts with. -/
def candidates : List Char → List (List Char × Setting × Option (List Char))
  | '-' :: '-' :: rest =>
    let (start, attached) := splitAtEquals ('-' :: '-' :: rest)
    startingWith start attached
  | '-' :: c :: rest =>
    Setting.named.filterMap fun (name, s) =>
      if name.toList = ['-', c] then some (['-', c], s, some rest)
      else if ('-' :: c :: rest).isPrefixOf name.toList then some (name.toList, s, none)
      else none
  | _ => []

/-- Is the character a decimal digit of any script? -/
def isDecimal (c : Char) : Bool := (Text.digitValue? c).isSome

/-- The text without a line feed at its end. -/
def withoutLineFeed (cs : List Char) : List Char := if cs.getLast? = some '\n' then cs.dropLast else cs

/-- Are these decimal digits, one or more? -/
def isDigits (cs : List Char) : Bool := !cs.isEmpty && cs.all isDecimal

/-- Are these digits, or a point with digits after it and perhaps before it? -/
def isUnsignedNumber (cs : List Char) : Bool :=
  isDigits cs || match cs.dropWhile isDecimal with
    | '.' :: fraction => isDigits fraction
    | _ => false

/-- Is this a negative number? A line feed at the end does not count. -/
def isNegativeNumber : List Char → Bool
  | '-' :: rest => isUnsignedNumber (withoutLineFeed rest)
  | _ => false

/-- The role of an argument that may name a setting. -/
def roleOf (argument : String) : Except UsageError Role :=
  let cs := argument.toList
  match cs with
  | '-' :: _ :: _ =>
    match settingOf? cs with
    | some s => .ok (.setting cs s none)
    | none =>
      let (name, attached) := splitAtEquals cs
      match attached, settingOf? name with
      | some attached, some s => .ok (.setting name s (some attached))
      | _, _ => match candidates cs with
        | [(name, s, attached)] => .ok (.setting name s attached)
        | [] => .ok (if isNegativeNumber cs || cs.contains ' ' then .value else .unknown)
        | several => .error (.ambiguous argument (several.map fun (name, _) => String.ofList name))
  | _ => .ok .value

/-- The roles of all arguments. -/
def roles : List String → Except UsageError (List (String × Role))
  | [] => .ok []
  | argument :: rest =>
    if argument = "--" then .ok ((argument, .endOfSettings) :: rest.map fun value => (value, .value))
    else do
      let role ← roleOf argument
      let more ← roles rest
      return (argument, role) :: more

/-! ## Applying settings -/

/-- What the command line asks for. -/
inductive Request where
  | help
  | run (settings : Settings)
  deriving DecidableEq, Repr

/-- The value that leaves a setting blank. -/
def blankValue : String := "--"

/-- The text that a value stands for; a blank is the empty one. -/
def textOf (value : String) : String := if value = blankValue then "" else value

/-- The whole number that a value writes, or none for a blank. -/
def numberOf (s : Setting) (value : String) : Except UsageError (Option Int) :=
  if value = blankValue then .ok none
  else match Text.readInteger value with
    | .ok n => .ok (some n)
    | .error _ => .error (.notANumber s value)

/-- The seed that a number from the command line is. -/
def Seed.given : Option Int → Seed
  | some n => .number n
  | none => .blank

/-- Applies a setting with its value. Settings without a value ignore it. -/
def apply (settings : Settings) (s : Setting) (value : String) : Except UsageError Settings :=
  match s with
  | .help => .ok settings
  | .rom => .ok { settings with rom := textOf value }
  | .hex => .ok { settings with hex := textOf value }
  | .maxCycles => (numberOf s value).map fun maxCycles => { settings with maxCycles }
  | .display => .ok { settings with display := true }
  | .speed => (numberOf s value).map fun speed => { settings with speed }
  | .scale => (numberOf s value).map fun scale => { settings with scale }
  | .seed => (numberOf s value).map fun seed => { settings with seed := .given seed }
  | .trace => .ok { settings with trace := true }
  | .quiet => .ok { settings with quiet := true }
  | .verbose => .ok { settings with verbose := true }

/-- What an argument turned out to hold: settings without values, then perhaps one with its value. `taken` tells
whether the value was the argument after it. -/
structure Held where
  flags : List Setting := []
  valued : Option (Setting × String) := none
  taken : Bool := false
  deriving DecidableEq, Repr

/-- The value that follows in the next argument. -/
def followingValue (s : Setting) : List (String × Role) → Except UsageError Held
  | (value, .value) :: _ => .ok { valued := some (s, value), taken := true }
  | _ => .error (.valueMissing s)

/-- A setting on its own. -/
def alone (s : Setting) (next : List (String × Role)) : Except UsageError Held :=
  if s.takesValue then followingValue s next else .ok { flags := [s] }

/-- Unrolls short names that are run together: `s` is named, and the text is attached to it. The text is the value of
the first setting that takes one. -/
def unroll (next : List (String × Role)) (s : Setting) : List Char → Except UsageError Held
  | [] => alone s next
  | c :: rest =>
    if s.takesValue then .ok { valued := some (s, String.ofList (c :: rest)) }
    else match settingOf? ['-', c] with
      | none => .error (.valueIgnored s (String.ofList (c :: rest)))
      | some s' => (unroll next s' rest).map fun held => { held with flags := s :: held.flags }

/-- A setting without a value may be followed by the short name of another one. -/
theorem unroll_flag {s s' : Setting} {c : Char} (hs : s.takesValue = false) (hc : settingOf? ['-', c] = some s')
    (next : List (String × Role)) (rest : List Char) :
    unroll next s (c :: rest) = (unroll next s' rest).map fun held => { held with flags := s :: held.flags } := by
  simp [unroll, hs, hc]

/-- What an argument holds that names a setting. An empty text is attached as a value only. -/
def hold (name : List Char) (s : Setting) (attached : Option (List Char)) (next : List (String × Role)) :
    Except UsageError Held :=
  match attached with
  | none => alone s next
  | some text =>
    if s.takesValue then .ok { valued := some (s, String.ofList text) }
    else if text.isEmpty || name.take 2 == ['-', '-'] then .error (.valueIgnored s (String.ofList text))
    else unroll next s text

/-- Reads arguments by their roles. The result carries the arguments that mean nothing. -/
def readRoles (settings : Settings) (extras : List String) :
    List (String × Role) → Except UsageError (Request × List String)
  | [] => .ok (.run settings, extras)
  | (argument, .value) :: rest => readRoles settings (extras ++ [argument]) rest
  | (argument, .endOfSettings) :: rest => readRoles settings (extras ++ [argument]) rest
  | (argument, .unknown) :: rest => readRoles settings (extras ++ [argument]) rest
  | (_, .setting name s attached) :: rest => do
    let held ← hold name s attached rest
    if held.flags.contains .help then return (.help, [])
    let settings ← held.flags.foldlM (fun settings s => apply settings s "") settings
    let settings ← match held.valued with
      | some (s, value) => apply settings s value
      | none => pure settings
    match held.taken, rest with
    | true, _ :: rest => readRoles settings extras rest
    | _, rest => readRoles settings extras rest

/-- Reads a command line. -/
def read (argv : List String) : Except UsageError Request := do
  let (request, extras) ← readRoles {} [] (← roles argv)
  match request, extras with
  | .help, _ => return .help
  | .run settings, [] =>
    if settings.rom.isEmpty && settings.hex.isEmpty then .error .nothingToRun else return .run settings
  | .run _, extras => .error (.unrecognized extras)

end Chip8.CommandLine
