import Chip8.Text.Number

/-!
# Faults

A fault stops the machine for good. Its cause says what went wrong; the kind and the wording are functions of the
cause. The place, that is the program counter and the opcode, is filled in by whoever knows it.
-/

namespace Chip8

/-- The families of faults. -/
inductive FaultKind where
  | general
  | outOfBounds
  | stackOverflow
  | stackUnderflow
  | unknownOpcode
  | invalidDigit
  deriving DecidableEq, Repr

/-- The name of a family, as messages write it. -/
def FaultKind.text : FaultKind → String
  | .general => "Fault"
  | .outOfBounds => "OutOfBounds"
  | .stackOverflow => "StackOverflow"
  | .stackUnderflow => "StackUnderflow"
  | .unknownOpcode => "UnknownOpcode"
  | .invalidDigit => "InvalidDigit"

/-- What went wrong. -/
inductive FaultCause where
  /-- No two bytes to fetch at the program counter. -/
  | fetchPastEnd (pc : Int)
  /-- A stretch of addresses that leaves the memory. -/
  | outsideMemory (first last : Int)
  /-- The last byte of a block at the index register lies past the memory. -/
  | blockPastEnd (index offset : Int)
  /-- A call with every return address in use. -/
  | stackFull
  /-- A return without a call. -/
  | stackEmpty
  /-- A word that is no instruction. -/
  | noInstruction (word : Int)
  /-- A register whose value has no glyph in the font. -/
  | notADigit (register : Int) (value : UInt8)
  /-- A fault raised by somebody else, in their words. -/
  | told (kind : FaultKind) (message : String)
  deriving DecidableEq, Repr

namespace FaultCause

/-- The family of a cause. -/
def kind : FaultCause → FaultKind
  | fetchPastEnd _ => .outOfBounds
  | outsideMemory _ _ => .outOfBounds
  | blockPastEnd _ _ => .outOfBounds
  | stackFull => .stackOverflow
  | stackEmpty => .stackUnderflow
  | noInstruction _ => .unknownOpcode
  | notADigit _ _ => .invalidDigit
  | told kind _ => kind

/-- The wording of a cause. -/
def message : FaultCause → String
  | fetchPastEnd pc => "fetch at 0x" ++ Text.hex 3 pc ++ " past end of memory"
  | outsideMemory first last =>
    "memory access 0x" ++ Text.hex 3 first ++ "..0x" ++ Text.hex 3 last ++ " outside 0x000-0xFFF"
  | blockPastEnd index offset => "I=0x" ++ Text.hex 3 index ++ " + " ++ Text.decimal offset ++ " past 0xFFF"
  | stackFull => "stack depth 16 exceeded"
  | stackEmpty => "return with empty stack"
  | noInstruction word => "no instruction matches 0x" ++ Text.hex 4 word
  | notADigit register value =>
    "V" ++ Text.hex 0 register ++ "=0x" ++ Text.hex 2 value.toNat ++ " is not a hex digit"
  | told _ message => message

end FaultCause

/-- A fault and the place where it happened, as far as it is known. -/
structure Fault where
  cause : FaultCause
  pc : Option Int := none
  opcode : Option Int := none
  deriving DecidableEq, Repr

namespace Fault

/-- The family of a fault. -/
def kind (f : Fault) : FaultKind := f.cause.kind

/-- The place in brackets: program counter, then opcode, each only if known. -/
def place (f : Fault) : String :=
  match (f.pc.map fun pc => "pc=0x" ++ Text.hex 3 pc).toList ++
      (f.opcode.map fun opcode => "opcode=0x" ++ Text.hex 4 opcode).toList with
  | [] => ""
  | parts => " (" ++ ", ".intercalate parts ++ ")"

/-- Kind, wording and place. -/
def text (f : Fault) : String := f.kind.text ++ ": " ++ f.cause.message ++ f.place

/-- The fault with the parts of its place that were not yet known. -/
def locate (f : Fault) (pc : Int) (opcode : Option Int) : Fault :=
  { f with pc := f.pc.or (some pc), opcode := f.opcode.or opcode }

end Fault

end Chip8
