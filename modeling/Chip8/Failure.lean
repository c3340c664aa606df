import Chip8.Fault
import Chip8.Text.Quoted

/-!
# Failures and actions

Three things end an action early. A fault stops the machine. A halted machine refuses to go on. A mishap is any other
misuse, a cell that does not exist or an argument out of range, and leaves the machine as far as it got. An action
keeps what it changed before it failed, and that is why it is a state transformer whose failures carry a state.
-/

namespace Chip8

/-- Sorts of mishap. -/
inductive MishapKind where
  | value
  | index
  | key
  | zeroDivision
  | overflow
  | refused
  /-- Something of the wrong sort altogether. -/
  | wrongSort
  | noMemory
  | noFile
  | isDirectory
  | isNoDirectory
  /-- Any other refusal of the file system. -/
  | fileSystem
  deriving DecidableEq, Repr

/-- Everything that can go wrong short of a fault. -/
inductive Mishap where
  /-- No byte cell at this address. -/
  | noByteCell
  /-- No entry of a row to read at this address. -/
  | noEntryToRead
  /-- No entry of a row to replace at this address. -/
  | noEntryToWrite
  /-- An address that does not fit a machine word of sixty-four bits. -/
  | addressTooWide
  /-- A value that is no byte, stored as one. -/
  | notAByte
  /-- A register number outside 0 to 15. -/
  | invalidRegister (x : Int)
  /-- A pixel outside the display. -/
  | pixelOutside (x y width height : Int)
  /-- A key number outside 0 to 15. -/
  | invalidKey (key : Int)
  /-- Nothing to count round: a display without columns or without rows, or an empty list of numbers. -/
  | zeroModulus
  /-- A program larger than the memory for it. -/
  | romTooLarge (size : Nat)
  /-- A row whose size does not fit a machine word. -/
  | sizeTooWide
  /-- A row or a number that no memory has room for. -/
  | noRoom
  /-- A trace of negative length. -/
  | negativeTraceLength
  /-- A trace whose length does not fit a machine word. -/
  | traceTooLong
  /-- A row with a negative number of cells. -/
  | negativeSize
  /-- A host that would run no instructions between two ticks. -/
  | tooFewCycles
  /-- A host with no frames in a second. -/
  | tooFewFrames
  /-- A frame rate too large for a real number. -/
  | frameRateTooLarge
  /-- A name that no instruction has. -/
  | notAnInstruction (name : String)
  /-- An instruction that the table does not hold. -/
  | absentInstruction (name : String)
  /-- An operation that is not registered. -/
  | unknownOperation (key : String)
  /-- A second primitive for one operation. -/
  | alreadyRegistered (name : String)
  /-- A change to a frozen registry. -/
  | registryFrozen
  /-- Fewer arguments than the primitive takes. -/
  | tooFewArguments (expected given : Nat)
  /-- More arguments than the primitive takes. -/
  | tooManyArguments (expected : Nat)
  /-- An operand moved by a negative number of bits. -/
  | negativeShift
  /-- An operand moved so far up that no integer has as many bits. -/
  | tooManyBits
  /-- The wrong number of operands for an instruction. -/
  | operandCount (name : String) (expected given : Nat)
  /-- An operand that does not fit its bits. -/
  | operandTooWide (name : String) (value mask : Int)
  /-- A mnemonic that asks for an operand the instruction does not have. -/
  | noOperand (position : Nat)
  /-- A text that is no whole number. -/
  | notAWholeNumber (text : String)
  /-- A text with too many digits to be read as a number. -/
  | tooManyDigits (count : Nat)
  /-- A real number beyond all bounds where a whole number is wanted. -/
  | infinite
  /-- A real number that is none where a whole number is wanted. -/
  | notANumber
  /-- A seed that was left blank. -/
  | blankSeed
  /-- A number of cycles that was left blank. -/
  | blankCycles
  /-- A number of instructions in a frame that was left blank. -/
  | blankSpeed
  /-- A file that does not exist. -/
  | noSuchFile (name : String)
  /-- A directory where a file is wanted. -/
  | notAFile (name : String)
  /-- A path that goes on behind a file. -/
  | notADirectory (name : String)
  /-- A path that is too long, or has a name that is. -/
  | nameTooLong (name : String)
  /-- A path with a null character. -/
  | nullInPath
  deriving DecidableEq, Repr

namespace Mishap

/-- The sort of a mishap. -/
def kind : Mishap → MishapKind
  | noByteCell | noEntryToRead | noEntryToWrite | addressTooWide | pixelOutside .. | noOperand _ => .index
  | invalidRegister _ | absentInstruction _ | unknownOperation _ => .key
  | zeroModulus => .zeroDivision
  | sizeTooWide | tooManyBits | traceTooLong | frameRateTooLarge | infinite => .overflow
  | registryFrozen => .refused
  | blankSeed | blankCycles | blankSpeed => .wrongSort
  | noRoom => .noMemory
  | noSuchFile _ => .noFile
  | notAFile _ => .isDirectory
  | notADirectory _ => .isNoDirectory
  | nameTooLong _ => .fileSystem
  | _ => .value

/-- The wording of a mishap. -/
def message : Mishap → String
  | noByteCell => "bytearray index out of range"
  | noEntryToRead => "list index out of range"
  | noEntryToWrite => "list assignment index out of range"
  | addressTooWide => "cannot fit 'int' into an index-sized integer"
  | notAByte => "byte must be in range(0, 256)"
  | invalidRegister x => "Invalid register: V" ++ Text.decimal x
  | pixelOutside x y width height =>
    "pixel (" ++ Text.decimal x ++ ", " ++ Text.decimal y ++ ") outside " ++ Text.decimal width ++ "x" ++
      Text.decimal height ++ " display"
  | invalidKey key => "Invalid key: " ++ Text.decimal key
  | zeroModulus => "integer modulo by zero"
  | romTooLarge size => "ROM is " ++ Text.decimal size ++ " bytes, maximum is 3584"
  | sizeTooWide => "cannot fit 'int' into an index-sized integer"
  | noRoom => ""
  | negativeTraceLength => "maxlen must be non-negative"
  | traceTooLong => "Python int too large to convert to C ssize_t"
  | negativeSize => "negative count"
  | tooFewCycles => "cycles_per_frame must be at least 1"
  | tooFewFrames => "frame_rate must be at least 1"
  | frameRateTooLarge => "int too large to convert to float"
  | notAnInstruction name => Text.quoted name ++ " is not a valid InstructionName"
  | absentInstruction name => name
  | unknownOperation key => "Unknown operation key: " ++ key
  | alreadyRegistered name => "Primitive already registered: InstructionName." ++ name
  | registryFrozen => "Cannot register primitives: registry is frozen"
  | tooFewArguments expected given =>
    "not enough values to unpack (expected " ++ Text.decimal expected ++ ", got " ++ Text.decimal given ++ ")"
  | tooManyArguments expected => "too many values to unpack (expected " ++ Text.decimal expected ++ ")"
  | negativeShift => "negative shift count"
  | tooManyBits => "too many digits in integer"
  | operandCount name expected given =>
    name ++ " takes " ++ Text.decimal expected ++ " operands, got " ++ Text.decimal given
  | operandTooWide name value mask =>
    name ++ ": operand " ++ Text.markedHex 0 value ++ " does not fit mask " ++ Text.markedHex 6 mask
  | noOperand position =>
    "Replacement index " ++ Text.decimal position ++ " out of range for positional args tuple"
  | notAWholeNumber text => "invalid literal for int() with base 10: " ++ Text.quotedStart 200 text
  | tooManyDigits count =>
    "Exceeds the limit (4300 digits) for integer string conversion: value has " ++ Text.decimal count ++
      " digits; use sys.set_int_max_str_digits() to increase the limit"
  | infinite => "cannot convert float infinity to integer"
  | notANumber => "cannot convert float NaN to integer"
  | blankSeed => "The only supported seed types are: None,\nint, float, str, bytes, and bytearray."
  | blankCycles => "'list' object cannot be interpreted as an integer"
  | blankSpeed => "'<' not supported between instances of 'list' and 'int'"
  | noSuchFile name => "[Errno 2] No such file or directory: " ++ Text.quoted name
  | notAFile name => "[Errno 21] Is a directory: " ++ Text.quoted name
  | notADirectory name => "[Errno 20] Not a directory: " ++ Text.quoted name
  | nameTooLong name => "[Errno 36] File name too long: " ++ Text.quoted name
  | nullInPath => "embedded null byte"

end Mishap

/-- The ways an action ends early. -/
inductive Failure where
  | fault (f : Fault)
  | halted (reason : Option Fault)
  | mishap (m : Mishap)
  deriving DecidableEq, Repr

/-- The refusal of a halted machine, giving what halted it in words. -/
def haltedMessage : Option String → String
  | none => "CPU is halted"
  | some reason => "CPU is halted after " ++ reason

namespace Failure

/-- The wording of a failure. -/
def message : Failure → String
  | fault f => f.text
  | halted f => haltedMessage (f.map Fault.text)
  | mishap m => m.message

end Failure

/-- An action on a `σ` with a result in `α`. -/
abbrev Act (σ α : Type) : Type := EStateM Failure σ α

/-- The action that fails with a mishap. -/
def Act.mishap {σ α : Type} (m : Mishap) : Act σ α := throw (.mishap m)

/-- The result of a computation that may meet a mishap. -/
def Act.ofExcept {σ α : Type} : Except Mishap α → Act σ α
  | .ok a => pure a
  | .error m => Act.mishap m

/-- A part of a state: how to read it and how to put it back. -/
structure Part (σ τ : Type) where
  get : σ → τ
  put : σ → τ → σ

/-- An action on a part, as an action on the whole. The rest of the state is untouched, failures included. -/
def Act.within {σ τ α : Type} (part : Part σ τ) (act : Act τ α) : Act σ α := fun s =>
  match act (part.get s) with
  | .ok a t => .ok a (part.put s t)
  | .error e t => .error e (part.put s t)

end Chip8
