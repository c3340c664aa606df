import Chip8.Instruction.Order
import Chip8.Instruction.Set

/-!
# Decoding and encoding

A decoder resolves a word to the first instruction of its table that matches. To look at fewer instructions it sorts
the table by the first digit of the words once, into sixteen lists that keep the order of the table. Its second
definition is the plain scan `matching`. In the other direction `encode` puts operands into the pattern of the first
instruction of a name. Main statements: `standard_eq`, which says that the instruction set is in order, and
`candidates_build`, which says what is in the list that is searched for a word.
-/

namespace Chip8

/-- A decoded word. -/
structure Decoded where
  instruction : Instruction
  args : List Int
  word : UInt16
  deriving DecidableEq, Repr

/-- The assembly text of a decoded word. -/
def Decoded.text (d : Decoded) : Except Mishap String := d.instruction.mnemonic.fill d.args

/-- The assembly text of a decoded word, empty where the mnemonic asks for an operand that is not there. No
instruction of the instruction set does. -/
def Decoded.shown (d : Decoded) : String :=
  match d.text with
  | .ok t => t
  | .error _ => ""

/-- An ordered table with its jump table. -/
structure Decoder where
  table : List Instruction
  /-- The list at a digit holds the instructions that words with this first digit can match. -/
  byDigit : Array (List Instruction)

namespace Decoder

/-! ## Building -/

/-- Can a word with this first digit match? -/
def admits (digit : Nat) (inst : Instruction) : Bool :=
  let fixed := Bits.and (inst.mask >>> (12 : Nat)) 0xF
  Bits.and (digit : Int) fixed == Bits.and (inst.pattern >>> (12 : Nat)) fixed

/-- The decoder of a table, in order or not. -/
def build (table : List Instruction) : Decoder :=
  { table, byDigit := (Array.range 16).map fun digit => table.filter (admits digit) }

/-- The decoder of a table in order. -/
def ofTable (table : List Instruction) : Except Instruction.OrderError Decoder :=
  (Instruction.checkOrder table).map fun _ => build table

/-- The decoder of the instruction set. -/
def standard : Decoder := build Instruction.all

theorem standard_eq : ofTable Instruction.all = .ok standard := by
  have h : Instruction.orderError? Instruction.all = none := by decide +kernel
  rw [ofTable, Instruction.checkOrder, h]
  rfl

/-! ## Decoding -/

/-- The instructions to look at for a word. -/
def candidates (d : Decoder) (word : UInt16) : List Instruction := (d.byDigit[word.toNat / 4096]?).getD []

/-- The fault of a word that is no instruction. -/
def unknown (word : UInt16) : Failure :=
  .fault { cause := .noInstruction word.toNat, opcode := some word.toNat }

/-- Resolves the word of an opcode. -/
def decode (d : Decoder) (opcode : Int) : Except Failure Decoded :=
  let word := wordOf opcode
  match (d.candidates word).find? fun inst => inst.matchesWord word with
  | none => .error (unknown word)
  | some inst => match inst.extract word with
    | .ok args => .ok ⟨inst, args, word⟩
    | .error m => .error (.mishap m)

/-- Every instruction of the table that matches, in order. -/
def matching (d : Decoder) (opcode : Int) : List Instruction :=
  d.table.filter fun inst => inst.matchesWord (wordOf opcode)

theorem candidates_build (table : List Instruction) (word : UInt16) :
    (build table).candidates word = table.filter (admits (word.toNat / 4096)) := by
  have h : word.toNat / 4096 < 16 := by have := word.toNat_lt; omega
  simp [candidates, build, h]

/-! ## Encoding -/

/-- The first instruction of the table for an operation. -/
def lookup (d : Decoder) (op : Op) : Except Mishap Instruction :=
  match d.table.find? fun inst => inst.op == op with
  | some inst => .ok inst
  | none => .error (.absentInstruction op.name)

/-- Adds operands to an opcode one after the other; each value must survive the way there and back. -/
def insertAll (name : String) (opcode : Int) : List (Operand × Int) → Except Mishap Int
  | [] => .ok opcode
  | (operand, value) :: rest => do
    let bits ← operand.insert value
    if bits >>> operand.shift.toNat = value then insertAll name (Bits.or opcode bits) rest
    else .error (.operandTooWide name value operand.mask)

/-- The opcode of an operation and its operands. -/
def encode (d : Decoder) (op : Op) (args : List Int) : Except Mishap Int := do
  let inst ← d.lookup op
  if args.length = inst.operands.length then insertAll op.name inst.pattern (inst.operands.zip args)
  else .error (.operandCount op.name inst.operands.length args.length)

/-! ## Disassembly -/

/-- A word that is no instruction, as data. -/
def dataText (word : UInt16) : String := "DW 0x" ++ Text.hex 4 word.toNat

/-- The assembly text of an opcode, or its word as data. -/
def disassemble (d : Decoder) (opcode : Int) : Except Failure String :=
  match d.decode opcode with
  | .ok decoded => decoded.text.mapError .mishap
  | .error (.fault _) => .ok (dataText (wordOf opcode))
  | .error e => .error e

end Decoder

end Chip8
