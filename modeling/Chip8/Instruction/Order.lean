import Chip8.Instruction.Basic

/-!
# Order of a table

In a table the first match wins, so an instruction whose words all belong to an earlier one can never be reached. A
table is in order when no instruction is shadowed in this way, after each instruction has been found well formed:
pattern inside the mask, operands outside it.
-/

namespace Chip8.Instruction

/-- What is wrong with a table. -/
inductive OrderError where
  /-- A pattern asks for bits that the mask leaves open. -/
  | patternOutsideMask (inst : Instruction)
  /-- An operand takes bits that the mask fixes. -/
  | operandOverlap (inst : Instruction) (operand : Operand)
  /-- A later instruction is shadowed by an earlier one. -/
  | shadowed (later earlier : Instruction)
  deriving DecidableEq, Repr

/-- The family in messages: pattern and mask. -/
def familyText (inst : Instruction) : String :=
  inst.op.name ++ " (0x" ++ Text.hex 4 inst.pattern ++ "/0x" ++ Text.hex 4 inst.mask ++ ")"

/-- The wording of a table error. -/
def OrderError.message : OrderError → String
  | patternOutsideMask inst =>
    inst.op.name ++ ": pattern 0x" ++ Text.hex 4 inst.pattern ++ " sets bits outside mask"
  | operandOverlap inst operand =>
    inst.op.name ++ ": operand mask 0x" ++ Text.hex 4 operand.mask ++ " overlaps fixed bits"
  | shadowed later earlier =>
    familyText later ++ " is shadowed by earlier " ++ familyText earlier

/-- Does the pattern ask for one of the sixteen bits that the mask leaves open? -/
def patternLeavesMask (inst : Instruction) : Bool :=
  Bits.and (Bits.and inst.pattern (Bits.not inst.mask)) 0xFFFF != 0

/-- Does the operand take a bit that the mask fixes? -/
def overlapsMask (inst : Instruction) (operand : Operand) : Bool := Bits.and operand.mask inst.mask != 0

/-- Does `earlier` fix some of the bits of `later`, and to the same values? Then it matches whatever `later` does. -/
def shadows (earlier later : Instruction) : Bool :=
  Bits.and earlier.mask later.mask == earlier.mask && Bits.and later.pattern earlier.mask == earlier.pattern

/-- The first flaw of an instruction taken by itself. -/
def flaw? (inst : Instruction) : Option OrderError :=
  if inst.patternLeavesMask then some (.patternOutsideMask inst)
  else (inst.operands.find? inst.overlapsMask).map (.operandOverlap inst)

/-- The first shadowed pair: the earliest shadowing instruction, and the first after it that it shadows. -/
def shadowedPair? : List Instruction → Option OrderError
  | [] => none
  | earlier :: rest => match rest.find? earlier.shadows with
    | some later => some (.shadowed later earlier)
    | none => shadowedPair? rest

/-- The first error of a table. Flaws of single instructions come before shadowed pairs. -/
def orderError? (table : List Instruction) : Option OrderError :=
  (table.findSome? flaw?).or (shadowedPair? table)

/-- Accepts the tables in order. -/
def checkOrder (table : List Instruction) : Except OrderError Unit :=
  match orderError? table with
  | some e => .error e
  | none => .ok ()

theorem checkOrder_eq_ok_iff {table : List Instruction} :
    checkOrder table = .ok () ↔ (∀ inst ∈ table, inst.flaw? = none) ∧ shadowedPair? table = none := by
  rw [checkOrder, ← List.findSome?_eq_none_iff, ← Option.or_eq_none_iff, ← orderError?]
  cases orderError? table <;> simp

end Chip8.Instruction
