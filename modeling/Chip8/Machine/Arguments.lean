import Chip8.Failure

/-!
# Arguments

Primitives get their operands as a list. One that takes a single operand uses the first and does not look further;
one that takes two or three insists on the number.
-/

namespace Chip8.Arguments

/-- The first argument. -/
def first : List Int → Except Mishap Int
  | [] => .error .noEntryToRead
  | x :: _ => .ok x

/-- The complaint about a wrong number of arguments. -/
def wrongCount (expected : Nat) (args : List Int) : Mishap :=
  if args.length < expected then .tooFewArguments expected args.length else .tooManyArguments expected

/-- Exactly two arguments. -/
def two : List Int → Except Mishap (Int × Int)
  | [x, y] => .ok (x, y)
  | args => .error (wrongCount 2 args)

/-- Exactly three arguments. -/
def three : List Int → Except Mishap (Int × Int × Int)
  | [x, y, z] => .ok (x, y, z)
  | args => .error (wrongCount 3 args)

end Chip8.Arguments
