import Chip8.Failure

/-!
# Mnemonics

A mnemonic is the assembly text of an instruction with gaps for its operands. In its written form a gap is the
position of the operand between braces, alone for decimal digits, and with `:X` or a zero and a width before the `X`
for upper-case hexadecimal digits. Main statement: `fill_ok`, which says when the gaps can be filled.
-/

namespace Chip8

/-- How an operand is written. -/
inductive GapForm where
  | decimal
  | hex (width : Nat)
  deriving DecidableEq, Repr

/-- A stretch of a mnemonic: fixed text, or the gap for the operand at a position. -/
inductive Piece where
  | text (t : String)
  | gap (position : Nat) (form : GapForm)
  deriving DecidableEq, Repr

/-- The text of an instruction with gaps for its operands. -/
abbrev Mnemonic : Type := List Piece

/-- An operand in the form of a gap. -/
def GapForm.write : GapForm → Int → String
  | decimal, n => Text.decimal n
  | hex width, n => Text.hex width n

/-- A stretch of the mnemonic with its operand. -/
def Piece.fill (args : List Int) : Piece → Except Mishap String
  | text t => .ok t
  | gap position form => match args[position]? with
    | some n => .ok (form.write n)
    | none => .error (.noOperand position)

namespace Mnemonic

/-- The text of an instruction. The first gap without an operand is an error. -/
def fill : Mnemonic → List Int → Except Mishap String
  | [], _ => .ok ""
  | piece :: rest, args => do
    let head ← piece.fill args
    let tail ← fill rest args
    return head ++ tail

/-- Has every gap its operand among `count` operands? -/
def fits (m : Mnemonic) (count : Nat) : Bool :=
  m.all fun
    | .text _ => true
    | .gap position _ => decide (position < count)

theorem fill_ok {m : Mnemonic} {args : List Int} (h : m.fits args.length = true) : ∃ t, m.fill args = .ok t := by
  induction m with
  | nil => exact ⟨"", rfl⟩
  | cons piece rest ih =>
    simp only [fits, List.all_cons, Bool.and_eq_true] at h
    obtain ⟨tail, htail⟩ := ih h.2
    cases piece with
    | text t => exact ⟨t ++ tail, by simp [fill, Piece.fill, htail, bind, Except.bind, pure, Except.pure]⟩
    | gap position form =>
      have hp : position < args.length := by simpa using h.1
      exact ⟨form.write args[position] ++ tail, by
        simp [fill, Piece.fill, List.getElem?_eq_getElem hp, htail, bind, Except.bind, pure, Except.pure]⟩

/-! ## The written form -/

/-- A gap as it is written between the braces. -/
def gapText (position : Nat) : GapForm → String
  | .decimal => Text.decimal position
  | .hex 0 => Text.decimal position ++ ":X"
  | .hex width => Text.decimal position ++ ":0" ++ Text.decimal width ++ "X"

/-- The written form of a mnemonic. -/
def written (m : Mnemonic) : String :=
  String.join (m.map fun
    | .text t => t
    | .gap position form => "\x7b" ++ gapText position form ++ "\x7d")

/-- The value of decimal digits; no digits have none. -/
def readDecimal? (cs : List Char) : Option Nat :=
  if cs.isEmpty || !cs.all Char.isDigit then none
  else some (cs.foldl (fun n c => n * 10 + (c.toNat - 48)) 0)

/-- The form of a gap, read from what stands after its position. -/
def readForm? : List Char → Option GapForm
  | [] => some .decimal
  | [':', 'X'] => some (.hex 0)
  | ':' :: '0' :: rest =>
    if rest.getLast? = some 'X' then (readDecimal? rest.dropLast).map .hex else none
  | _ => none

/-- A gap, read from what stands between the braces. -/
def readGap? (cs : List Char) : Option Piece := do
  let position ← readDecimal? (cs.takeWhile Char.isDigit)
  let form ← readForm? (cs.dropWhile Char.isDigit)
  return .gap position form

/-- The stretches of a written mnemonic. Braces that hold no gap are text. -/
def readPieces : List Char → Mnemonic
  | [] => []
  | c :: rest =>
    match if c = '\x7b' then readGap? (rest.takeWhile (· ≠ '\x7d')) else none with
    | some gap => gap :: readPieces ((rest.dropWhile (· ≠ '\x7d')).drop 1)
    | none => .text (String.ofList [c]) :: readPieces rest
termination_by cs => cs.length
decreasing_by
  · have := (List.dropWhile_suffix (fun d => decide (d ≠ '\x7d')) (l := rest)).length_le
    simp only [List.length_drop, List.length_cons]
    omega
  · simp

/-- The mnemonic that a text writes. -/
def ofWritten (text : String) : Mnemonic := readPieces text.toList

end Mnemonic

end Chip8
