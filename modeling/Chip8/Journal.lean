import Chip8.Decoder

/-!
# The journal

What the parts of the program have to report while they run. A note says what happened; its level, its part and its
wording follow from that.
-/

namespace Chip8

/-- How urgent a note is. -/
inductive Level where
  | debug
  | info
  | warning
  deriving DecidableEq, Repr

/-- The levels from the least urgent up. -/
def Level.rank : Level → Nat
  | .debug => 10
  | .info => 20
  | .warning => 30

/-- The name of a level. -/
def Level.text : Level → String
  | .debug => "DEBUG"
  | .info => "INFO"
  | .warning => "WARNING"

/-- The part of the program that reports. -/
inductive Reporter where
  | cpu
  | host
  | window
  deriving DecidableEq, Repr

/-- What is reported. -/
inductive Note where
  | programLoaded (size : Nat)
  | executing (pc : Int) (decoded : Decoded)
  | halted (fault : Fault)
  | hostStarting (cyclesPerFrame frameRate : Nat)
  | hostFaulted (frames : Nat)
  | hostStopped (frames : Nat)
  | windowOpened (width height : Int)
  deriving DecidableEq, Repr

namespace Note

/-- How urgent the note is. -/
def level : Note → Level
  | programLoaded _ | executing _ _ => .debug
  | halted _ => .warning
  | _ => .info

/-- Who reports. -/
def reporter : Note → Reporter
  | programLoaded _ | executing _ _ | halted _ => .cpu
  | hostStarting _ _ | hostFaulted _ | hostStopped _ => .host
  | windowOpened _ _ => .window

/-- The wording of the note. -/
def message : Note → String
  | programLoaded size => "Loaded " ++ Text.decimal size ++ " byte ROM at 0x200"
  | executing pc decoded =>
    Text.hex 3 pc ++ ": " ++ Text.hex 4 decoded.word.toNat ++ "  " ++ decoded.shown
  | halted fault => "CPU halted: " ++ fault.text
  | hostStarting cyclesPerFrame frameRate =>
    "Host starting: " ++ Text.decimal cyclesPerFrame ++ " cycles/frame at " ++ Text.decimal frameRate ++ " Hz"
  | hostFaulted frames => "Emulation stopped after " ++ Text.decimal frames ++ " frames"
  | hostStopped frames => "Host stopped after " ++ Text.decimal frames ++ " frames"
  | windowOpened width height =>
    "Opened " ++ Text.decimal width ++ "x" ++ Text.decimal height ++ " window"

end Note

end Chip8
