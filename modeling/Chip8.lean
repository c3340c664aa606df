import Chip8.CommandLine.Run
import Chip8.Machine.Patch
import Chip8.Main
import Chip8.Program.Listing
import Chip8.Proofs.Cpu.Arithmetic
import Chip8.Proofs.Cpu.Awaiting
import Chip8.Proofs.Cpu.Blocks
import Chip8.Proofs.Cpu.Calls
import Chip8.Proofs.Cpu.Execution
import Chip8.Proofs.Cpu.Faults
import Chip8.Proofs.Cpu.Listed
import Chip8.Proofs.Cpu.Loading
import Chip8.Proofs.Cpu.Overlay
import Chip8.Proofs.Cpu.Paths
import Chip8.Proofs.Cpu.Reading
import Chip8.Proofs.Cpu.Sprites
import Chip8.Proofs.Cpu.Unasked
import Chip8.Proofs.Decoder.Order
import Chip8.Proofs.Decoder.Reachable
import Chip8.Proofs.Decoder.Rearranged
import Chip8.Proofs.Decoder.Reassembly
import Chip8.Proofs.Decoder.RoundTrip
import Chip8.Proofs.Display.Keyboard
import Chip8.Proofs.FrontEnds
import Chip8.Proofs.Host.Halted
import Chip8.Proofs.Host.Reach
import Chip8.Proofs.Host.Stores
import Chip8.Proofs.Host.Timers
import Chip8.Proofs.Host.Untimed
import Chip8.Proofs.Host.Untraced
import Chip8.Proofs.Host.Watched
import Chip8.Proofs.Machine.Access
import Chip8.Proofs.Program.Joined
import Chip8.Proofs.Program.Legible
import Chip8.Proofs.Program.Transcript
import Chip8.Rig.Registry
import Chip8.Showcase.Examples
import Chip8.Showcase.Run
