import Chip8.Host.ChaCha
import Chip8.Host.CommandLine
import Chip8.Host.Display
import Chip8.Host.Key
import Chip8.Host.Paint
import Chip8.Host.Screen
import Chip8.Host.Session
import Chip8.Host.Sketch
import Chip8.Host.Window
import Chip8.Machine.Advance
import Chip8.Machine.Control
import Chip8.Machine.Cycle
import Chip8.Machine.Execute
import Chip8.Main
import Chip8.Proofs.Decoding
import Chip8.Proofs.Effect
import Chip8.Proofs.SpritePixels
import Chip8.Proofs.Table
import Chip8.Proofs.Conformance
import Chip8.Proofs.Atomicity
import Chip8.Proofs.Failure
import Chip8.Proofs.Reachable
import Chip8.Proofs.Invariant
import Chip8.Proofs.Run
import Chip8.Proofs.Schedule
import Chip8.Proofs.FrameRate
import Chip8.Proofs.KeyWait
import Chip8.Proofs.Calls
import Chip8.Proofs.Intervention
import Chip8.Proofs.Halted
import Chip8.Proofs.Resumption
import Chip8.Proofs.Recovery
import Chip8.Proofs.RandomBytes
import Chip8.Proofs.Restart
import Chip8.Proofs.Assembly
import Chip8.Proofs.Rolls
import Chip8.Proofs.KeyIndependence
import Chip8.Proofs.Keyboard
import Chip8.Proofs.Numerals
import Chip8.Proofs.Trace
import Chip8.Proofs.Timekeeping
import Chip8.Proofs.SpriteCells
import Chip8.Proofs.Drawings
import Chip8.Proofs.PixelBalance
import Chip8.Proofs.MemoryMap
import Chip8.Proofs.SavedRegisters
import Chip8.Proofs.KeypadHistory
import Chip8.Proofs.Frames
import Chip8.Proofs.MissingRegisters
import Chip8.Proofs.Mnemonics
import Chip8.Proofs.Moves
import Chip8.Proofs.Timers
