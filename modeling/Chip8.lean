import Chip8.Picture.Image
import Chip8.Proofs.AssemblyText
import Chip8.Proofs.Block
import Chip8.Proofs.Display
import Chip8.Proofs.DumpText
import Chip8.Proofs.FlagArithmetic
import Chip8.Proofs.Footprint
import Chip8.Proofs.HaltReport
import Chip8.Proofs.Halted
import Chip8.Proofs.HeldKeys
import Chip8.Proofs.Interleaving
import Chip8.Proofs.Loading
import Chip8.Proofs.PixelCount
import Chip8.Proofs.Plot
import Chip8.Proofs.ProgramCounter
import Chip8.Proofs.RandomDraws
import Chip8.Proofs.ReadFootprint
import Chip8.Proofs.Redraw
import Chip8.Proofs.Refusal
import Chip8.Proofs.RegisterBlock
import Chip8.Proofs.Rerun
import Chip8.Proofs.SketchText
import Chip8.Proofs.SpriteRows
import Chip8.Proofs.Subroutine
import Chip8.Proofs.Timers
import Chip8.Proofs.Trace
import Chip8.Proofs.Upscale
import Chip8.Proofs.WellFormed
import Chip8.Session.Call
import Chip8.Proofs.HaltWindow
import Chip8.Proofs.Threshold
