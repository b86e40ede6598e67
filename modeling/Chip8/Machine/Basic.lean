import Chip8.Core
import Chip8.Frame
import Chip8.Random

/-!
# The machine

A machine is a core with a display, the state of its execution and the key of its random bytes.
A halted machine does nothing until it is reset; one that awaits a key goes on when one is pressed.
Here and elsewhere, the names in parentheses are those of the interface.
-/
namespace Chip8

/-- Why a machine has stopped (`HaltReason`). -/
inductive HaltCause where
  | haltInstruction
  | unknownOpcode
  | stackOverflow
  | stackUnderflow
  deriving DecidableEq, Repr

def HaltCause.name : HaltCause → String
  | .haltInstruction => "HALT_INSTRUCTION"
  | .unknownOpcode => "UNKNOWN_OPCODE"
  | .stackOverflow => "STACK_OVERFLOW"
  | .stackUnderflow => "STACK_UNDERFLOW"

/-- The name of a reason, or of there being none. -/
def HaltCause.nameOf (r : Option HaltCause) : String := r.elim "NONE" name

/-- What a machine is doing (`MachineStatus`). -/
inductive Status where
  | running
  | awaitingKey
  | halted
  deriving DecidableEq, Repr

def Status.name : Status → String
  | .running => "RUNNING"
  | .awaitingKey => "AWAITING_KEY"
  | .halted => "HALTED"

/-- A state of the whole machine (`MachineState`). -/
structure Machine where
  core : Core
  display : Frame
  halted : Bool
  haltCause : Option HaltCause
  /-- The register that the next pressed key goes into, if the machine waits for one
  (`awaiting_key`). -/
  awaiting : Option Register
  rng : RandomKey
  deriving DecidableEq, Repr

namespace Machine

/-- The machine that starts on a core and a key. -/
def start (core : Core) (key : RandomKey) : Machine where
  core := core
  display := .blank
  halted := false
  haltCause := none
  awaiting := none
  rng := key

/-- A new machine: the font in memory and nothing else (`create_state`). -/
def create (key : RandomKey) : Machine := start (.start .blank) key

/-- The machine as it was at its start, with its present memory and random key (`reset`). -/
def reset (m : Machine) : Machine := start m.core.reset m.rng

/-- What the machine is doing; that it is halted comes first (`status`). -/
def status (m : Machine) : Status :=
  if m.halted then .halted else if m.awaiting.isSome then .awaitingKey else .running

/-- The word that the machine executes next (`fetch`). -/
def fetch (m : Machine) : Word := m.core.fetch

/-- Whether the machine stays where it is. -/
def stalled (m : Machine) : Bool := m.halted || m.awaiting.isSome

/-- The machine with both timers counted down (`tick_timers`). -/
def tick (m : Machine) : Machine := { m with core := m.core.tick }

/-- The machine with a key held (`key_pressed`). A pending wait ends: the key goes into the waiting
register and the program counter moves on. -/
def press (m : Machine) (k : Key) : Machine :=
  let m := { m with core.keys := m.core.keys.press k }
  match m.awaiting with
  | none => m
  | some x =>
    { m with
      awaiting := none
      core := { m.core.setRegister x (k.setWidth 8) with pc := m.core.nextPc } }

/-- The machine with a key let go (`key_released`). -/
def release (m : Machine) (k : Key) : Machine :=
  { m with core.keys := m.core.keys.release k }

/-- The machine with a program in its memory. -/
def install (m : Machine) (program : List Byte) : Machine :=
  { m with core.memory := m.core.memory.install program }

end Machine

end Chip8
