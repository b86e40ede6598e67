import Chip8.Decode
import Chip8.Machine.Basic
import Chip8.Program

/-!
# Execution

Each operation has a handler, which is given the machine and the fields of the word. The program
counter moves past a word before its handler runs, so jumps, calls and returns replace it and a skip
moves it on once more. A machine that is halted or awaits a key afterwards keeps the program counter
that it had before.
-/
namespace Chip8

/-- The decimal digits of a byte, hundreds first. -/
def Byte.decimal (b : Byte) : List Byte := [b / 100, b / 10 % 10, b % 10]

namespace Core

/-- The core with the result in a register, and then the flag, if there is one, in the flag
register. When both go to the same register, the flag stays. -/
def setFlagged (c : Core) (x : Register) (r : Flagged) : Core :=
  let c := c.setRegister x r.value
  match r.flag with
  | none => c
  | some b => c.setRegister .flag (.ofFlag b)

/-- The rows of a sprite of a given height at the index. There are always as many as of the highest
sprite: those beyond the height are zero, and so are all of them if the sprite does not fit in
memory. -/
def sprite (c : Core) (height : BitVec 4) : List Byte :=
  let fits := c.index.toNat + height.toNat ≤ 4096
  (c.memory.bytes c.index.address Frame.maxSpriteHeight).mapIdx fun k b =>
    if k < height.toNat ∧ fits then b else 0

/-- The core with all registers in memory, from the index on. -/
def storeRegisters (c : Core) : Core :=
  { c with memory := c.memory.store c.index.address c.registers.toList }

/-- The core with all registers read from memory, from the index on. -/
def loadRegisters (c : Core) : Core :=
  { c with registers := .ofFn fun x => c.memory[c.index.address + x.setWidth 12] }

end Core

namespace Machine

/-- The machine stopped for a reason (`halt`). -/
def halt (m : Machine) (r : HaltCause) : Machine :=
  { m with halted := true, haltCause := some r }

/-- Push the program counter and go to an address (`execute_call`). A full stack stops the
machine. -/
def call (m : Machine) (target : Address) : Machine :=
  if m.core.stack.isFull then m.halt .stackOverflow
  else { m with core := { m.core with stack := m.core.stack.push m.core.pc, pc := target.word } }

/-- Go to the address on top of the stack (`execute_return`). An empty stack stops the machine. -/
def returnFromCall (m : Machine) : Machine :=
  if m.core.stack.isEmpty then m.halt .stackUnderflow
  else { m with core := { m.core with stack := m.core.stack.pop, pc := m.core.stack.top } }

/-- Draw the sprite at the index where two registers say (`execute_display`). The flag register
tells whether a pixel went dark. -/
def draw (m : Machine) (x y : Register) (height : BitVec 4) : Machine :=
  let column := m.core.registers[x].setWidth 6
  let row := m.core.registers[y].setWidth 5
  let sprite := m.core.sprite height
  { m with
    display := m.display.draw column row sprite
    core := m.core.setRegister .flag (.ofFlag (m.display.collides column row sprite)) }

/-- A held key goes into the register at once, the lowest of several; else the machine waits
(`execute_wait_for_key`). -/
def awaitKey (m : Machine) (x : Register) : Machine :=
  match m.core.keys.lowest? with
  | some k => { m with awaiting := none, core := m.core.setRegister x (k.setWidth 8) }
  | none => { m with awaiting := some x }

/-- Draw a byte and load what a mask leaves of it (`execute_random`). -/
def random (source : ByteSource) (m : Machine) (x : Register) (mask : Byte) : Machine :=
  let drawn := source m.rng
  { m with rng := drawn.1, core := m.core.setRegister x (drawn.2 &&& mask) }

/-- The operations that put a result into their first register, `8XY_` (`make_alu_instruction`).
Each is handed both registers, whether it has a use for the second or not. -/
def arithmetic (op : Byte → Byte → Flagged) (m : Machine) (d : Decoded) : Machine :=
  { m with core := m.core.setFlagged d.x (op m.core.registers[d.x] m.core.registers[d.y]) }

/-- The operations that skip the next instruction if a condition holds (`make_skip_instruction`). -/
def skip (condition : Core → Decoded → Bool) (m : Machine) (d : Decoded) : Machine :=
  if condition m.core d then { m with core.pc := m.core.nextPc } else m

/-- The handler of an operation: its effect on a machine whose program counter has moved past it,
with the fields of its word (`_handlers`). -/
def handler (source : ByteSource) : Operation → Machine → Decoded → Machine
  | .halt => fun m _ => m.halt .haltInstruction
  | .clearScreen => fun m _ => { m with display := .blank }
  | .returnFromCall => fun m _ => m.returnFromCall
  | .jump => fun m d => { m with core.pc := d.nnn.word }
  | .call => fun m d => m.call d.nnn
  | .skipEqByte => skip fun c d => c.registers[d.x] = d.nn
  | .skipNeByte => skip fun c d => c.registers[d.x] ≠ d.nn
  | .skipEqReg => skip fun c d => c.registers[d.x] = c.registers[d.y]
  | .loadByte => fun m d => { m with core := m.core.setRegister d.x d.nn }
  | .addByte => fun m d => { m with core := m.core.setRegister d.x (m.core.registers[d.x] + d.nn) }
  | .loadReg => arithmetic (Combination.apply · · .copy)
  | .or => arithmetic (Combination.apply · · .or)
  | .and => arithmetic (Combination.apply · · .and)
  | .xor => arithmetic (Combination.apply · · .xor)
  | .addReg => arithmetic (Combination.apply · · .add)
  | .subReg => arithmetic (Combination.apply · · .subtract)
  | .shiftRight => arithmetic fun a _ => Shift.apply a .right
  | .subnReg => arithmetic (Combination.apply · · .subtractFrom)
  | .shiftLeft => arithmetic fun a _ => Shift.apply a .left
  | .skipNeReg => skip fun c d => c.registers[d.x] ≠ c.registers[d.y]
  | .loadIndex => fun m d => { m with core.index := d.nnn.word }
  | .jumpV0 => fun m d =>
    { m with core.pc := Address.word (d.nnn + m.core.registers[(0 : Register)].setWidth 12) }
  | .random => fun m d => m.random source d.x d.nn
  | .draw => fun m d => m.draw d.x d.y d.n
  | .skipKeyPressed => skip fun c d => c.keys.isDown (c.registers[d.x].setWidth 4)
  | .skipKeyNotPressed => skip fun c d => !c.keys.isDown (c.registers[d.x].setWidth 4)
  | .loadDelay => fun m d => { m with core := m.core.setRegister d.x m.core.delay }
  | .loadKey => fun m d => m.awaitKey d.x
  | .setDelay => fun m d => { m with core.delay := m.core.registers[d.x] }
  | .setSound => fun m d => { m with core.sound := m.core.registers[d.x] }
  | .addIndex => fun m d =>
    { m with core.index := m.core.index + m.core.registers[d.x].setWidth 16 }
  | .loadFont => fun m d =>
    { m with core.index := BitVec.ofNat 16 (m.core.registers[d.x].toNat * Memory.glyphSize) }
  | .storeBcd => fun m d =>
    { m with core.memory :=
        m.core.memory.store m.core.index.address (Byte.decimal m.core.registers[d.x]) }
  | .storeRegisters => fun m _ => { m with core := m.core.storeRegisters }
  | .loadRegisters => fun m _ => { m with core := m.core.loadRegisters }
  | .unknown => fun m _ => m.halt .unknownOpcode

/-- Execute an instruction as if its word stood at the program counter (`execute`). -/
def dispatch (source : ByteSource) (m : Machine) (d : Decoded) : Machine :=
  let next := handler source d.operation { m with core.pc := m.core.nextPc } d
  if next.stalled then { next with core.pc := m.core.pc } else next

/-- Execute a word that was fetched. -/
def execute (source : ByteSource) (m : Machine) (w : Word) : Machine :=
  m.dispatch source (decode w.toNat)

/-- Execute the word at the program counter (`step`). A halted machine stays as it is. -/
def step (source : ByteSource) (m : Machine) : Machine :=
  if m.halted then m else m.execute source m.fetch

/-- The machine after `n` steps (`run_n_instruction`). -/
def steps (source : ByteSource) (n : Nat) (m : Machine) : Machine := n.repeat (step source) m

end Machine

/-!
## Events

What can happen to a machine from outside. Words are decoded as they come, and keys count modulo 16.
A program that does not load leaves the machine as it is.
-/

inductive Event where
  | execute (word : Int)
  | step
  | steps (n : Nat)
  | press (key : Int)
  | release (key : Int)
  | tick
  | load (program : List Int)
  | reset
  deriving DecidableEq, Repr

namespace Machine

/-- The machine with a program loaded, if the program is fit for it (`load_program`). -/
def load (m : Machine) (program : List Int) : Except Failure Machine :=
  (Program.check program).map m.install

/-- The machine with the program in a file loaded, given what comes of reading the file
(`load_rom`). -/
def loadFile (m : Machine) (content : Except Failure (List Byte)) : Except Failure Machine :=
  match content with
  | .error e => .error e
  | .ok bytes => m.load (Byte.numbers bytes)

/-- The machine after an event. -/
def handle (source : ByteSource) (m : Machine) : Event → Machine
  | .execute w => m.dispatch source (decode w)
  | .step => m.step source
  | .steps n => m.steps source n
  | .press k => m.press (BitVec.ofInt 4 k)
  | .release k => m.release (BitVec.ofInt 4 k)
  | .tick => m.tick
  | .load program => (m.load program).toOption.getD m
  | .reset => m.reset

/-- The machine after events in order. -/
def run (source : ByteSource) (m : Machine) (events : List Event) : Machine :=
  events.foldl (handle source) m

end Machine

end Chip8
