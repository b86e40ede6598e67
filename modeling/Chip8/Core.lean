import Chip8.Keypad
import Chip8.Memory

/-!
# The core

What instructions compute on: memory, registers, index, program counter, call stack, timers and
keys.
-/
namespace Chip8

/-!
## The call stack

Sixteen return addresses and a byte that counts those in use. The operations do not check limits,
so the depth may pass the end: it wraps as a byte, an entry past the last is not stored, and a read
past the last gives the last. Callers ask `isFull` and `isEmpty` first. Below the limit a pop undoes
a push (`top_push`, `pop_push`).
-/

/-- The state of the stack (`StackState`); the depth is its pointer. -/
structure CallStack where
  entries : Bank 4 Word
  depth : Byte
  deriving DecidableEq, Repr

namespace CallStack

def empty : CallStack := ⟨.fill 0, 0⟩

/-- Whether all entries are in use (`is_full`). -/
def isFull (s : CallStack) : Bool := 16 ≤ s.depth.toNat

/-- Whether no entry is in use (`is_empty`). -/
def isEmpty (s : CallStack) : Bool := s.depth = 0

/-- The entries with the one at position `i` replaced, if there is one. -/
def store (s : CallStack) (i : Byte) (a : Word) : Bank 4 Word :=
  if i.toNat < 16 then s.entries.set (i.setWidth 4) a else s.entries

/-- The entry at position `i`, or the last if there is none. -/
def fetch (s : CallStack) (i : Byte) : Word :=
  if i.toNat < 16 then s.entries[i.setWidth 4] else s.entries[(15 : BitVec 4)]

/-- The stack with an address on top (`push`). -/
def push (s : CallStack) (a : Word) : CallStack := ⟨s.store s.depth a, s.depth + 1⟩

/-- The entry below the depth. -/
def top (s : CallStack) : Word := s.fetch (s.depth - 1)

/-- The stack without its top entry, which becomes zero (`pop`). -/
def pop (s : CallStack) : CallStack := ⟨s.store (s.depth - 1) 0, s.depth - 1⟩

/-- The return addresses in use, oldest first. -/
def inUse (s : CallStack) : List Word := s.entries.toList.take s.depth.toNat

@[simp] theorem depth_push (s : CallStack) (a : Word) : (s.push a).depth = s.depth + 1 := rfl

@[simp] theorem depth_pop (s : CallStack) : s.pop.depth = s.depth - 1 := rfl

theorem top_push (s : CallStack) (a : Word) (h : s.depth.toNat < 16) : (s.push a).top = a := by
  simp only [top, fetch, push, store, h, if_true, BitVec.add_sub_cancel, Bank.getElem_set_self]

/-- A push is undone by a pop if the entry that it took was clear. -/
theorem pop_push (s : CallStack) (a : Word) (h : s.depth.toNat < 16)
    (hz : s.entries[s.depth.setWidth 4] = 0) : (s.push a).pop = s := by
  obtain ⟨entries, depth⟩ := s
  simp only [push, pop, store, h, if_true, BitVec.add_sub_cancel, CallStack.mk.injEq, and_true]
  apply Bank.ext
  intro i
  rw [Bank.getElem_set, Bank.getElem_set]
  split
  · rename_i e
    rw [← e, ← hz]
  · rfl

end CallStack

/-! ## Memory, registers and the rest -/

/-- The state that instructions compute on (`AddressSpace`). -/
structure Core where
  memory : Memory
  registers : Bank 4 Byte
  index : Word
  pc : Word
  stack : CallStack
  delay : Byte
  sound : Byte
  keys : Keypad
  deriving DecidableEq, Repr

/-- One less, but no less than zero. -/
def Byte.countDown (b : Byte) : Byte := if b = 0 then 0 else b - 1

namespace Core

/-- The core that starts on a given memory. -/
def start (memory : Memory) : Core where
  memory := memory
  registers := .fill 0
  index := 0
  pc := Memory.programStart.word
  stack := .empty
  delay := 0
  sound := 0
  keys := 0

/-- The core as it was at its start, on its present memory (`reset_address_space`). -/
def reset (c : Core) : Core := start c.memory

/-- The core with both timers counted down. -/
def tick (c : Core) : Core :=
  { c with delay := Byte.countDown c.delay, sound := Byte.countDown c.sound }

/-- The address of the instruction after the one at the program counter. -/
def nextPc (c : Core) : Word := Address.word (c.pc.address + 2)

/-- The word at the program counter, most significant byte first. -/
def fetch (c : Core) : Word := c.memory[c.pc.address] ++ c.memory[c.pc.address + 1]

/-- The core with a register replaced. -/
def setRegister (c : Core) (x : Register) (b : Byte) : Core :=
  { c with registers := c.registers.set x b }

theorem toNat_nextPc (c : Core) : c.nextPc.toNat = (c.pc.toNat + 2) % 4096 := by
  rw [nextPc, Address.toNat_word, BitVec.toNat_add, Word.address, BitVec.toNat_setWidth,
    show (2 : Address).toNat = 2 from rfl]
  omega

end Core

end Chip8
