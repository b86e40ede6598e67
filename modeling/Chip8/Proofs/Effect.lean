import Chip8.Proofs.Execute

/-!
# What an instruction computes

The effect of an instruction on the parts of a machine that hold data: memory, registers, index,
display, timers and the key of the random bytes. Most instructions leave most of them alone, and
those that branch, wait or compute in registers leave all but the registers alone
(`keeps_of_local`). There is one lemma for each part, for `perform` and for `execute`.
-/
namespace Chip8

/-- The instructions that branch, wait for a key or compute in registers. -/
def Instruction.Local : Instruction → Prop
  | .call _ | .returnFromCall | .skipIf _ | .awaitKey _ | .combine .. | .shift .. => True
  | _ => False

/-- A register after a result has been put into one: the flag comes last. -/
theorem Core.getElem_setFlagged (c : Core) (x : Register) (r : Flagged) (y : Register) :
    (c.setFlagged x r).registers[y] =
      if y = Register.flag ∧ r.flag.isSome then Byte.ofFlag (r.flag.getD false)
      else if y = x then r.value else c.registers[y] := by
  unfold setFlagged
  cases r.flag with
  | none => simp [setRegister, Bank.getElem_set, eq_comm]
  | some b => simp [setRegister, Bank.getElem_set, eq_comm]

namespace Machine

/-- Memory, index, display, timers and the random key are the same. -/
structure Keeps (m m' : Machine) : Prop where
  memory : m'.core.memory = m.core.memory
  index : m'.core.index = m.core.index
  display : m'.display = m.display
  delay : m'.core.delay = m.core.delay
  sound : m'.core.sound = m.core.sound
  rng : m'.rng = m.rng

variable (source : ByteSource) (m : Machine)

theorem keeps_of_local (i : Instruction) (h : i.Local) : Keeps m (perform source m i) := by
  cases i with
  | call target => rw [perform_call]; split <;> exact ⟨rfl, rfl, rfl, rfl, rfl, rfl⟩
  | returnFromCall => rw [perform_returnFromCall]; split <;> exact ⟨rfl, rfl, rfl, rfl, rfl, rfl⟩
  | skipIf condition => rw [perform_skipIf]; exact ⟨rfl, rfl, rfl, rfl, rfl, rfl⟩
  | awaitKey x => rw [perform_awaitKey]; exact ⟨rfl, rfl, rfl, rfl, rfl, rfl⟩
  | combine op x y => rw [perform_combine]; exact ⟨rfl, rfl, rfl, rfl, rfl, rfl⟩
  | shift op x => rw [perform_shift]; exact ⟨rfl, rfl, rfl, rfl, rfl, rfl⟩
  | _ => exact absurd h id

/-! ## Performing an instruction -/

theorem perform_memory (i : Instruction) :
    (perform source m i).core.memory =
      match i with
      | .storeDecimal x =>
        m.core.memory.store m.core.index.address (Byte.decimal m.core.registers[x])
      | .storeRegisters => m.core.memory.store m.core.index.address m.core.registers.toList
      | _ => m.core.memory := by
  have keep := keeps_of_local source m i
  cases i with
  | call target | returnFromCall | skipIf condition | awaitKey x | combine op x y | shift op x =>
    exact (keep trivial).memory
  | loadRegisters => rw [perform_loadRegisters]
  | _ => rfl

theorem perform_index (i : Instruction) :
    (perform source m i).core.index =
      match i with
      | .loadIndex a => a.word
      | .addIndex x => m.core.index + m.core.registers[x].setWidth 16
      | .loadGlyph x => BitVec.ofNat 16 (m.core.registers[x].toNat * Memory.glyphSize)
      | _ => m.core.index := by
  have keep := keeps_of_local source m i
  cases i with
  | call target | returnFromCall | skipIf condition | awaitKey x | combine op x y | shift op x =>
    exact (keep trivial).index
  | loadRegisters => rw [perform_loadRegisters]
  | _ => rfl

theorem perform_display (i : Instruction) :
    (perform source m i).display =
      match i with
      | .clearScreen => .blank
      | .draw x y height =>
        m.display.draw (m.core.registers[x].setWidth 6) (m.core.registers[y].setWidth 5)
          (m.core.sprite height)
      | _ => m.display := by
  have keep := keeps_of_local source m i
  cases i with
  | call target | returnFromCall | skipIf condition | awaitKey x | combine op x y | shift op x =>
    exact (keep trivial).display
  | _ => rfl

theorem perform_timers (i : Instruction) :
    (perform source m i).core.delay =
        (match i with
        | .setDelay x => m.core.registers[x]
        | _ => m.core.delay) ∧
      (perform source m i).core.sound =
        match i with
        | .setSound x => m.core.registers[x]
        | _ => m.core.sound := by
  have keep := keeps_of_local source m i
  cases i with
  | call target | returnFromCall | skipIf condition | awaitKey x | combine op x y | shift op x =>
    exact ⟨(keep trivial).delay, (keep trivial).sound⟩
  | loadRegisters => rw [perform_loadRegisters]; exact ⟨rfl, rfl⟩
  | _ => exact ⟨rfl, rfl⟩

theorem perform_rng (i : Instruction) :
    (perform source m i).rng =
      match i with
      | .random _ _ => (source m.rng).1
      | _ => m.rng := by
  have keep := keeps_of_local source m i
  cases i with
  | call target | returnFromCall | skipIf condition | awaitKey x | combine op x y | shift op x =>
    exact (keep trivial).rng
  | _ => rfl

theorem perform_registers (i : Instruction) :
    (perform source m i).core.registers =
      match i with
      | .loadByte x b => m.core.registers.set x b
      | .addByte x b => m.core.registers.set x (m.core.registers[x] + b)
      | .combine op x y =>
        (m.core.setFlagged x (op.apply m.core.registers[x] m.core.registers[y])).registers
      | .shift op x => (m.core.setFlagged x (op.apply m.core.registers[x])).registers
      | .random x mask => m.core.registers.set x ((source m.rng).2 &&& mask)
      | .draw x y height =>
        m.core.registers.set Register.flag
          (.ofFlag (m.display.collides (m.core.registers[x].setWidth 6)
            (m.core.registers[y].setWidth 5) (m.core.sprite height)))
      | .loadDelay x => m.core.registers.set x m.core.delay
      | .awaitKey x =>
        m.core.keys.lowest?.elim m.core.registers fun k =>
          m.core.registers.set x (k.setWidth 8)
      | .loadRegisters => .ofFn fun x => m.core.memory[m.core.index.address + x.setWidth 12]
      | _ => m.core.registers := by
  cases i with
  | call target => rw [perform_call]; split <;> rfl
  | returnFromCall => rw [perform_returnFromCall]; split <;> rfl
  | skipIf condition => rw [perform_skipIf]
  | awaitKey x => rw [perform_awaitKey]
  | combine op x y => rw [perform_combine]
  | shift op x => rw [perform_shift]
  | loadRegisters => rw [perform_loadRegisters]
  | _ => rfl

end Machine

end Chip8
