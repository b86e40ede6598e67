import Chip8.Proofs.Block
import Chip8.Proofs.Execute
import Chip8.Proofs.Pattern

/-!
# Registers in memory

The block of memory at the index takes part in three instructions: one stores all registers in it,
one loads them all from it, and one stores the three decimal digits of a register. The registers
that are loaded are the bytes of the block, in order (`Memory.toList_registers`). So registers that
were stored can be loaded again, since a block can be read back (`Memory.registers_store`), and
registers that were loaded can be stored again without a trace (`Memory.store_registers`).
`restore_of_execute` says both of the words.

Digits that are loaded again are followed by the bytes that were behind them, and they give the
number (`decimal_of_execute`). It does not matter where the index points: the blocks go around the
end of memory.
-/
namespace Chip8

theorem Word.address_eq_ofInt (w : Word) : w.address = Address.ofInt w.toNat := by
  apply BitVec.eq_of_toNat_eq
  rw [Address.toNat_ofInt, address, BitVec.toNat_setWidth]
  omega

/-- The digits of a byte are digits, and it is their value. -/
theorem Byte.value_decimal (b : Byte) :
    (b / 100).toNat ≤ 9 ∧ (b / 10 % 10).toNat ≤ 9 ∧ (b % 10).toNat ≤ 9 ∧
      100 * (b / 100).toNat + 10 * (b / 10 % 10).toNat + (b % 10).toNat = b.toNat := by
  have hb := b.isLt
  have h10 : (10 : Byte).toNat = 10 := rfl
  have h100 : (100 : Byte).toNat = 100 := rfl
  simp only [BitVec.toNat_udiv, BitVec.toNat_umod, h10, h100]
  omega

namespace Memory

/-- The registers that the block of sixteen cells from an address on holds. -/
def registers (m : Memory) (a : Address) : Bank 4 Byte := .ofFn fun x => m[a + x.setWidth 12]

variable (m : Memory) (a : Address)

theorem toList_registers : (m.registers a).toList = m.bytes a 16 := by
  have hlength : (m.registers a).toList.length = 16 := Bank.length_toList _
  apply List.ext_getElem?
  intro k
  rw [getElem?_bytes]
  split
  · rename_i hk
    obtain ⟨x, rfl⟩ : ∃ x : Register, x.toNat = k := ⟨BitVec.ofNat 4 k, Nat.mod_eq_of_lt hk⟩
    rw [Bank.getElem?_toList, registers, Bank.getElem_ofFn, BitVec.ofNat_toNat]
  · rename_i hk
    exact List.getElem?_eq_none (by omega)

/-- Registers that were stored can be loaded. -/
theorem registers_store (b : Bank 4 Byte) : (m.store a b.toList).registers a = b := by
  have hlength : b.toList.length = 16 := Bank.length_toList _
  apply Bank.toList_inj
  rw [toList_registers, ← hlength, bytes_store _ _ _ (by omega)]

/-- Storing the registers that were loaded changes nothing. -/
theorem store_registers : m.store a (m.registers a).toList = m := by
  rw [toList_registers, store_bytes _ _ (by decide)]

/-- Registers that are loaded from where a block was stored hold its bytes, and those beyond its end
hold what was in memory. -/
theorem getElem_registers_store (w : Word) {bs : List Byte} (h : bs.length ≤ 4096) (r : Register) :
    ((m.store w.address bs).registers w.address)[r] =
      (bs[r.toNat]?).getD (m.read (w.toNat + r.toNat)) := by
  rw [registers, Bank.getElem_ofFn, ← BitVec.ofNat_toNat, getElem_store_add _ _ _ h (by omega),
    read, Address.ofInt_add, Word.address_eq_ofInt]

end Memory

namespace Word

theorem instruction_storeRegisters (x : Register) :
    instruction (0xF#4 ++ x ++ 0x5#4 ++ 0x5#4) = .storeRegisters := by
  exact instruction_of_encodes ⟨(nibbles 0xF#4 x 0x5#4 0x5#4).1, nn_nibbles ..⟩

theorem instruction_loadRegisters (x : Register) :
    instruction (0xF#4 ++ x ++ 0x6#4 ++ 0x5#4) = .loadRegisters := by
  exact instruction_of_encodes ⟨(nibbles 0xF#4 x 0x6#4 0x5#4).1, nn_nibbles ..⟩

theorem instruction_storeDecimal (x : Register) :
    instruction (0xF#4 ++ x ++ 0x3#4 ++ 0x3#4) = .storeDecimal x := by
  obtain ⟨hf, hx, -, -⟩ := nibbles 0xF#4 x 0x3#4 0x3#4
  exact instruction_of_encodes ⟨hf, nn_nibbles .., hx⟩

end Word

namespace Machine

/-- The machine with other registers. -/
def withRegisters (registers : Bank 4 Byte) (m : Machine) : Machine :=
  { m with core.registers := registers }

section
variable (source : ByteSource) (m : Machine) {w : Int} {x : Register}

theorem execute_storeRegisters (hw : BitVec.ofInt 16 w = 0xF#4 ++ x ++ 0x5#4 ++ 0x5#4) :
    (m.handle source (.execute w)).core.memory =
        m.core.memory.store m.core.index.address m.core.registers.toList ∧
      (m.handle source (.execute w)).core.index = m.core.index := by
  rw [handle_execute]
  rw [hw, execute_eq, Word.instruction_storeRegisters]
  exact ⟨rfl, rfl⟩

theorem execute_storeDecimal (hw : BitVec.ofInt 16 w = 0xF#4 ++ x ++ 0x3#4 ++ 0x3#4) :
    (m.handle source (.execute w)).core.memory =
        m.core.memory.store m.core.index.address (Byte.decimal m.core.registers[x]) ∧
      (m.handle source (.execute w)).core.index = m.core.index := by
  rw [handle_execute]
  rw [hw, execute_eq, Word.instruction_storeDecimal]
  exact ⟨rfl, rfl⟩

theorem execute_loadRegisters (hw : BitVec.ofInt 16 w = 0xF#4 ++ x ++ 0x6#4 ++ 0x5#4) :
    (m.handle source (.execute w)).core.registers =
        m.core.memory.registers m.core.index.address ∧
      (m.handle source (.execute w)).core.memory = m.core.memory ∧
      (m.handle source (.execute w)).core.index = m.core.index := by
  rw [handle_execute]
  rw [hw, execute_eq, Word.instruction_loadRegisters, perform_loadRegisters]
  exact ⟨rfl, rfl, rfl⟩

end

/-- **Registers come back.** A word stores the registers at the index, the registers are replaced by
any others, and a word loads the registers from the index. Then all registers are as they were, the
index too, and so is memory but for sixteen different cells. When the registers are loaded first and
then stored, all of memory is as it was. -/
theorem restore_of_execute (source source' : ByteSource) (m : Machine) (registers : Bank 4 Byte)
    {w w' : Int} {x x' : Register} (hw : BitVec.ofInt 16 w = 0xF#4 ++ x ++ 0x5#4 ++ 0x5#4)
    (hw' : BitVec.ofInt 16 w' = 0xF#4 ++ x' ++ 0x6#4 ++ 0x5#4) :
    let stored := m.handle source (.execute w)
    let restored := (stored.withRegisters registers).handle source' (.execute w')
    let storedBack := (m.handle source' (.execute w')).handle source (.execute w)
    let block := Address.block m.core.index.toNat 16
    restored.core.registers = m.core.registers ∧ restored.core.index = m.core.index ∧
    block.Nodup ∧ (∀ a ∉ block, restored.core.memory[a] = m.core.memory[a]) ∧
    storedBack.core.memory = m.core.memory := by
  intro stored restored storedBack block
  have hmemory : stored.core.memory = _ := (execute_storeRegisters source m hw).1
  have hindex : stored.core.index = _ := (execute_storeRegisters source m hw).2
  obtain ⟨hregisters, hmemory', hindex'⟩ :=
    execute_loadRegisters source' (stored.withRegisters registers) hw'
  refine ⟨?_, hindex'.trans hindex, Address.nodup_block (by decide), fun a ha => ?_, ?_⟩
  · calc restored.core.registers
        = stored.core.memory.registers stored.core.index.address := hregisters
      _ = m.core.registers := by rw [hmemory, hindex, Memory.registers_store]
  · have hlength : m.core.registers.toList.length = 16 := Bank.length_toList _
    calc restored.core.memory[a]
        = stored.core.memory[a] := congrArg (fun memory : Memory => memory[a]) hmemory'
      _ = m.core.memory[a] := by
        rw [hmemory, Word.address_eq_ofInt]
        exact Memory.getElem_store_of_not_mem _ _ (by omega) (by rwa [hlength])
  · obtain ⟨hregisters, hmemory, hindex⟩ := execute_loadRegisters source' m hw'
    obtain ⟨hmemory', -⟩ := execute_storeRegisters source (m.handle source' (.execute w')) hw
    exact hmemory'.trans (by rw [hmemory, hindex, hregisters, Memory.store_registers])

/-- The index is beyond memory, and its block goes around the end. -/
theorem restore_of_execute_around_end :
    let m : Machine :=
      { create ⟨0, 0⟩ with core.registers := (Bank.fill 0).set 0xF 22, core.index := 0xFFFA }
    let stored := m.handle (.constant 0) (.execute 0xF355)
    let restored := (stored.withRegisters (.fill 0)).handle (.constant 0) (.execute 0xFE65)
    let storedBack := (m.handle (.constant 0) (.execute 0xFE65)).handle (.constant 0)
      (.execute 0xF355)
    BitVec.ofInt 16 0xF355 = 0xF#4 ++ 0x3#4 ++ 0x5#4 ++ 0x5#4 ∧
      BitVec.ofInt 16 0xFE65 = 0xF#4 ++ 0xE#4 ++ 0x6#4 ++ 0x5#4 ∧
      restored.core.registers[0xF#4] = 22 ∧ restored.core.index = 0xFFFA ∧
      restored.core.memory[(0xA : Address)] = 0xF0 ∧
      storedBack.core.memory = m.core.memory := by
  intro m stored restored storedBack
  have hw : BitVec.ofInt 16 0xF355 = 0xF#4 ++ 0x3#4 ++ 0x5#4 ++ 0x5#4 := by decide
  have hw' : BitVec.ofInt 16 0xFE65 = 0xF#4 ++ 0xE#4 ++ 0x6#4 ++ 0x5#4 := by decide
  obtain ⟨hregisters, hindex, -, hmemory, hback⟩ :=
    restore_of_execute (.constant 0) (.constant 0) m (.fill 0) hw hw'
  have hlast : m.core.registers[0xF#4] = 22 := Bank.getElem_set_self ..
  have hbehind : m.core.memory[(0xA : Address)] = 0xF0 := by decide +kernel
  refine ⟨hw, hw', ?_, ?_, ?_, ?_⟩
  · exact (congrArg (fun b : Bank 4 Byte => b[0xF#4]) hregisters).trans hlast
  · exact hindex
  · exact (hmemory 0xA (by decide)).trans hbehind
  · exact hback

/-- **Decimal digits come back.** A word stores the digits of a register at the index, and a word
loads the registers from the index. Then registers 0 to 2 hold digits whose value is that of the
register, the other registers hold the bytes that follow, and memory is as it was but for three
cells. -/
theorem decimal_of_execute (source source' : ByteSource) (m : Machine) {w w' : Int}
    {x x' : Register} (hw : BitVec.ofInt 16 w = 0xF#4 ++ x ++ 0x3#4 ++ 0x3#4)
    (hw' : BitVec.ofInt 16 w' = 0xF#4 ++ x' ++ 0x6#4 ++ 0x5#4) :
    let loaded := (m.handle source (.execute w)).handle source' (.execute w')
    let digit (r : Register) := loaded.core.registers[r].toNat
    (digit 0 ≤ 9 ∧ digit 1 ≤ 9 ∧ digit 2 ≤ 9 ∧
      100 * digit 0 + 10 * digit 1 + digit 2 = m.core.registers[x].toNat) ∧
    (∀ r : Register, 3 ≤ r.toNat →
      loaded.core.registers[r] = m.core.memory.read (m.core.index.toNat + r.toNat)) ∧
    ∀ a ∉ Address.block m.core.index.toNat 3, loaded.core.memory[a] = m.core.memory[a] := by
  intro loaded digit
  let stored := m.handle source (.execute w)
  have hmemory : stored.core.memory = _ := (execute_storeDecimal source m hw).1
  have hindex : stored.core.index = _ := (execute_storeDecimal source m hw).2
  have hregisters : loaded.core.registers = _ := (execute_loadRegisters source' stored hw').1
  have hmemory' : loaded.core.memory = _ := (execute_loadRegisters source' stored hw').2.1
  have hlength : (Byte.decimal m.core.registers[x]).length = 3 := rfl
  have hregister (r : Register) : loaded.core.registers[r] =
      ((Byte.decimal m.core.registers[x])[r.toNat]?).getD
        (m.core.memory.read (m.core.index.toNat + r.toNat)) := by
    rw [hregisters, hmemory, hindex, Memory.getElem_registers_store _ _ (by omega)]
  refine ⟨?_, fun r hr => ?_, fun a ha => ?_⟩
  · have h0 : loaded.core.registers[(0 : Register)] = m.core.registers[x] / 100 := hregister 0
    have h1 : loaded.core.registers[(1 : Register)] = m.core.registers[x] / 10 % 10 := hregister 1
    have h2 : loaded.core.registers[(2 : Register)] = m.core.registers[x] % 10 := hregister 2
    simp only [digit, h0, h1, h2]
    exact Byte.value_decimal m.core.registers[x]
  · rw [hregister, List.getElem?_eq_none (by omega)]
    rfl
  · rw [hmemory', hmemory, Word.address_eq_ofInt]
    exact Memory.getElem_store_of_not_mem _ _ (by omega) (by rwa [hlength])

/-- The three digits go around the end of memory, and a digit of the font is behind them. -/
theorem decimal_of_execute_around_end :
    let m : Machine :=
      { create ⟨0, 0⟩ with core.registers := (Bank.fill 0).set 0xC 254, core.index := 0x1FFF }
    let loaded := (m.handle (.constant 0) (.execute 0xFC33)).handle (.constant 0) (.execute 0xF065)
    let digit (r : Register) := loaded.core.registers[r].toNat
    BitVec.ofInt 16 0xFC33 = 0xF#4 ++ 0xC#4 ++ 0x3#4 ++ 0x3#4 ∧
      BitVec.ofInt 16 0xF065 = 0xF#4 ++ 0x0#4 ++ 0x6#4 ++ 0x5#4 ∧
      digit 0 ≤ 9 ∧ digit 1 ≤ 9 ∧ digit 2 ≤ 9 ∧ 100 * digit 0 + 10 * digit 1 + digit 2 = 254 ∧
      loaded.core.registers[0x3#4] = 0x90 ∧ loaded.core.memory[(0x2 : Address)] = 0x90 := by
  intro m loaded digit
  have hw : BitVec.ofInt 16 0xFC33 = 0xF#4 ++ 0xC#4 ++ 0x3#4 ++ 0x3#4 := by decide
  have hw' : BitVec.ofInt 16 0xF065 = 0xF#4 ++ 0x0#4 ++ 0x6#4 ++ 0x5#4 := by decide
  obtain ⟨⟨h0, h1, h2, hvalue⟩, hrest, hmemory⟩ :=
    decimal_of_execute (.constant 0) (.constant 0) m hw hw'
  have hregister : m.core.registers[0xC#4] = 254 := Bank.getElem_set_self ..
  have hbehind : m.core.memory[(0x2 : Address)] = 0x90 := by decide +kernel
  have hread : m.core.memory.read (m.core.index.toNat + (0x3 : Register).toNat) = 0x90 := by
    decide +kernel
  refine ⟨hw, hw', h0, h1, h2, hvalue.trans (congrArg BitVec.toNat hregister), ?_, ?_⟩
  · exact (hrest 0x3 (by decide)).trans hread
  · exact (hmemory 0x2 (by decide)).trans hbehind

end Machine

end Chip8
