import Chip8.Proofs.Footprint
import Chip8.Proofs.Run

/-!
# What a step may look at

A step looks at the two cells that hold its word. Beyond them only two instructions look at memory:
one that draws looks at the rows of its sprite, if that fits in memory, and one that loads the
registers looks at sixteen cells (`Machine.Loads`). Let two machines differ in memory alone, but not
in these cells. Then the instruction does the same to both (`perform_withMemory`), and what it
stores is the same too.

`step_withMemory` says so of a step: whatever else is in memory, it can neither get into the
registers, the display or the program counter, nor into another cell.
-/
namespace Chip8

/-- Two memories agree on a cell after the same block is stored in both if they agreed on it before
or the block covers it. -/
theorem Memory.getElem_store_congr {m m' : Memory} {w : Word} {a : Address} {bs : List Byte}
    (hlength : bs.length ≤ 4096)
    (h : m'[a] = m[a] ∨ ∃ k < bs.length, a.toNat = (w.toNat + k) % 4096) :
    (m'.store w.address bs)[a] = (m.store w.address bs)[a] := by
  rw [getElem_store _ _ _ _ hlength, getElem_store _ _ _ _ hlength]
  rcases h with h | h
  · rw [h]
  · rw [List.getElem?_eq_getElem ((w.offset_lt_iff a hlength).mpr h)]
    rfl

theorem Core.sprite_congr {c : Core} {memory : Memory} {height : BitVec 4}
    (h : c.index.toNat + height.toNat ≤ 4096 → ∀ k < height.toNat,
      memory[c.index.address + BitVec.ofNat 12 k] = c.memory[c.index.address + BitVec.ofNat 12 k]) :
    Core.sprite { c with memory := memory } height = c.sprite height := by
  apply List.ext_getElem?
  intro k
  simp only [sprite, List.getElem?_mapIdx, Memory.getElem?_bytes]
  by_cases hk : k < height.toNat ∧ c.index.toNat + height.toNat ≤ 4096
  · rw [h hk.2 k hk.1]
  · simp only [if_neg hk]
    split <;> rfl

namespace Machine

/-- The machine with another memory. -/
def withMemory (memory : Memory) (m : Machine) : Machine := { m with core.memory := memory }

theorem display_withMemory (memory : Memory) (m : Machine) :
    (m.withMemory memory).display = m.display := rfl

/-- The cells that a word makes a machine look at, by its digits: the rows of a sprite that fits in
memory, or the block that is loaded into the registers. -/
def Loads (m : Machine) (w : Word) (a : Address) : Prop :=
  w.family = 0xD ∧ m.core.index.toNat + w.n.toNat ≤ 4096 ∧
      (∃ k < w.n.toNat, a.toNat = m.core.index.toNat + k) ∨
    w.family = 0xF ∧ w.nn = 0x65 ∧ ∃ k < 16, a.toNat = (m.core.index.toNat + k) % 4096

/-- The cells that a step looks at: those of its word, and those that the word loads. -/
def Reads (m : Machine) (a : Address) : Prop :=
  (∃ k < 2, a.toNat = (m.core.pc.toNat + k) % 4096) ∨ m.Loads m.fetch a

variable {source : ByteSource} {m : Machine} {memory : Memory} {w : Word}

/-! ## Everything but memory -/

section
variable (h : ∀ a, m.Loads w a → memory[a] = m.core.memory[a])
include h

theorem sprite_withMemory (hf : w.family = 0xD) :
    (m.withMemory memory).core.sprite w.n = m.core.sprite w.n := by
  refine Core.sprite_congr fun hfits k hk => h _ (.inl ⟨hf, hfits, k, hk, ?_⟩)
  rw [Word.toNat_address_add]
  omega

theorem getElem_block_withMemory (hf : w.family = 0xF) (hn : w.nn = 0x65) (r : Register) :
    memory[m.core.index.address + r.setWidth 12] =
      m.core.memory[m.core.index.address + r.setWidth 12] := by
  refine h _ (.inr ⟨hf, hn, r.toNat, r.isLt, ?_⟩)
  rw [← BitVec.ofNat_toNat, Word.toNat_address_add]

end

theorem holds_withMemory (condition : Condition) :
    condition.holds (m.withMemory memory).core = condition.holds m.core := by
  cases condition <;> rfl

/-- An instruction that finds the same in the cells that it loads does the same but to memory. -/
theorem perform_withMemory (source : ByteSource) {i : Instruction} (hi : w.Encodes i)
    (h : ∀ a, m.Loads w a → memory[a] = m.core.memory[a]) :
    ∃ memory', (perform source m i).withMemory memory' =
      perform source (m.withMemory memory) i := by
  have hflagged (x : Register) (r : Flagged) :
      ((m.withMemory memory).core.setFlagged x r).registers = (m.core.setFlagged x r).registers :=
    Core.registers_setFlagged_congr m.core (m.withMemory memory).core rfl x r
  cases i with
  -- these two put a new memory in; the others keep the one that they find
  | storeDecimal x | storeRegisters => exact ⟨_, rfl⟩
  | draw x y height =>
    obtain ⟨hf, -, -, rfl⟩ := hi
    refine ⟨memory, ?_⟩
    change (m.draw x y w.n).withMemory memory = (m.withMemory memory).draw x y w.n
    unfold draw
    rw [sprite_withMemory h hf]
    rfl
  | loadRegisters =>
    refine ⟨memory, ?_⟩
    rw [perform_loadRegisters, perform_loadRegisters]
    simp only [withMemory, getElem_block_withMemory h hi.1 hi.2]
  | call target =>
    refine ⟨memory, ?_⟩
    rw [perform_call, perform_call]
    exact apply_ite (withMemory memory) ..
  | returnFromCall =>
    refine ⟨memory, ?_⟩
    rw [perform_returnFromCall, perform_returnFromCall]
    exact apply_ite (withMemory memory) ..
  | skipIf condition =>
    refine ⟨memory, ?_⟩
    rw [perform_skipIf, perform_skipIf, holds_withMemory]
    rfl
  | awaitKey x =>
    refine ⟨memory, ?_⟩
    rw [perform_awaitKey, perform_awaitKey]
    rfl
  | combine op x y =>
    refine ⟨memory, ?_⟩
    rw [perform_combine, perform_combine, hflagged]
    rfl
  | shift op x =>
    refine ⟨memory, ?_⟩
    rw [perform_shift, perform_shift, hflagged]
    rfl
  | _ => exact ⟨memory, rfl⟩

theorem execute_withMemory (source : ByteSource)
    (h : ∀ a, m.Loads w a → memory[a] = m.core.memory[a]) :
    ∃ memory', (m.execute source w).withMemory memory' =
      (m.withMemory memory).execute source w := by
  obtain ⟨memory', hperform⟩ := perform_withMemory source (m := m.advanced)
    (Word.encodes_instruction w) h
  refine ⟨memory', ?_⟩
  have hadvanced : (m.withMemory memory).advanced = m.advanced.withMemory memory := rfl
  rw [execute_eq, execute_eq, hadvanced, ← hperform]
  rfl

/-! ## Memory -/

theorem execute_memory (source : ByteSource) (m : Machine) (w : Word) :
    (m.execute source w).core.memory =
      match w.instruction with
      | .storeDecimal x =>
        m.core.memory.store m.core.index.address (Byte.decimal m.core.registers[x])
      | .storeRegisters => m.core.memory.store m.core.index.address m.core.registers.toList
      | _ => m.core.memory := by
  rw [execute_eq]
  exact perform_memory source m.advanced _

/-- What a word stores is the same whatever is in memory. -/
theorem getElem_memory_withMemory {a : Address}
    (h : memory[a] = m.core.memory[a] ∨ (Part.memory a).WrittenBy m w) :
    ((m.withMemory memory).execute source w).core.memory[a] =
      (m.execute source w).core.memory[a] := by
  have hdecimal (x : Register) : (Byte.decimal m.core.registers[x]).length = 3 := rfl
  have hregisters : m.core.registers.toList.length = 16 := Bank.length_toList _
  have hw : ((m.withMemory memory).execute source w).core.memory =
      match w.instruction with
      | .storeDecimal x =>
        memory.store m.core.index.address (Byte.decimal m.core.registers[x])
      | .storeRegisters => memory.store m.core.index.address m.core.registers.toList
      | _ => memory := execute_memory source (m.withMemory memory) w
  rw [hw, execute_memory]
  rcases h with h | ⟨hf, ⟨hn, hk⟩ | ⟨hn, hk⟩⟩
  · cases w.instruction with
    | storeDecimal x => exact Memory.getElem_store_congr (by rw [hdecimal]; decide) (.inl h)
    | storeRegisters => exact Memory.getElem_store_congr (by rw [hregisters]; decide) (.inl h)
    | _ => exact h
  · rw [Word.instruction_of_encodes (i := .storeDecimal w.x) ⟨hf, hn, rfl⟩]
    exact Memory.getElem_store_congr (by rw [hdecimal]; decide) (.inr hk)
  · rw [Word.instruction_of_encodes (i := .storeRegisters) ⟨hf, hn⟩]
    refine Memory.getElem_store_congr (by rw [hregisters]; decide) (.inr ?_)
    rwa [hregisters]

/-! ## Steps -/

theorem fetch_withMemory (h : ∀ a, m.Reads a → memory[a] = m.core.memory[a]) :
    (m.withMemory memory).fetch = m.fetch := by
  have hcell (k : Nat) (hk : k < 2) : memory[m.core.pc.address + BitVec.ofNat 12 k] =
      m.core.memory[m.core.pc.address + BitVec.ofNat 12 k] :=
    h _ (.inl ⟨k, hk, Word.toNat_address_add ..⟩)
  have hfirst := hcell 0 (by decide)
  have hsecond : memory[m.core.pc.address + 1] = m.core.memory[m.core.pc.address + 1] :=
    hcell 1 (by decide)
  rw [BitVec.add_zero] at hfirst
  change memory[m.core.pc.address] ++ memory[m.core.pc.address + 1] =
    m.core.memory[m.core.pc.address] ++ m.core.memory[m.core.pc.address + 1]
  rw [hfirst, hsecond]

/-- **The read footprint of a step.** Two running machines that differ in memory alone, and not in
the cells that the step looks at, take the same step. It leaves them the same but for memory, and
there the same in each cell that was the same before or that the word has stored in. -/
theorem step_withMemory (source : ByteSource) (hm : m.halted = false)
    (h : ∀ a, m.Reads a → memory[a] = m.core.memory[a]) :
    let next := m.step source
    let next' := (m.withMemory memory).step source
    next' = next.withMemory next'.core.memory ∧
      ∀ a, memory[a] = m.core.memory[a] ∨ (Part.memory a).WrittenBy m m.fetch →
        next'.core.memory[a] = next.core.memory[a] := by
  intro next next'
  have hm' : (m.withMemory memory).halted = false := hm
  have hnext : next = m.execute source m.fetch := step_of_running hm
  have hnext' : next' = (m.withMemory memory).execute source m.fetch := by
    rw [← fetch_withMemory h]
    exact step_of_running hm'
  rw [hnext, hnext']
  obtain ⟨memory', hsame⟩ := execute_withMemory source fun a ha => h a (.inr ha)
  refine ⟨?_, fun a => getElem_memory_withMemory⟩
  rw [← hsame]
  rfl

/-- Fifteen cells are fetched for a sprite of five rows. What is in the others does not show. -/
theorem step_withMemory_beyond_sprite :
    let m : Machine :=
      { create ⟨0, 0⟩ with
        core.memory := ((Bank.fill 0).set 0xFFF 0xD0).set 0 0x15
        core.pc := 0xFFF
        core.index := 0xFF8 }
    let memory := m.core.memory.set 0xFFD 0xFF
    m.halted = false ∧ (∀ a, m.Reads a → memory[a] = m.core.memory[a]) ∧
      ((m.withMemory memory).step (.constant 0)).display = (m.step (.constant 0)).display := by
  intro m memory
  have hfetch : m.fetch = 0xD015 := by decide +kernel
  have hunread : ¬ m.Reads 0xFFD := by
    rintro (⟨k, hk, ha⟩ | ⟨-, -, k, hk, ha⟩ | ⟨hf, -⟩)
    · change 4093 = (4095 + k) % 4096 at ha
      omega
    · rw [hfetch] at hk
      change k < 5 at hk
      change 4093 = 4088 + k at ha
      omega
    · rw [hfetch] at hf
      exact absurd hf (by decide)
  have h : ∀ a, m.Reads a → memory[a] = m.core.memory[a] := by
    intro a ha
    exact Bank.getElem_set_ne _ _ fun he => hunread (he ▸ ha)
  obtain ⟨hsame, -⟩ := step_withMemory (.constant 0) rfl h
  exact ⟨rfl, h, (congrArg display hsame).trans (display_withMemory ..)⟩

end Machine

end Chip8
