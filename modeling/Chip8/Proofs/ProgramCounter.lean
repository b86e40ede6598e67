import Chip8.Proofs.CallStack
import Chip8.Proofs.Execute
import Chip8.Proofs.Pattern

/-!
# The program counter

An instruction that leaves the machine halted or waiting leaves the program counter where it was.
Every other one leads to one place, which `destination` tells from the instruction and `successor`
from the digits of the word: the target of a jump or a call, the return address, the instruction
after next for a skip whose condition holds, else the next instruction. The two agree on every word
(`destination_instruction`), so an instruction family is decoded to what its digits say.

`pc_of_execute` is the rule for whole words.
-/
namespace Chip8

namespace Word

/-- The fields of the word of an integer are digits of the integer. -/
theorem fields_ofInt (w : Int) :
    (family (BitVec.ofInt 16 w)).toNat = (w / 4096 % 16).toNat ∧
    x (BitVec.ofInt 16 w) = BitVec.ofInt 4 (w / 256) ∧
    y (BitVec.ofInt 16 w) = BitVec.ofInt 4 (w / 16) ∧
    (nn (BitVec.ofInt 16 w)).toNat = (w % 256).toNat ∧
    (nnn (BitVec.ofInt 16 w)).toNat = (w % 4096).toNat := by
  have field (start len : Nat) :
      ((BitVec.ofInt 16 w).extractLsb' start len).toNat =
        (w % 65536).toNat / 2 ^ start % 2 ^ len := by
    rw [BitVec.extractLsb'_toNat, BitVec.toNat_ofInt, Nat.shiftRight_eq_div_pow]
    rfl
  refine ⟨?_, BitVec.eq_of_toNat_eq ?_, BitVec.eq_of_toNat_eq ?_, ?_, ?_⟩
  · rw [family, field]
    omega
  · rw [x, field, BitVec.toNat_ofInt]
    omega
  · rw [y, field, BitVec.toNat_ofInt]
    omega
  · rw [nn, field]
    omega
  · rw [nnn, field]
    omega

end Word

namespace Machine

/-- Where a machine goes on after an instruction that neither stops it nor makes it wait. -/
def destination (m : Machine) : Instruction → Nat
  | .jump target => target.toNat
  | .call target => target.toNat
  | .returnFromCall =>
    (m.core.stack.entries[BitVec.ofNat 4 (m.core.stack.depth.toNat - 1)]).toNat
  | .skipIf condition => (m.core.pc.toNat + if condition.holds m.core then 4 else 2) % 4096
  | .jumpOffset target => (target.toNat + m.core.registers[(0 : Register)].toNat) % 4096
  | _ => (m.core.pc.toNat + 2) % 4096

theorem destination_skipIf (m : Machine) (condition : Condition) :
    m.destination (.skipIf condition) =
      (m.core.pc.toNat + if condition.holds m.core then 4 else 2) % 4096 := rfl

/-- Whether a word skips the next instruction, by the digits of the word. -/
def skips (m : Machine) (w : Int) : Bool :=
  let vx := m.core.registers[BitVec.ofInt 4 (w / 256)]
  let vy := m.core.registers[BitVec.ofInt 4 (w / 16)]
  let down := m.core.keys.getLsbD (vx.toNat % 16)
  match (w / 4096 % 16).toNat with
  | 0x3 => vx.toNat = (w % 256).toNat
  | 0x4 => vx.toNat ≠ (w % 256).toNat
  | 0x5 => vx = vy
  | 0x9 => vx ≠ vy
  | 0xE => (w % 256).toNat = 0x9E && down || (w % 256).toNat = 0xA1 && !down
  | _ => false

/-- Where a machine goes on after a word, by the digits of the word. -/
def successor (m : Machine) (w : Int) : Nat :=
  match (w / 4096 % 16).toNat with
  | 0x0 =>
    if (w % 256).toNat = 0xEE then
      (m.core.stack.entries[BitVec.ofNat 4 (m.core.stack.depth.toNat - 1)]).toNat
    else (m.core.pc.toNat + 2) % 4096
  | 0x1 | 0x2 => (w % 4096).toNat
  | 0xB => ((w % 4096).toNat + m.core.registers[(0 : Register)].toNat) % 4096
  | _ => (m.core.pc.toNat + if m.skips w then 4 else 2) % 4096

variable (m : Machine)

/-! ## Instructions and digits -/

theorem keyDown_holds (x : Register) :
    (Condition.keyDown x).holds m.core =
      m.core.keys.getLsbD (m.core.registers[x].toNat % 16) := by
  rw [Condition.holds, Keypad.isDown, BitVec.toNat_setWidth]

theorem keyUp_holds (x : Register) :
    (Condition.keyUp x).holds m.core =
      !m.core.keys.getLsbD (m.core.registers[x].toNat % 16) :=
  congrArg not (keyDown_holds m x)

/-- A word is decoded to an instruction that leads where the digits of the word say. -/
theorem destination_instruction (w : Int) :
    m.destination (Word.instruction (BitVec.ofInt 16 w)) = m.successor w := by
  obtain ⟨hf, hx, hy, hn, ha⟩ := Word.fields_ofInt w
  unfold successor skips
  rw [← hf, ← hx, ← hy, ← hn, ← ha]
  generalize BitVec.ofInt 16 w = v
  have h := Word.encodes_instruction v
  generalize Word.instruction v = i at h ⊢
  cases i with
  | halt | clearScreen | returnFromCall =>
    obtain ⟨hf, hn⟩ := h
    rw [hf, hn]
    rfl
  | jump target | call target | jumpOffset target =>
    obtain ⟨hf, rfl⟩ := h
    rw [hf]
    rfl
  | skipIf condition =>
    rw [destination_skipIf]
    cases condition with
    | keyDown x =>
      obtain ⟨hf, hn, rfl⟩ := h
      rw [hf, hn, keyDown_holds]
      simp
    | keyUp x =>
      obtain ⟨hf, hn, rfl⟩ := h
      rw [hf, hn, keyUp_holds]
      simp
    | _ =>
      obtain ⟨hf, rfl, rfl⟩ := h
      rw [hf]
      simp [Condition.holds, BitVec.toNat_inj]
  | unknown v =>
    obtain ⟨rfl, hw⟩ := h
    rcases hw with ⟨hf, hn⟩ | ⟨hf, -⟩ | ⟨hf, hn⟩ | ⟨hf, -⟩
    · have hEE : (Word.nn v).toNat ≠ 0xEE := fun e =>
        hn (by simp [BitVec.eq_of_toNat_eq (y := 0xEE#8) e])
      rw [hf]
      exact (if_neg hEE).symm
    · rw [hf]
      rfl
    · have h9E : (Word.nn v).toNat ≠ 0x9E := fun e =>
        hn (by simp [BitVec.eq_of_toNat_eq (y := 0x9E#8) e])
      have hA1 : (Word.nn v).toNat ≠ 0xA1 := fun e =>
        hn (by simp [BitVec.eq_of_toNat_eq (y := 0xA1#8) e])
      rw [hf, decide_eq_false h9E, decide_eq_false hA1]
      rfl
    · rw [hf]
      rfl
  | _ =>
    -- the other families have no jumps and no skips
    obtain ⟨hf, -⟩ := h
    rw [hf]
    rfl

/-! ## Executing a word -/

/-- An instruction that neither stops a machine nor makes it wait leads to its destination. -/
theorem execute_pc_of_running (source : ByteSource) {w : Word}
    (hd : m.core.stack.depth.toNat ≤ 16) (hs : (m.execute source w).stalled = false) :
    (m.execute source w).core.pc.toNat = m.destination w.instruction := by
  have hf : ∀ r, ¬ m.Fault w.instruction r := by
    intro r hr
    rw [m.execute_of_fault source hr] at hs
    cases hs
  rw [execute_pc, hs, if_neg (by decide)]
  generalize w.instruction = i at hf ⊢
  cases i with
  | jump target => exact Address.toNat_word target
  | call target =>
    have hr : ¬ 16 ≤ m.core.stack.depth.toNat := fun h => hf _ (.overflow target h)
    simp only [if_neg hr]
    exact Address.toNat_word target
  | returnFromCall =>
    have he : m.core.stack.depth ≠ 0 := fun h => hf _ (.underflow h)
    simp only [if_neg he]
    exact congrArg BitVec.toNat (CallStack.top_eq he hd)
  | skipIf condition =>
    simp only [destination_skipIf, holds_advanced]
    split
    · rw [Core.toNat_nextPc, advanced, Core.toNat_nextPc]
      omega
    · exact m.core.toNat_nextPc
  | jumpOffset target =>
    have hv : m.core.registers[(0 : Register)].toNat < 256 := BitVec.isLt _
    simp only [Address.toNat_word, BitVec.toNat_add, BitVec.toNat_setWidth]
    rw [Nat.mod_eq_of_lt (a := m.core.registers[(0 : Register)].toNat) (by omega)]
    rfl
  | _ => exact m.core.toNat_nextPc

variable {m}

/-- **Where execution goes on.** After any word, a machine that is halted or waits for a key stands
where it stood. Any other machine stands where the digits of the word say: at the target of a jump
or call, at the entry below the depth of the call stack, at the target plus register 0, two
instructions on for a skip whose condition holds, and one instruction on otherwise. -/
theorem pc_of_execute (source : ByteSource) (hd : m.core.stack.depth.toNat ≤ 16) (w : Int) :
    let m' := m.handle source (.execute w)
    (m'.halted = true ∨ m'.awaiting ≠ none → m'.core.pc = m.core.pc) ∧
    (m'.halted = false → m'.awaiting = none → m'.core.pc.toNat = m.successor w) := by
  intro m'
  have hm : m' = m.execute source (BitVec.ofInt 16 w) := m.handle_execute source w
  rw [hm]
  refine ⟨fun h => ?_, fun hh ha => ?_⟩
  · have hs : (m.execute source (BitVec.ofInt 16 w)).stalled = true := by
      rcases h with hh | ha
      · exact Bool.or_eq_true_iff.mpr (.inl hh)
      · exact Bool.or_eq_true_iff.mpr (.inr (Option.isSome_iff_ne_none.mpr ha))
    exact (m.execute_pc source _).trans (if_pos hs)
  · have hs : (m.execute source (BitVec.ofInt 16 w)).stalled = false :=
      Bool.or_eq_false_iff.mpr
        ⟨hh, Option.isSome_eq_false_iff.mpr (Option.isNone_iff_eq_none.mpr ha)⟩
    rw [← m.destination_instruction w]
    exact m.execute_pc_of_running source hd hs

/-- A skip at the end of memory, while the key that the low digit of register 3 names is held. -/
theorem pc_of_execute_skip :
    let m : Machine :=
      { Machine.create ⟨0, 0⟩ with
        core.pc := 0xFFE
        core.registers := Bank.set (.fill 0) 3 0x1A
        core.keys := 0x0400 }
    let m' := m.handle (.constant 0) (.execute (0xE39E - 0x10000))
    m.core.stack.depth.toNat ≤ 16 ∧ m'.halted = false ∧ m'.awaiting = none ∧
      m'.core.pc.toNat = 2 := by
  intro m m'
  have hd : m.core.stack.depth.toNat ≤ 16 := by decide
  have hh : m'.halted = false := by decide +kernel
  have ha : m'.awaiting = none := by decide +kernel
  refine ⟨hd, hh, ha, ?_⟩
  rw [(pc_of_execute (.constant 0) hd (0xE39E - 0x10000)).2 hh ha]
  decide +kernel

end Machine

end Chip8
