import Chip8.Proofs.Effect
import Chip8.Proofs.Pattern

/-!
# Arithmetic with a flag

Five operations of the arithmetic unit set the flag: a sum, the two differences of a pair, and the
two shifts. A byte is too small for what they compute, and the flag is what it lacks. `flag` says
what each of them leaves in it (`flag_apply`). `Balances` says that nothing is lost: the byte and
the flag together make up for the operands (`balances_apply`).

Both operands are read first, then the result is written, and the flag last
(`Core.getElem_setFlagged`). So one register may be both operands, the flag register may be an
operand, and a result that goes into the flag register gives way to the flag. `flagged_of_execute`
says it of every word of the five operations.
-/
namespace Chip8

theorem Byte.toNat_ofFlag_decide (p : Prop) [Decidable p] :
    (Byte.ofFlag (decide p)).toNat = if p then 1 else 0 := by
  by_cases h : p
  · rw [decide_eq_true h, if_pos h]
    rfl
  · rw [decide_eq_false h, if_neg h]
    rfl

/-- What is put into a register is there, unless the flag has come after it. -/
theorem Core.setFlagged_some (c : Core) (x : Register) {r : Flagged} {f : Bool}
    (h : r.flag = some f) :
    (c.setFlagged x r).registers[Register.flag] = Byte.ofFlag f ∧
      (x ≠ Register.flag → (c.setFlagged x r).registers[x] = r.value) ∧
      ∀ y : Register, y ≠ x → y ≠ Register.flag →
        (c.setFlagged x r).registers[y] = c.registers[y] := by
  refine ⟨?_, fun hx => ?_, fun y hyx hy => ?_⟩
  · rw [getElem_setFlagged, h, if_pos ⟨rfl, rfl⟩]
    rfl
  · rw [getElem_setFlagged, if_neg fun hflag => hx hflag.1, if_pos rfl]
  · rw [getElem_setFlagged, if_neg fun hflag => hy hflag.1, if_neg hyx]

/-- The operations that set the flag. -/
inductive FlagOperation where
  | add
  | subtract
  /-- The second operand less the first. -/
  | subtractFrom
  | shiftRight
  | shiftLeft
  deriving DecidableEq, Repr

namespace FlagOperation

/-- The low nibble of the words of an operation. -/
def digit : FlagOperation → BitVec 4
  | .add => 0x4
  | .subtract => 0x5
  | .shiftRight => 0x6
  | .subtractFrom => 0x7
  | .shiftLeft => 0xE

/-- What an operation leaves in the flag: a carry, the absence of a borrow, or the bit that is
shifted out. -/
def flag (a b : Nat) : FlagOperation → Nat
  | .add => if 255 < a + b then 1 else 0
  | .subtract => if b ≤ a then 1 else 0
  | .subtractFrom => if a ≤ b then 1 else 0
  | .shiftRight => a % 2
  | .shiftLeft => a / 128

/-- A result and a flag make up for the operands `a` and `b`. -/
def Balances (a b value flag : Nat) : FlagOperation → Prop
  | .add => value + 256 * flag = a + b
  | .subtract => value + b = a + 256 * (1 - flag)
  | .subtractFrom => value + a = b + 256 * (1 - flag)
  | .shiftRight => 2 * value + flag = a
  | .shiftLeft => value + 256 * flag = 2 * a

/-- The instruction of an operation. A shift does not use its second register. -/
def instruction (x y : Register) : FlagOperation → Instruction
  | .add => .combine .add x y
  | .subtract => .combine .subtract x y
  | .subtractFrom => .combine .subtractFrom x y
  | .shiftRight => .shift .right x
  | .shiftLeft => .shift .left x

/-- What the arithmetic unit gives for an operation. -/
def apply (a b : Byte) : FlagOperation → Flagged
  | .add => Combination.add.apply a b
  | .subtract => Combination.subtract.apply a b
  | .subtractFrom => Combination.subtractFrom.apply a b
  | .shiftRight => Shift.right.apply a
  | .shiftLeft => Shift.left.apply a

theorem flag_apply (a b : Byte) (op : FlagOperation) :
    ∃ f, (op.apply a b).flag = some f ∧ (Byte.ofFlag f).toNat = op.flag a.toNat b.toNat := by
  have ha := a.isLt
  cases op with
  | add => exact ⟨_, rfl, Byte.toNat_ofFlag_decide _⟩
  | subtract => exact ⟨_, rfl, Byte.toNat_ofFlag_decide _⟩
  | subtractFrom => exact ⟨_, rfl, Byte.toNat_ofFlag_decide _⟩
  | shiftRight =>
    have hlow : a.getLsbD 0 = decide (a.toNat % 2 = 1) := Nat.testBit_zero _
    refine ⟨_, rfl, ?_⟩
    rw [hlow, Byte.toNat_ofFlag_decide, flag]
    split <;> omega
  | shiftLeft =>
    refine ⟨_, rfl, ?_⟩
    rw [BitVec.msb_eq_decide, Byte.toNat_ofFlag_decide, flag]
    split <;> omega

/-- A difference that borrows is short by the 256 that the flag tells. -/
theorem value_difference (a b : Byte) :
    (difference a b).value.toNat + b.toNat =
      a.toNat + 256 * (1 - if b.toNat ≤ a.toNat then 1 else 0) := by
  have ha := a.isLt
  have hb := b.isLt
  rw [difference, BitVec.toNat_sub]
  split <;> omega

theorem balances_apply (a b : Byte) (op : FlagOperation) :
    op.Balances a.toNat b.toNat (op.apply a b).value.toNat (op.flag a.toNat b.toNat) := by
  have ha := a.isLt
  have hb := b.isLt
  cases op with
  | add =>
    change (a + b).toNat + 256 * (if 255 < a.toNat + b.toNat then 1 else 0) = a.toNat + b.toNat
    rw [BitVec.toNat_add]
    split <;> omega
  | subtract => exact value_difference a b
  | subtractFrom => exact value_difference b a
  | shiftRight =>
    change 2 * (a >>> 1).toNat + a.toNat % 2 = a.toNat
    rw [BitVec.toNat_ushiftRight, Nat.shiftRight_eq_div_pow]
    omega
  | shiftLeft =>
    change (a <<< 1).toNat + 256 * (a.toNat / 128) = 2 * a.toNat
    rw [BitVec.toNat_shiftLeft, Nat.shiftLeft_eq]
    omega

end FlagOperation

theorem Word.instruction_flagOperation (op : FlagOperation) (x y : Register) :
    Word.instruction (0x8#4 ++ x ++ y ++ op.digit) = op.instruction x y := by
  obtain ⟨hf, hx, hy, hn⟩ := nibbles 0x8#4 x y op.digit
  apply instruction_of_encodes
  cases op with
  | add | subtract | subtractFrom => exact ⟨hf, hn, hx, hy⟩
  | shiftRight | shiftLeft => exact ⟨hf, hn, hx⟩

namespace Machine

variable (source : ByteSource) (m : Machine)

theorem perform_flagOperation (op : FlagOperation) (x y : Register) :
    (perform source m (op.instruction x y)).core.registers =
      (m.core.setFlagged x (op.apply m.core.registers[x] m.core.registers[y])).registers := by
  cases op with
  | add | subtract | subtractFrom =>
    exact congrArg (·.core.registers) (perform_combine source m _ x y)
  | shiftRight | shiftLeft =>
    exact congrArg (·.core.registers) (perform_shift source m _ x)

theorem execute_flagOperation {w : Int} {op : FlagOperation} {x y : Register}
    (hw : BitVec.ofInt 16 w = 0x8#4 ++ x ++ y ++ op.digit) :
    (m.handle source (.execute w)).core.registers =
      (m.core.setFlagged x (op.apply m.core.registers[x] m.core.registers[y])).registers := by
  rw [handle_execute, hw, execute_eq, Word.instruction_flagOperation]
  exact (perform_flagOperation source m.advanced op x y).trans
    (Core.registers_setFlagged_congr m.core m.advanced.core rfl x _)

/-- **The flag is what the byte lacks.** After a word of one of the five operations the flag
register holds the operation's flag. The register of the result, if it is another, holds the byte
that balances the operands with it, and the rest of the registers are as they were. The three
registers need not be different. -/
theorem flagged_of_execute (op : FlagOperation) {w : Int} {x y : Register}
    (hw : BitVec.ofInt 16 w = 0x8#4 ++ x ++ y ++ op.digit) :
    let before := m.core.registers
    let after := (m.handle source (.execute w)).core.registers
    let a := before[x].toNat
    let b := before[y].toNat
    after[Register.flag].toNat = op.flag a b ∧
      (x ≠ Register.flag → op.Balances a b after[x].toNat after[Register.flag].toNat) ∧
      ∀ r : Register, r ≠ x → r ≠ Register.flag → after[r] = before[r] := by
  intro before after a b
  obtain ⟨f, hf, hflag⟩ := FlagOperation.flag_apply before[x] before[y] op
  have hafter : after = _ := execute_flagOperation source m hw
  obtain ⟨hset, hvalue, hrest⟩ := m.core.setFlagged_some x hf
  have hflagged : after[Register.flag].toNat = op.flag a b := by rw [hafter, hset, hflag]
  refine ⟨hflagged, fun hx => ?_, fun r hr hrf => by rw [hafter, hrest r hr hrf]⟩
  rw [hflagged, hafter, hvalue hx]
  exact FlagOperation.balances_apply before[x] before[y] op

/-- The second operand is the flag itself, and it is borrowed from. -/
theorem flagged_of_execute_flag_operand :
    let m : Machine :=
      { create ⟨0, 0⟩ with core.registers := ((Bank.fill 7).set 0x3 5).set 0xF 9 }
    let after := (m.handle (.constant 0) (.execute 0x83F5)).core.registers
    BitVec.ofInt 16 0x83F5 = 0x8#4 ++ 0x3#4 ++ 0xF#4 ++ FlagOperation.subtract.digit ∧
      (0x3 : Register) ≠ Register.flag ∧
      after[Register.flag].toNat = 0 ∧ after[0x3#4].toNat + 9 = 5 + 256 ∧ after[0x4#4] = 7 := by
  intro m after
  have hw : BitVec.ofInt 16 0x83F5 = 0x8#4 ++ 0x3#4 ++ 0xF#4 ++ FlagOperation.subtract.digit := by
    decide
  have hx : (0x3 : Register) ≠ Register.flag := by decide
  obtain ⟨hflag, hbalances, hrest⟩ := flagged_of_execute (.constant 0) m .subtract hw
  have ha : m.core.registers[0x3#4] = 5 := by decide +kernel
  have hb : m.core.registers[0xF#4] = 9 := by decide +kernel
  have hother : m.core.registers[0x4#4] = 7 := by decide +kernel
  simp only [ha, hb] at hflag hbalances
  have hzero : after[Register.flag].toNat = 0 := hflag
  refine ⟨hw, hx, hzero, ?_, (hrest 0x4 (by decide) (by decide)).trans hother⟩
  have hborrow := hbalances hx
  rw [hzero] at hborrow
  exact hborrow

end Machine

end Chip8
