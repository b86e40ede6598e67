import Chip8.Decode

/-!
# Instructions

The record of a word has all fields, whether its operation has a use for them or not. An instruction
has exactly the operands that it uses; the one of a record is `Decoded.instruction`, and
`Instruction.decoded` is the record of an instruction in which all other fields are zero. Records
that agree on what their text shows have the same instruction (`Decoded.Agree.instruction_eq`).

The fields of a word are the bits of its low half (`decode_eq`), so integers that are the same
modulo `2 ^ 16` are decoded to the same instruction (`instruction_decode`).
-/
namespace Chip8

/-- What a skip instruction tests. -/
inductive Condition where
  | eqByte (x : Register) (value : Byte)
  | neByte (x : Register) (value : Byte)
  | eqRegister (x y : Register)
  | neRegister (x y : Register)
  | keyDown (x : Register)
  | keyUp (x : Register)
  deriving DecidableEq, Repr

inductive Instruction where
  | halt
  | clearScreen
  | returnFromCall
  | jump (target : Address)
  | call (target : Address)
  | skipIf (condition : Condition)
  | loadByte (x : Register) (value : Byte)
  | addByte (x : Register) (value : Byte)
  | combine (op : Combination) (x y : Register)
  | shift (op : Shift) (x : Register)
  | loadIndex (value : Address)
  /-- Jump to the target plus register 0. -/
  | jumpOffset (target : Address)
  /-- Load a random byte masked by `mask`. -/
  | random (x : Register) (mask : Byte)
  /-- Draw the `height` bytes at the index at column `x`, row `y`. -/
  | draw (x y : Register) (height : BitVec 4)
  | loadDelay (x : Register)
  | awaitKey (x : Register)
  | setDelay (x : Register)
  | setSound (x : Register)
  | addIndex (x : Register)
  | loadGlyph (x : Register)
  | storeDecimal (x : Register)
  | storeRegisters
  | loadRegisters
  /-- A word that is no instruction. -/
  | unknown (word : Word)
  deriving DecidableEq, Repr

/-! ## Records and instructions -/

/-- The instruction of a record. -/
def Decoded.instruction (d : Decoded) : Instruction :=
  match d.operation with
  | .halt => .halt
  | .clearScreen => .clearScreen
  | .returnFromCall => .returnFromCall
  | .jump => .jump d.nnn
  | .call => .call d.nnn
  | .skipEqByte => .skipIf (.eqByte d.x d.nn)
  | .skipNeByte => .skipIf (.neByte d.x d.nn)
  | .skipEqReg => .skipIf (.eqRegister d.x d.y)
  | .loadByte => .loadByte d.x d.nn
  | .addByte => .addByte d.x d.nn
  | .loadReg => .combine .copy d.x d.y
  | .or => .combine .or d.x d.y
  | .and => .combine .and d.x d.y
  | .xor => .combine .xor d.x d.y
  | .addReg => .combine .add d.x d.y
  | .subReg => .combine .subtract d.x d.y
  | .shiftRight => .shift .right d.x
  | .subnReg => .combine .subtractFrom d.x d.y
  | .shiftLeft => .shift .left d.x
  | .skipNeReg => .skipIf (.neRegister d.x d.y)
  | .loadIndex => .loadIndex d.nnn
  | .jumpV0 => .jumpOffset d.nnn
  | .random => .random d.x d.nn
  | .draw => .draw d.x d.y d.n
  | .skipKeyPressed => .skipIf (.keyDown d.x)
  | .skipKeyNotPressed => .skipIf (.keyUp d.x)
  | .loadDelay => .loadDelay d.x
  | .loadKey => .awaitKey d.x
  | .setDelay => .setDelay d.x
  | .setSound => .setSound d.x
  | .addIndex => .addIndex d.x
  | .loadFont => .loadGlyph d.x
  | .storeBcd => .storeDecimal d.x
  | .storeRegisters => .storeRegisters
  | .loadRegisters => .loadRegisters
  | .unknown => .unknown (BitVec.ofInt 16 d.raw)

/-- The record of an operation without operands. -/
def Operation.record (o : Operation) : Decoded := ⟨0, o, 0, 0, 0, 0, 0⟩

def Condition.decoded : Condition → Decoded
  | eqByte x b => { Operation.skipEqByte.record with x, nn := b }
  | neByte x b => { Operation.skipNeByte.record with x, nn := b }
  | eqRegister x y => { Operation.skipEqReg.record with x, y }
  | neRegister x y => { Operation.skipNeReg.record with x, y }
  | keyDown x => { Operation.skipKeyPressed.record with x }
  | keyUp x => { Operation.skipKeyNotPressed.record with x }

def Combination.operation : Combination → Operation
  | copy => .loadReg
  | or => .or
  | and => .and
  | xor => .xor
  | add => .addReg
  | subtract => .subReg
  | subtractFrom => .subnReg

def Shift.operation : Shift → Operation
  | right => .shiftRight
  | left => .shiftLeft

theorem Word.ofInt_toNat (w : Word) : BitVec.ofInt 16 w.toNat = w := by
  rw [BitVec.ofInt_natCast, BitVec.ofNat_toNat, BitVec.setWidth_eq]

theorem Word.ofInt_emod (w : Int) : BitVec.ofInt 16 (w % 0x10000) = BitVec.ofInt 16 w := by
  apply BitVec.eq_of_toNat_eq
  simp only [BitVec.toNat_ofInt]
  omega

namespace Instruction

/-- The record of an instruction: the fields that it does not use are zero. -/
def decoded : Instruction → Decoded
  | halt => Operation.halt.record
  | clearScreen => Operation.clearScreen.record
  | returnFromCall => Operation.returnFromCall.record
  | jump a => { Operation.jump.record with nnn := a }
  | call a => { Operation.call.record with nnn := a }
  | skipIf condition => condition.decoded
  | loadByte x b => { Operation.loadByte.record with x, nn := b }
  | addByte x b => { Operation.addByte.record with x, nn := b }
  | combine op x y => { op.operation.record with x, y }
  | shift op x => { op.operation.record with x }
  | loadIndex a => { Operation.loadIndex.record with nnn := a }
  | jumpOffset a => { Operation.jumpV0.record with nnn := a }
  | random x mask => { Operation.random.record with x, nn := mask }
  | draw x y height => { Operation.draw.record with x, y, n := height }
  | loadDelay x => { Operation.loadDelay.record with x }
  | awaitKey x => { Operation.loadKey.record with x }
  | setDelay x => { Operation.setDelay.record with x }
  | setSound x => { Operation.setSound.record with x }
  | addIndex x => { Operation.addIndex.record with x }
  | loadGlyph x => { Operation.loadFont.record with x }
  | storeDecimal x => { Operation.storeBcd.record with x }
  | storeRegisters => Operation.storeRegisters.record
  | loadRegisters => Operation.loadRegisters.record
  | unknown w => { Operation.unknown.record with raw := w.toNat }

theorem instruction_decoded (i : Instruction) : i.decoded.instruction = i := by
  cases i with
  | skipIf condition => cases condition <;> rfl
  | combine op x y => cases op <;> rfl
  | shift op x => cases op <;> rfl
  | unknown w => exact congrArg unknown (Word.ofInt_toNat w)
  | _ => rfl

end Instruction

namespace Decoded

variable {d e : Decoded}

/-- Records of one operation that have the same in all fields that its text shows. -/
structure Agree (d e : Decoded) : Prop where
  operation : e.operation = d.operation
  value : ∀ f, .slot f ∈ d.operation.template → e.value f = d.value f

/-- What the text of a record does not show is no operand of its instruction. -/
theorem Agree.instruction_eq (h : Agree d e) : e.instruction = d.instruction := by
  obtain ⟨raw, operation, x, y, n, nn, nnn⟩ := d
  obtain ⟨raw', operation', x', y', n', nn', nnn'⟩ := e
  obtain ⟨rfl, h⟩ := h
  cases operation' <;>
    simp_all [Operation.template, Decoded.value, instruction, Int.ofNat_inj, BitVec.toNat_inj]

end Decoded

/-! ## Words -/

namespace Word

/-- The high nibble. -/
def family (w : Word) : BitVec 4 := w.extractLsb' 12 4

/-- The second nibble: the first register operand. -/
def x (w : Word) : Register := w.extractLsb' 8 4

/-- The third nibble: the second register operand. -/
def y (w : Word) : Register := w.extractLsb' 4 4

/-- The low nibble. -/
def n (w : Word) : BitVec 4 := w.extractLsb' 0 4

/-- The low byte. -/
def nn (w : Word) : Byte := w.extractLsb' 0 8

/-- The low 12 bits: an address operand. -/
def nnn (w : Word) : Address := w.extractLsb' 0 12

/-- The instruction that a word encodes. -/
def instruction (w : Word) : Instruction := (decode w.toNat).instruction

end Word

/-- A field of an integer is one of its low half. -/
theorem cut_eq_extract {width low : Nat} (h : low + width ≤ 16) (w : Int) :
    cut width low w = (BitVec.ofInt 16 w).extractLsb' low width := by
  obtain ⟨k, hk⟩ := Nat.exists_eq_add_of_le h
  have hsplit : (2 : Int) ^ 16 = 2 ^ low * (2 ^ width * 2 ^ k) := by
    rw [← Int.pow_add, ← Int.pow_add, ← Nat.add_assoc, ← hk]
  have hlow : (2 : Int) ^ low ≠ 0 := Int.pow_ne_zero (by decide)
  -- whole multiples of the modulus do not reach into the field
  have hcut : w % 2 ^ 16 / 2 ^ low % 2 ^ width = w / 2 ^ low % 2 ^ width := by
    rw [Int.emod_def w, hsplit, Int.mul_assoc, Int.sub_mul_ediv_left _ _ hlow, Int.mul_assoc,
      Int.sub_mul_emod_self_left]
  have hw : ((w % 2 ^ 16).toNat : Int) = w % 2 ^ 16 :=
    Int.toNat_of_nonneg (Int.emod_nonneg _ (by decide))
  apply BitVec.eq_of_toNat_eq
  rw [cut, BitVec.toNat_ofInt, BitVec.extractLsb'_toNat, BitVec.toNat_ofInt,
    Int.shiftRight_eq_div_pow, Nat.shiftRight_eq_div_pow]
  have hfield : (((w % 2 ^ 16).toNat / 2 ^ low % 2 ^ width : Nat) : Int) =
      w / 2 ^ low % 2 ^ width := by
    rw [← hcut, Int.natCast_emod, Int.natCast_ediv, hw, Int.natCast_pow, Int.natCast_pow]
    rfl
  exact (congrArg Int.toNat hfield).symm

/-- The fields of an integer, in a record that keeps it whole. -/
theorem decode_eq (w : Int) :
    let v : Word := BitVec.ofInt 16 w
    decode w = ⟨w, .select v.family v.n v.nn, v.x, v.y, v.n, v.nn, v.nnn⟩ := by
  simp (disch := decide) only [decode, cut_eq_extract]
  rfl

/-- The instruction of a word has the operands that are in the digits of the word. -/
theorem Word.instruction_eq (w : Word) :
    w.instruction =
      (⟨w.toNat, .select w.family w.n w.nn, w.x, w.y, w.n, w.nn, w.nnn⟩ : Decoded).instruction := by
  rw [instruction, decode_eq, ofInt_toNat]

/-- Only words that are no instruction are kept, and as they are modulo `2 ^ 16`. -/
theorem Decoded.instruction_raw (d : Decoded) {raw : Int}
    (h : BitVec.ofInt 16 raw = BitVec.ofInt 16 d.raw) :
    ({ d with raw } : Decoded).instruction = d.instruction := by
  obtain ⟨_, operation, _, _, _, _, _⟩ := d
  cases operation with
  | unknown => exact congrArg Instruction.unknown h
  | _ => rfl

/-- A word may be any integer: it counts modulo `2 ^ 16`. -/
theorem instruction_decode (w : Int) :
    (decode w).instruction = Word.instruction (BitVec.ofInt 16 w) := by
  rw [Word.instruction_eq, decode_eq]
  exact Decoded.instruction_raw ⟨_, _, _, _, _, _, _⟩ (Word.ofInt_toNat _).symm

end Chip8
