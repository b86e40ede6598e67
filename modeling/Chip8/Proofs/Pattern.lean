import Chip8.Proofs.Instruction

/-!
# The digits of an instruction

`Encodes` lists the instruction set by the digits of its words: the family, and the nibbles that
hold operands or tell the instructions of a family apart. Every word is decoded to the instruction
whose digits it has, and to no other (`encodes_instruction`, `instruction_of_encodes`); a word that
has the digits of none (`Undefined`) is no instruction. A word may also be written nibble by nibble
(`nibbles`).
-/
namespace Chip8

/-- The low nibble of the words of an operation on two registers. -/
def Combination.digit : Combination → BitVec 4
  | .copy => 0x0
  | .or => 0x1
  | .and => 0x2
  | .xor => 0x3
  | .add => 0x4
  | .subtract => 0x5
  | .subtractFrom => 0x7

/-- The low nibble of the words of an operation on one register. -/
def Shift.digit : Shift → BitVec 4
  | .right => 0x6
  | .left => 0xE

namespace Word

/-- The words that no instruction has, by their digits. -/
def Undefined (w : Word) : Prop :=
  w.family = 0x0 ∧ w.nn ∉ [0x00#8, 0xE0#8, 0xEE#8] ∨
  w.family = 0x8 ∧ w.n ∉ [0x0#4, 0x1#4, 0x2#4, 0x3#4, 0x4#4, 0x5#4, 0x6#4, 0x7#4, 0xE#4] ∨
  w.family = 0xE ∧ w.nn ∉ [0x9E#8, 0xA1#8] ∨
  w.family = 0xF ∧
    w.nn ∉ [0x07#8, 0x0A#8, 0x15#8, 0x18#8, 0x1E#8, 0x29#8, 0x33#8, 0x55#8, 0x65#8]

/-- A word has the digits of an instruction. -/
def Encodes (w : Word) : Instruction → Prop
  | .halt => w.family = 0x0 ∧ w.nn = 0x00
  | .clearScreen => w.family = 0x0 ∧ w.nn = 0xE0
  | .returnFromCall => w.family = 0x0 ∧ w.nn = 0xEE
  | .jump target => w.family = 0x1 ∧ w.nnn = target
  | .call target => w.family = 0x2 ∧ w.nnn = target
  | .skipIf (.eqByte x b) => w.family = 0x3 ∧ w.x = x ∧ w.nn = b
  | .skipIf (.neByte x b) => w.family = 0x4 ∧ w.x = x ∧ w.nn = b
  | .skipIf (.eqRegister x y) => w.family = 0x5 ∧ w.x = x ∧ w.y = y
  | .loadByte x b => w.family = 0x6 ∧ w.x = x ∧ w.nn = b
  | .addByte x b => w.family = 0x7 ∧ w.x = x ∧ w.nn = b
  | .combine op x y => w.family = 0x8 ∧ w.n = op.digit ∧ w.x = x ∧ w.y = y
  | .shift op x => w.family = 0x8 ∧ w.n = op.digit ∧ w.x = x
  | .skipIf (.neRegister x y) => w.family = 0x9 ∧ w.x = x ∧ w.y = y
  | .loadIndex a => w.family = 0xA ∧ w.nnn = a
  | .jumpOffset target => w.family = 0xB ∧ w.nnn = target
  | .random x mask => w.family = 0xC ∧ w.x = x ∧ w.nn = mask
  | .draw x y height => w.family = 0xD ∧ w.x = x ∧ w.y = y ∧ w.n = height
  | .skipIf (.keyDown x) => w.family = 0xE ∧ w.nn = 0x9E ∧ w.x = x
  | .skipIf (.keyUp x) => w.family = 0xE ∧ w.nn = 0xA1 ∧ w.x = x
  | .loadDelay x => w.family = 0xF ∧ w.nn = 0x07 ∧ w.x = x
  | .awaitKey x => w.family = 0xF ∧ w.nn = 0x0A ∧ w.x = x
  | .setDelay x => w.family = 0xF ∧ w.nn = 0x15 ∧ w.x = x
  | .setSound x => w.family = 0xF ∧ w.nn = 0x18 ∧ w.x = x
  | .addIndex x => w.family = 0xF ∧ w.nn = 0x1E ∧ w.x = x
  | .loadGlyph x => w.family = 0xF ∧ w.nn = 0x29 ∧ w.x = x
  | .storeDecimal x => w.family = 0xF ∧ w.nn = 0x33 ∧ w.x = x
  | .storeRegisters => w.family = 0xF ∧ w.nn = 0x55
  | .loadRegisters => w.family = 0xF ∧ w.nn = 0x65
  | .unknown v => v = w ∧ w.Undefined

/-- A word that is written nibble by nibble has these nibbles. -/
theorem nibbles (f x y n : BitVec 4) :
    family (f ++ x ++ y ++ n) = f ∧ Word.x (f ++ x ++ y ++ n) = x ∧
      Word.y (f ++ x ++ y ++ n) = y ∧ Word.n (f ++ x ++ y ++ n) = n := by
  refine ⟨?_, ?_, ?_, ?_⟩
  all_goals
    apply BitVec.eq_of_getLsbD_eq
    intro i hi
    simp only [family, Word.x, Word.y, Word.n, BitVec.getLsbD_extractLsb', BitVec.getLsbD_append]
    grind

theorem nn_nibbles (f x y n : BitVec 4) : nn (f ++ x ++ y ++ n) = y ++ n := by
  apply BitVec.eq_of_getLsbD_eq
  intro i hi
  simp only [nn, BitVec.getLsbD_extractLsb', BitVec.getLsbD_append]
  grind

variable {w : Word}

theorem encodes_system (hf : w.family = 0x0) : w.Encodes w.instruction := by
  rw [instruction_eq, hf]
  change w.Encodes (Decoded.instruction ⟨_, .system w.nn, _, _, _, _, _⟩)
  unfold Operation.system
  split
  case h_1 h => exact ⟨hf, h⟩
  case h_2 h => exact ⟨hf, h⟩
  case h_3 h => exact ⟨hf, h⟩
  case h_4 h1 h2 h3 =>
    refine ⟨ofInt_toNat w, .inl ⟨hf, ?_⟩⟩
    simp only [List.mem_cons, List.not_mem_nil, or_false, not_or]
    exact ⟨h1, h2, h3⟩

theorem encodes_arithmetic (hf : w.family = 0x8) : w.Encodes w.instruction := by
  rw [instruction_eq, hf]
  change w.Encodes (Decoded.instruction ⟨_, .arithmetic w.n, _, _, _, _, _⟩)
  unfold Operation.arithmetic
  split
  case h_7 h => exact ⟨hf, h, rfl⟩
  case h_9 h => exact ⟨hf, h, rfl⟩
  case h_10 h1 h2 h3 h4 h5 h6 h7 h8 h9 =>
    refine ⟨ofInt_toNat w, .inr (.inl ⟨hf, ?_⟩)⟩
    simp only [List.mem_cons, List.not_mem_nil, or_false, not_or]
    exact ⟨h1, h2, h3, h4, h5, h6, h7, h8, h9⟩
  all_goals
    rename_i h
    exact ⟨hf, h, rfl, rfl⟩

theorem encodes_keypad (hf : w.family = 0xE) : w.Encodes w.instruction := by
  rw [instruction_eq, hf]
  change w.Encodes (Decoded.instruction ⟨_, .keypad w.nn, _, _, _, _, _⟩)
  unfold Operation.keypad
  split
  case h_1 h => exact ⟨hf, h, rfl⟩
  case h_2 h => exact ⟨hf, h, rfl⟩
  case h_3 h1 h2 =>
    refine ⟨ofInt_toNat w, .inr (.inr (.inl ⟨hf, ?_⟩))⟩
    simp only [List.mem_cons, List.not_mem_nil, or_false, not_or]
    exact ⟨h1, h2⟩

theorem encodes_transfer (hf : w.family = 0xF) : w.Encodes w.instruction := by
  rw [instruction_eq, hf]
  change w.Encodes (Decoded.instruction ⟨_, .transfer w.nn, _, _, _, _, _⟩)
  unfold Operation.transfer
  split
  case h_8 h => exact ⟨hf, h⟩
  case h_9 h => exact ⟨hf, h⟩
  case h_10 h1 h2 h3 h4 h5 h6 h7 h8 h9 =>
    refine ⟨ofInt_toNat w, .inr (.inr (.inr ⟨hf, ?_⟩))⟩
    simp only [List.mem_cons, List.not_mem_nil, or_false, not_or]
    exact ⟨h1, h2, h3, h4, h5, h6, h7, h8, h9⟩
  all_goals
    rename_i h
    exact ⟨hf, h, rfl⟩

/-- A word is decoded to the instruction whose digits it has. -/
theorem encodes_instruction (w : Word) : w.Encodes w.instruction := by
  by_cases h0 : w.family = 0x0
  · exact encodes_system h0
  by_cases h8 : w.family = 0x8
  · exact encodes_arithmetic h8
  by_cases hE : w.family = 0xE
  · exact encodes_keypad hE
  by_cases hF : w.family = 0xF
  · exact encodes_transfer hF
  -- the other families are one instruction each
  rw [instruction_eq]
  unfold Operation.select
  split
  case h_1 hf => exact absurd hf h0
  case h_9 hf => exact absurd hf h8
  case h_15 hf => exact absurd hf hE
  case h_2 hf | h_3 hf | h_11 hf | h_12 hf => exact ⟨hf, rfl⟩
  case h_14 hf => exact ⟨hf, rfl, rfl, rfl⟩
  case h_16 =>
    refine absurd ?_ hF
    generalize w.family = f at *
    revert f
    decide
  all_goals
    rename_i hf
    exact ⟨hf, rfl, rfl⟩

theorem select_of_undefined (h : w.Undefined) :
    Operation.select w.family w.n w.nn = .unknown := by
  rcases h with ⟨hf, hn⟩ | ⟨hf, hn⟩ | ⟨hf, hn⟩ | ⟨hf, hn⟩ <;> rw [hf]
  · change Operation.system w.nn = _
    unfold Operation.system
    split <;> simp_all
  · change Operation.arithmetic w.n = _
    unfold Operation.arithmetic
    split <;> simp_all
  · change Operation.keypad w.nn = _
    unfold Operation.keypad
    split <;> simp_all
  · change Operation.transfer w.nn = _
    unfold Operation.transfer
    split <;> simp_all

/-- Nothing but the digits of a word decides on its instruction. -/
theorem instruction_of_encodes {i : Instruction} (h : w.Encodes i) : w.instruction = i := by
  rw [instruction_eq]
  cases i with
  | halt | clearScreen | returnFromCall | storeRegisters | loadRegisters =>
    obtain ⟨hf, hn⟩ := h
    rw [hf, hn]
    rfl
  | jump a | call a | loadIndex a | jumpOffset a =>
    obtain ⟨hf, rfl⟩ := h
    rw [hf]
    rfl
  | loadByte x b | addByte x b | random x b =>
    obtain ⟨hf, rfl, rfl⟩ := h
    rw [hf]
    rfl
  | draw x y height =>
    obtain ⟨hf, rfl, rfl, rfl⟩ := h
    rw [hf]
    rfl
  | skipIf condition =>
    cases condition with
    | keyDown x | keyUp x =>
      obtain ⟨hf, hn, rfl⟩ := h
      rw [hf, hn]
      rfl
    | _ =>
      obtain ⟨hf, rfl, rfl⟩ := h
      rw [hf]
      rfl
  | combine op x y =>
    obtain ⟨hf, hn, rfl, rfl⟩ := h
    rw [hf, hn]
    cases op <;> rfl
  | shift op x =>
    obtain ⟨hf, hn, rfl⟩ := h
    rw [hf, hn]
    cases op <;> rfl
  | unknown v =>
    obtain ⟨rfl, hw⟩ := h
    rw [select_of_undefined hw]
    exact congrArg Instruction.unknown (ofInt_toNat v)
  | _ =>
    obtain ⟨hf, hn, rfl⟩ := h
    rw [hf, hn]
    rfl

end Word

end Chip8
