import Chip8.Proofs.Execute
import Chip8.Proofs.Hexadecimal

/-!
# Reading assembly text

The text of an instruction is a name and operands (`Form`). The name goes up to the first blank, and
commas part the operands behind it. An operand is told by how it begins, and a hexadecimal number by
how many digits it has: two are a byte, three an address, four a word. So an operand is read back as
what it was written from (`Operand.read_text`), a form too (`Form.read_text`), and then name and
operands tell the instruction (`Instruction.read?_text`).

The text of a word is written from its record, by the template of its operation. It is the text of
the instruction of the record (`Decoded.text_eq`), whatever is in the fields that the template
leaves out. Handlers do not look at these fields either (`Machine.handler_eq_perform`), so words
with the same text do the same thing (`execute_eq_of_text`).
-/
namespace Chip8

/-- What is named in place of a register or a number. -/
inductive Place where
  | index
  | delay
  | sound
  | key
  | glyph
  | decimal
  /-- The memory from the index on. -/
  | block
  deriving DecidableEq, Repr

def Place.name : Place → String
  | index => "I"
  | delay => "DT"
  | sound => "ST"
  | key => "K"
  | glyph => "F"
  | decimal => "B"
  | block => "[I]"

inductive Operand where
  | register (x : Register)
  | byte (b : Byte)
  | address (a : Address)
  | word (w : Word)
  /-- The height of a sprite. -/
  | height (n : BitVec 4)
  | place (p : Place)
  deriving DecidableEq, Repr

namespace Operand

def text : Operand → String
  | register x => "V" ++ Hex.text 1 x.toNat
  | byte b => "0x" ++ Hex.text 2 b.toNat
  | address a => "0x" ++ Hex.text 3 a.toNat
  | word w => "0x" ++ Hex.text 4 w.toNat
  | height n => Nat.repr n.toNat
  | place p => p.name

/-- The number of hexadecimal digits, told apart by how many they are. -/
def ofDigits (cs : List Char) : Operand :=
  match cs.length with
  | 2 => byte (BitVec.ofNat 8 (Hex.value cs))
  | 3 => address (BitVec.ofNat 12 (Hex.value cs))
  | _ => word (BitVec.ofNat 16 (Hex.value cs))

/-- The operand of a text. -/
def read : List Char → Operand
  | ['I'] => place .index
  | ['D', 'T'] => place .delay
  | ['S', 'T'] => place .sound
  | ['K'] => place .key
  | ['F'] => place .glyph
  | ['B'] => place .decimal
  | ['[', 'I', ']'] => place .block
  | 'V' :: cs => register (BitVec.ofNat 4 (Hex.value cs))
  | '0' :: 'x' :: cs => ofDigits cs
  | cs => height (BitVec.ofNat 4 (Nat.ofDigitChars 10 cs 0))

theorem read_text (o : Operand) : read o.text.toList = o := by
  cases o with
  | register x => simp [text, Hex.text, read]
  | byte b =>
    have hlen : (Hex.chars 2 b.toNat).length = 2 := Hex.length_chars (by decide) b.isLt
    simp [text, Hex.text, read, ofDigits, hlen]
  | address a =>
    have hlen : (Hex.chars 3 a.toNat).length = 3 := Hex.length_chars (by decide) a.isLt
    simp [text, Hex.text, read, ofDigits, hlen]
  | word w =>
    have hlen : (Hex.chars 4 w.toNat).length = 4 := Hex.length_chars (by decide) w.isLt
    simp [text, Hex.text, read, ofDigits, hlen]
  | height n =>
    revert n
    decide +kernel
  | place p => cases p <;> decide +kernel

/-- There is no comma in an operand. -/
theorem not_comma (o : Operand) : ',' ∉ o.text.toList := by
  have hdigits {w n : Nat} : ',' ∉ Hex.chars w n := Hex.not_mem_chars (by decide)
  cases o with
  | register x => simp [text, Hex.text, hdigits]
  | byte b => simp [text, Hex.text, hdigits]
  | address a => simp [text, Hex.text, hdigits]
  | word w => simp [text, Hex.text, hdigits]
  | height n =>
    revert n
    decide +kernel
  | place p => cases p <;> decide +kernel

end Operand

/-- The parts of a text between commas, each of which a blank follows. -/
def parts : List Char → List (List Char)
  | [] => [[]]
  | ',' :: ' ' :: cs => [] :: parts cs
  | c :: cs => (parts cs).modifyHead (c :: ·)

theorem parts_append {l : List Char} (h : ',' ∉ l) (rest : List Char) :
    parts (l ++ ',' :: ' ' :: rest) = l :: parts rest := by
  induction l with
  | nil => rw [List.nil_append, parts]
  | cons c l ih =>
    rw [List.mem_cons, not_or] at h
    rw [List.cons_append, parts, ih h.2]
    · rfl
    · intro cs hc
      exact absurd hc.symm h.1

theorem parts_of_not_comma {l : List Char} (h : ',' ∉ l) : parts l = [l] := by
  induction l with
  | nil => rw [parts]
  | cons c l ih =>
    rw [List.mem_cons, not_or] at h
    rw [parts, ih h.2]
    · rfl
    · intro cs hc
      exact absurd hc.symm h.1

theorem parts_intercalate {ls : List (List Char)} (hne : ls ≠ []) (h : ∀ l ∈ ls, ',' ∉ l) :
    parts ([',', ' '].intercalate ls) = ls := by
  induction ls with
  | nil => exact absurd rfl hne
  | cons l ls ih =>
    obtain ⟨hl, hls⟩ := List.forall_mem_cons.mp h
    cases ls with
    | nil => simpa using parts_of_not_comma hl
    | cons k ls => simp [parts_append hl, ih (List.cons_ne_nil k ls) hls]

/-- A name with operands. -/
structure Form where
  name : String
  operands : List Operand
  deriving DecidableEq, Repr

namespace Form

/-- A name, and behind a blank the operands, if there are any. -/
def text : Form → String
  | ⟨name, []⟩ => name
  | ⟨name, operands⟩ => name ++ " " ++ ", ".intercalate (operands.map Operand.text)

/-- The character may stand in a name. -/
def inName (c : Char) : Bool := c != ' '

/-- The name of a text goes up to the first blank, and commas part the operands behind it. -/
def read (s : String) : Form :=
  ⟨String.ofList (s.toList.takeWhile inName),
    match s.toList.dropWhile inName with
    | [] => []
    | _ :: rest => (parts rest).map Operand.read⟩

/-- What follows the name in a text. -/
def tail : List Operand → List Char
  | [] => []
  | operands => ' ' :: [',', ' '].intercalate (operands.map fun o => o.text.toList)

theorem toList_text (f : Form) : f.text.toList = f.name.toList ++ tail f.operands := by
  obtain ⟨name, operands⟩ := f
  cases operands with
  | nil => simp [text, tail]
  | cons o operands =>
    simp only [text, String.toList_append, String.toList_intercalate,
      List.map_map, List.append_assoc, tail]
    rfl

theorem read_parts {operands : List Operand} (hne : operands ≠ []) :
    (parts ([',', ' '].intercalate (operands.map fun o => o.text.toList))).map Operand.read =
      operands := by
  rw [parts_intercalate]
  · rw [List.map_map]
    exact (List.map_congr_left fun o _ => o.read_text).trans (List.map_id _)
  · simpa using hne
  · intro l hl
    obtain ⟨o, -, rfl⟩ := List.mem_map.mp hl
    exact o.not_comma

/-- A text is read back if there is no blank in its name. -/
theorem read_text {f : Form} (h : ' ' ∉ f.name.toList) : read f.text = f := by
  have hname : ∀ c ∈ f.name.toList, inName c = true := by
    intro c hc
    have hne : c ≠ ' ' := fun e => h (e ▸ hc)
    simpa [inName] using hne
  obtain ⟨name, operands⟩ := f
  unfold read
  rw [toList_text, List.takeWhile_append_of_pos hname, List.dropWhile_append_of_pos hname]
  cases operands with
  | nil => simp [tail]
  | cons o operands =>
    have hblank : inName ' ' = false := rfl
    simpa [tail, hblank] using read_parts (List.cons_ne_nil o operands)

/-- The instruction of a name and operands, if they are those of one. The registers of a transfer of
all registers and of a jump with an offset are always the same, and not looked at. -/
def instruction? (f : Form) : Option Instruction :=
  match f.name, f.operands with
  | "HLT", [] => some .halt
  | "CLS", [] => some .clearScreen
  | "RET", [] => some .returnFromCall
  | "JP", [.address a] => some (.jump a)
  | "JP", [.register _, .address a] => some (.jumpOffset a)
  | "CALL", [.address a] => some (.call a)
  | "SE", [.register x, .byte b] => some (.skipIf (.eqByte x b))
  | "SE", [.register x, .register y] => some (.skipIf (.eqRegister x y))
  | "SNE", [.register x, .byte b] => some (.skipIf (.neByte x b))
  | "SNE", [.register x, .register y] => some (.skipIf (.neRegister x y))
  | "SKP", [.register x] => some (.skipIf (.keyDown x))
  | "SKNP", [.register x] => some (.skipIf (.keyUp x))
  | "LD", [.register x, .byte b] => some (.loadByte x b)
  | "LD", [.register x, .register y] => some (.combine .copy x y)
  | "LD", [.place .index, .address a] => some (.loadIndex a)
  | "LD", [.register x, .place .delay] => some (.loadDelay x)
  | "LD", [.register x, .place .key] => some (.awaitKey x)
  | "LD", [.place .delay, .register x] => some (.setDelay x)
  | "LD", [.place .sound, .register x] => some (.setSound x)
  | "LD", [.place .glyph, .register x] => some (.loadGlyph x)
  | "LD", [.place .decimal, .register x] => some (.storeDecimal x)
  | "LD", [.place .block, .register _] => some .storeRegisters
  | "LD", [.register _, .place .block] => some .loadRegisters
  | "ADD", [.register x, .byte b] => some (.addByte x b)
  | "ADD", [.register x, .register y] => some (.combine .add x y)
  | "ADD", [.place .index, .register x] => some (.addIndex x)
  | "OR", [.register x, .register y] => some (.combine .or x y)
  | "AND", [.register x, .register y] => some (.combine .and x y)
  | "XOR", [.register x, .register y] => some (.combine .xor x y)
  | "SUB", [.register x, .register y] => some (.combine .subtract x y)
  | "SUBN", [.register x, .register y] => some (.combine .subtractFrom x y)
  | "SHR", [.register x] => some (.shift .right x)
  | "SHL", [.register x] => some (.shift .left x)
  | "RND", [.register x, .byte b] => some (.random x b)
  | "DRW", [.register x, .register y, .height n] => some (.draw x y n)
  | "???", [.word w] => some (.unknown w)
  | _, _ => none

end Form

/-- The name of an operation on two registers. -/
def Combination.name : Combination → String
  | copy => "LD"
  | or => "OR"
  | and => "AND"
  | xor => "XOR"
  | add => "ADD"
  | subtract => "SUB"
  | subtractFrom => "SUBN"

namespace Instruction

/-- The name of an instruction with its operands. -/
def form : Instruction → Form
  | .halt => ⟨"HLT", []⟩
  | .clearScreen => ⟨"CLS", []⟩
  | .returnFromCall => ⟨"RET", []⟩
  | .jump a => ⟨"JP", [.address a]⟩
  | .call a => ⟨"CALL", [.address a]⟩
  | .skipIf (.eqByte x b) => ⟨"SE", [.register x, .byte b]⟩
  | .skipIf (.neByte x b) => ⟨"SNE", [.register x, .byte b]⟩
  | .skipIf (.eqRegister x y) => ⟨"SE", [.register x, .register y]⟩
  | .skipIf (.neRegister x y) => ⟨"SNE", [.register x, .register y]⟩
  | .skipIf (.keyDown x) => ⟨"SKP", [.register x]⟩
  | .skipIf (.keyUp x) => ⟨"SKNP", [.register x]⟩
  | .loadByte x b => ⟨"LD", [.register x, .byte b]⟩
  | .addByte x b => ⟨"ADD", [.register x, .byte b]⟩
  | .combine op x y => ⟨op.name, [.register x, .register y]⟩
  | .shift .right x => ⟨"SHR", [.register x]⟩
  | .shift .left x => ⟨"SHL", [.register x]⟩
  | .loadIndex a => ⟨"LD", [.place .index, .address a]⟩
  | .jumpOffset a => ⟨"JP", [.register 0, .address a]⟩
  | .random x mask => ⟨"RND", [.register x, .byte mask]⟩
  | .draw x y height => ⟨"DRW", [.register x, .register y, .height height]⟩
  | .loadDelay x => ⟨"LD", [.register x, .place .delay]⟩
  | .awaitKey x => ⟨"LD", [.register x, .place .key]⟩
  | .setDelay x => ⟨"LD", [.place .delay, .register x]⟩
  | .setSound x => ⟨"LD", [.place .sound, .register x]⟩
  | .addIndex x => ⟨"ADD", [.place .index, .register x]⟩
  | .loadGlyph x => ⟨"LD", [.place .glyph, .register x]⟩
  | .storeDecimal x => ⟨"LD", [.place .decimal, .register x]⟩
  | .storeRegisters => ⟨"LD", [.place .block, .register 15]⟩
  | .loadRegisters => ⟨"LD", [.register 15, .place .block]⟩
  | .unknown w => ⟨"???", [.word w]⟩

def text (i : Instruction) : String := i.form.text

theorem blank_form (i : Instruction) : ' ' ∉ i.form.name.toList := by
  cases i with
  | skipIf c => cases c <;> simp [form]
  | shift op x => cases op <;> simp [form]
  | combine op x y => cases op <;> simp [form, Combination.name]
  | _ => simp [form]

theorem instruction?_form (i : Instruction) : i.form.instruction? = some i := by
  cases i with
  | skipIf c => cases c <;> rfl
  | shift op x => cases op <;> rfl
  | combine op x y => cases op <;> rfl
  | _ => rfl

/-- The instruction of a text, if it is the text of one. -/
def read? (s : String) : Option Instruction := (Form.read s).instruction?

/-- What is written is read back. -/
theorem read?_text (i : Instruction) : read? i.text = some i := by
  rw [read?, text, Form.read_text (blank_form i), instruction?_form]

example : read? "DRW V1, VA, 12" = some (.draw 0x1 0xA 12) := by decide +kernel

theorem text_inj {i j : Instruction} : i.text = j.text ↔ i = j := by
  refine ⟨fun h => ?_, congrArg text⟩
  apply Option.some.inj
  rw [← read?_text i, h, read?_text]

end Instruction

/-! ## Texts of words -/

/-- What is written from the fields of a record is the text of its instruction, if a word that is no
instruction has four digits. -/
theorem Decoded.text_eq (d : Decoded) (h : (BitVec.ofInt 16 d.raw).toNat = d.raw) :
    d.text = d.instruction.text := by
  obtain ⟨raw, operation, x, y, n, nn, nnn⟩ := d
  have h0 : Hex.text 1 0 = "0" := by decide +kernel
  have hF : Hex.text 1 15 = "F" := by decide +kernel
  dsimp only at h
  apply String.toList_inj.mp
  -- the characters on both sides are the same, operation by operation
  cases operation <;>
    simp [text, instruction, Operation.template, write, value, String.join, Instruction.text,
      Instruction.form, Combination.name, Form.text, Operand.text, Place.name, h0, hF, h,
      -BitVec.toNat_ofInt]

/-- Words are written modulo `2 ^ 16`. -/
theorem mnemonic_eq (w : Int) : mnemonic w = (Word.instruction (BitVec.ofInt 16 w)).text := by
  have hraw : (BitVec.ofInt 16 (w % 0x10000)).toNat = w % 0x10000 := by
    rw [BitVec.toNat_ofInt]
    omega
  rw [mnemonic, Decoded.text_eq _ hraw, instruction_decode, Word.ofInt_emod]

namespace Machine

/-- **The text of a word tells what it does.** Words with the same text do the same thing to every
machine, whatever its source of random bytes and whatever is in the fields that the text leaves out.
Words are integers of any size and sign; one does what it does modulo `2 ^ 16`. -/
theorem execute_eq_of_text (w₁ w₂ : Int) :
    (mnemonic w₁ = mnemonic w₂ →
      ∀ (source : ByteSource) (m : Machine),
        m.handle source (.execute w₁) = m.handle source (.execute w₂)) ∧
    ∀ (source : ByteSource) (m : Machine) (w : Int),
      m.handle source (.execute w) = m.handle source (.execute (w % 0x10000)) := by
  refine ⟨fun h source m => ?_, fun source m w => ?_⟩
  · have hi : Word.instruction (BitVec.ofInt 16 w₁) = Word.instruction (BitVec.ofInt 16 w₂) := by
      rwa [mnemonic_eq, mnemonic_eq, Instruction.text_inj] at h
    rw [handle_execute, handle_execute, execute_eq, execute_eq, hi]
  · rw [handle_execute, handle_execute, Word.ofInt_emod]

/-- The second operand of a shift is not in its text. -/
theorem execute_eq_of_text_shift :
    mnemonic 0x8126 = mnemonic (0x81F6 - 0x30000) ∧
      decode 0x8126 ≠ decode (0x81F6 - 0x30000) ∧
      ∀ (source : ByteSource) (m : Machine),
        m.handle source (.execute 0x8126) = m.handle source (.execute (0x81F6 - 0x30000)) := by
  have h : mnemonic 0x8126 = mnemonic (0x81F6 - 0x30000) := by decide +kernel
  exact ⟨h, by decide +kernel, (execute_eq_of_text 0x8126 (0x81F6 - 0x30000)).1 h⟩

end Machine

end Chip8
