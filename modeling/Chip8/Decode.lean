import Chip8.Text.Number
import Chip8.Word

/-!
# Decoding

An instruction word is cut into fields, and tables name its operation: the high nibble tells the
families apart, and in four of them the low nibble or the low byte tells the operations apart. A
word that no table has is `UNKNOWN`. Words are integers of any size and sign; their fields are those
of the low 16 bits, and the word itself is kept as it came.

A handler is given the whole record (`Decoded`), and the text of a word is written from it. Each
operation has a template of text that shows some of the fields (`Operation.template`). Whether the
others matter is not said here.
-/
namespace Chip8

/-- The documented operations, in the order of their numbers. -/
inductive Operation where
  /-- Stop: `0N00`. -/
  | halt
  /-- Turn all pixels off: `0NE0`. -/
  | clearScreen
  /-- Go on behind the last call: `0NEE`. -/
  | returnFromCall
  /-- Go to an address: `1NNN`. -/
  | jump
  /-- Call the subroutine at an address: `2NNN`. -/
  | call
  /-- Skip the next instruction if a register is a byte: `3XNN`. -/
  | skipEqByte
  /-- Skip the next instruction if a register is not a byte: `4XNN`. -/
  | skipNeByte
  /-- Skip the next instruction if two registers are equal: `5XY_`. -/
  | skipEqReg
  /-- Load a byte into a register: `6XNN`. -/
  | loadByte
  /-- Add a byte to a register: `7XNN`. -/
  | addByte
  /-- Load a register into another: `8XY0`. -/
  | loadReg
  /-- Bitwise or: `8XY1`. -/
  | or
  /-- Bitwise and: `8XY2`. -/
  | and
  /-- Bitwise exclusive or: `8XY3`. -/
  | xor
  /-- Add with carry: `8XY4`. -/
  | addReg
  /-- Subtract the second register from the first: `8XY5`. -/
  | subReg
  /-- Shift the first register right: `8XY6`. -/
  | shiftRight
  /-- Subtract the first register from the second: `8XY7`. -/
  | subnReg
  /-- Shift the first register left: `8XYE`. -/
  | shiftLeft
  /-- Skip the next instruction if two registers differ: `9XY_`. -/
  | skipNeReg
  /-- Load an address into the index: `ANNN`. -/
  | loadIndex
  /-- Go to an address plus register 0: `BNNN`. -/
  | jumpV0
  /-- Load a random byte under a mask: `CXNN`. -/
  | random
  /-- Draw a sprite: `DXYN`. -/
  | draw
  /-- Skip the next instruction if a key is down: `EX9E`. -/
  | skipKeyPressed
  /-- Skip the next instruction if a key is up: `EXA1`. -/
  | skipKeyNotPressed
  /-- Load the delay timer: `FX07`. -/
  | loadDelay
  /-- Load a key, or wait for one: `FX0A`. -/
  | loadKey
  /-- Set the delay timer: `FX15`. -/
  | setDelay
  /-- Set the sound timer: `FX18`. -/
  | setSound
  /-- Add a register to the index: `FX1E`. -/
  | addIndex
  /-- Point the index at a glyph: `FX29`. -/
  | loadFont
  /-- Store the decimal digits of a register: `FX33`. -/
  | storeBcd
  /-- Store all registers: `FX55`. -/
  | storeRegisters
  /-- Load all registers: `FX65`. -/
  | loadRegisters
  /-- Any other word. -/
  | unknown
  deriving DecidableEq, Repr

namespace Operation

/-- The place in the catalogue. -/
def code (o : Operation) : Nat := o.ctorIdx

def name : Operation → String
  | halt => "HALT"
  | clearScreen => "CLEAR_SCREEN"
  | returnFromCall => "RETURN"
  | jump => "JUMP"
  | call => "CALL"
  | skipEqByte => "SKIP_EQ_BYTE"
  | skipNeByte => "SKIP_NE_BYTE"
  | skipEqReg => "SKIP_EQ_REG"
  | loadByte => "LOAD_BYTE"
  | addByte => "ADD_BYTE"
  | loadReg => "LOAD_REG"
  | or => "OR"
  | and => "AND"
  | xor => "XOR"
  | addReg => "ADD_REG"
  | subReg => "SUB_REG"
  | shiftRight => "SHIFT_RIGHT"
  | subnReg => "SUBN_REG"
  | shiftLeft => "SHIFT_LEFT"
  | skipNeReg => "SKIP_NE_REG"
  | loadIndex => "LOAD_INDEX"
  | jumpV0 => "JUMP_V0"
  | random => "RANDOM"
  | draw => "DRAW"
  | skipKeyPressed => "SKIP_KEY_PRESSED"
  | skipKeyNotPressed => "SKIP_KEY_NOT_PRESSED"
  | loadDelay => "LOAD_DELAY"
  | loadKey => "LOAD_KEY"
  | setDelay => "SET_DELAY"
  | setSound => "SET_SOUND"
  | addIndex => "ADD_INDEX"
  | loadFont => "LOAD_FONT"
  | storeBcd => "STORE_BCD"
  | storeRegisters => "STORE_REGISTERS"
  | loadRegisters => "LOAD_REGISTERS"
  | unknown => "UNKNOWN"

/-! ## Tables -/

/-- The system family by its low byte alone, so every `0N00` halts. -/
def system : Byte → Operation
  | 0x00 => halt
  | 0xE0 => clearScreen
  | 0xEE => returnFromCall
  | _ => unknown

/-- The arithmetic family by its low nibble. -/
def arithmetic : BitVec 4 → Operation
  | 0x0 => loadReg
  | 0x1 => or
  | 0x2 => and
  | 0x3 => xor
  | 0x4 => addReg
  | 0x5 => subReg
  | 0x6 => shiftRight
  | 0x7 => subnReg
  | 0xE => shiftLeft
  | _ => unknown

/-- The key family by its low byte. -/
def keypad : Byte → Operation
  | 0x9E => skipKeyPressed
  | 0xA1 => skipKeyNotPressed
  | _ => unknown

/-- The family of timers, keys and memory transfers by its low byte. -/
def transfer : Byte → Operation
  | 0x07 => loadDelay
  | 0x0A => loadKey
  | 0x15 => setDelay
  | 0x18 => setSound
  | 0x1E => addIndex
  | 0x29 => loadFont
  | 0x33 => storeBcd
  | 0x55 => storeRegisters
  | 0x65 => loadRegisters
  | _ => unknown

/-- The operation of a word with a high nibble, a low nibble and a low byte (`decode_operation`). -/
def select (family n : BitVec 4) (nn : Byte) : Operation :=
  match family with
  | 0x0 => system nn
  | 0x1 => jump
  | 0x2 => call
  | 0x3 => skipEqByte
  | 0x4 => skipNeByte
  | 0x5 => skipEqReg
  | 0x6 => loadByte
  | 0x7 => addByte
  | 0x8 => arithmetic n
  | 0x9 => skipNeReg
  | 0xA => loadIndex
  | 0xB => jumpV0
  | 0xC => random
  | 0xD => draw
  | 0xE => keypad nn
  | _ => transfer nn

end Operation

/-! ## Records -/

/-- The operation and the operands of a word (`DecodedInstruction`). -/
structure Decoded where
  /-- The word as it came. -/
  raw : Int
  operation : Operation
  /-- The second nibble: a register. -/
  x : Register
  /-- The third nibble: a register. -/
  y : Register
  /-- The low nibble. -/
  n : BitVec 4
  /-- The low byte. -/
  nn : Byte
  /-- The low 12 bits: an address. -/
  nnn : Address
  deriving DecidableEq, Repr

/-- The bits of a word from bit `low` on. -/
def cut (width low : Nat) (word : Int) : BitVec width := BitVec.ofInt width (word >>> low)

/-- The record of a word (`decode`). -/
def decode (word : Int) : Decoded where
  raw := word
  operation := .select (cut 4 12 word) (cut 4 0 word) (cut 8 0 word)
  x := cut 4 8 word
  y := cut 4 4 word
  n := cut 4 0 word
  nn := cut 8 0 word
  nnn := cut 12 0 word

/-! ## Text -/

/-- The fields that a text may show. -/
inductive Slot where
  | raw
  | x
  | y
  | n
  | nn
  | nnn
  deriving DecidableEq, Repr

/-- A part of a text: characters, or a field in its place. -/
inductive Piece where
  | chars (s : String)
  | slot (f : Slot)
  deriving DecidableEq, Repr

open Piece Slot in
/-- The text of an operation, with fields in their places (`_MNEMONICS`). -/
def Operation.template : Operation → List Piece
  | halt => [chars "HLT"]
  | clearScreen => [chars "CLS"]
  | returnFromCall => [chars "RET"]
  | jump => [chars "JP 0x", slot nnn]
  | call => [chars "CALL 0x", slot nnn]
  | skipEqByte => [chars "SE V", slot x, chars ", 0x", slot nn]
  | skipNeByte => [chars "SNE V", slot x, chars ", 0x", slot nn]
  | skipEqReg => [chars "SE V", slot x, chars ", V", slot y]
  | loadByte => [chars "LD V", slot x, chars ", 0x", slot nn]
  | addByte => [chars "ADD V", slot x, chars ", 0x", slot nn]
  | loadReg => [chars "LD V", slot x, chars ", V", slot y]
  | or => [chars "OR V", slot x, chars ", V", slot y]
  | and => [chars "AND V", slot x, chars ", V", slot y]
  | xor => [chars "XOR V", slot x, chars ", V", slot y]
  | addReg => [chars "ADD V", slot x, chars ", V", slot y]
  | subReg => [chars "SUB V", slot x, chars ", V", slot y]
  | shiftRight => [chars "SHR V", slot x]
  | subnReg => [chars "SUBN V", slot x, chars ", V", slot y]
  | shiftLeft => [chars "SHL V", slot x]
  | skipNeReg => [chars "SNE V", slot x, chars ", V", slot y]
  | loadIndex => [chars "LD I, 0x", slot nnn]
  | jumpV0 => [chars "JP V0, 0x", slot nnn]
  | random => [chars "RND V", slot x, chars ", 0x", slot nn]
  | draw => [chars "DRW V", slot x, chars ", V", slot y, chars ", ", slot n]
  | skipKeyPressed => [chars "SKP V", slot x]
  | skipKeyNotPressed => [chars "SKNP V", slot x]
  | loadDelay => [chars "LD V", slot x, chars ", DT"]
  | loadKey => [chars "LD V", slot x, chars ", K"]
  | setDelay => [chars "LD DT, V", slot x]
  | setSound => [chars "LD ST, V", slot x]
  | addIndex => [chars "ADD I, V", slot x]
  | loadFont => [chars "LD F, V", slot x]
  | storeBcd => [chars "LD B, V", slot x]
  | storeRegisters => [chars "LD [I], VF"]
  | loadRegisters => [chars "LD VF, [I]"]
  | unknown => [chars "??? 0x", slot raw]

namespace Decoded

/-- The number in a field. -/
def value (d : Decoded) : Slot → Int
  | .raw => d.raw
  | .x => d.x.toNat
  | .y => d.y.toNat
  | .n => d.n.toNat
  | .nn => d.nn.toNat
  | .nnn => d.nnn.toNat

/-- A piece as it is written: numbers are hexadecimal with all their digits, but for the height of a
sprite, which is decimal. -/
def write (d : Decoded) : Piece → String
  | .chars s => s
  | .slot f =>
    match f with
    | .raw => Hex.text 4 (d.value f)
    | .x | .y => Hex.text 1 (d.value f)
    | .n => Nat.repr d.n.toNat
    | .nn => Hex.text 2 (d.value f)
    | .nnn => Hex.text 3 (d.value f)

/-- The text of a record. -/
def text (d : Decoded) : String := String.join (d.operation.template.map d.write)

end Decoded

/-- The assembly text of a word, which counts modulo `2 ^ 16` (`mnemonic`). -/
def mnemonic (word : Int) : String := (decode (word % 0x10000)).text

/-- The assembly text of a word that was fetched. -/
def Word.text (w : Word) : String := mnemonic w.toNat

end Chip8
