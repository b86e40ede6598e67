import Chip8.Bank
import Chip8.Word

/-!
# Memory

Four kibibytes. Blocks are read and written cell by cell and wrap around the end. A fresh memory
holds the glyphs of the sixteen digits from address 0 on, five rows each; programs start at 0x200.
`getElem_store` says what each cell holds after a block is written. A block can be read back
(`bytes_store`), and writing what has been read changes nothing (`store_bytes`).
-/
namespace Chip8

abbrev Memory := Bank 12 Byte

namespace Memory

/-- The glyphs of the digits `0` to `F`, five rows each. -/
def font : List Byte := [
  0xF0, 0x90, 0x90, 0x90, 0xF0,
  0x20, 0x60, 0x20, 0x20, 0x70,
  0xF0, 0x10, 0xF0, 0x80, 0xF0,
  0xF0, 0x10, 0xF0, 0x10, 0xF0,
  0x90, 0x90, 0xF0, 0x10, 0x10,
  0xF0, 0x80, 0xF0, 0x10, 0xF0,
  0xF0, 0x80, 0xF0, 0x90, 0xF0,
  0xF0, 0x10, 0x20, 0x40, 0x40,
  0xF0, 0x90, 0xF0, 0x90, 0xF0,
  0xF0, 0x90, 0xF0, 0x10, 0xF0,
  0xF0, 0x90, 0xF0, 0x90, 0x90,
  0xE0, 0x90, 0xE0, 0x90, 0xE0,
  0xF0, 0x80, 0x80, 0x80, 0xF0,
  0xE0, 0x90, 0x90, 0x90, 0xE0,
  0xF0, 0x80, 0xF0, 0x80, 0xF0,
  0xF0, 0x80, 0xF0, 0x80, 0x80]

/-- The number of rows of a glyph. -/
def glyphSize : Nat := 5

/-- Where programs start. -/
def programStart : Address := 0x200

/-- The number of bytes from the start of programs to the end of memory. -/
def programSpace : Nat := 4096 - 0x200

/-- The `n` bytes from `a` on (`read_block`). -/
def bytes (m : Memory) (a : Address) (n : Nat) : List Byte :=
  (List.range n).map fun k => m[a + BitVec.ofNat 12 k]

/-- The memory with the bytes written from `a` on, in order (`write_block`). -/
def store (m : Memory) (a : Address) : List Byte → Memory
  | [] => m
  | b :: bs => store (m.set a b) (a + 1) bs

/-- The memory with a program written at the start of programs. -/
def install (m : Memory) (program : List Byte) : Memory := m.store programStart program

/-- The memory of a machine that has loaded nothing: the font and zeros. -/
def blank : Memory := store (.fill 0) 0 font

@[simp] theorem length_bytes (m : Memory) (a : Address) (n : Nat) : (m.bytes a n).length = n := by
  simp [bytes]

theorem getElem?_bytes (m : Memory) (a : Address) (n k : Nat) :
    (m.bytes a n)[k]? = if k < n then some m[a + BitVec.ofNat 12 k] else none := by
  by_cases h : k < n
  · simp [bytes, h]
  · simp [bytes, h]

/-- A cell holds the byte that was stored in its place, or what it held before. -/
theorem getElem_store (m : Memory) (a i : Address) (bs : List Byte) (h : bs.length ≤ 4096) :
    (m.store a bs)[i] = (bs[(i - a).toNat]?).getD m[i] := by
  induction bs generalizing m a with
  | nil => simp [store]
  | cons b bs ih =>
    simp only [List.length_cons] at h
    rw [store, ih _ _ (by omega), Bank.getElem_set]
    by_cases e : i = a
    · subst e
      have : (i - (i + 1)).toNat = 4095 := by
        have hi := i.isLt
        have hone : (1 : Address).toNat = 1 := rfl
        rw [BitVec.toNat_sub, BitVec.toNat_add]
        omega
      rw [List.getElem?_eq_none (by omega)]
      simp
    · rw [Address.toNat_sub_succ e, if_neg (Ne.symm e), List.getElem?_cons_succ]

/-- The cell at an offset in the block that was stored, or beyond its end. -/
theorem getElem_store_add (m : Memory) (a : Address) (bs : List Byte) (h : bs.length ≤ 4096)
    {k : Nat} (hk : k < 4096) :
    (m.store a bs)[a + BitVec.ofNat 12 k] = (bs[k]?).getD m[a + BitVec.ofNat 12 k] := by
  rw [getElem_store _ _ _ _ h, Address.toNat_add_sub a hk]

/-- What was stored can be read back. -/
theorem bytes_store (m : Memory) (a : Address) (bs : List Byte) (h : bs.length ≤ 4096) :
    (m.store a bs).bytes a bs.length = bs := by
  apply List.ext_getElem?
  intro k
  rw [getElem?_bytes]
  split
  · rename_i hk
    rw [getElem_store_add _ _ _ h (by omega), List.getElem?_eq_getElem hk]
    rfl
  · rename_i hk
    rw [List.getElem?_eq_none (by omega)]

/-- Storing what is there changes nothing. -/
theorem store_bytes (m : Memory) (a : Address) {n : Nat} (h : n ≤ 4096) :
    m.store a (m.bytes a n) = m := by
  apply Bank.ext
  intro i
  rw [getElem_store _ _ _ _ (by rwa [length_bytes]), getElem?_bytes]
  split
  · rw [Address.add_offset]
    rfl
  · rfl

end Memory

end Chip8
