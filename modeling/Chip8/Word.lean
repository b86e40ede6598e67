/-!
# Machine words

The machine computes on bytes, holds addresses and instructions in 16-bit words, addresses its
memory with 12 bits and names registers and keys with 4. Arithmetic on each wraps at its width, and
an address is kept by the word that holds it (`address_word`). A block of cells that starts at a
word goes around the end of memory (`offset_lt_iff`).
-/
namespace Chip8

abbrev Byte := BitVec 8
abbrev Word := BitVec 16
abbrev Address := BitVec 12
abbrev Register := BitVec 4
abbrev Key := BitVec 4

/-- The memory cell that a word points at: its low 12 bits. -/
def Word.address (w : Word) : Address := w.setWidth 12

/-- The word that holds an address. -/
def Address.word (a : Address) : Word := a.setWidth 16

@[simp] theorem Address.address_word (a : Address) : Word.address (Address.word a) = a := by
  apply BitVec.eq_of_toNat_eq
  simp only [Word.address, Address.word, BitVec.toNat_setWidth]
  omega

theorem Address.toNat_word (a : Address) : (Address.word a).toNat = a.toNat := by
  have := a.isLt
  simp only [Address.word, BitVec.toNat_setWidth]
  omega

theorem Address.word_toNat_lt (a : Address) : (Address.word a).toNat < 4096 := by
  rw [Address.toNat_word]
  exact a.isLt

/-- An address that is counted from a word, around the end of memory. -/
theorem Word.toNat_address_add (w : Word) (k : Nat) :
    (w.address + BitVec.ofNat 12 k).toNat = (w.toNat + k) % 4096 := by
  simp only [address, BitVec.toNat_add, BitVec.toNat_setWidth, BitVec.toNat_ofNat]
  omega

/-- The block of `n` cells from a word on, around the end of memory. -/
theorem Word.offset_lt_iff (w : Word) (a : Address) {n : Nat} (h : n ≤ 4096) :
    (a - w.address).toNat < n ↔ ∃ k < n, a.toNat = (w.toNat + k) % 4096 := by
  have ha := a.isLt
  have hoffset : (a - w.address).toNat = (4096 - w.toNat % 4096 + a.toNat) % 4096 := by
    rw [BitVec.toNat_sub, address, BitVec.toNat_setWidth]
  rw [hoffset]
  constructor
  · intro hk
    exact ⟨_, hk, by omega⟩
  · rintro ⟨k, hk, hak⟩
    omega

theorem Address.toNat_add_sub (a : Address) {k : Nat} (hk : k < 4096) :
    (a + BitVec.ofNat 12 k - a).toNat = k := by
  rw [BitVec.add_comm, BitVec.add_sub_cancel, BitVec.toNat_ofNat, Nat.mod_eq_of_lt hk]

theorem Address.add_offset (a i : Address) : a + BitVec.ofNat 12 (i - a).toNat = i := by
  rw [BitVec.ofNat_toNat, BitVec.setWidth_eq, BitVec.add_comm, BitVec.sub_add_cancel]

/-- An address that is not the first of a block is one step closer to the second. -/
theorem Address.toNat_sub_succ {a i : Address} (h : i ≠ a) :
    (i - a).toNat = (i - (a + 1)).toNat + 1 := by
  have hi := i.isLt
  have ha := a.isLt
  have hone : (1 : Address).toNat = 1 := rfl
  have hne : i.toNat ≠ a.toNat := fun hn => h (BitVec.eq_of_toNat_eq hn)
  rw [BitVec.toNat_sub, BitVec.toNat_sub, BitVec.toNat_add]
  omega

/-- The flag value of a truth value: one or zero. -/
def Byte.ofFlag (b : Bool) : Byte := if b then 1 else 0

/-- The register that receives carries, borrows and collisions. -/
def Register.flag : Register := 15

/-!
## Byte arithmetic

The operations of the arithmetic unit on bytes. Each gives a byte and, if it has one, the flag that
tells what the byte has lost: the carry of a sum, the absence of a borrow of a difference, the bit
that a shift has moved out.
-/

/-- The result of an operation, with the flag it sets if it sets one. -/
structure Flagged where
  value : Byte
  flag : Option Bool
  deriving DecidableEq, Repr

/-- An operation on two registers. -/
inductive Combination where
  | copy
  | or
  | and
  | xor
  | add
  | subtract
  /-- The second operand less the first. -/
  | subtractFrom
  deriving DecidableEq, Repr

/-- An operation on one register. -/
inductive Shift where
  | right
  | left
  deriving DecidableEq, Repr

/-- A difference, with the flag set when nothing is borrowed. -/
def difference (a b : Byte) : Flagged := ⟨a - b, some (b ≤ a)⟩

/-- The result of an operation on two bytes (`alu_set`, `alu_or`, `alu_and`, `alu_xor`, `alu_add`,
`alu_sub_xy`, `alu_sub_yx`). -/
def Combination.apply (a b : Byte) : Combination → Flagged
  | .copy => ⟨b, none⟩
  | .or => ⟨a ||| b, none⟩
  | .and => ⟨a &&& b, none⟩
  | .xor => ⟨a ^^^ b, none⟩
  | .add => ⟨a + b, some (255 < a.toNat + b.toNat)⟩
  | .subtract => difference a b
  | .subtractFrom => difference b a

/-- The result of a shift (`alu_shift_right`, `alu_shift_left`). -/
def Shift.apply (a : Byte) : Shift → Flagged
  | .right => ⟨a >>> 1, some (a.getLsbD 0)⟩
  | .left => ⟨a <<< 1, some a.msb⟩

end Chip8
