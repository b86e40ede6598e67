import Chip8.Proofs.Effect
import Chip8.Proofs.Pattern

/-!
# The rows of a sprite

An instruction that draws always reads as many bytes as the highest sprite has rows, around the end
of memory if need be. It draws all of them, but first it zeroes those beyond the height of its
sprite, and every one if the sprite does not fit in memory.

Rows of zeros are as good as rows that are missing: a mask depends only on what its rows are when
missing rows are taken as zero (`Frame.mask_congr`). The bytes of a sprite that fits lie before the
end of memory, so none of them is read from its start (`Core.bytes_eq_covered`). With both, an
instruction draws the bytes that its sprite covers and no others, or nothing at all
(`Machine.draw_of_execute`).
-/
namespace Chip8

namespace Frame

/-- A pixel of a mask is a bit of its row; rows that are missing are zero. -/
theorem pixel_mask_getD (x : Column) (y : Row) (sprite : List Byte) (i : Column) (j : Row) :
    (mask x y sprite).pixel i j = (sprite.getD (j - y).toNat 0).getMsbD (i - x).toNat := by
  rw [pixel_mask, List.getD_eq_getElem?_getD]
  cases sprite[(j - y).toNat]? with
  | none => simp
  | some bits => rfl

theorem mask_congr {sprite other : List Byte} (h : ∀ k, sprite.getD k 0 = other.getD k 0)
    (x : Column) (y : Row) : mask x y sprite = mask x y other := by
  ext i j
  rw [pixel_mask_getD, pixel_mask_getD, h]

theorem xor_blank (f : Frame) : f ^^^ blank = f := by
  ext i j
  simp

theorem and_blank (f : Frame) : f &&& blank = blank := by
  ext i j
  simp

theorem mask_nil (x : Column) (y : Row) : mask x y [] = blank := by
  ext i j
  rw [pixel_mask, pixel_blank]
  rfl

end Frame

namespace Core

/-- The bytes of memory from the index on that a sprite of a given height covers. -/
def covered (c : Core) (height : BitVec 4) : List Byte :=
  (c.memory.toList.drop c.index.toNat).take height.toNat

variable {c : Core} {height : BitVec 4}

/-- A block that fits is read without going around the end of memory. -/
theorem bytes_eq_covered (h : c.index.toNat + height.toNat ≤ 4096) :
    c.memory.bytes c.index.address height.toNat = c.covered height := by
  apply List.ext_getElem?
  intro k
  rw [Memory.getElem?_bytes, covered, List.getElem?_take]
  split
  · have haddress : (c.index.address + BitVec.ofNat 12 k).toNat = c.index.toNat + k := by
      rw [Word.toNat_address_add]
      omega
    rw [List.getElem?_drop, ← haddress, Bank.getElem?_toList]
  · rfl

theorem getD_sprite (c : Core) (height : BitVec 4) (k : Nat) :
    (c.sprite height).getD k 0 =
      if k < height.toNat ∧ c.index.toNat + height.toNat ≤ 4096 then
        c.memory[c.index.address + BitVec.ofNat 12 k]
      else 0 := by
  have hheight : height.toNat ≤ Frame.maxSpriteHeight := Nat.le_of_lt_succ height.isLt
  rw [sprite, List.getD_eq_getElem?_getD, List.getElem?_mapIdx, Memory.getElem?_bytes]
  by_cases hk : k < Frame.maxSpriteHeight
  · rw [if_pos hk]
    rfl
  · -- beyond the block that was read, which is no lower than the sprite
    rw [if_neg hk, if_neg (by omega)]
    rfl

/-- The rows of a sprite that fits are the bytes that it covers, and zeros. -/
theorem mask_sprite (h : c.index.toNat + height.toNat ≤ 4096) (x : Column) (y : Row) :
    Frame.mask x y (c.sprite height) = Frame.mask x y (c.covered height) := by
  rw [← bytes_eq_covered h]
  refine Frame.mask_congr (fun k => ?_) x y
  rw [getD_sprite, List.getD_eq_getElem?_getD, Memory.getElem?_bytes]
  by_cases hk : k < height.toNat
  · rw [if_pos ⟨hk, h⟩, if_pos hk]
    rfl
  · rw [if_neg fun hf => hk hf.1, if_neg hk]
    rfl

/-- The rows of a sprite that does not fit are zeros. -/
theorem mask_sprite_of_lt (h : 4096 < c.index.toNat + height.toNat) (x : Column) (y : Row) :
    Frame.mask x y (c.sprite height) = .blank := by
  rw [← Frame.mask_nil x y]
  refine Frame.mask_congr (fun k => ?_) x y
  rw [getD_sprite, if_neg (by omega)]
  rfl

end Core

namespace Word

/-- A word that draws names two registers and a height. -/
theorem instruction_draw (x y : Register) (height : BitVec 4) :
    instruction (0xD#4 ++ x ++ y ++ height) = .draw x y height := by
  obtain ⟨hf, hx, hy, hn⟩ := nibbles 0xD#4 x y height
  exact instruction_of_encodes ⟨hf, hx, hy, hn⟩

end Word

namespace Machine

/-- A word that draws changes the display, the flag register and the program counter. -/
theorem execute_draw (source : ByteSource) (m : Machine) {w : Word} {x y : Register}
    {height : BitVec 4} (hi : w.instruction = .draw x y height) :
    let column := m.core.registers[x].setWidth 6
    let row := m.core.registers[y].setWidth 5
    let sprite := m.core.sprite height
    m.execute source w =
      { m with
        display := m.display.draw column row sprite
        core.registers :=
          m.core.registers.set Register.flag (.ofFlag (m.display.collides column row sprite))
        core.pc := if m.stalled then m.core.pc else m.core.nextPc } := by
  intro column row sprite
  rw [execute_eq, hi]
  rfl

section
variable {source : ByteSource} {m : Machine} {w : Word} {x y : Register} {height : BitVec 4}

theorem display_of_draw (hi : w.instruction = .draw x y height) :
    (m.execute source w).display =
      m.display.draw (m.core.registers[x].setWidth 6) (m.core.registers[y].setWidth 5)
        (m.core.sprite height) := by
  rw [execute_draw source m hi]

theorem flag_of_draw (hi : w.instruction = .draw x y height) :
    (m.execute source w).core.registers[Register.flag] =
      .ofFlag (m.display.collides (m.core.registers[x].setWidth 6)
        (m.core.registers[y].setWidth 5) (m.core.sprite height)) := by
  rw [execute_draw source m hi]
  exact Bank.getElem_set_self ..

end

/-- **A sprite is the bytes that it covers.** A word that draws puts on the display what drawing
just these bytes puts there, at the place that its registers have named before, and their collision
goes into the flag register. A sprite that ends beyond memory leaves the display as it is and no
collision. Nothing else that the word could read or write changes. -/
theorem draw_of_execute (source : ByteSource) (m : Machine) {w : Int} {x y : Register}
    {height : BitVec 4} (hw : BitVec.ofInt 16 w = 0xD#4 ++ x ++ y ++ height) :
    let m' := m.handle source (.execute w)
    let column := m.core.registers[x].setWidth 6
    let row := m.core.registers[y].setWidth 5
    let rows := m.core.covered height
    (m.core.index.toNat + height.toNat ≤ 4096 →
      m'.display = m.display.draw column row rows ∧
      m'.core.registers[Register.flag] = .ofFlag (m.display.collides column row rows)) ∧
    (4096 < m.core.index.toNat + height.toNat →
      m'.display = m.display ∧ m'.core.registers[Register.flag] = 0) ∧
    (m'.core.registers[Register.flag] = 0 ∨ m'.core.registers[Register.flag] = 1) ∧
    (∀ r, r ≠ Register.flag → m'.core.registers[r] = m.core.registers[r]) ∧
    m'.core.memory = m.core.memory ∧ m'.core.index = m.core.index ∧
    m'.core.stack = m.core.stack := by
  intro m' column row rows
  have hi : Word.instruction (BitVec.ofInt 16 w) = .draw x y height :=
    (congrArg Word.instruction hw).trans (Word.instruction_draw x y height)
  have hexecute : m' = m.execute source (BitVec.ofInt 16 w) := m.handle_execute source w
  have hm' : m' = _ := hexecute.trans (execute_draw source m hi)
  have hdisplay : m'.display = m.display.draw column row (m.core.sprite height) := by
    rw [hexecute, display_of_draw hi]
  have hflag : m'.core.registers[Register.flag] =
      .ofFlag (m.display.collides column row (m.core.sprite height)) := by
    rw [hexecute, flag_of_draw hi]
  refine ⟨fun h => ?_, fun h => ?_, ?_, fun r hr => ?_, ?_, ?_, ?_⟩
  · rw [hdisplay, hflag, Frame.draw, Frame.collides, Core.mask_sprite h]
    exact ⟨rfl, rfl⟩
  · rw [hdisplay, hflag, Frame.draw, Frame.collides, Core.mask_sprite_of_lt h, Frame.xor_blank,
      Frame.and_blank]
    exact ⟨rfl, rfl⟩
  · rw [hflag]
    cases m.display.collides column row (m.core.sprite height) with
    | false => exact .inl rfl
    | true => exact .inr rfl
  · rw [hm']
    exact Bank.getElem_set_ne _ _ hr.symm
  · rw [hm']
  · rw [hm']
  · rw [hm']

/-- The flag register names both the column and the row. The sprite that ends at the last byte of
memory goes around two edges of the display and meets a pixel; with one row more it is not drawn. -/
theorem draw_of_execute_last_byte :
    let m : Machine :=
      { create ⟨0, 0⟩ with
        core.memory := Memory.blank.store 0xFFE [0xFF, 0x81]
        core.registers := (Bank.fill 0).set Register.flag 63
        core.index := 0xFFE
        display := Frame.blank.draw 6 0 [0x80] }
    let fits := m.handle (.constant 0) (.execute 0xDFF2)
    let beyond := m.handle (.constant 0) (.execute 0xDFF3)
    fits.display = m.display.draw 63 31 [0xFF, 0x81] ∧ fits.core.registers[Register.flag] = 1 ∧
      beyond.display = m.display ∧ beyond.core.registers[Register.flag] = 0 := by
  intro m fits beyond
  have h₂ : BitVec.ofInt 16 0xDFF2 = 0xD#4 ++ 0xF#4 ++ 0xF#4 ++ 0x2#4 := by decide
  have h₃ : BitVec.ofInt 16 0xDFF3 = 0xD#4 ++ 0xF#4 ++ 0xF#4 ++ 0x3#4 := by decide
  have hflag : m.core.registers[0xF#4] = 63 := Bank.getElem_set_self ..
  have hrows : m.core.covered 0x2#4 = [0xFF, 0x81] := by decide +kernel
  have hmeets : m.display.collides 63 31 [0xFF, 0x81] = true := by decide +kernel
  obtain ⟨hdraw, hcollision⟩ := (draw_of_execute (.constant 0) m h₂).1 (by decide)
  rw [hflag, hrows] at hdraw hcollision
  exact ⟨hdraw, hcollision.trans (congrArg Byte.ofFlag hmeets),
    (draw_of_execute (.constant 0) m h₃).2.1 (by decide)⟩

end Machine

end Chip8
