import Chip8.Bank
import Chip8.Word

/-!
# Frames

A picture of 64 columns and 32 rows of pixels that are on or off. A row is a 64-bit word whose most
significant bit is column 0. A frame is determined by its pixels (`ext`), and frames combine pixel
by pixel.
-/
namespace Chip8

structure Frame where
  rows : Bank 5 (BitVec 64)
  deriving DecidableEq, Repr

abbrev Column := BitVec 6
abbrev Row := BitVec 5

namespace Frame

def width : Nat := 64
def height : Nat := 32

/-- The frame with all pixels off (`create_frame`, `clear`). -/
def blank : Frame := ⟨.fill 0⟩

/-- Whether the pixel at a column and a row is on. -/
def pixel (f : Frame) (x : Column) (y : Row) : Bool := f.rows[y].getMsbD x.toNat

instance : XorOp Frame where
  xor f g := ⟨.ofFn fun y => f.rows[y] ^^^ g.rows[y]⟩

instance : AndOp Frame where
  and f g := ⟨.ofFn fun y => f.rows[y] &&& g.rows[y]⟩

@[ext] theorem ext {f g : Frame} (h : ∀ x y, f.pixel x y = g.pixel x y) : f = g := by
  obtain ⟨f⟩ := f
  obtain ⟨g⟩ := g
  congr 1
  apply Bank.ext
  intro y
  apply BitVec.eq_of_getMsbD_eq
  intro i hi
  simpa [pixel, Nat.mod_eq_of_lt hi] using h (BitVec.ofNat 6 i) y

@[simp] theorem pixel_blank (x : Column) (y : Row) : blank.pixel x y = false := by
  simp [pixel, blank]

@[simp] theorem pixel_xor (f g : Frame) (x : Column) (y : Row) :
    (f ^^^ g).pixel x y = (f.pixel x y ^^ g.pixel x y) := by
  change (Bank.ofFn fun y => f.rows[y] ^^^ g.rows[y] : Bank 5 (BitVec 64))[y].getMsbD x.toNat = _
  simp [pixel]

@[simp] theorem pixel_and (f g : Frame) (x : Column) (y : Row) :
    (f &&& g).pixel x y = (f.pixel x y && g.pixel x y) := by
  change (Bank.ofFn fun y => f.rows[y] &&& g.rows[y] : Bank 5 (BitVec 64))[y].getMsbD x.toNat = _
  simp [pixel]

end Frame

/-!
## Sprites

A sprite is a list of bytes, one for each row, drawn from its left end at the most significant bit.
It wraps around both edges of the frame. Drawing is exclusive or, so the pixels that were on in both
go dark; that there are any is a collision. `pixel_mask` says which bit of which byte a pixel shows.
-/

namespace Frame

/-- The number of rows of the highest sprite that an instruction draws. -/
def maxSpriteHeight : Nat := 15

/-- A row of eight pixels whose left end is at column `x`. -/
def spriteRow (x : Column) (bits : Byte) : BitVec 64 := (bits ++ 0#56).rotateRight x.toNat

/-- The pixels that a sprite covers when its upper left corner is at column `x` and row `y`
(`sprite_mask`). No more than 32 rows have a place. -/
def mask (x : Column) (y : Row) (sprite : List Byte) : Frame :=
  ⟨.ofFn fun j => (sprite[(j - y).toNat]?).elim 0 (spriteRow x)⟩

/-- The frame with a sprite drawn on it, the first part of `draw_sprite`. -/
def draw (f : Frame) (x : Column) (y : Row) (sprite : List Byte) : Frame := f ^^^ mask x y sprite

/-- Whether drawing the sprite turns a pixel off, the second part of `draw_sprite`. -/
def collides (f : Frame) (x : Column) (y : Row) (sprite : List Byte) : Bool :=
  f &&& mask x y sprite ≠ blank

/-- A pixel of a row of eight is the bit as far from its left end as the column is from `x`. -/
theorem getMsbD_spriteRow (x : Column) (bits : Byte) (i : Column) :
    (spriteRow x bits).getMsbD i.toNat = bits.getMsbD (i - x).toNat := by
  have hx := x.isLt
  have hi := i.isLt
  simp only [spriteRow, BitVec.getMsbD_rotateRight, BitVec.getMsbD_append, BitVec.toNat_sub]
  simp only [Nat.reducePow] at hx hi
  rw [Nat.mod_eq_of_lt hx]
  split
  · rename_i h
    have : (2 ^ 6 - x.toNat + i.toNat) % 2 ^ 6 = 64 + i.toNat - x.toNat := by omega
    grind
  · rename_i h
    have : (2 ^ 6 - x.toNat + i.toNat) % 2 ^ 6 = i.toNat - x.toNat := by omega
    grind

theorem pixel_mask (x : Column) (y : Row) (sprite : List Byte) (i : Column) (j : Row) :
    (mask x y sprite).pixel i j =
      (sprite[(j - y).toNat]?).elim false fun bits => bits.getMsbD (i - x).toNat := by
  simp only [pixel, mask, Bank.getElem_ofFn]
  cases sprite[(j - y).toNat]? with
  | none => simp
  | some bits => simp [getMsbD_spriteRow]

end Frame

end Chip8
