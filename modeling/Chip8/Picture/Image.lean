import Chip8.Picture.Raster
import Chip8.Program

/-!
# Images

A raster in colours, with every pixel drawn as a square block. An image is a list of columns, each a
list of colours from top to bottom. There is room for an image if there is room for its bytes
(`reserve_eq_ok_iff`).
-/
namespace Chip8

/-!
## Choosing a palette

A palette may be chosen by name or given as numbers: an array of shape (2, 3) of bytes, the colour
of the pixels that are off first.
-/

namespace Palette

/-- The colour of a pixel. -/
def colour (p : Palette) (lit : Bool) : Colour := if lit then p.on else p.off

/-- The palette of a name (`color_palette`). -/
def ofName (name : String) : Except Failure Palette :=
  match Scheme.ofName? name with
  | none => .error (.scheme name)
  | some scheme => .ok scheme.palette

/-- The palette of an array of numbers. An array that is ragged is refused first, then numbers that
are no bytes, then a wrong shape. -/
def ofNested (cells : Nested Int) : Except Failure Palette :=
  match cells.shape with
  | .error e => .error e
  | .ok shape =>
    match Byte.ofInts cells.leaves with
    | .error e => .error e
    | .ok bytes =>
      match shape, bytes with
      | [2, 3], [r, g, b, r', g', b'] => .ok ⟨⟨r, g, b⟩, ⟨r', g', b'⟩⟩
      | _, _ => .error (.paletteShape shape)

end Palette

/-- A palette, or the numbers that are to make one. -/
inductive Paint where
  | ready (p : Palette)
  | numbers (cells : Nested Int)
  deriving Repr

def Paint.palette : Paint → Except Failure Palette
  | ready p => .ok p
  | numbers cells => Palette.ofNested cells

/-! ## Magnified frames -/

abbrev Image := List (List Colour)

namespace Image

/-- Every element of a list, `k` times in a row. -/
def stretch {α : Type} (k : Nat) (l : List α) : List α := l.flatMap (List.replicate k)

/-- The image with each pixel drawn as a block of `k` by `k`. -/
def magnify (k : Nat) (image : Image) : Image := stretch k (image.map (stretch k))

/-- The image with one pixel for each pixel of a frame. -/
def ofPixels (p : Palette) (pixels : Pixels) : Image :=
  Column.all.map fun x => Row.all.map fun y => p.colour (pixels x y)

/-- Refuse a scale at which there is no room for an image. The columns are repeated first, and what
that makes is an array of its own. -/
def reserve (room : Room) (scale : Int) : Except Failure Unit :=
  if 0x8000000000000000 ≤ scale then .error .scaleSize
  else
    match room.check .channel [Frame.width * scale, Frame.height, 3] with
    | .error e => .error e
    | .ok () => room.check .channel [Frame.width * scale, Frame.height * scale, 3]

/-- The bytes of an image at a scale, three for each pixel. -/
def size (scale : Int) : Int := Frame.width * scale * (Frame.height * scale) * 3

/-- There is room for an image if there is room for its bytes. -/
theorem reserve_eq_ok_iff (room : Room) {scale : Int} (h : 1 ≤ scale) :
    reserve room scale = .ok () ↔ size scale ≤ room.bytes := by
  have hwidth : 0 < (Frame.width : Int) * scale := Int.mul_pos (by decide) (by omega)
  have hheight : 0 < (Frame.height : Int) * scale := Int.mul_pos (by decide) (by omega)
  have hcolumns := room.check_eq_ok_iff .channel hwidth (n := Frame.height) (k := 3) (by decide)
    (by decide)
  have himage := room.check_eq_ok_iff .channel hwidth hheight (k := 3) (by decide)
  constructor
  · intro hr
    simp only [reserve] at hr
    split at hr
    · contradiction
    · split at hr
      · contradiction
      · exact himage.1 hr
  · intro hs
    rw [size] at hs
    have hlt := room.bytes_lt
    have hscale : scale ≤ Frame.width * scale := by
      rw [show (Frame.width : Int) = 64 from rfl]
      omega
    have hcells : (Frame.width : Int) * scale ≤ Frame.width * scale * Frame.height :=
      Room.self_le_mul hwidth (by decide)
    have hle : (Frame.width : Int) * scale * Frame.height ≤
        Frame.width * scale * (Frame.height * scale) :=
      Int.mul_le_mul_of_nonneg_left (Room.self_le_mul (by decide) (by omega)) (by omega)
    have hc : room.check .channel [Frame.width * scale, Frame.height, 3] = .ok () :=
      hcolumns.2 (by omega)
    simp only [reserve, hc, himage.2 hs]
    exact if_neg (by omega)

theorem size_eq (scale : Int) : size scale = 6144 * (scale * scale) := by
  simp only [size, Frame.width, Frame.height]
  grind

/-- A smaller image takes no more bytes. -/
theorem size_le_size {a b : Int} (ha : 0 ≤ a) (h : a ≤ b) : size a ≤ size b := by
  have := Int.mul_le_mul h h ha (Int.le_trans ha h)
  rw [size_eq, size_eq]
  omega

/-- Draw a raster (`frame_to_rgb`). The scale is checked first, then the paint, then the raster, and
last whether there is room for the image. -/
def render (room : Room) (raster : Raster) (scale : Int) (paint : Paint) : Except Failure Image :=
  if scale < 1 then .error (.scale scale)
  else
    match paint.palette with
    | .error e => .error e
    | .ok p =>
      match raster.pixels with
      | .error e => .error e
      | .ok pixels => (reserve room scale).map fun _ => (ofPixels p pixels).magnify scale.toNat

end Image

end Chip8
