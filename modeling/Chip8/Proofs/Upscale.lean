import Chip8.Picture.Image
import Chip8.Proofs.PaletteArray
import Chip8.Proofs.Pieces

/-!
# Upscaling

At a scale of `k`, the pixel that is seen at a place of an image is found by dividing both
coordinates of the place by `k` (`Image.pixel?_magnify`). An image shows pixels in the colours of a
palette if it has the colour of that pixel everywhere (`Image.Shows`). If the two colours are not
the same, the pixels are read back from the corners of the blocks (`Image.Shows.read_eq`).

`Image.render_exact` says that images are exact at every scale for which there is room, however much
room there is, what is reported otherwise (`Image.Refused`), and how the images of a raster at two
scales are related.
-/
namespace Chip8

namespace Image

/-- The pixel of an image in a column and a row, counted from the upper left corner. -/
def pixel? (image : Image) (i j : Nat) : Option Colour := image[i]?.bind (·[j]?)

/-! ## Blocks of pixels -/

section
variable {α : Type} {k : Nat}

theorem length_stretch (l : List α) : (stretch k l).length = l.length * k :=
  length_flatMap_of_length fun _ _ => List.length_replicate

theorem getElem?_stretch (hk : 0 < k) (l : List α) (i : Nat) : (stretch k l)[i]? = l[i / k]? := by
  have hreplicate (a : α) : (List.replicate k a)[i % k]? = some a := by
    rw [List.getElem?_replicate, if_pos (Nat.mod_lt i hk)]
  rw [stretch, getElem?_flatMap_of_length (fun _ _ => List.length_replicate) hk]
  simp only [hreplicate, Option.bind_fun_some]

theorem pixel?_magnify (hk : 0 < k) (image : Image) (i j : Nat) :
    (magnify k image).pixel? i j = image.pixel? (i / k) (j / k) := by
  rw [pixel?, magnify, getElem?_stretch hk, List.getElem?_map, pixel?]
  cases image[i / k]? with
  | none => rfl
  | some column => exact getElem?_stretch hk column j

end

/-! ## What an image shows -/

/-- The image shows pixels at a scale in the colours of a palette. -/
structure Shows (image : Image) (k : Nat) (p : Palette) (pixels : Pixels) : Prop where
  columns : image.length = Frame.width * k
  rows : ∀ column ∈ image, column.length = Frame.height * k
  pixel : ∀ i < Frame.width * k, ∀ j < Frame.height * k,
    image.pixel? i j = some (p.colour (pixels (.ofNat 6 (i / k)) (.ofNat 5 (j / k))))

/-- The pixels of an image at a scale: a pixel is on if the corner of its block has that colour. -/
def read (p : Palette) (k : Nat) (image : Image) : Pixels := fun x y =>
  image.pixel? (x.toNat * k) (y.toNat * k) = some p.on

variable {k : Nat} {p : Palette} {pixels : Pixels}

theorem pixel?_ofPixels (x : Column) (y : Row) :
    (ofPixels p pixels).pixel? x.toNat y.toNat = some (p.colour (pixels x y)) := by
  rw [pixel?, ofPixels, List.getElem?_map, Column.getElem?_all, Option.map_some, Option.bind_some,
    List.getElem?_map, Row.getElem?_all, Option.map_some]

theorem shows_magnify (hk : 0 < k) : Shows ((ofPixels p pixels).magnify k) k p pixels where
  columns := by
    rw [magnify, length_stretch, List.length_map, ofPixels, List.length_map, Column.length_all]
    rfl
  rows := by
    intro column h
    obtain ⟨block, hblock, hcolumn⟩ := List.mem_flatMap.mp h
    obtain ⟨c, hc, rfl⟩ := List.mem_map.mp hblock
    obtain ⟨x, -, rfl⟩ := List.mem_map.mp hc
    rw [(List.mem_replicate.mp hcolumn).2, length_stretch, List.length_map, Row.length_all]
    rfl
  pixel := by
    intro i hi j hj
    have hx : (BitVec.ofNat 6 (i / k)).toNat = i / k :=
      Nat.mod_eq_of_lt ((Nat.div_lt_iff_lt_mul hk).mpr hi)
    have hy : (BitVec.ofNat 5 (j / k)).toNat = j / k :=
      Nat.mod_eq_of_lt ((Nat.div_lt_iff_lt_mul hk).mpr hj)
    rw [pixel?_magnify hk, ← pixel?_ofPixels, hx, hy]

/-- Pixels are read back in colours that are not the same. -/
theorem Shows.read_eq {image : Image} (h : Shows image k p pixels) (hk : 0 < k)
    (hne : p.off ≠ p.on) : image.read p k = pixels := by
  funext x y
  have hi : x.toNat * k < Frame.width * k := Nat.mul_lt_mul_of_pos_right x.isLt hk
  have hj : y.toNat * k < Frame.height * k := Nat.mul_lt_mul_of_pos_right y.isLt hk
  rw [read, h.pixel _ hi _ hj, Nat.mul_div_cancel _ hk, Nat.mul_div_cancel _ hk, BitVec.ofNat_toNat,
    BitVec.ofNat_toNat, BitVec.setWidth_eq, BitVec.setWidth_eq]
  cases pixels x y <;> simp [Palette.colour, hne]

/-- An image at a scale is the image at a divisor of the scale, with blocks of what is left. -/
theorem pixel?_magnify_mul {a b : Nat} (hab : 0 < a * b) (image : Image) (i j : Nat) :
    (magnify (a * b) image).pixel? i j = (magnify a image).pixel? (i / b) (j / b) := by
  rw [pixel?_magnify hab, pixel?_magnify (Nat.pos_of_mul_pos_right hab), Nat.div_div_eq_div_mul,
    Nat.div_div_eq_div_mul, Nat.mul_comm b a]

end Image

/-! ## Paint -/

namespace Paint

/-- The palette that a paint makes. -/
def Gives : Paint → Palette → Prop
  | ready q, p => p = q
  | numbers cells, p => cells = p.array

/-- The paint makes a palette. -/
def Fits : Paint → Prop
  | ready _ => True
  | numbers cells => cells.HasShape [2, 3] ∧ ∀ i ∈ cells.leaves, ¬ Byte.Beyond i

/-- Why a paint makes no palette, with what is reported. -/
def Unfit : Paint → Failure → Prop
  | ready _, _ => False
  | numbers cells, e => Palette.Unfit cells e

variable {paint : Paint}

theorem fits_iff : paint.Fits ↔ ∃ p, paint.Gives p := by
  cases paint with
  | ready q => exact iff_of_true trivial ⟨q, rfl⟩
  | numbers cells => exact Palette.exists_array_iff.symm

theorem palette_eq_ok_iff {p : Palette} : paint.palette = .ok p ↔ paint.Gives p := by
  cases paint with
  | ready q =>
    rw [palette, Except.ok.injEq]
    exact eq_comm
  | numbers cells => exact Palette.ofNested_eq_ok_iff

theorem palette_eq_error_iff {e : Failure} : paint.palette = .error e ↔ paint.Unfit e := by
  cases paint with
  | ready q => exact iff_of_false nofun id
  | numbers cells => exact Palette.ofNested_eq_error_iff

end Paint

/-! ## Rendering -/

namespace Image

variable {room : Room} {raster : Raster} {scale : Int} {paint : Paint} {p : Palette} {image : Image}

/-- Why no image is made, with what is reported. What is wrong with the scale comes before what is
wrong with the paint, then comes the raster, and last the room. -/
inductive Refused (room : Room) (raster : Raster) (scale : Int) (paint : Paint) :
    Failure → Prop where
  | scale (h : scale < 1) : Refused room raster scale paint (.scale scale)
  | paint {e : Failure} (h : 1 ≤ scale) (hpaint : paint.Unfit e) :
    Refused room raster scale paint e
  | raster {e : Failure} (h : 1 ≤ scale) (hpaint : paint.Fits) (hraster : raster.Unfit e) :
    Refused room raster scale paint e
  | room {e : Failure} (h : 1 ≤ scale) (hpaint : paint.Fits)
    (hraster : raster.HasShape Raster.frameShape) (hroom : reserve room scale = .error e) :
    Refused room raster scale paint e

theorem render_of_room (h : 1 ≤ scale) (hpaint : paint.Gives p)
    (hraster : raster.HasShape Raster.frameShape) (hroom : reserve room scale = .ok ()) :
    render room raster scale paint = .ok ((ofPixels p raster.pixel).magnify scale.toNat) := by
  have hp := Paint.palette_eq_ok_iff.mpr hpaint
  have hr := Raster.pixels_eq_ok_iff.mpr ⟨hraster, rfl⟩
  simp only [render, if_neg (Int.not_lt.mpr h), hp, hr, hroom]
  rfl

theorem render_of_refused {e : Failure} (h : Refused room raster scale paint e) :
    render room raster scale paint = .error e := by
  cases h with
  | scale h => exact if_pos h
  | paint h hpaint =>
    have hp := Paint.palette_eq_error_iff.mpr hpaint
    simp only [render, if_neg (Int.not_lt.mpr h), hp]
  | raster h hpaint hraster =>
    obtain ⟨p, hp⟩ := Paint.fits_iff.mp hpaint
    have hp := Paint.palette_eq_ok_iff.mpr hp
    have hr := Raster.pixels_eq_error_iff.mpr hraster
    simp only [render, if_neg (Int.not_lt.mpr h), hp, hr]
  | room h hpaint hraster hroom =>
    obtain ⟨p, hp⟩ := Paint.fits_iff.mp hpaint
    have hp := Paint.palette_eq_ok_iff.mpr hp
    have hr := Raster.pixels_eq_ok_iff.mpr ⟨hraster, rfl⟩
    simp only [render, if_neg (Int.not_lt.mpr h), hp, hr, hroom]
    rfl

/-- Where nothing is wrong, there is a palette, a frame and room. -/
theorem room_or_refused (room : Room) (raster : Raster) (scale : Int) (paint : Paint) :
    (1 ≤ scale ∧ (∃ p, paint.Gives p) ∧ raster.HasShape Raster.frameShape ∧
        reserve room scale = .ok ()) ∨
      ∃ e, Refused room raster scale paint e := by
  by_cases h : scale < 1
  · exact .inr ⟨_, .scale h⟩
  · have h : 1 ≤ scale := Int.not_lt.mp h
    cases hp : paint.palette with
    | error e => exact .inr ⟨e, .paint h (Paint.palette_eq_error_iff.mp hp)⟩
    | ok p =>
      have hpaint : ∃ p, paint.Gives p := ⟨p, Paint.palette_eq_ok_iff.mp hp⟩
      have hfits := Paint.fits_iff.mpr hpaint
      cases hr : raster.pixels with
      | error e => exact .inr ⟨e, .raster h hfits (Raster.pixels_eq_error_iff.mp hr)⟩
      | ok pixels =>
        have hraster := (Raster.pixels_eq_ok_iff.mp hr).1
        cases hroom : reserve room scale with
        | error e => exact .inr ⟨e, .room h hfits hraster hroom⟩
        | ok u => exact .inl ⟨h, hpaint, hraster, rfl⟩

theorem render_eq_error_iff {e : Failure} :
    render room raster scale paint = .error e ↔ Refused room raster scale paint e := by
  refine ⟨fun hrender => ?_, render_of_refused⟩
  obtain ⟨h, ⟨p, hp⟩, hraster, hroom⟩ | ⟨e', he⟩ := room_or_refused room raster scale paint
  · rw [render_of_room h hp hraster hroom] at hrender
    contradiction
  · rw [render_of_refused he, Except.error.injEq] at hrender
    exact hrender ▸ he

theorem render_eq_ok_iff :
    render room raster scale paint = .ok image ↔
      1 ≤ scale ∧ raster.HasShape Raster.frameShape ∧ reserve room scale = .ok () ∧
        ∃ p, paint.Gives p ∧ image = (ofPixels p raster.pixel).magnify scale.toNat := by
  constructor
  · intro hrender
    obtain ⟨h, ⟨p, hp⟩, hraster, hroom⟩ | ⟨e, he⟩ := room_or_refused room raster scale paint
    · rw [render_of_room h hp hraster hroom, Except.ok.injEq] at hrender
      exact ⟨h, hraster, hroom, p, hp, hrender.symm⟩
    · rw [render_of_refused he] at hrender
      contradiction
  · rintro ⟨h, hraster, hroom, p, hp, rfl⟩
    exact render_of_room h hp hraster hroom

/-- **Images are exact.** Whatever the raster, the scale and the paint are, and however many bytes
there are for one array, there is an image exactly if the scale is positive, the paint makes a
palette, the raster has the shape of a frame, and there is room for the image. The first of these
that fails decides what is reported. An image shows the pixels of the raster, which are read back
from it if the colours are not the same, and the image at a scale of `a * b` has a block of `b` by
`b` for every pixel of that at `a`. -/
theorem render_exact (room : Room) (raster : Raster) (scale : Int) (paint : Paint) :
    (∀ e, render room raster scale paint = .error e ↔ Refused room raster scale paint e) ∧
      ((∃ image, render room raster scale paint = .ok image) ↔
        1 ≤ scale ∧ paint.Fits ∧ raster.HasShape Raster.frameShape ∧
          Frame.width * scale * (Frame.height * scale) * 3 ≤ room.bytes) ∧
      ∀ image, render room raster scale paint = .ok image →
        ∃ p, paint.Gives p ∧ image.Shows scale.toNat p raster.pixel ∧
          (p.off ≠ p.on → image.read p scale.toNat = raster.pixel) ∧
          ∀ a b : Nat, scale = (a * b : Nat) →
            ∃ image', render room raster a paint = .ok image' ∧
              ∀ i j, image.pixel? i j = image'.pixel? (i / b) (j / b) := by
  refine ⟨fun e => render_eq_error_iff, ?_, fun image hrender => ?_⟩
  · simp only [render_eq_ok_iff]
    constructor
    · rintro ⟨image, h, hraster, hroom, p, hp, -⟩
      exact ⟨h, Paint.fits_iff.mpr ⟨p, hp⟩, hraster, (reserve_eq_ok_iff room h).mp hroom⟩
    · rintro ⟨h, hfits, hraster, hsize⟩
      obtain ⟨p, hp⟩ := Paint.fits_iff.mp hfits
      exact ⟨_, h, hraster, (reserve_eq_ok_iff room h).mpr hsize, p, hp, rfl⟩
  · obtain ⟨h, hraster, hroom, p, hp, rfl⟩ := render_eq_ok_iff.mp hrender
    have hk : 0 < scale.toNat := by omega
    have hshows : Shows _ scale.toNat p raster.pixel := shows_magnify hk
    refine ⟨p, hp, hshows, hshows.read_eq hk, fun a b hscale => ?_⟩
    have hab : 0 < a * b := by omega
    have ha : 0 < a := Nat.pos_of_mul_pos_right hab
    have hle : a ≤ a * b := Nat.le_mul_of_pos_right a (Nat.pos_of_mul_pos_left hab)
    have hrooma : reserve room a = .ok () := by
      rw [reserve_eq_ok_iff room h] at hroom
      rw [reserve_eq_ok_iff room (by omega)]
      exact Int.le_trans (size_le_size (by omega) (by omega)) hroom
    refine ⟨_, render_of_room (by omega) hp hraster hrooma, fun i j => ?_⟩
    rw [hscale, Int.toNat_natCast, Int.toNat_natCast, pixel?_magnify_mul hab]

/-- The block of one pixel, in the last corner, with no more room than the image takes. -/
theorem render_exact_corner :
    let room : Room := ⟨221184, by decide, by decide⟩
    let f : Frame := ⟨(Bank.fill 0).set 31 1⟩
    let paint : Paint := .numbers (.list
      [.list [.leaf 0, .leaf 0, .leaf 0], .list [.leaf 255, .leaf 176, .leaf 0]])
    ∃ image image', render room (.frame f) 6 paint = .ok image ∧
      render room (.frame f) 2 paint = .ok image' ∧
      render room (.frame f) 7 paint = .error (.arrayMemory .channel [448, 224, 3]) ∧
      image.pixel? 378 186 = some ⟨255, 176, 0⟩ ∧ image.pixel? 377 186 = some ⟨0, 0, 0⟩ ∧
      image'.pixel? 126 62 = some ⟨255, 176, 0⟩ ∧
      image.read Scheme.amber.palette 6 = f.pixel := by
  intro room f paint
  obtain ⟨-, hok, hexact⟩ := render_exact room (.frame f) 6 paint
  have hpaint : paint.Gives Scheme.amber.palette := rfl
  obtain ⟨image, himage⟩ :=
    hok.mpr ⟨by decide, Paint.fits_iff.mpr ⟨_, hpaint⟩, rfl, by decide⟩
  obtain ⟨p, hp, hshows, hread, hblocks⟩ := hexact image himage
  obtain rfl : p = Scheme.amber.palette := Except.ok.inj <|
    (Paint.palette_eq_ok_iff.mpr hp).symm.trans (Paint.palette_eq_ok_iff.mpr hpaint)
  obtain ⟨image', himage', hsame⟩ := hblocks 2 3 rfl
  have hon : image.pixel? 378 186 = some ⟨255, 176, 0⟩ :=
    (hshows.pixel 378 (by decide) 186 (by decide)).trans (by decide +kernel)
  have hroom : reserve room 7 = .error (.arrayMemory .channel [448, 224, 3]) := by
    simp [reserve, room, Room.check, Room.countable, Room.cells, Frame.width, Frame.height]
  have hseven : render room (.frame f) 7 paint = .error (.arrayMemory .channel [448, 224, 3]) :=
    ((render_exact room (.frame f) 7 paint).1 _).mpr
      (.room (by decide) (Paint.fits_iff.mpr ⟨_, hpaint⟩) rfl hroom)
  refine ⟨image, image', himage, himage', hseven, hon, ?_, ?_, hread (by decide)⟩
  · exact (hshows.pixel 377 (by decide) 186 (by decide)).trans (by decide +kernel)
  · exact (hsame 378 186).symm.trans hon

/-- However much room there is, there are scales without room for an image, and a palette is found
to be ragged before its numbers are looked at. -/
theorem render_not_exact :
    let most : Room := ⟨0x7FFFFFFFFFFFFFFF, by decide, by decide⟩
    (¬ ∀ (f : Frame) (scale : Int) (p : Palette), 1 ≤ scale →
      ∃ image, render most (.frame f) scale (.ready p) = .ok image) ∧
    ¬ ∀ (f : Frame) (cells : Nested Int) (i : Int),
      cells.leaves.find? (Byte.Beyond ·) = some i →
        render most (.frame f) 1 (.numbers cells) = .error (.byteRange i) := by
  intro most
  constructor
  · intro h
    obtain ⟨image, himage⟩ := h .blank 0x8000000000000000 Scheme.classic.palette (by decide)
    have hroom : render most (.frame .blank) 0x8000000000000000 (.ready Scheme.classic.palette) =
        .error .scaleSize :=
      render_of_refused (.room (by decide) trivial rfl rfl)
    rw [hroom] at himage
    contradiction
  · intro h
    let cells : Nested Int := .list [.list [], .list [.leaf 300]]
    have hbyte := h .blank cells 300 (by simp [cells, Nested.leaves, Byte.Beyond])
    have houtline : cells.outline = ⟨[2], true⟩ := by
      simp only [cells, Nested.outline, List.map_cons, List.map_nil]
      rfl
    have hshape : cells.shape = .error (.ragged [2]) := by
      rw [Nested.shape, houtline]
      rfl
    have hragged : render most (.frame .blank) 1 (.numbers cells) = .error (.ragged [2]) :=
      render_of_refused (.paint (by decide) (Palette.Unfit.shapeless hshape))
    cases hragged.symm.trans hbyte

end Image

end Chip8
