import Chip8.Picture.Raster
import Chip8.Proofs.ArrayShape
import Chip8.Proofs.Pieces

/-!
# Reading sketches

A sketch has a line for each row, and on it a mark for each column. If the marks of pixels that are
on and off are of one length, the pieces of that length are the marks (`piece_line`). So a pixel is
read from the piece at its column on the line of its row, and if the marks are not the same, that
gives back all pixels (`read_ofPixels`).

`read_of_render` says this of the sketch of a raster, and that frames with the same sketch are the
same.
-/
namespace Chip8.Sketch

/-- The pixels of a sketch with the mark `on`, whose length is that of all marks. -/
def read (on s : String) : Pixels := fun x y =>
  ((lines s)[y.toNat]?.elim [] (piece on.length x.toNat)) = on.toList

variable {on off : String} {pixels : Pixels} {y : Row}

theorem toList_line :
    (line on off pixels y).toList =
      Column.all.flatMap fun x => (if pixels x y then on else off).toList := by
  rw [line, String.toList_join, List.flatMap_map]

section
variable (hlength : on.length = off.length)
include hlength

theorem length_mark (lit : Bool) : (if lit then on else off).toList.length = on.length := by
  rw [String.length_toList]
  cases lit
  · exact hlength.symm
  · rfl

/-- A line has as many characters as its marks. -/
theorem length_line : (line on off pixels y).toList.length = 64 * on.length := by
  rw [toList_line, length_flatMap_of_length fun x _ => length_mark hlength _, Column.length_all]

/-- The pieces of a line are its marks. -/
theorem piece_line (x : Column) :
    piece on.length x.toNat (line on off pixels y).toList =
      (if pixels x y then on else off).toList := by
  rw [toList_line, piece_flatMap fun x _ => length_mark hlength _, Column.getElem?_all]
  rfl

end

section
variable (hon : '\n' ∉ on.toList) (hoff : '\n' ∉ off.toList)
include hon hoff

theorem newline_not_mem_line : '\n' ∉ (line on off pixels y).toList := by
  rw [toList_line, List.mem_flatMap]
  rintro ⟨x, -, hx⟩
  split at hx
  · exact hon hx
  · exact hoff hx

theorem lines_ofPixels :
    lines (ofPixels on off pixels) = Row.all.map fun y => (line on off pixels y).toList := by
  have hne : Row.all.map (line on off pixels) ≠ [] := by
    simpa using List.ne_nil_of_length_pos (by simp)
  rw [ofPixels, lines_intercalate hne, List.map_map]
  · rfl
  · intro l hl
    obtain ⟨y, -, rfl⟩ := List.mem_map.mp hl
    exact newline_not_mem_line hon hoff

theorem getElem?_lines (y : Row) :
    (lines (ofPixels on off pixels))[y.toNat]? = some (line on off pixels y).toList := by
  rw [lines_ofPixels hon hoff, List.getElem?_map, Row.getElem?_all]
  rfl

/-- What was sketched is read back. -/
theorem read_ofPixels (hlength : on.length = off.length) (hne : on ≠ off) :
    read on (ofPixels on off pixels) = pixels := by
  funext x y
  rw [read, getElem?_lines hon hoff, Option.elim_some, piece_line hlength]
  cases pixels x y
  · simpa [String.toList_inj] using hne.symm
  · simp

/-- **A sketch shows every pixel.** Marks of one length that are not the same and have no newline
make a sketch of any raster that has the shape of a frame. It has 32 lines of 64 marks, and the mark
in the place of a pixel tells whether the pixel is on. So two rasters have the same sketch if and
only if they have the same pixels, and two frames if and only if they are the same. -/
theorem read_of_render (hlength : on.length = off.length) (hne : on ≠ off) :
    (∀ r : Raster, r.HasShape Raster.frameShape →
      ∃ text, render r on off = .ok text ∧ (lines text).length = 32 ∧
        ∀ y : Row, ∃ l, (lines text)[y.toNat]? = some l ∧ l.length = 64 * on.length ∧
          ∀ x : Column,
            piece on.length x.toNat l = (if r.pixel x y then on else off).toList) ∧
    (∀ r r' : Raster, r.HasShape Raster.frameShape → r'.HasShape Raster.frameShape →
      (render r on off = render r' on off ↔ r.pixel = r'.pixel)) ∧
    ∀ f g : Frame, render (.frame f) on off = render (.frame g) on off ↔ f = g := by
  have hrender {r : Raster} (hr : r.HasShape Raster.frameShape) :
      render r on off = .ok (ofPixels on off r.pixel) := by
    rw [render, Raster.pixels_eq_ok_iff.mpr ⟨hr, rfl⟩]
    rfl
  have hsame {r r' : Raster} (hr : r.HasShape Raster.frameShape)
      (hr' : r'.HasShape Raster.frameShape) :
      render r on off = render r' on off ↔ r.pixel = r'.pixel := by
    rw [hrender hr, hrender hr', Except.ok.injEq]
    constructor
    · intro h
      calc r.pixel = read on (ofPixels on off r.pixel) :=
            (read_ofPixels hon hoff hlength hne).symm
        _ = r'.pixel := by rw [h, read_ofPixels hon hoff hlength hne]
    · exact congrArg (ofPixels on off)
  refine ⟨fun r hr => ⟨_, hrender hr, ?_, fun y => ⟨_, getElem?_lines hon hoff y, ?_, ?_⟩⟩,
    fun r r' => hsame, fun f g => ?_⟩
  · rw [lines_ofPixels hon hoff, List.length_map, Row.length_all]
  · exact length_line hlength
  · exact piece_line hlength
  · have hf (f : Frame) : (Raster.frame f).HasShape Raster.frameShape := rfl
    refine (hsame (hf f) (hf g)).trans ⟨fun h => ?_, ?_⟩
    · exact Frame.ext fun x y => congrFun (congrFun h x) y
    · rintro rfl
      rfl

end

/-- Marks with the same first character, and one pixel in the last corner. -/
theorem read_of_render_corner :
    let f : Frame := ⟨(Bank.fill 0).set 31 1⟩
    '\n' ∉ "##".toList ∧ '\n' ∉ "#.".toList ∧ "##".length = "#.".length ∧ "##" ≠ "#." ∧
      (Raster.frame f).HasShape Raster.frameShape ∧
      (∃ text l, render (.frame f) "##" "#." = .ok text ∧ (lines text).length = 32 ∧
        (lines text)[31]? = some l ∧ piece 2 62 l = ['#', '.'] ∧ piece 2 63 l = ['#', '#']) ∧
      render (.frame f) "##" "#." ≠ render (.frame .blank) "##" "#." := by
  intro f
  have hon : '\n' ∉ "##".toList := by decide
  have hoff : '\n' ∉ "#.".toList := by decide
  have hlength : "##".length = "#.".length := by decide
  have hne : "##" ≠ "#." := by decide
  have hshape : (Raster.frame f).HasShape Raster.frameShape := rfl
  obtain ⟨hmarks, -, hsame⟩ := read_of_render hon hoff hlength hne
  obtain ⟨text, htext, hlines, hrow⟩ := hmarks (.frame f) hshape
  obtain ⟨l, hl, -, hpiece⟩ := hrow 31
  refine ⟨hon, hoff, hlength, hne, hshape, ⟨text, l, htext, hlines, hl, ?_, ?_⟩, fun h => ?_⟩
  · exact (hpiece 62).trans (by decide +kernel)
  · exact (hpiece 63).trans (by decide +kernel)
  · exact absurd ((hsame f .blank).mp h) (by decide +kernel)

end Chip8.Sketch
