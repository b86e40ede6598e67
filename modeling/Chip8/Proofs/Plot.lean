import Chip8.Frame

/-!
# Plotting a sprite

A sprite is drawn as a whole: for each pixel of the frame, its offset from the upper left corner of
the sprite tells which bit it shows (`covers`), and all these bits go onto the frame at once. `plot`
draws the same sprite one bit after the other: it goes through the rows and columns of the sprite,
toggles a pixel for each bit that is set and notes whether one was on.

Both come to the same (`draw_eq_plot`), because the bits go to different pixels (`nodup_cells`), so
none is toggled twice, and because the pixels that the loop toggles are those that the sprite covers
(`mem_cells`).
-/
namespace Chip8.Frame

/-- Whether a sprite shows at an offset from its upper left corner. Offsets outside the sprite show
nothing, and look at its last row or column. -/
def covers (sprite : List Byte) (column row : Nat) : Bool :=
  let bits := sprite.getD (min row (sprite.length - 1)) 0
  bits.getLsbD (7 - min column 7) && (column < 8 && row < sprite.length)

/-- The frame with a pixel turned over. -/
def toggle (f : Frame) (x : Column) (y : Row) : Frame :=
  ⟨f.rows.set y (f.rows[y] ^^^ BitVec.twoPow 64 (63 - x.toNat))⟩

/-- Toggle a pixel, and note whether it was on. -/
def strike (s : Frame × Bool) (cell : Column × Row) : Frame × Bool :=
  (s.1.toggle cell.1 cell.2, s.2 || s.1.pixel cell.1 cell.2)

/-- The pixel at a column and a row that may lie beyond the edges of the frame. -/
def cell (x y : Int) : Column × Row := (BitVec.ofInt 6 (x % 64), BitVec.ofInt 5 (y % 32))

/-- Strike a pixel for each bit of a row, from its left end. -/
def plotRow (x y : Int) (bits : Byte) (s : Frame × Bool) : Frame × Bool :=
  (List.range 8).foldl
    (fun s (c : Nat) => if bits.getLsbD (7 - c) then strike s (cell (x + c) y) else s) s

/-- Strike a pixel for each bit of a sprite, row by row. -/
def plot (f : Frame) (x y : Int) (sprite : List Byte) : Frame × Bool :=
  (List.range (min sprite.length 32)).foldl
    (fun s (r : Nat) => plotRow x (y + r) (sprite.getD r 0) s) (f, false)

/-! ## Striking pixels -/

@[simp] theorem pixel_toggle (f : Frame) (x i : Column) (y j : Row) :
    (f.toggle x y).pixel i j = (f.pixel i j ^^ decide ((i, j) = (x, y))) := by
  have hi := i.isLt
  have hx := x.isLt
  simp only [toggle, pixel, Bank.getElem_set]
  by_cases hy : y = j
  · subst hy
    simp only [if_true, BitVec.getMsbD_xor, BitVec.getMsbD_twoPow, Prod.mk.injEq, and_true,
      ← BitVec.toNat_inj]
    congr 1
    rw [← Bool.decide_and, decide_eq_decide]
    omega
  · have hne : ¬ (i, j) = (x, y) := fun h => hy (congrArg Prod.snd h).symm
    rw [if_neg hy, decide_eq_false hne, Bool.xor_false]

/-- Different pixels are turned over once each, and each is noted as it was at first. -/
theorem foldl_strike {cells : List (Column × Row)} (hn : cells.Nodup) (f : Frame) (b : Bool) :
    (∀ i j, (cells.foldl strike (f, b)).1.pixel i j =
      (f.pixel i j ^^ decide ((i, j) ∈ cells))) ∧
    (cells.foldl strike (f, b)).2 = (b || cells.any fun cell => f.pixel cell.1 cell.2) := by
  induction cells generalizing f b with
  | nil => simp
  | cons cell cells ih =>
    obtain ⟨hc, hn⟩ := List.nodup_cons.mp hn
    obtain ⟨hp, hb⟩ := ih hn (f.toggle cell.1 cell.2) (b || f.pixel cell.1 cell.2)
    constructor
    · intro i j
      refine (hp i j).trans ?_
      rw [pixel_toggle, Bool.xor_assoc]
      congr 1
      -- the pixel is the first cell or among the others, and not both
      by_cases h : (i, j) = cell
      · rw [h]
        simp [hc]
      · simp [h]
    · have hsame : ∀ c ∈ cells, (f.toggle cell.1 cell.2).pixel c.1 c.2 = f.pixel c.1 c.2 := by
        intro c hmem
        have hne : c ≠ cell := fun h => hc (h ▸ hmem)
        rw [pixel_toggle, decide_eq_false hne, Bool.xor_false]
      have hany : (cells.any fun c => (f.toggle cell.1 cell.2).pixel c.1 c.2) =
          cells.any fun c => f.pixel c.1 c.2 := by
        rw [List.any_eq, List.any_eq, decide_eq_decide]
        exact exists_congr fun c => and_congr_right fun hmem => by rw [hsame c hmem]
      refine hb.trans ?_
      rw [hany, List.any_cons, Bool.or_assoc]

/-! ## The pixels of the loop -/

/-- The pixels that plotting strikes, in order. -/
def cells (x y : Int) (sprite : List Byte) : List (Column × Row) :=
  (List.range (min sprite.length 32)).flatMap fun r =>
    ((List.range 8).filter fun c => (sprite.getD r 0).getLsbD (7 - c)).map fun (c : Nat) =>
      cell (x + c) (y + r)

theorem plot_eq_foldl (f : Frame) (x y : Int) (sprite : List Byte) :
    f.plot x y sprite = (cells x y sprite).foldl strike (f, false) := by
  simp only [plot, plotRow, cells, List.foldl_flatMap, List.foldl_map, List.foldl_filter]

/-- The offset of a pixel from a corner is found again at the pixel, whichever edges lie between. -/
theorem eq_cell_iff {x y : Int} {c r : Nat} (hc : c < 64) (hr : r < 32) (i : Column) (j : Row) :
    (i, j) = cell (x + c) (y + r) ↔
      (i - BitVec.ofInt 6 x).toNat = c ∧ (j - BitVec.ofInt 5 y).toNat = r := by
  have hi := i.isLt
  have hj := j.isLt
  simp only [cell, Prod.mk.injEq, ← BitVec.toNat_inj, BitVec.toNat_sub, BitVec.toNat_ofInt]
  omega

theorem cell_inj {x y : Int} {c c' r r' : Nat} (hc : c < 64) (hc' : c' < 64) (hr : r < 32)
    (hr' : r' < 32) (h : cell (x + c) (y + r) = cell (x + c') (y + r')) : c = c' ∧ r = r' := by
  obtain ⟨h1, h2⟩ := (eq_cell_iff hc hr _ _).mp rfl
  obtain ⟨h3, h4⟩ := (eq_cell_iff hc' hr' _ _).mp h
  exact ⟨h1.symm.trans h3, h2.symm.trans h4⟩

/-- No two bits of a sprite go to the same pixel. -/
theorem nodup_cells (x y : Int) (sprite : List Byte) : (cells x y sprite).Nodup := by
  refine List.pairwise_flatMap.mpr ⟨fun r hr => ?_, ?_⟩
  · -- bits of one row are in different columns
    refine List.pairwise_map.mpr ?_
    refine List.Pairwise.imp_of_mem ?_ (List.nodup_range.filter _)
    intro c c' hc hc' hne h
    rw [List.mem_filter, List.mem_range] at hc hc'
    rw [List.mem_range] at hr
    exact hne (cell_inj (by omega) (by omega) (by omega) (by omega) h).1
  · -- bits of two rows are in different rows, as there are no more than 32
    refine List.Pairwise.imp_of_mem ?_ List.nodup_range
    intro r r' hr hr' hne
    rw [List.mem_range] at hr hr'
    simp only [List.mem_map, List.mem_filter, List.mem_range]
    rintro _ ⟨c, ⟨hc, -⟩, rfl⟩ _ ⟨c', ⟨hc', -⟩, rfl⟩ h
    exact hne (cell_inj (by omega) (by omega) (by omega) (by omega) h).2

/-- The pixels that plotting strikes are those that the sprite covers. -/
theorem mem_cells (x y : Int) (sprite : List Byte) (i : Column) (j : Row) :
    (i, j) ∈ cells x y sprite ↔
      covers sprite (i - BitVec.ofInt 6 x).toNat (j - BitVec.ofInt 5 y).toNat = true := by
  have hj := (j - BitVec.ofInt 5 y).isLt
  simp only [cells, List.mem_flatMap, List.mem_map, List.mem_filter, List.mem_range, covers,
    Bool.and_eq_true, decide_eq_true_eq]
  constructor
  · rintro ⟨r, hr, c, ⟨hc, hb⟩, h⟩
    obtain ⟨rfl, rfl⟩ := (eq_cell_iff (by omega) (by omega) i j).mp h.symm
    rw [Nat.min_eq_left (by omega), Nat.min_eq_left (by omega)]
    exact ⟨hb, hc, by omega⟩
  · rintro ⟨hb, hc, hr⟩
    rw [Nat.min_eq_left (by omega), Nat.min_eq_left (by omega)] at hb
    refine ⟨_, by omega, _, ⟨hc, hb⟩, ?_⟩
    exact ((eq_cell_iff (by omega) (by omega) i j).mpr ⟨rfl, rfl⟩).symm

/-! ## Drawing at once -/

/-- A pixel shows what the sprite shows at its offset from the corner. -/
theorem pixel_mask_eq_covers (x : Column) (y : Row) (sprite : List Byte) (i : Column) (j : Row) :
    (mask x y sprite).pixel i j = covers sprite (i - x).toNat (j - y).toNat := by
  rw [pixel_mask, covers]
  generalize (i - x).toNat = column
  generalize (j - y).toNat = row
  by_cases hr : row < sprite.length
  · have hm : min row (sprite.length - 1) = row := Nat.min_eq_left (by omega)
    rw [hm, List.getD_eq_getElem?_getD, List.getElem?_eq_getElem hr]
    by_cases hc : column < 8
    · simp [BitVec.getMsbD, hc, hr, Nat.min_eq_left (by omega : column ≤ 7)]
    · simp [BitVec.getMsbD, hc]
  · rw [List.getElem?_eq_none (by omega)]
    simp [hr]

theorem pixel_mask_ofInt (x y : Int) (sprite : List Byte) (i : Column) (j : Row) :
    (mask (BitVec.ofInt 6 x) (BitVec.ofInt 5 y) sprite).pixel i j =
      decide ((i, j) ∈ cells x y sprite) := by
  rw [pixel_mask_eq_covers, Bool.eq_iff_iff, decide_eq_true_iff]
  exact (mem_cells x y sprite i j).symm

theorem collides_iff (f : Frame) (x : Column) (y : Row) (sprite : List Byte) :
    f.collides x y sprite = true ↔
      ∃ i j, f.pixel i j = true ∧ (mask x y sprite).pixel i j = true := by
  rw [collides, decide_eq_true_iff, ne_eq, Frame.ext_iff]
  simp

/-- Rows from the 33rd on have no place. -/
theorem mask_take (x : Column) (y : Row) (sprite : List Byte) :
    mask x y (sprite.take 32) = mask x y sprite := by
  ext i j
  have hj := (j - y).isLt
  rw [pixel_mask, pixel_mask, List.getElem?_take_of_lt hj]

/-- **Drawing is plotting.** A sprite drawn anywhere on a frame, also past its edges, leaves the
frame and the collision of the loop over its bits, and the rows from the 33rd on change neither. -/
theorem draw_eq_plot (f : Frame) (x y : Int) (sprite : List Byte) :
    let column := BitVec.ofInt 6 x
    let row := BitVec.ofInt 5 y
    (f.draw column row sprite, f.collides column row sprite) = f.plot x y sprite ∧
      f.draw column row (sprite.take 32) = f.draw column row sprite ∧
      f.collides column row (sprite.take 32) = f.collides column row sprite := by
  intro column row
  obtain ⟨hp, hb⟩ := foldl_strike (nodup_cells x y sprite) f false
  rw [plot_eq_foldl]
  refine ⟨Prod.ext ?_ ?_, ?_, ?_⟩
  · ext i j
    rw [draw, pixel_xor, pixel_mask_ofInt, hp]
  · rw [hb, Bool.false_or, Bool.eq_iff_iff, collides_iff, List.any_eq_true]
    simp only [column, row, pixel_mask_ofInt, decide_eq_true_eq, Prod.exists]
    exact exists_congr fun i => exists_congr fun j => And.comm
  · rw [draw, draw, mask_take]
  · rw [collides, collides, mask_take]

end Chip8.Frame
