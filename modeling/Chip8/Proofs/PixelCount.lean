import Chip8.Proofs.Plot
import Mathlib.Algebra.GroupWithZero.Nat
import Mathlib.Data.FinEnum
import Mathlib.Data.Finset.SymmDiff
import Mathlib.Data.Fintype.Prod

/-!
# Counting pixels

The pixels of a frame that are on form a finite set (`lit`). Of two frames that are laid over each
other by exclusive or, the pixels that both have on go dark, and the others stay (`card_lit_xor`).

A sprite of at most 32 rows covers as many pixels as it has bits that are set (`card_lit_mask`),
wherever it stands and whichever edges it goes around: no bit is lost, and no two bits share a
pixel. So the number of pixels that are on before and after drawing tells how many the sprite has
met; `card_lit_draw` puts this together.
-/
namespace Chip8.Frame

/-- The pixels that are on. -/
def lit (f : Frame) : Finset (Column × Row) :=
  Finset.univ.filter fun p => f.pixel p.1 p.2 = true

/-- The number of bits that are set in the rows of a sprite. -/
def setBits (sprite : List Byte) : Nat := (sprite.map fun bits => bits.cpop.toNat).sum

theorem mem_lit {f : Frame} {i : Column} {j : Row} : (i, j) ∈ f.lit ↔ f.pixel i j = true := by
  simp [lit]

/-! ## Frames over each other -/

theorem lit_xor (f g : Frame) : (f ^^^ g).lit = symmDiff f.lit g.lit := by
  ext ⟨i, j⟩
  rw [Finset.mem_symmDiff, mem_lit, mem_lit, mem_lit, pixel_xor]
  cases f.pixel i j <;> cases g.pixel i j <;> decide

theorem card_lit_xor (f g : Frame) :
    (f ^^^ g).lit.card + 2 * (f.lit ∩ g.lit).card = f.lit.card + g.lit.card := by
  have hdisjoint : Disjoint (f.lit \ g.lit) (g.lit \ f.lit) := disjoint_sdiff_sdiff
  have hf := Finset.card_sdiff_add_card_inter f.lit g.lit
  have hg := Finset.card_sdiff_add_card_inter g.lit f.lit
  rw [Finset.inter_comm] at hg
  rw [lit_xor, symmDiff_def, Finset.sup_eq_union, Finset.card_union_of_disjoint hdisjoint]
  omega

theorem collides_eq_false_iff (f : Frame) (x : Column) (y : Row) (sprite : List Byte) :
    f.collides x y sprite = false ↔ (f.lit ∩ (mask x y sprite).lit).card = 0 := by
  rw [Bool.eq_false_iff, ne_eq, collides_iff, Finset.card_eq_zero,
    Finset.eq_empty_iff_forall_notMem]
  simp [mem_lit]

/-! ## The bits of a sprite -/

theorem cpopNatRec_eq_countP {w : Nat} (b : BitVec w) (n : Nat) :
    b.cpopNatRec n 0 = (List.range n).countP b.getLsbD := by
  induction n with
  | zero => rfl
  | succ n ih =>
    rw [BitVec.cpopNatRec_succ, BitVec.cpopNatRec_add, ih, List.range_succ, List.countP_append,
      List.countP_singleton]
    cases b.getLsbD n <;> rfl

/-- The bits of a row, counted from its left end. -/
theorem length_filter_bits (bits : Byte) :
    ((List.range 8).filter fun c => bits.getLsbD (7 - c)).length = bits.cpop.toNat := by
  rw [← BitVec.cpop_reverse, BitVec.toNat_cpop, cpopNatRec_eq_countP, List.countP_eq_length_filter]
  congr 1
  refine List.filter_congr fun c hc => ?_
  rw [List.mem_range] at hc
  rw [BitVec.getLsbD_reverse, BitVec.getMsbD, decide_eq_true hc, Bool.true_and]

theorem map_getD_range (sprite : List Byte) :
    (List.range sprite.length).map (fun r => sprite.getD r 0) = sprite := by
  apply List.ext_getElem
  · simp
  · intro r hr hr'
    simp [hr']

theorem length_cells (x y : Int) {sprite : List Byte} (h : sprite.length ≤ 32) :
    (cells x y sprite).length = setBits sprite := by
  rw [cells, List.length_flatMap, Nat.min_eq_left h]
  simp only [List.length_map, length_filter_bits]
  rw [setBits]
  conv_rhs => rw [← map_getD_range sprite, List.map_map]
  rfl

/-- The bits that are set and the pixels that are covered correspond one to one. -/
theorem card_lit_mask (x y : Int) {sprite : List Byte} (h : sprite.length ≤ 32) :
    (mask (BitVec.ofInt 6 x) (BitVec.ofInt 5 y) sprite).lit.card = setBits sprite := by
  have hlit : (mask (BitVec.ofInt 6 x) (BitVec.ofInt 5 y) sprite).lit =
      (cells x y sprite).toFinset := by
    ext ⟨i, j⟩
    rw [mem_lit, pixel_mask_ofInt, decide_eq_true_iff, List.mem_toFinset]
  rw [hlit, List.toFinset_card_of_nodup (nodup_cells x y sprite), length_cells x y h]

/-- **Drawing conserves pixels.** A sprite of at most 32 rows is drawn anywhere on a frame, also
past its edges. As many pixels are on as before and as the sprite has bits that are set, less two
for each pixel that both have on. So nothing collides exactly if every bit that is set turns on one
more pixel. -/
theorem card_lit_draw (f : Frame) (x y : Int) {sprite : List Byte} (h : sprite.length ≤ 32) :
    let column := BitVec.ofInt 6 x
    let row := BitVec.ofInt 5 y
    let before := f.lit
    let after := (f.draw column row sprite).lit
    let met := f.lit ∩ (mask column row sprite).lit
    (after.card : Int) = before.card + setBits sprite - 2 * met.card ∧
      (f.collides column row sprite = false ↔ after.card = before.card + setBits sprite) := by
  intro column row before after met
  have hcount : after.card + 2 * met.card = before.card + setBits sprite := by
    rw [← card_lit_mask x y h]
    exact card_lit_xor f (mask column row sprite)
  have hmet : f.collides column row sprite = false ↔ met.card = 0 :=
    collides_eq_false_iff f column row sprite
  exact ⟨by omega, by rw [hmet]; omega⟩

/-- All 32 rows are in use, and the sprite goes around the right edge and the lower edge. One of its
five bits meets a pixel that is on, so fewer than five are added. -/
theorem card_lit_draw_full_height :
    let f := blank.draw 0 30 [0x80]
    let sprite := 0x81 :: List.replicate 30 0 ++ [0xC1]
    let column := BitVec.ofInt 6 63
    let row := BitVec.ofInt 5 (-1)
    let met := f.lit ∩ (mask column row sprite).lit
    sprite.length ≤ 32 ∧ f.collides column row sprite = true ∧
      ((f.draw column row sprite).lit.card : Int) = f.lit.card + 5 - 2 * met.card ∧
      (f.draw column row sprite).lit.card ≠ f.lit.card + 5 := by
  intro f sprite column row met
  have hlength : sprite.length ≤ 32 := by decide
  have hbits : setBits sprite = 5 := by decide
  have hmeets : f.collides column row sprite = true := by decide +kernel
  obtain ⟨hcount, hfree⟩ := card_lit_draw f 63 (-1) hlength
  rw [hbits] at hcount hfree
  exact ⟨hlength, hmeets, hcount, fun h => Bool.false_ne_true ((hfree.mpr h).symm.trans hmeets)⟩

end Chip8.Frame
