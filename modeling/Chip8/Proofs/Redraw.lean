import Chip8.Proofs.Footprint
import Chip8.Proofs.Plot
import Chip8.Proofs.SpriteRows

/-!
# Drawing a sprite twice

A sprite that is drawn where it has just been drawn goes away (`Frame.draw_draw`). The pixels of its
mask that were on collide the first time, and those that were off the second time, so only an empty
mask collides neither time (`Frame.mask_eq_blank_iff`).

A word that draws looks at the two registers that it names, the index, memory and the display, and
of these it changes the display, and a register only if it names the flag register. If it does not,
executing it again draws the same mask once more. `redraw_of_execute` puts this together.
-/
namespace Chip8

theorem Byte.ofFlag_eq_one_iff (b : Bool) : ofFlag b = 1 ↔ b = true := by
  cases b <;> decide

theorem Byte.ofFlag_eq_zero_iff (b : Bool) : ofFlag b = 0 ↔ b = false := by
  cases b <;> decide

theorem Part.Same.trans {part : Part} {m m' m'' : Machine} (h : part.Same m m')
    (h' : part.Same m' m'') : part.Same m m'' := by
  cases part with
  | stop => exact ⟨h'.1.trans h.1, h'.2.trans h.2⟩
  | _ => exact Eq.trans h' h

namespace Frame

variable (f : Frame) (x : Column) (y : Row) (sprite : List Byte)

theorem draw_draw : (f.draw x y sprite).draw x y sprite = f := by
  ext i j
  rw [draw, draw, pixel_xor, pixel_xor, Bool.xor_assoc, Bool.xor_self, Bool.xor_false]

/-- The second time a sprite collides with the pixels that it has turned on. -/
theorem collides_draw_iff :
    (f.draw x y sprite).collides x y sprite = true ↔
      ∃ i j, f.pixel i j = false ∧ (mask x y sprite).pixel i j = true := by
  rw [collides_iff]
  refine exists_congr fun i => exists_congr fun j => ?_
  rw [draw, pixel_xor]
  cases f.pixel i j <;> cases (mask x y sprite).pixel i j <;> decide

/-- Each pixel of a mask collides the first time or the second time. -/
theorem mask_eq_blank_iff :
    f.collides x y sprite = false ∧ (f.draw x y sprite).collides x y sprite = false ↔
      mask x y sprite = blank := by
  rw [← Bool.not_eq_true, ← Bool.not_eq_true, collides_draw_iff, collides_iff]
  constructor
  · rintro ⟨hon, hoff⟩
    ext i j
    rw [pixel_blank, Bool.eq_false_iff]
    intro hmask
    cases hp : f.pixel i j with
    | true => exact hon ⟨i, j, hp, hmask⟩
    | false => exact hoff ⟨i, j, hp, hmask⟩
  · intro hblank
    simp [hblank]

end Frame

namespace Machine

/-- The pixels that an instruction covers that draws a sprite of a given height at the column in
register `x` and the row in register `y`. A sprite that does not fit in memory covers none. -/
def spriteMask (m : Machine) (x y : Register) (height : BitVec 4) : Frame :=
  if m.core.index.toNat + height.toNat ≤ 4096 then
    Frame.mask (m.core.registers[x].setWidth 6) (m.core.registers[y].setWidth 5)
      (m.core.covered height)
  else .blank

variable {source : ByteSource} {m : Machine} {w : Word} {x y : Register} {height : BitVec 4}

theorem mask_sprite_eq (m : Machine) (x y : Register) (height : BitVec 4) :
    Frame.mask (m.core.registers[x].setWidth 6) (m.core.registers[y].setWidth 5)
      (m.core.sprite height) = m.spriteMask x y height := by
  unfold spriteMask
  split
  · rename_i hfits
    exact Core.mask_sprite hfits _ _
  · rename_i hover
    exact Core.mask_sprite_of_lt (by omega) _ _

/-- A word that draws changes nothing but the display, the flag register and the program counter. -/
theorem same_of_draw (hi : w.instruction = .draw x y height) {part : Part}
    (hd : part ≠ .display) (hf : part ≠ .register Register.flag) :
    part.Same m (m.execute source w) := by
  rw [execute_draw source m hi]
  cases part with
  | display => exact absurd rfl hd
  | register r => exact Bank.getElem_set_ne _ _ fun h => hf (congrArg Part.register h.symm)
  | stop => exact ⟨rfl, rfl⟩
  | _ => rfl

/-- **Drawing twice.** A word that draws at the place that two registers name, neither of them the
flag register, is executed twice. The display is as before, and so is everything else but the flag
register and the program counter. The first execution sets the flag exactly if some pixel of the
sprite was on, the second exactly if some pixel of the sprite was off; so both leave it clear
exactly if the sprite has no pixels. -/
theorem redraw_of_execute (source source' : ByteSource) (m : Machine) {w : Int} {x y : Register}
    {height : BitVec 4} (hw : BitVec.ofInt 16 w = 0xD#4 ++ x ++ y ++ height)
    (hx : x ≠ Register.flag) (hy : y ≠ Register.flag) :
    let once := m.handle source (.execute w)
    let twice := once.handle source' (.execute w)
    let mask := m.spriteMask x y height
    twice.display = m.display ∧
    (once.core.registers[Register.flag] = 1 ↔
      ∃ i j, m.display.pixel i j = true ∧ mask.pixel i j = true) ∧
    (twice.core.registers[Register.flag] = 1 ↔
      ∃ i j, m.display.pixel i j = false ∧ mask.pixel i j = true) ∧
    (once.core.registers[Register.flag] = 0 ∧ twice.core.registers[Register.flag] = 0 ↔
      mask = .blank) ∧
    ∀ part : Part, part ≠ .register Register.flag →
      part.Same m twice ∧ (part ≠ .display → part.Same m once) := by
  intro once twice mask
  have hi : Word.instruction (BitVec.ofInt 16 w) = .draw x y height :=
    (congrArg Word.instruction hw).trans (Word.instruction_draw x y height)
  have honce : once = m.execute source (BitVec.ofInt 16 w) := m.handle_execute source w
  have htwice : twice = once.execute source' (BitVec.ofInt 16 w) := once.handle_execute source' w
  have hsame {p : Part} (hd : p ≠ .display) (hf : p ≠ .register Register.flag) :
      p.Same m once ∧ p.Same once twice := by
    rw [htwice]
    refine ⟨?_, same_of_draw hi hd hf⟩
    rw [honce]
    exact same_of_draw hi hd hf
  -- the second execution draws the same sprite at the same place
  have hregister {r : Register} (hr : r ≠ Register.flag) :
      (Part.register r).Same m once :=
    (hsame (p := .register r) nofun fun h => hr (Part.register.inj h)).1
  have hsprite : once.core.sprite height = m.core.sprite height := by
    rw [honce, execute_draw source m hi]
    rfl
  have hdisplay : once.display = _ := (congrArg display honce).trans (display_of_draw hi)
  have hdisplay' : twice.display = _ := (congrArg display htwice).trans (display_of_draw hi)
  have hflag : once.core.registers[Register.flag] = _ :=
    (congrArg (·.core.registers[Register.flag]) honce).trans (flag_of_draw hi)
  have hflag' : twice.core.registers[Register.flag] = _ :=
    (congrArg (·.core.registers[Register.flag]) htwice).trans (flag_of_draw hi)
  rw [hregister hx, hregister hy, hsprite, hdisplay] at hdisplay' hflag'
  have hrestored : twice.display = m.display := by rw [hdisplay', Frame.draw_draw]
  refine ⟨hrestored, ?_, ?_, ?_, fun part hf => ⟨?_, fun hd => (hsame hd hf).1⟩⟩
  · rw [hflag, Byte.ofFlag_eq_one_iff, Frame.collides_iff, mask_sprite_eq]
  · rw [hflag', Byte.ofFlag_eq_one_iff, Frame.collides_draw_iff, mask_sprite_eq]
  · rw [hflag, hflag', Byte.ofFlag_eq_zero_iff, Byte.ofFlag_eq_zero_iff, Frame.mask_eq_blank_iff,
      mask_sprite_eq]
  · by_cases hd : part = .display
    · rw [hd]
      exact hrestored
    · exact (hsame hd hf).1.trans (hsame hd hf).2

/-- A sprite that goes around both edges of the display. One of its pixels is on at first. -/
theorem redraw_of_execute_corner :
    let m : Machine :=
      { create ⟨0, 0⟩ with
        core.memory := Memory.blank.store 0xFFE [0xC0, 0x80]
        core.registers := ((Bank.fill 0).set 0 63).set 1 31
        core.index := 0xFFE
        display := Frame.blank.draw 0 31 [0x80] }
    let once := m.handle (.constant 0) (.execute 0xD012)
    let twice := once.handle (.constant 0) (.execute 0xD012)
    twice.display = m.display ∧ once.core.registers[Register.flag] = 1 ∧
      twice.core.registers[Register.flag] = 1 ∧ twice.core.index = 0xFFE := by
  intro m once twice
  have hw : BitVec.ofInt 16 0xD012 = 0xD#4 ++ 0x0#4 ++ 0x1#4 ++ 0x2#4 := by decide
  have hon : m.display.pixel 0 31 = true ∧ (m.spriteMask 0#4 1#4 2#4).pixel 0 31 = true := by
    decide +kernel
  have hoff : m.display.pixel 63 0 = false ∧ (m.spriteMask 0#4 1#4 2#4).pixel 63 0 = true := by
    decide +kernel
  obtain ⟨hdisplay, hfirst, hsecond, -, hsame⟩ :=
    redraw_of_execute (.constant 0) (.constant 0) m hw (by decide) (by decide)
  exact ⟨hdisplay, hfirst.mpr ⟨0, 31, hon⟩, hsecond.mpr ⟨63, 0, hoff⟩, (hsame .index nofun).1⟩

end Machine

end Chip8
