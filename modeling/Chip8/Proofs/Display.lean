import Chip8.Proofs.History
import Chip8.Proofs.Run
import Chip8.Proofs.SpriteRows

/-!
# The display and its history

A frame that is drawn on a frame goes onto it by exclusive or, so it does not matter in which order
frames are laid over each other: a pixel is on exactly if an odd number of them have it on
(`pixel_overlay`, `overlay_perm`).

The display of a machine is what has been drawn since it was last cleared or reset (`drawings`).
Each instruction that draws adds the mask of its sprite, taken from the registers, index and memory
that it has found, or nothing if the sprite does not fit in memory (`Machine.stamp`); nothing else
that happens to a machine changes a pixel. `display_of_play` says so of every run.
-/
namespace Chip8

namespace Frame

/-- The frames laid over each other. -/
def overlay (frames : List Frame) : Frame := frames.foldl (· ^^^ ·) blank

theorem overlay_append (frames : List Frame) (f : Frame) :
    overlay (frames ++ [f]) = overlay frames ^^^ f := List.foldl_append

theorem pixel_foldl_xor (frames : List Frame) (f : Frame) (x : Column) (y : Row) :
    (frames.foldl (· ^^^ ·) f).pixel x y =
      (f.pixel x y ^^ decide (frames.countP (fun g => g.pixel x y) % 2 = 1)) := by
  induction frames generalizing f with
  | nil => simp
  | cons g frames ih =>
    rw [List.foldl_cons, ih, pixel_xor, List.countP_cons, Bool.xor_assoc]
    congr 1
    cases g.pixel x y with
    | false => simp
    | true =>
      rw [Bool.eq_iff_iff]
      simp
      omega

/-- A pixel is on exactly if an odd number of the frames have it on. -/
theorem pixel_overlay (frames : List Frame) (x : Column) (y : Row) :
    (overlay frames).pixel x y = decide (frames.countP (fun g => g.pixel x y) % 2 = 1) := by
  rw [overlay, pixel_foldl_xor, pixel_blank, Bool.false_xor]

/-- The order of the frames does not matter. -/
theorem overlay_perm {frames others : List Frame} (h : frames.Perm others) :
    overlay frames = overlay others := by
  ext x y
  rw [pixel_overlay, pixel_overlay, h.countP_eq]

end Frame

namespace Machine

/-- What an instruction adds to the display that draws a sprite of a given height at the column in
register `x` and the row in register `y`: its mask, or nothing if it does not fit in memory. -/
def stamp (m : Machine) (x y : Register) (height : BitVec 4) : List Frame :=
  if m.core.index.toNat + height.toNat ≤ 4096 then
    [Frame.mask (m.core.registers[x].setWidth 6) (m.core.registers[y].setWidth 5)
      ((List.range height.toNat).map fun k =>
        m.core.memory[BitVec.ofNat 12 (m.core.index.toNat + k)])]
  else []

/-- The masks on the display after one more deed. -/
def drawn (masks : List Frame) : Deed → List Frame
  | .executed m w =>
    match w.instruction with
    | .clearScreen => []
    | .draw x y height => masks ++ m.stamp x y height
    | _ => masks
  | .outside .reset => []
  | .outside _ => masks

/-- The masks that were drawn since the display was last cleared or reset. -/
def drawings (past : List Deed) : List Frame := past.foldl drawn []

theorem drawings_append (past : List Deed) (d : Deed) :
    drawings (past ++ [d]) = drawn (drawings past) d := List.foldl_append

theorem overlay_stamp {m : Machine} {masks : List Frame} (h : m.display = .overlay masks)
    (x y : Register) (height : BitVec 4) :
    Frame.overlay (masks ++ m.stamp x y height) =
      m.display.draw (m.core.registers[x].setWidth 6) (m.core.registers[y].setWidth 5)
        (m.core.sprite height) := by
  unfold stamp
  split
  · rename_i hfits
    rw [Frame.overlay_append, ← h, Frame.draw, Core.mask_sprite hfits,
      ← Core.bytes_eq_covered hfits, Memory.bytes]
    congr 3
    funext k
    congr 1
    apply BitVec.eq_of_toNat_eq
    simp [Word.address]
  · rename_i hover
    rw [List.append_nil, ← h, Frame.draw, Core.mask_sprite_of_lt (by omega), Frame.xor_blank]

theorem execute_display (source : ByteSource) (m : Machine) (w : Word) :
    (m.execute source w).display =
      match w.instruction with
      | .clearScreen => .blank
      | .draw x y height =>
        m.display.draw (m.core.registers[x].setWidth 6) (m.core.registers[y].setWidth 5)
          (m.core.sprite height)
      | _ => m.display := by
  rw [execute_eq]
  exact perform_display source m.advanced _

/-! ## What happens to the display -/

theorem overlay_of_execute {past : List Deed} {m : Machine}
    (h : m.display = .overlay (drawings past)) (source : ByteSource) (w : Word) :
    (m.execute source w).display = .overlay (drawings (past ++ [.executed m w])) := by
  rw [execute_display, drawings_append]
  unfold drawn
  dsimp only
  split
  · rfl
  · exact (overlay_stamp h _ _ _).symm
  · exact h

theorem overlay_of_outside {past : List Deed} {m : Machine} {e : Event} (he : e.Outside)
    (h : m.display = .overlay (drawings past)) (source : ByteSource) :
    (m.handle source e).display = .overlay (drawings (past ++ [.outside e])) := by
  rw [drawings_append]
  cases e with
  | press k =>
    refine Eq.trans ?_ h
    change (m.press _).display = _
    rw [press_eq]
  | load program =>
    refine Eq.trans ?_ h
    rw [load_eq]
  | release k => exact h
  | tick => exact h
  | reset => rfl
  | _ => exact absurd he id

/-- **The display is the exclusive or of its history.** After any events in any order, the display
is what was drawn since it was last cleared or reset: a pixel is on exactly if an odd number of
masks have it on, and the masks may be taken in any order. -/
theorem display_of_play (key : RandomKey) (script : Script) :
    let m := (create key).play script
    let masks := drawings ((create key).history script)
    m.display = .overlay masks ∧
    (∀ x y, m.display.pixel x y = decide (masks.countP (fun mask => mask.pixel x y) % 2 = 1)) ∧
    ∀ order, order.Perm masks → m.display = .overlay order := by
  intro m masks
  have hstart : (create key).display = .overlay (drawings []) := rfl
  have h : m.display = .overlay masks :=
    history_induction (P := fun past m => m.display = .overlay (drawings past))
      (fun _ _ source w h => overlay_of_execute h source w)
      (fun _ _ source _ he h => overlay_of_outside he h source) script hstart
  refine ⟨h, fun x y => ?_, fun order hp => ?_⟩
  · rw [h, Frame.pixel_overlay]
  · rw [h, Frame.overlay_perm hp]

/-- A sprite is drawn, the memory under the index is overwritten, and the same word draws again: two
masks that are not the same, in either order. -/
theorem display_of_play_overwritten :
    let script : Script :=
      [.execute 0xD015, .execute 0x60FF, .execute 0xF055, .execute 0xD015].map (.constant 0, ·)
    ∃ a b, drawings ((create ⟨0, 0⟩).history script) = [a, b] ∧ a ≠ b ∧ [b, a].Perm [a, b] ∧
      ((create ⟨0, 0⟩).play script).display = .overlay [b, a] := by
  intro script
  obtain ⟨-, -, hperm⟩ := display_of_play ⟨0, 0⟩ script
  obtain ⟨a, b, hab, hne⟩ :
      ∃ a b, drawings ((create ⟨0, 0⟩).history script) = [a, b] ∧ a ≠ b :=
    ⟨_, _, rfl, by decide +kernel⟩
  rw [hab] at hperm
  exact ⟨a, b, hab, hne, .swap a b [], hperm _ (.swap a b [])⟩

end Machine

end Chip8
