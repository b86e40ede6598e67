import Chip8.Picture.Raster

/-!
# Shapes of nested arrays

An array has a shape if it is as long as the first length and all that is in it has the shape of the
other lengths (`Nested.HasShape`). That is the shape that is found by looking, if it has no more
dimensions than arrays may have (`Nested.shape_eq_ok_iff`). The pixels of a raster are those of its
cells if and only if it has the shape of a frame (`Raster.pixels_eq_ok_iff`); otherwise, it is
reported that it has no shape or that it has another one (`Raster.pixels_eq_error_iff`).
-/
namespace Chip8

namespace Outline

theorem common_self (l : List Nat) : common l l = l := by
  induction l with
  | nil => rfl
  | cons a l ih => rw [common, if_pos rfl, ih]

theorem eq_mk_iff {o : Outline} {l : List Nat} {r : Bool} :
    o = ⟨l, r⟩ ↔ o.lengths = l ∧ o.ragged = r := by
  obtain ⟨l', r'⟩ := o
  exact Outline.mk.injEq .. ▸ Iff.rfl

/-- Two parts side by side have one shape if each of them has it. -/
theorem meet_eq_iff {o p : Outline} {s : List Nat} :
    o.meet p = ⟨s, false⟩ ↔ o = ⟨s, false⟩ ∧ p = ⟨s, false⟩ := by
  obtain ⟨l, r⟩ := o
  obtain ⟨k, q⟩ := p
  simp only [meet, Outline.mk.injEq, Bool.or_eq_false_iff, decide_eq_false_iff_not,
    Decidable.not_not]
  constructor
  · rintro ⟨h, ⟨rfl, rfl⟩, rfl⟩
    rw [common_self] at h
    exact ⟨⟨h, rfl⟩, h, rfl⟩
  · rintro ⟨⟨rfl, rfl⟩, rfl, rfl⟩
    exact ⟨common_self _, ⟨rfl, rfl⟩, rfl⟩

theorem foldl_meet_eq_iff {o : Outline} {os : List Outline} {s : List Nat} :
    os.foldl meet o = ⟨s, false⟩ ↔ o = ⟨s, false⟩ ∧ ∀ p ∈ os, p = ⟨s, false⟩ := by
  induction os generalizing o with
  | nil => simp
  | cons p os ih => rw [List.foldl_cons, ih, meet_eq_iff, List.forall_mem_cons, and_assoc]

theorem ofItems_eq_iff {os : List Outline} {n : Nat} {s : List Nat} :
    ofItems os = ⟨n :: s, false⟩ ↔
      os.length = n ∧ (os = [] → s = []) ∧ ∀ p ∈ os, p = ⟨s, false⟩ := by
  cases os with
  | nil => simp [ofItems, eq_comm]
  | cons o os =>
    rw [List.forall_mem_cons, ← foldl_meet_eq_iff, eq_mk_iff (o := os.foldl meet o)]
    simp only [ofItems, Outline.mk.injEq, List.cons.injEq, List.length_cons, reduceCtorEq,
      false_implies, true_and, and_assoc]

end Outline

namespace Nested

variable {α : Type}

/-- The array is as long as the first length, and what is in it has the shape of the others. There
is nothing to be seen of these in an empty list. -/
def HasShape : Nested α → List Nat → Prop
  | leaf _, [] => True
  | list items, n :: lengths =>
    items.length = n ∧ (items = [] → lengths = []) ∧ ∀ item ∈ items, item.HasShape lengths
  | _, _ => False

theorem outline_eq_iff {cells : Nested α} {s : List Nat} :
    cells.outline = ⟨s, false⟩ ↔ cells.HasShape s := by
  induction s generalizing cells with
  | nil => cases cells with
    | leaf a => simp [outline, HasShape]
    | list items => cases items <;> simp [outline, HasShape, Outline.ofItems]
  | cons n s ih => cases cells with
    | leaf a => simp [outline, HasShape]
    | list items =>
      rw [outline, Outline.ofItems_eq_iff, List.length_map, List.map_eq_nil_iff, HasShape,
        List.forall_mem_map]
      simp only [ih]

theorem shape_eq_ok_iff {cells : Nested α} {s : List Nat} :
    cells.shape = .ok s ↔ cells.HasShape s ∧ s.length ≤ 64 := by
  rw [← outline_eq_iff, shape]
  generalize cells.outline = o
  obtain ⟨lengths, ragged⟩ := o
  simp only [show maxDimensions = 64 from rfl, Outline.mk.injEq]
  split
  case isTrue h =>
    refine ⟨nofun, ?_⟩
    rintro ⟨⟨rfl, rfl⟩, hle⟩
    simp at h
    omega
  case isFalse h =>
    cases ragged with
    | true => simp
    | false =>
      simp only [Bool.false_eq_true, if_false, Except.ok.injEq, and_true]
      refine ⟨?_, And.left⟩
      rintro rfl
      exact ⟨rfl, by omega⟩

end Nested

namespace Raster

/-- The array of a raster has a shape. -/
def HasShape : Raster → List Nat → Prop
  | frame _, s => s = frameShape
  | blank shape, s => s = shape
  | nested cells, s => cells.HasShape s

theorem shape_eq_ok_iff {r : Raster} : r.shape = .ok frameShape ↔ r.HasShape frameShape := by
  cases r with
  | frame f => exact iff_of_true rfl rfl
  | blank s =>
    rw [Raster.shape, Except.ok.injEq]
    exact eq_comm
  | nested cells => exact Nested.shape_eq_ok_iff.trans (and_iff_left (by decide))

/-- Why a raster cannot be shown, with what is reported. -/
inductive Unfit (r : Raster) : Failure → Prop where
  | shapeless {e : Failure} (h : r.shape = .error e) : Unfit r e
  | misshapen {s : List Nat} (hs : r.shape = .ok s) (hne : s ≠ frameShape) : Unfit r (.frameShape s)

theorem pixels_eq_error_iff {r : Raster} {e : Failure} : r.pixels = .error e ↔ r.Unfit e := by
  constructor
  · intro h
    rw [Raster.pixels] at h
    cases hs : r.shape with
    | error e' =>
      simp only [hs, Except.error.injEq] at h
      exact h ▸ .shapeless hs
    | ok s =>
      by_cases hne : s = frameShape
      · simp [hs, hne] at h
      · simp only [hs, if_neg hne, Except.error.injEq] at h
        exact h ▸ .misshapen hs hne
  · intro h
    rw [Raster.pixels]
    cases h with
    | shapeless hs => rw [hs]
    | misshapen hs hne => simp only [hs, if_neg hne]

theorem pixels_eq_ok_iff {r : Raster} {pixels : Pixels} :
    r.pixels = .ok pixels ↔ r.HasShape frameShape ∧ pixels = r.pixel := by
  rw [← shape_eq_ok_iff, Raster.pixels]
  cases r.shape with
  | error e => simp
  | ok s =>
    by_cases hs : s = frameShape
    · simp [hs, eq_comm]
    · simp [hs]

end Raster

end Chip8
