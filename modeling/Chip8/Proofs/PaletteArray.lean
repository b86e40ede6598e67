import Chip8.Picture.Image
import Chip8.Proofs.ArrayShape

/-!
# Palettes as arrays

A palette is an array with a row for each of its colours (`Palette.array`). An array makes a palette
if and only if it is the array of that palette (`Palette.ofNested_eq_ok_iff`), and it is one of a
palette if it has two rows of three numbers that are bytes (`Palette.exists_array_iff`). All else is
refused: an array without a shape first, then the first number that is no byte, and another shape
last (`Palette.ofNested_eq_error_iff`).
-/
namespace Chip8

namespace Byte

/-- The number is no byte. -/
def Beyond (i : Int) : Prop := i < 0 ∨ 255 < i

instance (i : Int) : Decidable (Beyond i) := inferInstanceAs (Decidable (_ ∨ _))

theorem not_beyond_iff {i : Int} : ¬ Beyond i ↔ ∃ b : Byte, i = b.toNat := by
  rw [Beyond, ← ofInt?_eq_none_iff, ← ne_eq, Option.ne_none_iff_exists']
  simp only [ofInt?_eq_some_iff]

theorem ofInts_numbers (bs : List Byte) : ofInts (numbers bs) = .ok bs := by
  induction bs with
  | nil => rfl
  | cons b bs ih =>
    rw [numbers, List.map_cons, ofInts, ofInt?_eq_some_iff.mpr rfl, ← numbers, ih]
    rfl

/-- The first number that is no byte is reported. -/
theorem ofInts_of_find? {is : List Int} {i : Int} (h : is.find? (Beyond ·) = some i) :
    ofInts is = .error (.byteRange i) := by
  induction is with
  | nil => contradiction
  | cons j is ih =>
    rw [ofInts]
    by_cases hj : Beyond j
    · simp only [List.find?_cons, hj, decide_true, Option.some.injEq] at h
      rw [ofInt?_eq_none_iff.mpr hj, h]
    · simp only [List.find?_cons, hj, decide_false] at h
      obtain ⟨b, rfl⟩ := not_beyond_iff.mp hj
      rw [ofInt?_eq_some_iff.mpr rfl, ih h]
      rfl

end Byte

/-! ## Arrays of two rows of three -/

namespace Nested

variable {α : Type} {cells : Nested α}

theorem hasShape_nil : cells.HasShape [] ↔ ∃ a, cells = leaf a := by
  cases cells <;> simp [HasShape]

theorem hasShape_three :
    cells.HasShape [3] ↔ ∃ a b c, cells = list [leaf a, leaf b, leaf c] := by
  constructor
  · intro h
    cases cells with
    | leaf a => exact h.elim
    | list items =>
      obtain ⟨hlength, -, hitems⟩ := h
      match items with
      | [x, y, z] =>
        simp only [List.forall_mem_cons, hasShape_nil] at hitems
        obtain ⟨⟨a, rfl⟩, ⟨b, rfl⟩, ⟨c, rfl⟩, -⟩ := hitems
        exact ⟨a, b, c, rfl⟩
  · rintro ⟨a, b, c, rfl⟩
    simp [HasShape]

theorem hasShape_two_three :
    cells.HasShape [2, 3] ↔ ∃ a b c a' b' c',
      cells = list [list [leaf a, leaf b, leaf c], list [leaf a', leaf b', leaf c']] := by
  constructor
  · intro h
    cases cells with
    | leaf a => exact h.elim
    | list items =>
      obtain ⟨hlength, -, hitems⟩ := h
      match items with
      | [x, y] =>
        simp only [List.forall_mem_cons, hasShape_three] at hitems
        obtain ⟨⟨a, b, c, rfl⟩, ⟨a', b', c', rfl⟩, -⟩ := hitems
        exact ⟨a, b, c, a', b', c', rfl⟩
  · rintro ⟨a, b, c, a', b', c', rfl⟩
    simp [HasShape]

end Nested

/-- The row of a colour: its red, its green and its blue. -/
def Colour.array (c : Colour) : Nested Int :=
  .list [.leaf c.red.toNat, .leaf c.green.toNat, .leaf c.blue.toNat]

namespace Palette

/-- The array of a palette: a row for the pixels that are off and one for those that are on. -/
def array (p : Palette) : Nested Int := .list [p.off.array, p.on.array]

/-- The bytes of a palette, in the order of its array. -/
def bytes (p : Palette) : List Byte :=
  [p.off.red, p.off.green, p.off.blue, p.on.red, p.on.green, p.on.blue]

theorem leaves_array (p : Palette) : p.array.leaves = Byte.numbers p.bytes := by
  simp [array, Colour.array, Nested.leaves, bytes, Byte.numbers]

theorem hasShape_array (p : Palette) : p.array.HasShape [2, 3] :=
  Nested.hasShape_two_three.mpr ⟨_, _, _, _, _, _, rfl⟩

/-- An array is that of a palette if it has two rows of three bytes. -/
theorem exists_array_iff {cells : Nested Int} :
    (∃ p : Palette, cells = p.array) ↔
      cells.HasShape [2, 3] ∧ ∀ i ∈ cells.leaves, ¬ Byte.Beyond i := by
  constructor
  · rintro ⟨p, rfl⟩
    exact ⟨p.hasShape_array, Byte.exists_numbers_iff.mp ⟨p.bytes, p.leaves_array⟩⟩
  · rintro ⟨hshape, hbytes⟩
    obtain ⟨a, b, c, a', b', c', rfl⟩ := Nested.hasShape_two_three.mp hshape
    simp only [Nested.leaves, List.flatMap_cons, List.flatMap_nil, List.append_nil,
      List.cons_append, List.nil_append, List.forall_mem_cons, Byte.not_beyond_iff] at hbytes
    obtain ⟨⟨r, rfl⟩, ⟨g, rfl⟩, ⟨b, rfl⟩, ⟨r', rfl⟩, ⟨g', rfl⟩, ⟨b', rfl⟩, -⟩ := hbytes
    exact ⟨⟨⟨r, g, b⟩, ⟨r', g', b'⟩⟩, rfl⟩

/-- Why an array makes no palette, with what is reported. -/
inductive Unfit (cells : Nested Int) : Failure → Prop where
  | shapeless {e : Failure} (h : cells.shape = .error e) : Unfit cells e
  | beyond {s : List Nat} {i : Int} (hs : cells.shape = .ok s)
    (hi : cells.leaves.find? (Byte.Beyond ·) = some i) : Unfit cells (.byteRange i)
  | misshapen {s : List Nat} (hs : cells.shape = .ok s)
    (hbytes : ∀ i ∈ cells.leaves, ¬ Byte.Beyond i) (hne : s ≠ [2, 3]) :
    Unfit cells (.paletteShape s)

theorem ofNested_array (p : Palette) : ofNested p.array = .ok p := by
  have hshape : p.array.shape = .ok [2, 3] :=
    Nested.shape_eq_ok_iff.mpr ⟨p.hasShape_array, by decide⟩
  rw [ofNested, hshape, leaves_array, Byte.ofInts_numbers]
  rfl

theorem ofNested_of_unfit {cells : Nested Int} {e : Failure} (h : Unfit cells e) :
    ofNested cells = .error e := by
  rw [ofNested]
  cases h with
  | shapeless h => rw [h]
  | beyond hs hi => simp only [hs, Byte.ofInts_of_find? hi]
  | misshapen hs hbytes hne =>
    obtain ⟨bs, hbs⟩ := Byte.exists_numbers_iff.mpr hbytes
    simp only [hs, hbs, Byte.ofInts_numbers]
    split
    · exact absurd rfl hne
    · rfl

/-- An array is that of a palette unless there is a reason why not. -/
theorem array_or_unfit (cells : Nested Int) :
    (∃ p : Palette, cells = p.array) ∨ ∃ e, Unfit cells e := by
  cases hs : cells.shape with
  | error e => exact .inr ⟨e, .shapeless hs⟩
  | ok s =>
    cases hi : cells.leaves.find? (Byte.Beyond ·) with
    | some i => exact .inr ⟨_, .beyond hs hi⟩
    | none =>
      have hbytes : ∀ i ∈ cells.leaves, ¬ Byte.Beyond i := by simpa using hi
      by_cases h : s = [2, 3]
      · exact .inl (exists_array_iff.mpr ⟨(Nested.shape_eq_ok_iff.mp (h ▸ hs)).1, hbytes⟩)
      · exact .inr ⟨_, .misshapen hs hbytes h⟩

variable {cells : Nested Int} {p : Palette} {e : Failure}

theorem ofNested_eq_ok_iff : ofNested cells = .ok p ↔ cells = p.array := by
  refine ⟨fun h => ?_, fun h => h ▸ p.ofNested_array⟩
  obtain ⟨q, rfl⟩ | ⟨e, he⟩ := array_or_unfit cells
  · rw [ofNested_array, Except.ok.injEq] at h
    rw [h]
  · rw [ofNested_of_unfit he] at h
    contradiction

theorem ofNested_eq_error_iff : ofNested cells = .error e ↔ Unfit cells e := by
  refine ⟨fun h => ?_, ofNested_of_unfit⟩
  obtain ⟨q, rfl⟩ | ⟨e', he⟩ := array_or_unfit cells
  · rw [ofNested_array] at h
    contradiction
  · rw [ofNested_of_unfit he, Except.error.injEq] at h
    exact h ▸ he

end Palette

end Chip8
