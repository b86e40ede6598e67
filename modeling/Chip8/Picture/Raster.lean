import Chip8.Failure
import Chip8.Frame

/-!
# Rasters

What is to be shown is a frame or an array that may not have the shape of one. Arrays come as nested
lists, whose shape has to be found, or as a shape alone, for which there has to be room. A frame is
shown as text here and as an image elsewhere.
-/
namespace Chip8

/-!
## Nested arrays

An array given as lists in lists, whose shape is found by looking. Arrays of one shape side by side
make an array with one more dimension. Where they differ, the whole is ragged from the first
difference on: its shape is known only as far as its parts agree.
-/

inductive Nested (α : Type) where
  | leaf (a : α)
  | list (items : List (Nested α))
  deriving Repr

instance {α : Type} : Inhabited (Nested α) := ⟨.list []⟩

/-- What can be said of a shape: its first lengths, and whether it is ragged below them. -/
structure Outline where
  lengths : List Nat
  ragged : Bool
  deriving DecidableEq, Repr

namespace Outline

/-- The longest common beginning of two lists. -/
def common : List Nat → List Nat → List Nat
  | a :: as, b :: bs => if a = b then a :: common as bs else []
  | _, _ => []

/-- What two parts side by side agree on. -/
def meet (o p : Outline) : Outline :=
  ⟨common o.lengths p.lengths, o.ragged || p.ragged || o.lengths ≠ p.lengths⟩

/-- The outline of a list whose items have the given outlines. -/
def ofItems : List Outline → Outline
  | [] => ⟨[0], false⟩
  | o :: os =>
    let all := os.foldl meet o
    ⟨(os.length + 1) :: all.lengths, all.ragged⟩

end Outline

namespace Nested

variable {α : Type}

def outline : Nested α → Outline
  | leaf _ => ⟨[], false⟩
  | list items => .ofItems (items.map outline)

/-- The leaves from left to right. -/
def leaves : Nested α → List α
  | leaf a => [a]
  | list items => items.flatMap leaves

/-- The leaf at an index. -/
def entry? : Nested α → List Nat → Option α
  | leaf a, [] => some a
  | list items, i :: is =>
    match items[i]? with
    | none => none
    | some item => entry? item is
  | _, _ => none

/-- The most dimensions that an array can have. -/
def maxDimensions : Nat := 64

/-- The shape, if the array has few enough dimensions and is not ragged. -/
def shape (n : Nested α) : Except Failure (List Nat) :=
  let o := n.outline
  if maxDimensions < o.lengths.length ∨ (o.ragged ∧ o.lengths.length = maxDimensions) then
    .error .dimensions
  else if o.ragged then .error (.ragged o.lengths) else .ok o.lengths

end Nested

/-!
## Room for arrays

An array of cells of one byte each is refused if there is no room for it. Its lengths and its size
are counted in signed words of 64 bits. An array with a length of zero takes no room, but its other
lengths must not make a size beyond 64 bits either. How many bytes there are for one array is not
for the program to say, so it is given wherever an array is made (`Room`). For positive lengths
there is room exactly if the size is no more than that (`check_eq_ok_iff`).
-/

/-- The bytes that there are for one array. They are enough for the numbers that a frame is turned
into on the way to an image, and no more than a signed word of 64 bits can count. -/
structure Room where
  bytes : Nat
  le_bytes : 0x4000 ≤ bytes
  bytes_lt : bytes < 0x8000000000000000

namespace Room

/-- The number of cells of an array. -/
def cells (lengths : List Int) : Int := lengths.foldr (· * ·) 1

/-- Refuse lengths that are negative or make a size that is no signed word, where `size` is that of
the lengths before. The first such length decides. Lengths of zero are left out. -/
def countable (size : Int) : List Int → Except Failure Unit
  | [] => .ok ()
  | n :: ns =>
    if n < 0 then .error .lengthSign
    else if 0x8000000000000000 ≤ size * n then .error .arraySize
    else countable (if n = 0 then size else size * n) ns

/-- Refuse an array for which there is no room. A length that is no signed word wraps around before
it is counted. -/
def check (room : Room) (kind : CellKind) (shape : List Int) : Except Failure Unit :=
  let lengths := shape.map fun n => n.bmod 0x10000000000000000
  match countable 1 lengths with
  | .error e => .error e
  | .ok () =>
    if room.bytes < cells shape then .error (.arrayMemory kind (lengths.map Int.toNat)) else .ok ()

theorem self_le_mul {m n : Int} (hm : 0 < m) (hn : 0 < n) : m ≤ m * n := by
  simpa using Int.mul_le_mul_of_nonneg_left (show 1 ≤ n by omega) (Int.le_of_lt hm)

theorem cells_three (m n k : Int) : cells [m, n, k] = m * n * k := by
  simp [cells, Int.mul_assoc]

/-- There is room for an array with three positive lengths exactly if its size is no more than the
bytes that there are. -/
theorem check_eq_ok_iff (room : Room) (kind : CellKind) {m n k : Int} (hm : 0 < m) (hn : 0 < n)
    (hk : 0 < k) : room.check kind [m, n, k] = .ok () ↔ m * n * k ≤ room.bytes := by
  have hcells := cells_three m n k
  constructor
  · intro h
    simp only [check, hcells] at h
    split at h
    · contradiction
    · split at h
      · contradiction
      · omega
  · intro h
    have hlt := room.bytes_lt
    have hmn : m * n ≤ m * n * k := self_le_mul (Int.mul_pos hm hn) hk
    have hm' : m ≤ m * n := self_le_mul hm hn
    have hn' : n ≤ m * n := Int.mul_comm n m ▸ self_le_mul hn hm
    have hk' : k ≤ m * n * k := Int.mul_comm k (m * n) ▸ self_le_mul hk (Int.mul_pos hm hn)
    have hword (i : Int) (h0 : 0 < i) (hi : i ≤ room.bytes) : i.bmod 0x10000000000000000 = i :=
      Int.bmod_eq_of_le_mul_two (by omega) (by omega)
    have hcount : countable 1 [m, n, k] = .ok () := by
      have h1 : ¬0x8000000000000000 ≤ m := by omega
      have h2 : ¬0x8000000000000000 ≤ m * n := by omega
      have h3 : ¬0x8000000000000000 ≤ m * n * k := by omega
      simp only [countable, Int.one_mul, Int.not_lt.mpr (Int.le_of_lt hm),
        Int.not_lt.mpr (Int.le_of_lt hn), Int.not_lt.mpr (Int.le_of_lt hk), Int.ne_of_gt hm,
        Int.ne_of_gt hn, h1, h2, h3, if_false]
    simp only [check, List.map_cons, List.map_nil, hword m hm (by omega), hword n hn (by omega),
      hword k hk (by omega), hcount, hcells]
    exact if_neg (by omega)

end Room

/-!
## Rasters

What is to be shown: a frame, or an array of numbers that may or may not have the shape of one, 64
columns of 32 pixels each. A number is a pixel that is on unless it is zero.
-/

inductive Raster where
  | frame (f : Frame)
  /-- An array of a given shape with all pixels off. -/
  | blank (shape : List Nat)
  | nested (cells : Nested Int)
  deriving Repr

/-- A pixel for every column and row. -/
abbrev Pixels := Column → Row → Bool

namespace Raster

/-- The array of the given lengths with all pixels off. -/
def ofShape (room : Room) (lengths : List Int) : Except Failure Raster :=
  if Nested.maxDimensions < lengths.length then .error (.dimensionCount lengths.length)
  else if lengths.any fun n => n < -0x8000000000000000 ∨ 0x8000000000000000 ≤ n then
    .error .lengthSize
  else (room.check .pixel lengths).map fun _ => .blank (lengths.map Int.toNat)

/-- The shape of a frame. -/
def frameShape : List Nat := [Frame.width, Frame.height]

def shape : Raster → Except Failure (List Nat)
  | frame _ => .ok frameShape
  | blank shape => .ok shape
  | nested cells => cells.shape

/-- The pixel at a column and a row; what is not there is off. -/
def pixel : Raster → Pixels
  | frame f => f.pixel
  | blank _ => fun _ _ => false
  | nested cells => fun x y => (cells.entry? [x.toNat, y.toNat]).elim false (· ≠ 0)

/-- The pixels of a raster in the shape of a frame (`_as_frame`). -/
def pixels (r : Raster) : Except Failure Pixels :=
  match r.shape with
  | .error e => .error e
  | .ok shape => if shape = frameShape then .ok r.pixel else .error (.frameShape shape)

end Raster

/-- The columns of a frame, from left to right. -/
def Column.all : List Column := (List.finRange 64).map BitVec.ofFin

/-- The rows of a frame, from top to bottom. -/
def Row.all : List Row := (List.finRange 32).map BitVec.ofFin

@[simp] theorem Column.length_all : Column.all.length = 64 := by simp [Column.all]

@[simp] theorem Row.length_all : Row.all.length = 32 := by simp [Row.all]

theorem getElem?_finRange {n : Nat} (i : Fin n) : (List.finRange n)[i.val]? = some i := by
  rw [List.getElem?_eq_getElem (by simp), List.getElem_finRange]
  rfl

theorem Column.getElem?_all (x : Column) : Column.all[x.toNat]? = some x := by
  rw [Column.all, List.getElem?_map]
  exact congrArg (Option.map BitVec.ofFin) (getElem?_finRange x.toFin)

theorem Row.getElem?_all (y : Row) : Row.all[y.toNat]? = some y := by
  rw [Row.all, List.getElem?_map]
  exact congrArg (Option.map BitVec.ofFin) (getElem?_finRange y.toFin)

/-!
## Sketches

A raster as text: one line for each row, one mark for each pixel.
-/

namespace Sketch

/-- The line of a row. -/
def line (on off : String) (pixels : Pixels) (y : Row) : String :=
  String.join (Column.all.map fun x => if pixels x y then on else off)

/-- The lines of all rows, parted by newlines. -/
def ofPixels (on off : String) (pixels : Pixels) : String :=
  "\n".intercalate (Row.all.map (line on off pixels))

/-- Draw a raster as text (`frame_to_text`). -/
def render (raster : Raster) (on off : String) : Except Failure String :=
  raster.pixels.map (ofPixels on off)

end Sketch

end Chip8
