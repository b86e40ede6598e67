/-!
# Banks of cells

A bank of width `w` has one cell for each of the `2 ^ w` words of that width, so every access is in
range and offsets wrap around the end of the bank. Memory, the registers, the entries of the call
stack and the rows of the screen are banks. The view of a bank is the function from words to cells:
`ext` says that it determines the bank, and each operation has one lemma through it.
-/
namespace Chip8

/-- The number of words of width `w`. -/
def Bank.size (w : Nat) : Nat := Nat.pow 2 w

structure Bank (w : Nat) (α : Type) where
  cells : Vector α (Bank.size w)
  deriving DecidableEq, Repr

namespace Bank

variable {w : Nat} {α : Type}

@[simp] theorem toNat_lt_size (i : BitVec w) : i.toNat < size w := i.isLt

instance : GetElem (Bank w α) (BitVec w) α fun _ _ => True where
  getElem b i _ := b.cells[i.toNat]

/-- The bank with the cell `i` replaced. -/
def set (b : Bank w α) (i : BitVec w) (a : α) : Bank w α :=
  ⟨b.cells.set i.toNat a (toNat_lt_size i)⟩

/-- The bank whose cell at `i` is `f i`. -/
def ofFn (f : BitVec w → α) : Bank w α := ⟨Vector.ofFn fun i => f (BitVec.ofNat w i)⟩

/-- The bank that holds `a` everywhere. -/
def fill (a : α) : Bank w α := ⟨Vector.replicate (size w) a⟩

/-- The cells in order of their index. -/
def toList (b : Bank w α) : List α := b.cells.toList

theorem getElem_eq (b : Bank w α) (i : BitVec w) : b[i] = b.cells[i.toNat] := rfl

@[ext] theorem ext {b d : Bank w α} (h : ∀ i : BitVec w, b[i] = d[i]) : b = d := by
  obtain ⟨b⟩ := b
  obtain ⟨d⟩ := d
  congr 1
  apply Vector.ext
  intro i hi
  have := h (BitVec.ofFin ⟨i, hi⟩)
  simpa only [getElem_eq, BitVec.toNat_ofFin] using this

@[simp] theorem getElem_set_self (b : Bank w α) (i : BitVec w) (a : α) : (b.set i a)[i] = a := by
  simp [getElem_eq, set]

theorem getElem_set_ne (b : Bank w α) {i j : BitVec w} (a : α) (h : i ≠ j) :
    (b.set i a)[j] = b[j] := by
  simp only [getElem_eq, set]
  rw [Vector.getElem_set_ne]
  intro hij
  exact h (BitVec.eq_of_toNat_eq hij)

theorem getElem_set (b : Bank w α) (i j : BitVec w) (a : α) :
    (b.set i a)[j] = if i = j then a else b[j] := by
  by_cases h : i = j
  · subst h
    simp
  · rw [getElem_set_ne b a h, if_neg h]

@[simp] theorem getElem_ofFn (f : BitVec w → α) (i : BitVec w) : (ofFn f)[i] = f i := by
  simp only [getElem_eq, ofFn, Vector.getElem_ofFn, BitVec.ofNat_toNat, BitVec.setWidth_eq]

@[simp] theorem getElem_fill (a : α) (i : BitVec w) : (fill a : Bank w α)[i] = a := by
  simp [getElem_eq, fill]

theorem length_toList (b : Bank w α) : b.toList.length = size w := Vector.length_toList

theorem getElem?_toList (b : Bank w α) (i : BitVec w) : b.toList[i.toNat]? = some b[i] := by
  rw [toList, Vector.getElem?_toList, Vector.getElem?_eq_getElem (toNat_lt_size i), getElem_eq]

theorem toList_inj {b d : Bank w α} (h : b.toList = d.toList) : b = d := by
  apply ext
  intro i
  have hi := b.getElem?_toList i
  rw [h, getElem?_toList] at hi
  exact (Option.some.inj hi).symm

end Bank

end Chip8
