/-!
# Pieces and lines

A list is cut into pieces of `k` elements, the last of which may be shorter (`piece`). Put together
again, the pieces make up the list (`flatMap_piece`). A list that is made of parts of `k` elements
each has the parts as its pieces (`piece_flatMap`), so quotient and remainder of a position tell the
part and the place in it (`getElem?_flatMap_of_length`).

Of a history that starts anew now and then, what counts is what comes after the last start
(`since`): such a start leaves nothing, and anything else is added (`since_append`).

A text is cut at its newlines, which gives back the lines that it was made of (`lines_intercalate`).
What is read back from each of them is read back from all (`mapM_map_of_forall`).
-/
namespace Chip8

variable {α β : Type} {k : Nat}

/-- The piece with number `i` of a list that is cut into pieces of `k` elements. -/
def piece (k i : Nat) (l : List α) : List α := (l.drop (i * k)).take k

theorem length_piece (k i : Nat) (l : List α) :
    (piece k i l).length = min k (l.length - i * k) := by
  rw [piece, List.length_take, List.length_drop]

theorem getElem?_piece {r : Nat} (i : Nat) (l : List α) (hr : r < k) :
    (piece k i l)[r]? = l[i * k + r]? := by
  rw [piece, List.getElem?_take_of_lt hr, List.getElem?_drop]

/-- The first pieces make up the beginning of a list. -/
theorem flatMap_range_piece (k n : Nat) (l : List α) :
    (List.range n).flatMap (piece k · l) = l.take (n * k) := by
  induction n with
  | zero => simp
  | succ n ih =>
    rw [List.range_succ, List.flatMap_append, ih, List.flatMap_singleton, piece, Nat.succ_mul,
      List.take_add]

/-- As many pieces as it takes make up the list. -/
theorem flatMap_piece (hk : 0 < k) (l : List α) :
    (List.range ((l.length + k - 1) / k)).flatMap (piece k · l) = l := by
  rw [flatMap_range_piece]
  apply List.take_of_length_le
  have := Nat.div_add_mod (l.length + k - 1) k
  have := Nat.mod_lt (l.length + k - 1) hk
  rw [Nat.mul_comm]
  omega

section
variable {l : List α} {f : α → List β} (h : ∀ a ∈ l, (f a).length = k)
include h

/-- The pieces of a list are the parts that it was made of. -/
theorem piece_flatMap (i : Nat) : piece k i (l.flatMap f) = l[i]?.elim [] f := by
  induction l generalizing i with
  | nil => simp [piece]
  | cons a l ih =>
    obtain ⟨ha, hl⟩ := List.forall_mem_cons.mp h
    rw [List.flatMap_cons]
    cases i with
    | zero => simp [piece, ← ha]
    | succ i =>
      rw [List.getElem?_cons_succ, ← ih hl i, piece, piece, Nat.succ_mul, Nat.add_comm,
        ← List.drop_drop, ← ha, List.drop_left]

theorem length_flatMap_of_length : (l.flatMap f).length = l.length * k := by
  rw [List.length_flatMap, List.map_congr_left h, List.map_const', List.sum_replicate_nat]

theorem getElem?_flatMap_of_length (hk : 0 < k) (i : Nat) :
    (l.flatMap f)[i]? = l[i / k]?.bind fun a => (f a)[i % k]? := by
  have hpiece := getElem?_piece (i / k) (l.flatMap f) (Nat.mod_lt i hk)
  rw [piece_flatMap h, Nat.mul_comm, Nat.div_add_mod] at hpiece
  rw [← hpiece]
  cases l[i / k]? <;> rfl

end

/-! ## Since the last -/

/-- The elements behind the last one that starts anew. -/
def since (starts : α → Bool) (l : List α) : List α :=
  (l.reverse.takeWhile fun a => !starts a).reverse

theorem since_append (starts : α → Bool) (l : List α) (a : α) :
    since starts (l ++ [a]) = if starts a then [] else since starts l ++ [a] := by
  unfold since
  cases h : starts a <;> simp [h]

/-! ## Lines -/

/-- The lines of a text. -/
def lines (s : String) : List (List Char) := s.toList.splitOn '\n'

theorem lines_intercalate {ls : List String} (hne : ls ≠ []) (h : ∀ l ∈ ls, '\n' ∉ l.toList) :
    lines ("\n".intercalate ls) = ls.map String.toList := by
  rw [lines, String.toList_intercalate]
  refine List.splitOn_intercalate '\n' ?_ (by simpa using hne)
  intro cs hcs
  obtain ⟨l, hl, rfl⟩ := List.mem_map.mp hcs
  exact h l hl

/-- What is read back from each element is read back from all. -/
theorem mapM_map_of_forall {f : β → Option α} {g : α → β} {l : List α}
    (h : ∀ a ∈ l, f (g a) = some a) : (l.map g).mapM f = some l := by
  induction l with
  | nil => rfl
  | cons a l ih =>
    obtain ⟨ha, hl⟩ := List.forall_mem_cons.mp h
    rw [List.map_cons, List.mapM_cons, ha, ih hl]
    rfl

end Chip8
