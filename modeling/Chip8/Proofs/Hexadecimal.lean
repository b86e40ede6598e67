import Chip8.Text.Number

/-!
# Reading hexadecimal text

Upper-case hexadecimal digits are read back as the number that they were written from, whatever
zeros stand in front (`value_chars`). A number that fits in a field of digits fills it exactly
(`length_chars`), and the field holds digits only (`isDigit_of_mem_chars`).
-/
namespace Chip8.Hex

/-- The character is an upper-case hexadecimal digit. -/
def IsDigit (c : Char) : Prop := c.isDigit = true ∨ 'A' ≤ c ∧ c ≤ 'F'

instance (c : Char) : Decidable (IsDigit c) := inferInstanceAs (Decidable (_ ∨ _ ∧ _))

/-- The number that a digit stands for. -/
def digitValue (c : Char) : Nat := if c.isDigit then c.toNat - 48 else c.toNat - 55

/-- The number that digits stand for, the most significant first. -/
def value (cs : List Char) : Nat := cs.foldl (fun n c => 16 * n + digitValue c) 0

/-- The last digit comes off the end. -/
theorem digits_eq (n : Nat) :
    digits n =
      (if n < 16 then [] else digits (n / 16)) ++ [(Nat.digitChar (n % 16)).toUpper] := by
  unfold digits
  rw [Nat.toDigits_eq_if (by decide)]
  split
  · rename_i h
    simp [Nat.mod_eq_of_lt h]
  · simp

theorem digitValue_digitChar {n : Nat} (h : n < 16) :
    digitValue (Nat.digitChar n).toUpper = n := by
  revert n
  decide

theorem isDigit_digitChar {n : Nat} (h : n < 16) : IsDigit (Nat.digitChar n).toUpper := by
  revert n
  decide

theorem value_append (cs : List Char) (c : Char) :
    value (cs ++ [c]) = 16 * value cs + digitValue c := by
  simp [value]

theorem value_digits (n : Nat) : value (digits n) = n := by
  induction n using Nat.strongRecOn with
  | ind n ih =>
    have hlast := digitValue_digitChar (Nat.mod_lt n (show 0 < 16 by decide))
    rw [digits_eq, value_append, hlast]
    split
    · simp only [value, List.foldl_nil]
      omega
    · rw [ih (n / 16) (by omega)]
      omega

theorem isDigit_of_mem_digits {n : Nat} {c : Char} (hc : c ∈ digits n) : IsDigit c := by
  induction n using Nat.strongRecOn with
  | ind n ih =>
    rw [digits_eq, List.mem_append, List.mem_singleton] at hc
    rcases hc with hc | rfl
    · split at hc
      · cases hc
      · exact ih (n / 16) (by omega) hc
    · exact isDigit_digitChar (Nat.mod_lt n (by decide))

/-! ## Fields of digits -/

/-- A natural number has no sign. -/
theorem chars_natCast (width n : Nat) : chars width n = Pad.left width '0' (digits n) := by
  have h : ¬ (n : Int) < 0 := by omega
  simp [chars, h]

theorem value_zeros (k : Nat) (cs : List Char) :
    value (List.replicate k '0' ++ cs) = value cs := by
  induction k with
  | zero => rfl
  | succ k ih => exact ih

/-- A field of digits is read back as the number in it. -/
@[simp] theorem value_chars (width n : Nat) : value (chars width n) = n := by
  rw [chars_natCast, Pad.left, value_zeros, value_digits]

theorem length_chars {width n : Nat} (hw : 0 < width) (hn : n < Nat.pow 16 width) :
    (chars width n).length = width := by
  have hlen : (digits n).length ≤ width := by
    rw [digits, List.length_map]
    exact (Nat.length_toDigits_le_iff (by decide) hw).mpr hn
  rw [chars_natCast, Pad.length_left]
  omega

theorem isDigit_of_mem_chars {width n : Nat} {c : Char} (hc : c ∈ chars width n) : IsDigit c := by
  rw [chars_natCast, Pad.left, List.mem_append, List.mem_replicate] at hc
  rcases hc with ⟨-, rfl⟩ | hc
  · decide
  · exact isDigit_of_mem_digits hc

theorem all_isDigit_chars {width n : Nat} : (chars width n).all (IsDigit ·) = true :=
  List.all_eq_true.mpr fun _ hc => decide_eq_true (isDigit_of_mem_chars hc)

/-- A field of digits holds nothing else. -/
theorem not_mem_chars {width n : Nat} {c : Char} (hc : ¬ IsDigit c) : c ∉ chars width n :=
  fun h => hc (isDigit_of_mem_chars h)

end Chip8.Hex
