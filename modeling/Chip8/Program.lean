import Chip8.Failure
import Chip8.Memory

/-!
# Programs

A program is a list of integers until it is checked: each must be a byte, and together they must fit
between the start of programs and the end of memory.
-/
namespace Chip8

/-- The byte of an integer, if it has one. -/
def Byte.ofInt? (i : Int) : Option Byte :=
  if 0 ≤ i ∧ i < 256 then some (BitVec.ofInt 8 i) else none

theorem Byte.ofInt?_eq_none_iff {i : Int} : ofInt? i = none ↔ i < 0 ∨ 255 < i := by
  unfold ofInt?
  split
  case isTrue h => simp; omega
  case isFalse h => simp; omega

theorem Byte.ofInt?_eq_some_iff {i : Int} {b : Byte} : ofInt? i = some b ↔ i = b.toNat := by
  have hb := b.isLt
  unfold ofInt?
  split
  case isTrue h =>
    rw [Option.some.injEq, ← BitVec.toNat_inj, BitVec.toNat_ofInt]
    omega
  case isFalse h =>
    refine ⟨nofun, fun hi => ?_⟩
    omega

/-- The numbers of bytes. -/
def Byte.numbers (bs : List Byte) : List Int := bs.map fun b => (b.toNat : Int)

@[simp] theorem Byte.length_numbers (bs : List Byte) : (numbers bs).length = bs.length :=
  List.length_map ..

theorem Byte.numbers_inj {bs cs : List Byte} : numbers bs = numbers cs ↔ bs = cs :=
  List.map_inj_right fun _ _ h => BitVec.eq_of_toNat_eq (Int.ofNat.inj h)

/-- Integers are the numbers of bytes if none is out of range. -/
theorem Byte.exists_numbers_iff {is : List Int} :
    (∃ bs, is = numbers bs) ↔ ∀ i ∈ is, ¬ (i < 0 ∨ 255 < i) := by
  induction is with
  | nil => exact iff_of_true ⟨[], rfl⟩ nofun
  | cons i is ih =>
    rw [List.forall_mem_cons, ← ih, ← ofInt?_eq_none_iff, ← ne_eq, Option.ne_none_iff_exists']
    constructor
    · rintro ⟨bs, h⟩
      obtain ⟨b, bs, rfl, hi, his⟩ := List.map_eq_cons_iff.mp h.symm
      exact ⟨⟨b, ofInt?_eq_some_iff.mpr hi.symm⟩, bs, his.symm⟩
    · rintro ⟨⟨b, hb⟩, bs, rfl⟩
      exact ⟨b :: bs, congrArg (· :: numbers bs) (ofInt?_eq_some_iff.mp hb)⟩

/-- The bytes of integers that are rows of a picture or parts of colours; the first that is no byte
is reported. -/
def Byte.ofInts : List Int → Except Failure (List Byte)
  | [] => .ok []
  | i :: is =>
    match Byte.ofInt? i with
    | none => .error (.byteRange i)
    | some b => (ofInts is).map (b :: ·)

namespace Program

/-- The bytes of a program that fits. A number that is no byte is reported before the size. -/
def check (program : List Int) : Except Failure (List Byte) :=
  match program.mapM Byte.ofInt? with
  | none => .error .programByte
  | some bytes =>
    if bytes.length ≤ Memory.programSpace then .ok bytes else .error (.programSize bytes.length)

end Program

end Chip8
