import Chip8.Memory

/-!
# Blocks of memory

A block of cells starts at an integer, of which memory takes the low 12 bits, and goes around the
end of memory. A block of bytes can be written in two ways: one byte after the other, each at its
own distance from the start (`writes`), or all at once, where every cell looks its byte up among the
addresses of the block (`scatter`). Both are what `store` does (`store_eq_writes`,
`store_eq_scatter`). For `scatter` the block must not be longer than memory, for then no two of its
addresses are the same (`nodup_block`).

`store_bytewise` puts this together with what is read back and what stays as it was.
-/
namespace Chip8

/-- The address of an integer: its low 12 bits. -/
def Address.ofInt (a : Int) : Address := BitVec.ofInt 12 a

/-- The addresses of the `n` cells from an integer on. -/
def Address.block (a : Int) (n : Nat) : List Address :=
  (List.range n).map fun (k : Nat) => Address.ofInt (a + k)

namespace Memory

/-- The byte at an integer. -/
def read (m : Memory) (a : Int) : Byte := m[Address.ofInt a]

/-- The memory with the low 8 bits of a value written at an integer. -/
def write (m : Memory) (a v : Int) : Memory := m.set (Address.ofInt a) (BitVec.ofInt 8 v)

/-- The memory with values written one by one, each at its distance from an integer. -/
def writes (m : Memory) (a : Int) (vs : List Int) : Memory :=
  vs.zipIdx.foldl (fun m (v, k) => m.write (a + (k : Nat)) v) m

/-- The memory with bytes put into cells all at once: each cell takes the byte that goes with its
address. -/
def scatter (m : Memory) (addresses : List Address) (bs : List Byte) : Memory :=
  .ofFn fun i => ((addresses.zip bs).lookup i).getD m[i]

end Memory

/-! ## Addresses -/

namespace Address

variable {a : Int}

theorem toNat_ofInt (a : Int) : (ofInt a).toNat = (a % 4096).toNat := BitVec.toNat_ofInt ..

theorem ofInt_eq_iff {b : Int} : ofInt a = ofInt b ↔ a % 4096 = b % 4096 := by
  rw [← BitVec.toNat_inj, toNat_ofInt, toNat_ofInt]
  omega

theorem ofInt_add (a : Int) (k : Nat) : ofInt (a + k) = ofInt a + BitVec.ofNat 12 k := by
  apply BitVec.eq_of_toNat_eq
  rw [BitVec.toNat_add, toNat_ofInt, toNat_ofInt, BitVec.toNat_ofNat]
  omega

theorem block_succ (a : Int) (n : Nat) : block a (n + 1) = ofInt a :: block (a + 1) n := by
  simp only [block, List.range_succ_eq_map, List.map_cons, List.map_map]
  congr 1
  · exact congrArg ofInt (Int.add_zero a)
  · refine List.map_congr_left fun k _ => congrArg ofInt ?_
    change a + ((k + 1 : Nat) : Int) = a + 1 + k
    omega

/-- A block that is no longer than memory has as many addresses as cells. -/
theorem nodup_block {n : Nat} (h : n ≤ 4096) : (block a n).Nodup := by
  refine List.pairwise_map.mpr (List.Pairwise.imp_of_mem ?_ List.nodup_range)
  intro j k hj hk hne heq
  rw [List.mem_range] at hj hk
  rw [ofInt_eq_iff] at heq
  omega

theorem ofInt_mem_block_iff {n : Nat} {i : Int} :
    ofInt i ∈ block a n ↔ ∃ k < n, i % 4096 = (a + (k : Nat)) % 4096 := by
  simp only [block, List.mem_map, List.mem_range, ofInt_eq_iff, eq_comm]

/-- A block holds the addresses at a distance from its start that is less than its length. -/
theorem mem_block_iff {n : Nat} (h : n ≤ 4096) {i : Address} :
    i ∈ block a n ↔ (i - ofInt a).toNat < n := by
  simp only [block, List.mem_map, List.mem_range, ofInt_add]
  constructor
  · rintro ⟨k, hk, rfl⟩
    rwa [toNat_add_sub _ (by omega)]
  · intro hi
    exact ⟨_, hi, add_offset ..⟩

end Address

namespace Memory

variable (m : Memory) (a : Int)

/-! ## Reading -/

theorem bytes_eq_reads (n : Nat) :
    m.bytes (Address.ofInt a) n = (List.range n).map fun (k : Nat) => m.read (a + k) := by
  simp only [bytes, read, Address.ofInt_add]

/-! ## Writing -/

/-- The rest of a block goes on from the distance that has been reached. -/
theorem store_eq_foldl (vs : List Int) (j : Nat) :
    m.store (Address.ofInt (a + j)) (vs.map (BitVec.ofInt 8)) =
      (vs.zipIdx j).foldl (fun m (v, k) => m.write (a + (k : Nat)) v) m := by
  induction vs generalizing m j with
  | nil => rfl
  | cons v vs ih =>
    have hnext : Address.ofInt (a + j) + 1 = Address.ofInt (a + (j + 1 : Nat)) := by
      rw [Int.natCast_add, ← Int.add_assoc]
      exact (Address.ofInt_add (a + j) 1).symm
    rw [List.map_cons, store, hnext, ih, List.zipIdx_cons, List.foldl_cons]
    rfl

theorem store_eq_writes (vs : List Int) :
    m.store (Address.ofInt a) (vs.map (BitVec.ofInt 8)) = m.writes a vs := by
  have h := m.store_eq_foldl a vs 0
  rwa [Int.natCast_zero, Int.add_zero] at h

/-- A cell finds its byte at its distance from the start of the block. -/
theorem lookup_block (bs : List Byte) (i : Address) :
    ((Address.block a bs.length).zip bs).lookup i = bs[(i - Address.ofInt a).toNat]? := by
  induction bs generalizing a with
  | nil => rfl
  | cons b bs ih =>
    rw [List.length_cons, Address.block_succ, List.zip_cons_cons, List.lookup_cons]
    by_cases h : i = Address.ofInt a
    · subst h
      simp
    · have hnext : Address.ofInt (a + 1) = Address.ofInt a + 1 := Address.ofInt_add a 1
      rw [beq_false_of_ne h, Address.toNat_sub_succ h, List.getElem?_cons_succ, ← hnext, ← ih]

theorem store_eq_scatter {bs : List Byte} (h : bs.length ≤ 4096) :
    m.store (Address.ofInt a) bs = m.scatter (Address.block a bs.length) bs := by
  apply Bank.ext
  intro i
  rw [getElem_store _ _ _ _ h, scatter, Bank.getElem_ofFn, lookup_block]

/-- Outside the block that is written, memory is as it was. -/
theorem getElem_store_of_not_mem {bs : List Byte} (h : bs.length ≤ 4096) {i : Address}
    (hi : i ∉ Address.block a bs.length) : (m.store (Address.ofInt a) bs)[i] = m[i] := by
  rw [Address.mem_block_iff h] at hi
  rw [getElem_store _ _ _ _ h, List.getElem?_eq_none (by omega)]
  rfl

/-- **A block is its bytes.** A block of no more values than memory has cells is written from an
integer on. It is the same to write the low bytes of the values one after the other, each at its
distance from the start, or all of them at once. To read a block of any length is to read its bytes.
So what was written is read back, and each byte at an integer that is none of those of the block,
modulo the size of memory, is as it was. -/
theorem store_bytewise {vs : List Int} (h : vs.length ≤ 4096) :
    let start := Address.ofInt a
    let bs := vs.map (BitVec.ofInt 8)
    let written := m.store start bs
    written = m.writes a vs ∧
    written = m.scatter (Address.block a vs.length) bs ∧
    (∀ n, m.bytes start n = (List.range n).map fun (k : Nat) => m.read (a + k)) ∧
    (written.bytes start vs.length).map (fun b => (b.toNat : Int)) = vs.map (· % 256) ∧
    ∀ i : Int, (∀ k < vs.length, i % 4096 ≠ (a + (k : Nat)) % 4096) →
      written.read i = m.read i := by
  intro start bs written
  have hlength : bs.length = vs.length := List.length_map ..
  refine ⟨m.store_eq_writes a vs, ?_, m.bytes_eq_reads a, ?_, fun i hi => ?_⟩
  · rw [← hlength]
    exact m.store_eq_scatter a (by omega)
  · rw [← hlength, bytes_store _ _ _ (by omega), List.map_map]
    refine List.map_congr_left fun v _ => ?_
    change ((BitVec.ofInt 8 v).toNat : Int) = v % 256
    rw [BitVec.toNat_ofInt]
    omega
  · refine m.getElem_store_of_not_mem a (by omega) ?_
    rw [hlength, Address.ofInt_mem_block_iff]
    exact fun ⟨k, hk, heq⟩ => hi k hk heq

/-- Values of more than 8 bits, from before the first cell to behind it. -/
theorem store_bytewise_around_end :
    let vs := [-1, 263, 128, 512, 1000]
    let written := blank.store (Address.ofInt (-3)) (vs.map (BitVec.ofInt 8))
    vs.length ≤ 4096 ∧ written = blank.writes (-3) vs ∧
      (written.bytes (Address.ofInt (-3)) 5).map (fun b => (b.toNat : Int)) =
        [255, 7, 128, 0, 232] ∧
      written.read 4098 = blank.read 4098 := by
  intro vs written
  have h : vs.length ≤ 4096 := by decide
  obtain ⟨hwrites, -, -, hback, hsame⟩ := blank.store_bytewise (-3) h
  refine ⟨h, hwrites, hback, hsame 4098 fun k hk => ?_⟩
  change k < 5 at hk
  omega

end Memory

end Chip8
