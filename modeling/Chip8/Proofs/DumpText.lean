import Chip8.Proofs.Block
import Chip8.Proofs.Hexadecimal
import Chip8.Proofs.Pieces
import Chip8.Session.Call

/-!
# Reading dumps

A dump shows a range of memory in rows. A row is an address of four hexadecimal digits and the bytes
from there on, two digits each, with a blank between them. So it can be read back
(`Row.read?_text`), and with it a whole dump (`read?_text`). The rows of a range are as wide as they
should be, but for the last, and their bytes are those of the range (`bytes_rows`).

`read_of_dump` says this of the dump of a memory, and that two memories have the same dump only if
they hold the same bytes in the range.
-/
namespace Chip8

/-- The byte of two hexadecimal digits. -/
def Byte.ofDigits? (cs : List Char) : Option Byte :=
  if cs.length = 2 ∧ cs.all (Hex.IsDigit ·) then some (BitVec.ofNat 8 (Hex.value cs)) else none

theorem Byte.ofDigits?_chars (b : Byte) : ofDigits? (Hex.chars 2 b.toNat) = some b := by
  have hlength : (Hex.chars 2 b.toNat).length = 2 := Hex.length_chars (by decide) b.isLt
  rw [ofDigits?, if_pos ⟨hlength, Hex.all_isDigit_chars⟩, Hex.value_chars, BitVec.ofNat_toNat,
    BitVec.setWidth_eq]

namespace Dump

/-- What a line of a dump says. -/
structure Row where
  address : Nat
  bytes : List Byte
  deriving DecidableEq, Repr

namespace Row

def text (r : Row) : String := Memory.dumpLine r.address r.bytes

/-- The row of a line: an address of four digits behind a mark, a colon, and bytes, of which each
stands behind a blank. -/
def read? : List Char → Option Row
  | '0' :: 'x' :: cs =>
    match cs.splitAt 4 with
    | (digits, ':' :: ' ' :: rest) =>
      if digits.length = 4 ∧ digits.all (Hex.IsDigit ·) then
        ((rest.splitOn ' ').mapM Byte.ofDigits?).map (⟨Hex.value digits, ·⟩)
      else none
    | _ => none
  | _ => none

theorem toList_text (r : Row) :
    r.text.toList = '0' :: 'x' :: (Hex.chars 4 r.address ++
      ':' :: ' ' :: [' '].intercalate (r.bytes.map fun b => Hex.chars 2 b.toNat)) := by
  simp [text, Memory.dumpLine, Hex.text, String.toList_intercalate, Function.comp_def]

theorem newline_not_mem_text (r : Row) : '\n' ∉ r.text.toList := by
  have hdigits {w n : Nat} : '\n' ∉ Hex.chars w n := Hex.not_mem_chars (by decide)
  have hbytes : '\n' ∉ [' '].intercalate (r.bytes.map fun b => Hex.chars 2 b.toNat) := by
    induction r.bytes with
    | nil => simp
    | cons b bs ih => cases bs <;> simp_all
  simp [toList_text, hdigits, hbytes]

/-- The bytes of a row stand between blanks. -/
theorem mapM_splitOn {bs : List Byte} (hne : bs ≠ []) :
    (([' '].intercalate (bs.map fun b => Hex.chars 2 b.toNat)).splitOn ' ').mapM Byte.ofDigits? =
      some bs := by
  have hblank : ∀ cs ∈ bs.map fun b => Hex.chars 2 b.toNat, ' ' ∉ cs := by
    intro cs hcs
    obtain ⟨b, -, rfl⟩ := List.mem_map.mp hcs
    exact Hex.not_mem_chars (by decide)
  rw [List.splitOn_intercalate ' ' hblank (by simpa using hne)]
  exact mapM_map_of_forall fun b _ => b.ofDigits?_chars

theorem read?_text {r : Row} (ha : r.address < 4096) (hne : r.bytes ≠ []) :
    read? r.text.toList = some r := by
  have hlength : (Hex.chars 4 r.address).length = 4 :=
    Hex.length_chars (by decide) (Nat.lt_trans ha (by decide))
  rw [toList_text, read?, List.splitAt_eq, List.take_left' hlength, List.drop_left' hlength]
  simp only [hlength, mapM_splitOn hne, Hex.value_chars, Option.map_some]
  exact if_pos ⟨trivial, Hex.all_isDigit_chars⟩

end Row

/-! ## Rows -/

/-- Bytes in rows of `width`, and what is left in a last row. -/
def rows (address width : Nat) (bs : List Byte) : List Row :=
  (List.range ((bs.length + width - 1) / width)).map fun i =>
    ⟨address + i * width, piece width i bs⟩

/-- A text with the rows on a line each. -/
def text (rows : List Row) : String := "\n".intercalate (rows.map Row.text)

/-- The rows of a text, in which nothing at all stands for no row. -/
def read? (s : String) : Option (List Row) :=
  if s = "" then some [] else (lines s).mapM Row.read?

theorem lines_text {rs : List Row} (hne : rs ≠ []) :
    lines (text rs) = rs.map fun r => r.text.toList := by
  rw [text, lines_intercalate (by simpa using hne), List.map_map]
  · rfl
  · intro l hl
    obtain ⟨r, -, rfl⟩ := List.mem_map.mp hl
    exact r.newline_not_mem_text

theorem read?_text {rs : List Row} (h : ∀ r ∈ rs, r.address < 4096 ∧ r.bytes ≠ []) :
    read? (text rs) = some rs := by
  by_cases hne : rs = []
  · subst hne
    rfl
  · have htext : text rs ≠ "" := by
      intro he
      have hlines : rs.map (fun r => r.text.toList) = [[]] := by
        rw [← lines_text hne, he]
        rfl
      obtain ⟨r, rs, rfl⟩ := List.exists_cons_of_ne_nil hne
      simp [Row.toList_text] at hlines
    rw [read?, if_neg htext, lines_text hne]
    exact mapM_map_of_forall fun r hr => Row.read?_text (h r hr).1 (h r hr).2

section
variable {address width : Nat} {bs : List Byte} (hwidth : 1 ≤ width)

theorem length_rows : (rows address width bs).length = (bs.length + width - 1) / width := by
  rw [rows, List.length_map, List.length_range]

theorem getElem_rows {i : Nat} (hi : i < (rows address width bs).length) :
    (rows address width bs)[i] = ⟨address + i * width, piece width i bs⟩ := by
  simp only [rows, List.getElem_map, List.getElem_range]

include hwidth

/-- There is a row if there are bytes for it. -/
theorem lt_length_rows_iff {i : Nat} :
    i < (rows address width bs).length ↔ i * width < bs.length := by
  rw [length_rows, Nat.lt_iff_add_one_le, Nat.le_div_iff_mul_le hwidth, Nat.succ_mul]
  omega

theorem bytes_rows : (rows address width bs).flatMap Row.bytes = bs := by
  rw [rows, List.flatMap_map]
  exact flatMap_piece hwidth bs

/-- All rows but the last are full, and the last has at least one byte. -/
theorem length_bytes_rows {i : Nat} (hi : i < (rows address width bs).length) :
    let length := (rows address width bs)[i].bytes.length
    1 ≤ length ∧ length ≤ width ∧ (i + 1 < (rows address width bs).length → length = width) := by
  intro length
  have hlength : length = min width (bs.length - i * width) := by
    simp only [length, getElem_rows, length_piece]
  rw [lt_length_rows_iff hwidth] at hi ⊢
  rw [Nat.succ_mul]
  omega

/-- The rows of bytes that lie in memory can be read back. -/
theorem read?_rows (h : address + bs.length ≤ 4096) :
    read? (text (rows address width bs)) = some (rows address width bs) := by
  refine read?_text fun r hr => ?_
  obtain ⟨i, hi, rfl⟩ := List.getElem_of_mem hr
  have hbytes := (length_bytes_rows hwidth hi).1
  have hin := (lt_length_rows_iff hwidth).mp hi
  refine ⟨?_, List.length_pos_iff.mp hbytes⟩
  rw [getElem_rows]
  change address + i * width < 4096
  omega

end

end Dump

namespace Memory

variable (m : Memory) {start stop width : Nat}

theorem dumpLines_eq (address width : Nat) (bs : List Byte) :
    dumpLines address width bs = (Dump.rows address width bs).map Dump.Row.text := by
  rw [Dump.rows, List.map_map]
  rfl

theorem dump_eq (hstart : start ≤ stop) (hstop : stop ≤ 4096) (hwidth : 1 ≤ width) :
    m.dump start stop width =
      .ok (Dump.text (Dump.rows start width (m.bytes (Address.ofInt start) (stop - start)))) := by
  have hlength : ((stop : Int) - start).toNat = stop - start := by omega
  have hpositive : ¬ (width : Int) ≤ 0 := by omega
  have hrange : m.range start (stop - start) =
      .ok (m.bytes (Address.ofInt start) (stop - start)) := by
    rw [range, hlength]
    exact if_neg (by omega)
  rw [dump, if_neg hpositive, hrange]
  exact congrArg (fun ls => Except.ok ("\n".intercalate ls)) (dumpLines_eq ..)

/-- Two memories hold the same bytes in a range if they are read alike there. -/
theorem bytes_eq_iff (m' : Memory) (hstart : start ≤ stop) (hstop : stop ≤ 4096) :
    m'.bytes (Address.ofInt start) (stop - start) = m.bytes (Address.ofInt start) (stop - start) ↔
      ∀ a : Address, start ≤ a.toNat → a.toNat < stop → m'[a] = m[a] := by
  rw [bytes_eq_reads, bytes_eq_reads, List.map_inj_left]
  simp only [List.mem_range]
  constructor
  · intro h a hlow hhigh
    have ha : Address.ofInt (start + (a.toNat - start : Nat)) = a := by
      apply BitVec.eq_of_toNat_eq
      rw [Address.toNat_ofInt]
      omega
    have hread := h (a.toNat - start) (by omega)
    rwa [read, read, ha] at hread
  · intro h k hk
    refine h _ ?_ ?_ <;> (rw [Address.toNat_ofInt]; omega)

/-- **A dump shows what is in memory.** The dump of a range that lies in memory can be read back,
for every width of its rows. An empty range has an empty dump. All else is as many lines as it
takes, each with the address of its first byte and as many bytes as it is wide, but for the last,
which has what is left. The bytes of all lines in order are those of the range. So the dumps of two
memories are the same if and only if they agree on the range. -/
theorem read_of_dump (hstart : start ≤ stop) (hstop : stop ≤ 4096) (hwidth : 1 ≤ width) :
    ∃ text rows, m.dump start stop width = .ok text ∧ Dump.read? text = some rows ∧
      (start = stop → text = "") ∧
      (start < stop → (lines text).length = rows.length) ∧
      rows.length = (stop - start + width - 1) / width ∧
      (∀ i (hi : i < rows.length),
        rows[i].address = start + i * width ∧ 1 ≤ rows[i].bytes.length ∧
        rows[i].bytes.length ≤ width ∧ (i + 1 < rows.length → rows[i].bytes.length = width)) ∧
      rows.flatMap Dump.Row.bytes =
        (List.range (stop - start)).map (fun (k : Nat) => m.read (start + k)) ∧
      ∀ m' : Memory, m'.dump start stop width = m.dump start stop width ↔
        ∀ a : Address, start ≤ a.toNat → a.toNat < stop → m'[a] = m[a] := by
  let bytes (m : Memory) := m.bytes (Address.ofInt start) (stop - start)
  let rows (m : Memory) := Dump.rows start width (bytes m)
  have hdump (m : Memory) : m.dump start stop width = .ok (Dump.text (rows m)) :=
    m.dump_eq hstart hstop hwidth
  have hlength (m : Memory) : (bytes m).length = stop - start := m.length_bytes ..
  have hread (m : Memory) : Dump.read? (Dump.text (rows m)) = some (rows m) :=
    Dump.read?_rows hwidth (by rw [hlength]; omega)
  have hbytes (m : Memory) : (rows m).flatMap Dump.Row.bytes = bytes m := Dump.bytes_rows hwidth
  have hcount : (rows m).length = (stop - start + width - 1) / width := by
    rw [Dump.length_rows, hlength]
  refine ⟨_, rows m, hdump m, hread m, fun he => ?_, fun hlt => ?_, hcount, fun i hi => ?_, ?_,
    fun m' => ?_⟩
  · have hnil : rows m = [] := by
      rw [← List.length_eq_zero_iff, hcount, he]
      exact Nat.div_eq_of_lt (by omega)
    rw [hnil]
    rfl
  · have hne : rows m ≠ [] := by
      rw [← List.length_pos_iff, Dump.lt_length_rows_iff hwidth, hlength]
      omega
    rw [Dump.lines_text hne, List.length_map]
  · exact ⟨congrArg Dump.Row.address (Dump.getElem_rows hi), Dump.length_bytes_rows hwidth hi⟩
  · rw [hbytes]
    exact m.bytes_eq_reads start (stop - start)
  · rw [hdump, hdump, ← m.bytes_eq_iff m' hstart hstop]
    -- equal texts are read back as equal rows, which have equal bytes
    constructor
    · intro h
      have hrows : rows m' = rows m := by
        apply Option.some.inj
        rw [← hread m', Except.ok.inj h, hread m]
      calc bytes m' = (rows m').flatMap Dump.Row.bytes := (hbytes m').symm
        _ = bytes m := by rw [hrows, hbytes]
    · intro h
      exact congrArg (fun bs => Except.ok (Dump.text (Dump.rows start width bs))) h

/-- The last five bytes in rows of three. -/
theorem read_of_dump_last_row :
    let empty : Memory := .fill 0
    let m : Memory := empty.set 0xFFC 0xA7
    (4091 ≤ 4096 ∧ 4096 ≤ 4096 ∧ 1 ≤ 3) ∧
      (∃ text rows, m.dump 4091 4096 3 = .ok text ∧ Dump.read? text = some rows ∧
        (lines text).length = 2 ∧ rows.flatMap Dump.Row.bytes = [0, 0xA7, 0, 0, 0]) ∧
      empty.dump 4091 4096 3 ≠ m.dump 4091 4096 3 := by
  intro empty m
  have hcell (a : Address) : m[a] = if 0xFFC = a then 0xA7 else 0 := by
    rw [Bank.getElem_set, Bank.getElem_fill]
  obtain ⟨text, rows, hdump, hread, -, hlines, hcount, -, hbytes, hsame⟩ :=
    m.read_of_dump (show 4091 ≤ 4096 by decide) (show 4096 ≤ 4096 by decide)
      (show 1 ≤ 3 by decide)
  refine ⟨by decide, ⟨text, rows, hdump, hread, ?_, ?_⟩, fun he => ?_⟩
  · rw [hlines (by decide), hcount]
  · rw [hbytes]
    simp only [read, hcell]
    decide
  · have hzero := (hsame empty).mp he 0xFFC (by decide) (by decide)
    rw [hcell, Bank.getElem_fill] at hzero
    exact absurd hzero (by decide)

end Memory

end Chip8
