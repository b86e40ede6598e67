import Chip8.Proofs.Pieces
import Chip8.Proofs.Refusal

/-!
# Loading programs

A program that fits is made of bytes (`Program.Fits.exists_numbers`), which are written from the
start of programs on (`Session.call_load_numbers`). There it can be read back, and all other memory
stays as it was, with the font in front of the program and what is left of a longer one behind it. A
program that is loaded over one that is no longer hides it completely (`Memory.install_install`). It
does not matter whether a program is given or comes from a file, wherever that is
(`Session.call_loadFile_ok`).

`loaded_of_call` puts this together for the calls of a session, in whatever state its machine is.
-/
namespace Chip8

/-! ## Programs -/

namespace Program

/-- The numbers of a program are bytes, and there is room for them. -/
structure Fits (program : List Int) : Prop where
  byte : ∀ i ∈ program, 0 ≤ i ∧ i ≤ 255
  length_le : program.length ≤ 3584

variable {program : List Int} {bs : List Byte}

/-- A program that fits is that of its bytes. -/
theorem Fits.exists_numbers (h : Fits program) :
    ∃ bs, program = Byte.numbers bs ∧ bs.length ≤ 3584 := by
  obtain ⟨bs, rfl⟩ := Byte.exists_numbers_iff.mpr fun i hi => by
    have := h.byte i hi
    omega
  exact ⟨bs, rfl, Byte.length_numbers bs ▸ h.length_le⟩

theorem check_numbers (h : bs.length ≤ 3584) : check (Byte.numbers bs) = .ok bs := by
  have hread : (Byte.numbers bs).mapM Byte.ofInt? = some bs :=
    mapM_map_of_forall fun b _ => Byte.ofInt?_eq_some_iff.mpr rfl
  rw [check, hread]
  exact if_pos h

end Program

/-! ## Memory -/

namespace Memory

variable (m : Memory) {bs : List Byte}

theorem getElem_install_of_outside (h : bs.length ≤ 3584) {a : Address}
    (ha : a.toNat < 0x200 ∨ 0x200 + bs.length ≤ a.toNat) : (m.install bs)[a] = m[a] := by
  have hoffset : bs.length ≤ (a - programStart).toNat := by
    have := a.isLt
    rw [BitVec.toNat_sub, show programStart.toNat = 0x200 from rfl]
    omega
  rw [install, getElem_store _ _ _ _ (by omega), List.getElem?_eq_none hoffset]
  rfl

/-- A program hides one that is no longer. -/
theorem install_install {cs : List Byte} (h : bs.length ≤ cs.length) (hcs : cs.length ≤ 3584) :
    (m.install bs).install cs = m.install cs := by
  apply Bank.ext
  intro i
  rw [install, install, install, getElem_store _ _ _ _ (by omega),
    getElem_store _ _ _ _ (by omega), getElem_store _ _ _ _ (by omega)]
  by_cases hi : (i - programStart).toNat < cs.length
  · rw [List.getElem?_eq_getElem hi]
    rfl
  · rw [List.getElem?_eq_none (by omega), List.getElem?_eq_none (by omega)]
    rfl

theorem range_install (h : bs.length ≤ 3584) :
    (m.install bs).range 0x200 bs.length = .ok bs := by
  have hrange : ¬ ((0x200 : Int) < 0 ∨ (bs.length : Int) < 0 ∨ 4096 < (0x200 : Int) + bs.length) :=
    by omega
  rw [range, if_neg hrange, Int.toNat_natCast]
  exact congrArg Except.ok (m.bytes_store programStart bs (by omega))

end Memory

/-! ## Sessions -/

namespace Session

variable (s : Session) {program : List Int} {bs : List Byte}

theorem load_numbers {m : Machine} (h : bs.length ≤ 3584) :
    m.load (Byte.numbers bs) = .ok (m.install bs) := by
  rw [Machine.load, Program.check_numbers h]
  rfl

theorem call_load_numbers (h : bs.length ≤ 3584) :
    s.call (.load (Byte.numbers bs)) =
      ({ s with
          machine := s.machine.install bs
          journal := s.journal.programLoaded bs.length none },
        .ok .done) := by
  rw [call_load, load_numbers h, Byte.length_numbers]
  rfl

/-- A file is loaded like the bytes that are read from it. -/
theorem call_loadFile_ok (name : String) (h : bs.length ≤ 3584) :
    s.call (.loadFile name (.ok bs)) =
      ({ s with
          machine := s.machine.install bs
          journal := s.journal.programLoaded bs.length (some name) },
        .ok .done) := by
  rw [call_loadFile]
  dsimp only
  rw [load_numbers h]
  rfl

/-- **A program is where it was loaded, and nothing else is changed.** A program that fits is loaded
whatever the state of the machine is, and read back as it was given. All bytes of memory outside it
are as they were, and so is all else in the machine. To load another one that is at least as long
gives the same machine as to load that one alone, and to load a file from which the program is read,
whatever its name is, gives the same machine as to load the program. -/
theorem loaded_of_call (h : Program.Fits program) :
    let s' := (s.call (.load program)).1
    (s.call (.load program)).2 = .ok .done ∧
    (∃ bytes, s'.call (.readMemory 0x200 program.length) = (s', .ok (.bytes bytes)) ∧
      Byte.numbers bytes = program) ∧
    (∀ a : Address, a.toNat < 0x200 ∨ 0x200 + program.length ≤ a.toNat →
      s'.machine.core.memory[a] = s.machine.core.memory[a]) ∧
    s'.machine = { s.machine with core.memory := s'.machine.core.memory } ∧
    (∀ program', Program.Fits program' → program.length ≤ program'.length →
      (s'.call (.load program')).1.machine = (s.call (.load program')).1.machine) ∧
    ∀ (name : String) (content : List Byte), Byte.numbers content = program →
      (s.call (.loadFile name (.ok content))).2 = .ok .done ∧
        (s.call (.loadFile name (.ok content))).1.machine = s'.machine := by
  intro s'
  obtain ⟨bs, rfl, hle⟩ := h.exists_numbers
  have hload := s.call_load_numbers hle
  have hmachine : s'.machine = s.machine.install bs := by
    rw [show s' = (s.call (.load (Byte.numbers bs))).1 from rfl, hload]
  rw [Byte.length_numbers]
  refine ⟨congrArg Prod.snd hload, ⟨bs, ?_, rfl⟩, fun a ha => ?_, ?_,
    fun program' h' hlonger => ?_, fun name content hcontent => ?_⟩
  · rw [call_readMemory, hmachine]
    exact congrArg (settle s' · _) (Memory.range_install _ hle)
  · rw [hmachine]
    exact Memory.getElem_install_of_outside _ hle ha
  · rw [hmachine]
    rfl
  · obtain ⟨bs', rfl, hle'⟩ := h'.exists_numbers
    rw [Byte.length_numbers] at hlonger
    have hinstall := Memory.install_install s.machine.core.memory hlonger hle'
    rw [call_load_numbers _ hle', call_load_numbers _ hle', hmachine]
    exact congrArg (fun memory => { s.machine with core.memory := memory }) hinstall
  · obtain rfl := Byte.numbers_inj.mp hcontent
    rw [call_loadFile_ok s name hle, hmachine]
    exact ⟨rfl, rfl⟩

/-- A shorter program is loaded into a session that has halted in a longer one. -/
theorem loaded_of_call_halted :
    ∃ s₀, create { source := .constant 0 } plainJournal = .ok s₀ ∧
      let s := s₀.after [.load [0x00, 0x00, 0x12, 0x34], .run 2]
      let program : List Int := [0xA2, 0x04, 0xFF]
      let s' := (s.call (.load program)).1
      let file := (s.call (.loadFile "games/pong.ch8" (.ok [0xA2, 0x04, 0xFF]))).1
      Program.Fits program ∧ Program.Fits [0, 0, 0, 0] ∧ s.machine.halted = true ∧
      (s.call (.load program)).2 = .ok .done ∧
      s'.machine.core.memory[(0x203 : Address)] = 0x34 ∧
      (s'.call (.load [0, 0, 0, 0])).1.machine = (s.call (.load [0, 0, 0, 0])).1.machine ∧
      file.machine = s'.machine := by
  refine ⟨_, rfl, ?_⟩
  intro s program s' file
  have hfits : Program.Fits program := ⟨by decide, by decide⟩
  have hzeros : Program.Fits [0, 0, 0, 0] := ⟨by decide, by decide⟩
  have htail : s.machine.core.memory[(0x203 : Address)] = 0x34 := by decide +kernel
  obtain ⟨hdone, -, hmemory, -, hover, hsame⟩ := loaded_of_call s hfits
  refine ⟨hfits, hzeros, by decide +kernel, hdone, ?_, hover _ hzeros (by decide), ?_⟩
  · exact (hmemory 0x203 (by decide)).trans htail
  · exact (hsame _ _ (by decide)).2

end Session

end Chip8
