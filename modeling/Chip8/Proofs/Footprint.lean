import Chip8.Proofs.Effect
import Chip8.Proofs.Pattern

/-!
# What a word may change

A machine consists of its program counter and of the parts that `Part` lists, down to single memory
cells and registers (`Part.eq_of_same`). `Part.WrittenBy` tells from the digits of a word which
parts it may change: memory only in a block at the index, a register only if the word names it, or
if it is the flag register and the word sets flags. Every other part is as it was, whatever the
machine was doing (`same_of_execute`).
-/
namespace Chip8

/-- A part of a machine, other than the program counter. -/
inductive Part where
  | memory (a : Address)
  | register (r : Register)
  | index
  | stack
  | display
  | delay
  | sound
  | keys
  | rng
  | awaiting
  /-- Whether the machine is halted, and why. -/
  | stop
  deriving DecidableEq, Repr

namespace Part

/-- The part is the same in two machines. -/
def Same (m m' : Machine) : Part → Prop
  | memory a => m'.core.memory[a] = m.core.memory[a]
  | register r => m'.core.registers[r] = m.core.registers[r]
  | index => m'.core.index = m.core.index
  | stack => m'.core.stack = m.core.stack
  | display => m'.display = m.display
  | delay => m'.core.delay = m.core.delay
  | sound => m'.core.sound = m.core.sound
  | keys => m'.core.keys = m.core.keys
  | rng => m'.rng = m.rng
  | awaiting => m'.awaiting = m.awaiting
  | stop => m'.halted = m.halted ∧ m'.haltCause = m.haltCause

/-- The words that may change a part, by their digits. -/
def WrittenBy (m : Machine) (w : Word) : Part → Prop
  | memory a =>
    w.family = 0xF ∧
      (w.nn = 0x33 ∧ (∃ k < 3, a.toNat = (m.core.index.toNat + k) % 4096) ∨
        w.nn = 0x55 ∧ ∃ k < 16, a.toNat = (m.core.index.toNat + k) % 4096)
  | register r =>
    r = w.x ∧
        (w.family ∈ [0x6#4, 0x7#4, 0xC#4] ∨
          w.family = 0x8 ∧
            w.n ∈ [0x0#4, 0x1#4, 0x2#4, 0x3#4, 0x4#4, 0x5#4, 0x6#4, 0x7#4, 0xE#4] ∨
          w.family = 0xF ∧ w.nn ∈ [0x07#8, 0x0A#8]) ∨
      r = 0xF ∧
        (w.family = 0x8 ∧ w.n ∈ [0x4#4, 0x5#4, 0x6#4, 0x7#4, 0xE#4] ∨ w.family = 0xD) ∨
      w.family = 0xF ∧ w.nn = 0x65
  | index => w.family = 0xA ∨ w.family = 0xF ∧ w.nn ∈ [0x1E#8, 0x29#8]
  | stack => w.family = 0x2 ∨ w.family = 0x0 ∧ w.nn = 0xEE
  | display => w.family = 0x0 ∧ w.nn = 0xE0 ∨ w.family = 0xD
  | delay => w.family = 0xF ∧ w.nn = 0x15
  | sound => w.family = 0xF ∧ w.nn = 0x18
  | keys => False
  | rng => w.family = 0xC
  | awaiting => w.family = 0xF ∧ w.nn = 0x0A
  | stop => w.family = 0x0 ∧ w.nn ∈ [0x00#8, 0xEE#8] ∨ w.family = 0x2 ∨ w.Undefined

/-- The program counter and the parts are all that a machine consists of. -/
theorem eq_of_same {m m' : Machine} (hp : m'.core.pc = m.core.pc)
    (h : ∀ part : Part, part.Same m m') : m' = m := by
  obtain ⟨core, display, halted, haltCause, awaiting, rng⟩ := m
  obtain ⟨core', display', halted', haltCause', awaiting', rng'⟩ := m'
  have hc : core' = core := by
    obtain ⟨memory, registers, index, pc, stack, delay, sound, keys⟩ := core
    obtain ⟨memory', registers', index', pc', stack', delay', sound', keys'⟩ := core'
    simp only [Core.mk.injEq]
    exact ⟨Bank.ext fun a => h (.memory a), Bank.ext fun r => h (.register r), h .index, hp,
      h .stack, h .delay, h .sound, h .keys⟩
  simp only [Machine.mk.injEq]
  exact ⟨hc, h .display, (h .stop).1, (h .stop).2, h .awaiting, h .rng⟩

end Part

/-! ## Blocks and registers -/

/-- Outside the block that is written, memory is as it was. -/
theorem Memory.getElem_store_or (m : Memory) (w : Word) (a : Address) {bs : List Byte}
    (h : bs.length ≤ 4096) :
    (m.store w.address bs)[a] = m[a] ∨ ∃ k < bs.length, a.toNat = (w.toNat + k) % 4096 := by
  by_cases hk : (a - w.address).toNat < bs.length
  · exact .inr ((w.offset_lt_iff a h).mp hk)
  · left
    rw [getElem_store _ _ _ _ h, List.getElem?_eq_none (by omega)]
    rfl

theorem Bank.getElem_set_or {n : Nat} {α : Type} (b : Bank n α) (i j : BitVec n) (a : α) :
    (b.set i a)[j] = b[j] ∨ j = i := by
  by_cases h : i = j
  · exact .inr h.symm
  · exact .inl (getElem_set_ne b a h)

/-- A result goes to its register, and to the flag register if it has a flag. -/
theorem Core.getElem_setFlagged_or (c : Core) (x : Register) (r : Flagged) (y : Register) :
    (c.setFlagged x r).registers[y] = c.registers[y] ∨ y = x ∨
      y = 0xF ∧ r.flag.isSome = true := by
  rw [getElem_setFlagged]
  split
  · rename_i h
    exact .inr (.inr h)
  · split
    · rename_i h
      exact .inr (.inl h)
    · exact .inl rfl

/-- The operations that set the flag. -/
theorem Combination.digit_of_flag {op : Combination} {a b : Byte}
    (h : (op.apply a b).flag.isSome = true) :
    op.digit ∈ [0x4#4, 0x5#4, 0x6#4, 0x7#4, 0xE#4] := by
  cases op with
  | add | subtract | subtractFrom => decide
  | _ => cases h

theorem Combination.digit_mem (op : Combination) :
    op.digit ∈ [0x0#4, 0x1#4, 0x2#4, 0x3#4, 0x4#4, 0x5#4, 0x6#4, 0x7#4, 0xE#4] := by
  cases op <;> decide

theorem Shift.digit_mem (op : Shift) : op.digit ∈ [0x4#4, 0x5#4, 0x6#4, 0x7#4, 0xE#4] := by
  cases op <;> decide

namespace Machine

variable (source : ByteSource) (m : Machine) {w : Word} {i : Instruction}

/-! ## One part at a time -/

theorem memory_of_perform (h : w.Encodes i) (a : Address) :
    (Part.memory a).Same m (perform source m i) ∨ (Part.memory a).WrittenBy m w := by
  unfold Part.Same Part.WrittenBy
  rw [perform_memory]
  cases i with
  | storeDecimal x =>
    refine (Memory.getElem_store_or _ _ a ?_).imp_right fun hk => ⟨h.1, .inl ⟨h.2.1, hk⟩⟩
    exact Nat.le_of_ble_eq_true rfl
  | storeRegisters =>
    have hl : m.core.registers.toList.length = 16 := Bank.length_toList _
    refine (Memory.getElem_store_or _ _ a (by omega)).imp_right fun hk => ⟨h.1, .inr ⟨h.2, ?_⟩⟩
    rwa [hl] at hk
  | _ => exact .inl rfl

theorem register_of_perform (h : w.Encodes i) (r : Register) :
    (Part.register r).Same m (perform source m i) ∨ (Part.register r).WrittenBy m w := by
  unfold Part.Same Part.WrittenBy
  rw [perform_registers]
  cases i with
  | loadByte x b | addByte x b | random x mask =>
    obtain ⟨hf, hx, -⟩ := h
    refine (Bank.getElem_set_or _ x r _).imp_right fun hr => .inl ⟨hr.trans hx.symm, .inl ?_⟩
    rw [hf]
    decide
  | loadDelay x =>
    obtain ⟨hf, hn, hx⟩ := h
    refine (Bank.getElem_set_or _ x r _).imp_right fun hr =>
      .inl ⟨hr.trans hx.symm, .inr (.inr ⟨hf, ?_⟩)⟩
    rw [hn]
    decide
  | awaitKey x =>
    obtain ⟨hf, hn, hx⟩ := h
    cases m.core.keys.lowest? with
    | none => exact .inl rfl
    | some k =>
      refine (Bank.getElem_set_or _ x r _).imp_right fun hr =>
        .inl ⟨hr.trans hx.symm, .inr (.inr ⟨hf, ?_⟩)⟩
      rw [hn]
      decide
  | combine op x y =>
    obtain ⟨hf, hn, hx, -⟩ := h
    rcases m.core.getElem_setFlagged_or x (op.apply m.core.registers[x] m.core.registers[y]) r with
      hs | hr | ⟨hr, hflag⟩
    · exact .inl hs
    · exact .inr (.inl ⟨hr.trans hx.symm, .inr (.inl ⟨hf, hn ▸ op.digit_mem⟩)⟩)
    · exact .inr (.inr (.inl ⟨hr, .inl ⟨hf, hn ▸ Combination.digit_of_flag hflag⟩⟩))
  | shift op x =>
    obtain ⟨hf, hn, hx⟩ := h
    have hd := op.digit_mem
    rcases m.core.getElem_setFlagged_or x (op.apply m.core.registers[x]) r with hs | hr | ⟨hr, -⟩
    · exact .inl hs
    · refine .inr (.inl ⟨hr.trans hx.symm, .inr (.inl ⟨hf, ?_⟩)⟩)
      rw [hn]
      cases op <;> decide
    · exact .inr (.inr (.inl ⟨hr, .inl ⟨hf, hn ▸ hd⟩⟩))
  | draw x y height =>
    exact (Bank.getElem_set_or _ _ r _).imp_right fun hr => .inr (.inl ⟨hr, .inr h.1⟩)
  | loadRegisters => exact .inr (.inr (.inr h))
  | _ => exact .inl rfl

theorem stop_of_perform (h : w.Encodes i) :
    Part.stop.Same m (perform source m i) ∨ Part.stop.WrittenBy m w := by
  by_cases hf : ∃ r, m.Fault i r
  · right
    obtain ⟨r, hr⟩ := hf
    cases hr with
    | halt => exact .inl ⟨h.1, by rw [h.2]; decide⟩
    | unknown v => exact .inr (.inr h.2)
    | overflow target hd => exact .inr (.inl h.1)
    | underflow hd => exact .inl ⟨h.1, by rw [h.2]; decide⟩
  · exact .inl (perform_of_not_fault source m fun r hr => hf ⟨r, hr⟩)

/-- An instruction changes no part but those that its digits name. -/
theorem same_of_perform (h : w.Encodes i) (part : Part) :
    part.Same m (perform source m i) ∨ part.WrittenBy m w := by
  cases part with
  | memory a => exact memory_of_perform source m h a
  | register r => exact register_of_perform source m h r
  | index =>
    unfold Part.Same Part.WrittenBy
    rw [perform_index]
    cases i with
    | loadIndex a => exact .inr (.inl h.1)
    | addIndex x | loadGlyph x => exact .inr (.inr ⟨h.1, by rw [h.2.1]; decide⟩)
    | _ => exact .inl rfl
  | stack =>
    unfold Part.Same Part.WrittenBy
    rw [perform_stack]
    cases i with
    | call target => exact .inr (.inl h.1)
    | returnFromCall => exact .inr (.inr h)
    | _ => exact .inl rfl
  | display =>
    unfold Part.Same Part.WrittenBy
    rw [perform_display]
    cases i with
    | clearScreen => exact .inr (.inl h)
    | draw x y height => exact .inr (.inr h.1)
    | _ => exact .inl rfl
  | delay =>
    unfold Part.Same Part.WrittenBy
    rw [(perform_timers source m i).1]
    cases i with
    | setDelay x => exact .inr ⟨h.1, h.2.1⟩
    | _ => exact .inl rfl
  | sound =>
    unfold Part.Same Part.WrittenBy
    rw [(perform_timers source m i).2]
    cases i with
    | setSound x => exact .inr ⟨h.1, h.2.1⟩
    | _ => exact .inl rfl
  | keys => exact .inl (perform_keys source m i)
  | rng =>
    unfold Part.Same Part.WrittenBy
    rw [perform_rng]
    cases i with
    | random x mask => exact .inr h.1
    | _ => exact .inl rfl
  | awaiting =>
    unfold Part.Same Part.WrittenBy
    rw [perform_awaiting]
    cases i with
    | awaitKey x => exact .inr ⟨h.1, h.2.1⟩
    | _ => exact .inl rfl
  | stop => exact stop_of_perform source m h

/-- **The footprint of a word.** Whatever the machine was doing, executing a word leaves every part
alone that the digits of the word do not name. -/
theorem same_of_execute (w : Int) (part : Part) :
    part.Same m (m.handle source (.execute w)) ∨ part.WrittenBy m (BitVec.ofInt 16 w) := by
  rw [handle_execute]
  have h := same_of_perform source m.advanced (Word.encodes_instruction (BitVec.ofInt 16 w)) part
  rw [execute_eq]
  -- the two machines of the instruction differ in the program counter only, which is no part
  cases part <;> exact h

end Machine

end Chip8
