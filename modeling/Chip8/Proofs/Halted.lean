import Chip8.Proofs.KeyWait

/-!
# Halted machines

A halted machine executes nothing, and ticks, released keys and loaded programs leave alone all that
it has computed. A pressed key does so too, unless the machine waits for one: then it still ends the
wait. `frozen_iff` says that this is the only way in which a halted machine goes on before a reset.

A machine that halts does not wait in an orderly run. It does if the program is replaced during a
wait by one that halts at the same place (`pressed_after_halt`).
-/
namespace Chip8.Machine

/-- What a machine has computed is the same: only memory, timers, keys and the wait may differ. -/
structure Frozen (m m' : Machine) : Prop where
  registers : m'.core.registers = m.core.registers
  index : m'.core.index = m.core.index
  pc : m'.core.pc = m.core.pc
  stack : m'.core.stack = m.core.stack
  display : m'.display = m.display
  rng : m'.rng = m.rng
  halted : m'.halted = m.halted
  haltCause : m'.haltCause = m.haltCause

theorem Frozen.refl (m : Machine) : Frozen m m := ⟨rfl, rfl, rfl, rfl, rfl, rfl, rfl, rfl⟩

variable {m m' : Machine}

theorem Frozen.trans {m'' : Machine} (h : Frozen m m') (h' : Frozen m' m'') : Frozen m m'' where
  registers := h'.registers.trans h.registers
  index := h'.index.trans h.index
  pc := h'.pc.trans h.pc
  stack := h'.stack.trans h.stack
  display := h'.display.trans h.display
  rng := h'.rng.trans h.rng
  halted := h'.halted.trans h.halted
  haltCause := h'.haltCause.trans h.haltCause

theorem frozen_inputs (m : Machine) (memory : Memory) (delay sound : Byte) (keys : Keypad) :
    Frozen m
      { m with
        core.memory := memory, core.delay := delay, core.sound := sound, core.keys := keys } :=
  ⟨rfl, rfl, rfl, rfl, rfl, rfl, rfl, rfl⟩

/-- No word is executed from outside, and there is no reset. -/
def NoReset (_ : Machine) : Event → Prop
  | .execute _ | .reset => False
  | _ => True

/-! ## Single events -/

theorem step_of_halted {source : ByteSource} (hm : m.halted = true) : m.step source = m :=
  if_pos hm

theorem steps_of_halted {source : ByteSource} (hm : m.halted = true) (n : Nat) :
    m.steps source n = m :=
  steps_invariant (P := (· = m)) (fun _ e => by rw [e]; exact step_of_halted hm) n rfl

/-- Only a pressed key that ends a wait changes what a halted machine has computed. -/
theorem handle_of_halted (source : ByteSource) {e : Event} (hm : m.halted = true)
    (he : NoReset m e) (hp : m.awaiting = none ∨ ∀ k, e ≠ .press k) :
    Frozen m (m.handle source e) ∧ (m.handle source e).awaiting = m.awaiting := by
  cases e with
  | execute w => exact absurd he id
  | step =>
    rw [show m.handle source .step = m from step_of_halted hm]
    exact ⟨.refl m, rfl⟩
  | steps n =>
    rw [show m.handle source (.steps n) = m from steps_of_halted hm n]
    exact ⟨.refl m, rfl⟩
  | press k =>
    rcases hp with ha | hp
    · rw [show m.handle source (.press k) = m.press _ from rfl, press_of_none ha]
      exact ⟨frozen_inputs m _ _ _ _, rfl⟩
    · exact absurd rfl (hp k)
  | release k => exact ⟨frozen_inputs m _ _ _ _, rfl⟩
  | tick => exact ⟨frozen_inputs m _ _ _ _, rfl⟩
  | load program =>
    rcases handle_load source m program with hl | ⟨bytes, hl⟩
    · rw [hl]
      exact ⟨.refl m, rfl⟩
    · rw [hl]
      exact ⟨frozen_inputs m _ _ _ _, rfl⟩
  | reset => exact absurd he id

theorem nextPc_ne (c : Core) : c.nextPc ≠ c.pc := by
  intro h
  have hc := c.pc.isLt
  have := congrArg BitVec.toNat h
  rw [Core.toNat_nextPc] at this
  omega

/-! ## Runs -/

/-- A halted machine that does not wait, or is left without pressed keys, computes nothing more. -/
theorem frozen_of_run {es : List Event} (run : Run NoReset m es m') (hm : m.halted = true)
    (hp : m.awaiting = none ∨ ∀ k, Event.press k ∉ es) : Frozen m m' := by
  induction run with
  | nil m => exact .refl m
  | @cons m m' e es source he _ ih =>
    obtain ⟨hf, ha⟩ := handle_of_halted source hm he <|
      hp.imp_right fun h k hk => h k (hk ▸ List.mem_cons_self)
    refine hf.trans (ih (hf.halted.trans hm) ?_)
    rw [ha]
    exact hp.imp_right fun h k hk => h k (List.mem_cons_of_mem _ hk)

/-- The first key that is pressed moves the program counter of a halted machine that waits. -/
theorem pc_of_run {es : List Event} (run : Run NoReset m es m') (hm : m.halted = true)
    {x : Register} (ha : m.awaiting = some x) {k : Int} (hk : Event.press k ∈ es) :
    m'.core.pc = m.core.nextPc := by
  induction run with
  | nil m => cases hk
  | @cons m m' e es source he run ih =>
    by_cases hp : ∃ k, e = .press k
    · obtain ⟨k', rfl⟩ := hp
      have hs := press_of_some (k := BitVec.ofInt 4 k') ha
      have hf := frozen_of_run run (by rw [handle, hs]; exact hm) (.inl (by rw [handle, hs]))
      rw [hf.pc, handle, hs]
    · obtain ⟨hf, ha'⟩ := handle_of_halted source hm he <|
        .inr fun k h => hp ⟨k, h⟩
      have hk' : Event.press k ∈ es := by
        rcases List.mem_cons.mp hk with h | h
        · exact absurd ⟨k, h.symm⟩ hp
        · exact h
      rw [ih (hf.halted.trans hm) (ha'.trans ha) hk']
      unfold Core.nextPc
      rw [hf.pc]

/-- **Halted machines.** Without a reset, what a halted machine has computed stays the same exactly
if it does not wait for a key or no key is pressed. If it has halted in an orderly run, it stays the
same whatever is pressed. -/
theorem frozen_iff {later : List Event} (run : Run NoReset m later m') (hm : m.halted = true) :
    (Frozen m m' ↔ m.awaiting = none ∨ ∀ k, Event.press k ∉ later) ∧
    (∀ key es, Run Orderly (.create key) es m → Frozen m m') := by
  refine ⟨⟨fun h => ?_, frozen_of_run run hm⟩, fun key es orderly => ?_⟩
  · cases ha : m.awaiting with
    | none => exact .inl rfl
    | some x =>
      right
      intro k hk
      exact nextPc_ne m.core ((pc_of_run run hm ha hk).symm.trans h.pc)
  · refine frozen_of_run run hm (.inl ?_)
    cases ha : m.awaiting with
    | none => rfl
    | some x =>
      have hw := waiting_of_orderly orderly ha
      rw [hw.halted] at hm
      cases hm

/-- A program that halts at once. A key pressed then is only noted. -/
theorem frozen_iff_halt :
    let es : List Event := [.load [0x00, 0x00], .step]
    let m := (Machine.create ⟨0, 0⟩).run (.constant 0) es
    let later : List Event := [.tick, .press 5, .steps 3]
    let m' := m.run (.constant 0) later
    Run Orderly (.create ⟨0, 0⟩) es m ∧ m.halted = true ∧ Run NoReset m later m' ∧
      Frozen m m' := by
  intro es m later m'
  have orderly : Run Orderly (.create ⟨0, 0⟩) es m := by
    simp only [m, es, run, List.foldl_cons, List.foldl_nil]
    exact .cons _ rfl (.cons _ trivial (.nil _))
  have hm : m.halted = true := by decide +kernel
  have run : Run NoReset m later m' := by
    refine .of_allowed _ later (fun m e he => ?_) _
    simp only [later, List.mem_cons, List.not_mem_nil, or_false] at he
    rcases he with rfl | rfl | rfl <;> trivial
  exact ⟨orderly, hm, run, (frozen_iff run hm).2 _ es orderly⟩

/-- The program is replaced during a wait by one that halts. The key that is pressed then is loaded,
and the program counter of the halted machine moves on. -/
theorem pressed_after_halt :
    let es : List Event := [.load [0xF3, 0x0A], .step, .load [0x00, 0x00], .step]
    let m := (Machine.create ⟨0, 0⟩).run (.constant 0) es
    let m' := m.run (.constant 0) [.press 5]
    Run NoReset (.create ⟨0, 0⟩) es m ∧ m.halted = true ∧ Run NoReset m [.press 5] m' ∧
      ¬ Frozen m m' := by
  intro es m m'
  refine ⟨.of_allowed _ es ?_ _, ?_, .of_allowed _ [.press 5] ?_ _, fun h => ?_⟩
  · intro m e he
    simp only [es, List.mem_cons, List.not_mem_nil, or_false] at he
    rcases he with rfl | rfl | rfl | rfl <;> trivial
  · decide +kernel
  · intro m e he
    rw [List.mem_singleton.mp he]
    trivial
  · have hpc : m'.core.pc ≠ m.core.pc := by decide +kernel
    exact hpc h.pc

end Chip8.Machine
