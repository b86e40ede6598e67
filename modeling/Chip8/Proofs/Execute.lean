import Chip8.Machine.Execute
import Chip8.Proofs.Instruction

/-!
# What an instruction changes

Handlers are given all fields of a word, but what they do depends on the operands of the instruction
alone (`handler_eq_perform`). So records that agree on what their text shows do the same
(`dispatch_congr`), and an integer does what it does modulo `2 ^ 16` (`handle_execute`).

This is the effect of an instruction on the parts of a machine that decide how it goes on: the stop,
the wait, the keys, the call stack and the program counter. The instructions that branch come first,
each brought into the form of one machine; then there is one lemma for each part, for `perform`,
whose machine has already moved past the instruction, and for `execute`.

`Fault` lists the four faults. `execute_of_fault` says that a fault stops the machine and does
nothing else, `execute_of_not_fault` that nothing but a fault stops it, and `execute_await` that a
wait for a key does nothing but wait. A key that is down already is loaded without a wait
(`execute_await_down`).
-/
namespace Chip8

def Condition.holds (c : Core) : Condition → Bool
  | .eqByte x b => c.registers[x] = b
  | .neByte x b => c.registers[x] ≠ b
  | .eqRegister x y => c.registers[x] = c.registers[y]
  | .neRegister x y => c.registers[x] ≠ c.registers[y]
  | .keyDown x => c.keys.isDown (c.registers[x].setWidth 4)
  | .keyUp x => !c.keys.isDown (c.registers[x].setWidth 4)

/-- Only registers change. -/
theorem Core.setFlagged_eq (c : Core) (x : Register) (r : Flagged) :
    c.setFlagged x r = { c with registers := (c.setFlagged x r).registers } := by
  unfold setFlagged
  cases r.flag <;> rfl

/-- No other part of the core matters to what a result does to the registers. -/
theorem Core.registers_setFlagged_congr (c c' : Core) (h : c'.registers = c.registers)
    (x : Register) (r : Flagged) :
    (c'.setFlagged x r).registers = (c.setFlagged x r).registers := by
  unfold setFlagged setRegister
  cases r.flag <;> simp only [h]

namespace Machine

/-- The instructions that stop a machine, each with the reason. -/
inductive Fault (m : Machine) : Instruction → HaltCause → Prop where
  | halt : Fault m .halt .haltInstruction
  | unknown (w : Word) : Fault m (.unknown w) .unknownOpcode
  | overflow (target : Address) :
      16 ≤ m.core.stack.depth.toNat → Fault m (.call target) .stackOverflow
  | underflow : m.core.stack.depth = 0 → Fault m .returnFromCall .stackUnderflow

/-- The machine with the program counter past the present instruction. -/
def advanced (m : Machine) : Machine := { m with core.pc := m.core.nextPc }

/-- The effect of an instruction on a machine whose program counter has moved past it: what the
handler of its operation does with its record. -/
def perform (source : ByteSource) (m : Machine) (i : Instruction) : Machine :=
  handler source i.decoded.operation m i.decoded

variable (source : ByteSource) (m : Machine)

/-- A handler looks at no field but the operands of the instruction, whatever is in the others. -/
theorem handler_eq_perform (d : Decoded) :
    handler source d.operation m d = perform source m d.instruction := by
  obtain ⟨raw, operation, x, y, n, nn, nnn⟩ := d
  cases operation <;> rfl

/-- A skip does not look at the program counter. -/
theorem holds_advanced (condition : Condition) :
    condition.holds m.advanced.core = condition.holds m.core := by
  cases condition <;> rfl

/-! ## Instructions that branch -/

theorem perform_call (target : Address) :
    perform source m (.call target) =
      if 16 ≤ m.core.stack.depth.toNat then m.halt .stackOverflow
      else
        { m with
          core.stack := m.core.stack.push m.core.pc
          core.pc := target.word } := by
  change m.call target = _
  unfold call CallStack.isFull
  simp only [decide_eq_true_eq]

theorem perform_returnFromCall :
    perform source m .returnFromCall =
      if m.core.stack.depth = 0 then m.halt .stackUnderflow
      else { m with core.stack := m.core.stack.pop, core.pc := m.core.stack.top } := by
  change m.returnFromCall = _
  unfold returnFromCall CallStack.isEmpty
  simp only [decide_eq_true_eq]

theorem perform_skipIf (condition : Condition) :
    perform source m (.skipIf condition) =
      { m with core.pc := if condition.holds m.core then m.core.nextPc else m.core.pc } := by
  have h : perform source m (.skipIf condition) =
      if condition.holds m.core then { m with core.pc := m.core.nextPc } else m := by
    cases condition <;> rfl
  rw [h]
  split <;> rfl

/-- The lowest key that is held is loaded at once; if there is none, the machine waits. -/
theorem perform_awaitKey (x : Register) :
    perform source m (.awaitKey x) =
      { m with
        awaiting := if m.core.keys = 0 then some x else none
        core.registers := m.core.keys.lowest?.elim m.core.registers fun k =>
          m.core.registers.set x (k.setWidth 8) } := by
  change m.awaitKey x = _
  unfold awaitKey
  cases hl : m.core.keys.lowest? with
  | none =>
    rw [if_pos ((Keypad.lowest?_eq_none_iff _).1 hl)]
    rfl
  | some k =>
    rw [if_neg (Keypad.ne_zero_of_lowest? hl)]
    rfl

theorem perform_combine (op : Combination) (x y : Register) :
    perform source m (.combine op x y) =
      { m with core.registers :=
          (m.core.setFlagged x (op.apply m.core.registers[x] m.core.registers[y])).registers } := by
  have h : perform source m (.combine op x y) =
      { m with
        core := m.core.setFlagged x (op.apply m.core.registers[x] m.core.registers[y]) } := by
    cases op <;> rfl
  rw [h, Core.setFlagged_eq]

theorem perform_shift (op : Shift) (x : Register) :
    perform source m (.shift op x) =
      { m with core.registers :=
          (m.core.setFlagged x (op.apply m.core.registers[x])).registers } := by
  have h : perform source m (.shift op x) =
      { m with core := m.core.setFlagged x (op.apply m.core.registers[x]) } := by
    cases op <;> rfl
  rw [h, Core.setFlagged_eq]

/-- Written out, since whether two banks are equal is expensive to ask of their definitions. -/
theorem perform_loadRegisters :
    perform source m .loadRegisters =
      { m with core.registers :=
          .ofFn fun x => m.core.memory[m.core.index.address + x.setWidth 12] } := rfl

/-! ## Performing an instruction -/

theorem perform_of_fault {i : Instruction} {r : HaltCause} (h : m.Fault i r) :
    perform source m i = { m with halted := true, haltCause := some r } := by
  cases h with
  | halt => rfl
  | unknown w => rfl
  | overflow target h => rw [perform_call, if_pos h]; rfl
  | underflow h => rw [perform_returnFromCall, if_pos h]; rfl

theorem perform_of_not_fault {i : Instruction} (h : ∀ r, ¬ m.Fault i r) :
    (perform source m i).halted = m.halted ∧ (perform source m i).haltCause = m.haltCause := by
  cases i with
  | halt => exact absurd .halt (h _)
  | unknown w => exact absurd (.unknown w) (h _)
  | call target =>
    rw [perform_call, if_neg fun hf => h _ (.overflow target hf)]
    exact ⟨rfl, rfl⟩
  | returnFromCall =>
    rw [perform_returnFromCall, if_neg fun he => h _ (.underflow he)]
    exact ⟨rfl, rfl⟩
  | skipIf condition => simp only [perform_skipIf, and_self]
  | awaitKey x => simp only [perform_awaitKey, and_self]
  | combine op x y => simp only [perform_combine, and_self]
  | shift op x => simp only [perform_shift, and_self]
  | loadRegisters => simp only [perform_loadRegisters, and_self]
  | _ => exact ⟨rfl, rfl⟩

theorem perform_awaiting (i : Instruction) :
    (perform source m i).awaiting =
      match i with
      | .awaitKey x => if m.core.keys = 0 then some x else none
      | _ => m.awaiting := by
  cases i with
  | call target => rw [perform_call]; split <;> rfl
  | returnFromCall => rw [perform_returnFromCall]; split <;> rfl
  | skipIf condition => rw [perform_skipIf]
  | awaitKey x => rw [perform_awaitKey]
  | combine op x y => rw [perform_combine]
  | shift op x => rw [perform_shift]
  | loadRegisters => rw [perform_loadRegisters]
  | _ => rfl

theorem perform_keys (i : Instruction) : (perform source m i).core.keys = m.core.keys := by
  cases i with
  | call target => rw [perform_call]; split <;> rfl
  | returnFromCall => rw [perform_returnFromCall]; split <;> rfl
  | skipIf condition => rw [perform_skipIf]
  | awaitKey x => rw [perform_awaitKey]
  | combine op x y => rw [perform_combine]
  | shift op x => rw [perform_shift]
  | loadRegisters => rw [perform_loadRegisters]
  | _ => rfl

theorem perform_stack (i : Instruction) :
    (perform source m i).core.stack =
      match i with
      | .call _ =>
        if 16 ≤ m.core.stack.depth.toNat then m.core.stack else m.core.stack.push m.core.pc
      | .returnFromCall => if m.core.stack.depth = 0 then m.core.stack else m.core.stack.pop
      | _ => m.core.stack := by
  cases i with
  | call target =>
    rw [perform_call]
    exact apply_ite (fun m : Machine => m.core.stack) ..
  | returnFromCall =>
    rw [perform_returnFromCall]
    exact apply_ite (fun m : Machine => m.core.stack) ..
  | skipIf condition => rw [perform_skipIf]
  | awaitKey x => rw [perform_awaitKey]
  | combine op x y => rw [perform_combine]
  | shift op x => rw [perform_shift]
  | loadRegisters => rw [perform_loadRegisters]
  | _ => rfl

theorem perform_pc (i : Instruction) :
    (perform source m i).core.pc =
      match i with
      | .jump target => target.word
      | .call target => if 16 ≤ m.core.stack.depth.toNat then m.core.pc else target.word
      | .returnFromCall => if m.core.stack.depth = 0 then m.core.pc else m.core.stack.top
      | .skipIf condition => if condition.holds m.core then m.core.nextPc else m.core.pc
      | .jumpOffset target =>
        Address.word (target + m.core.registers[(0 : Register)].setWidth 12)
      | _ => m.core.pc := by
  cases i with
  | call target =>
    rw [perform_call]
    exact apply_ite (fun m : Machine => m.core.pc) ..
  | returnFromCall =>
    rw [perform_returnFromCall]
    exact apply_ite (fun m : Machine => m.core.pc) ..
  | skipIf condition => rw [perform_skipIf]
  | awaitKey x => rw [perform_awaitKey]
  | combine op x y => rw [perform_combine]
  | shift op x => rw [perform_shift]
  | loadRegisters => rw [perform_loadRegisters]
  | _ => rfl

/-! ## Executing a word -/

/-- Executing a record is performing its instruction past it, but for the program counter. -/
theorem dispatch_eq (d : Decoded) :
    m.dispatch source d =
      { perform source m.advanced d.instruction with
        core.pc :=
          if (perform source m.advanced d.instruction).stalled then m.core.pc
          else (perform source m.advanced d.instruction).core.pc } := by
  rw [← handler_eq_perform]
  change (if (handler source d.operation m.advanced d).stalled then _ else _) = _
  split <;> rfl

/-- Records that agree on what their text shows do the same. -/
theorem dispatch_congr {d e : Decoded} (h : d.Agree e) :
    m.dispatch source e = m.dispatch source d := by
  rw [dispatch_eq, dispatch_eq, h.instruction_eq]

theorem execute_eq (w : Word) :
    m.execute source w =
      { perform source m.advanced w.instruction with
        core.pc :=
          if (perform source m.advanced w.instruction).stalled then m.core.pc
          else (perform source m.advanced w.instruction).core.pc } :=
  dispatch_eq source m (decode w.toNat)

/-- An integer is executed as the word that it is modulo `2 ^ 16`. -/
theorem handle_execute (w : Int) :
    m.handle source (.execute w) = m.execute source (BitVec.ofInt 16 w) := by
  rw [execute_eq, ← instruction_decode]
  exact dispatch_eq source m (decode w)

/-- Whether an instruction is a fault depends on the call stack only. -/
theorem Fault.of_stack {m n : Machine} {i : Instruction} {r : HaltCause}
    (h : m.Fault i r) (hs : n.core.stack = m.core.stack) : n.Fault i r := by
  cases h with
  | halt => exact .halt
  | unknown w => exact .unknown w
  | overflow target h => exact .overflow target (by rw [hs]; exact h)
  | underflow h => exact .underflow (by rw [hs]; exact h)

/-- A fault stops the machine where it is and does nothing else. -/
theorem execute_of_fault {w : Word} {r : HaltCause} (h : m.Fault w.instruction r) :
    m.execute source w = { m with halted := true, haltCause := some r } := by
  rw [execute_eq, perform_of_fault source m.advanced (h.of_stack rfl)]
  rfl

theorem execute_of_not_fault {w : Word} (h : ∀ r, ¬ m.Fault w.instruction r) :
    (m.execute source w).halted = m.halted ∧
      (m.execute source w).haltCause = m.haltCause := by
  rw [execute_eq]
  exact perform_of_not_fault source m.advanced fun r hr => h r (hr.of_stack rfl)

theorem execute_awaiting (w : Word) :
    (m.execute source w).awaiting =
      match w.instruction with
      | .awaitKey x => if m.core.keys = 0 then some x else none
      | _ => m.awaiting := by
  rw [execute_eq]
  exact perform_awaiting source m.advanced _

/-- A machine that waits after a word waits because of that word, or was waiting and executed
another one. -/
theorem awaiting_of_execute {w : Word} {x : Register}
    (h : (m.execute source w).awaiting = some x) :
    w.instruction = .awaitKey x ∧ m.core.keys = 0 ∨
      (∀ y, w.instruction ≠ .awaitKey y) ∧ m.awaiting = some x := by
  rw [execute_awaiting] at h
  generalize w.instruction = i at h ⊢
  cases i with
  | awaitKey y =>
    left
    by_cases hk : m.core.keys = 0
    · exact ⟨congrArg _ (Option.some.inj ((if_pos hk).symm.trans h)), hk⟩
    · cases (if_neg hk).symm.trans h
  | _ => exact .inr ⟨nofun, h⟩

theorem execute_keys (w : Word) : (m.execute source w).core.keys = m.core.keys := by
  rw [execute_eq]
  exact perform_keys source m.advanced _

theorem execute_stack (w : Word) :
    (m.execute source w).core.stack =
      match w.instruction with
      | .call _ =>
        if 16 ≤ m.core.stack.depth.toNat then m.core.stack
        else m.core.stack.push m.core.nextPc
      | .returnFromCall => if m.core.stack.depth = 0 then m.core.stack else m.core.stack.pop
      | _ => m.core.stack := by
  rw [execute_eq]
  exact perform_stack source m.advanced _

/-- Where a machine stands after a word. -/
theorem execute_pc (w : Word) :
    (m.execute source w).core.pc =
      if (m.execute source w).stalled then m.core.pc
      else
        match w.instruction with
        | .jump target => target.word
        | .call target => if 16 ≤ m.core.stack.depth.toNat then m.core.nextPc else target.word
        | .returnFromCall => if m.core.stack.depth = 0 then m.core.nextPc else m.core.stack.top
        | .skipIf condition =>
          if condition.holds m.advanced.core then m.advanced.core.nextPc else m.core.nextPc
        | .jumpOffset target =>
          Address.word (target + m.core.registers[(0 : Register)].setWidth 12)
        | _ => m.core.nextPc := by
  rw [execute_eq, perform_pc]
  rfl

/-- With no key down, an instruction that loads a key does nothing but wait. -/
theorem execute_await {w : Word} {x : Register} (hi : w.instruction = .awaitKey x)
    (hk : m.core.keys = 0) : m.execute source w = { m with awaiting := some x } := by
  have ha : m.advanced.core.keys = 0 := hk
  have hl : m.advanced.core.keys.lowest? = none := (Keypad.lowest?_eq_none_iff _).2 hk
  rw [execute_eq, hi, perform_awaitKey, hl, if_pos ha]
  simp only [stalled, Option.isSome_some, Bool.or_true, if_true]
  rfl

/-- With a key down, an instruction that loads a key loads the lowest one at once. -/
theorem execute_await_down {w : Word} {x : Register} {k : Key} (hm : m.halted = false)
    (hi : w.instruction = .awaitKey x) (hk : m.core.keys.lowest? = some k) :
    m.execute source w =
      { m with
        awaiting := none
        core.registers := m.core.registers.set x (k.setWidth 8)
        core.pc := m.core.nextPc } := by
  have hl : m.advanced.core.keys.lowest? = some k := hk
  rw [execute_eq, hi, perform_awaitKey, hl, if_neg (Keypad.ne_zero_of_lowest? hl)]
  simp only [stalled, advanced, hm]
  rfl

/-! ## Faults -/

/-- **Faults are exact and atomic.** An instruction stops a running machine exactly if it is a
fault. Then the machine takes the reason of the fault and is otherwise as before, the program
counter included. So is one that starts to wait for a key, but for the register it waits with. -/
theorem execute_faults {m : Machine} (hm : m.halted = false) (w : Int) :
    let i := Word.instruction (BitVec.ofInt 16 w)
    ((m.handle source (.execute w)).halted = true ↔ ∃ r, m.Fault i r) ∧
    (∀ r, m.Fault i r →
      m.handle source (.execute w) = { m with halted := true, haltCause := some r }) ∧
    (∀ x, i = .awaitKey x → m.core.keys = 0 →
      m.handle source (.execute w) = { m with awaiting := some x }) := by
  intro i
  rw [handle_execute]
  refine ⟨⟨fun h => ?_, fun ⟨r, hr⟩ => ?_⟩, fun r hr => ?_, fun x hi hk => ?_⟩
  · apply Classical.byContradiction
    intro hn
    have hf := (m.execute_of_not_fault source fun r hr => hn ⟨r, hr⟩).1
    rw [hm] at hf
    exact absurd (hf.symm.trans h) (by decide)
  · exact congrArg halted (m.execute_of_fault source hr)
  · exact m.execute_of_fault source hr
  · exact m.execute_await source hi hk

/-- A call with sixteen return addresses in use. -/
theorem execute_faults_full_stack :
    let m : Machine := { Machine.create ⟨0, 0⟩ with core.stack.depth := 16 }
    m.halted = false ∧ m.Fault (Word.instruction (BitVec.ofInt 16 0x2ABC)) .stackOverflow ∧
      m.handle (.constant 0) (.execute 0x2ABC) =
        { m with halted := true, haltCause := some .stackOverflow } := by
  intro m
  have hf : m.Fault (Word.instruction (BitVec.ofInt 16 0x2ABC)) .stackOverflow :=
    .overflow 0xABC (by decide)
  exact ⟨rfl, hf, (execute_faults (.constant 0) rfl 0x2ABC).2.1 _ hf⟩

end Machine

end Chip8
