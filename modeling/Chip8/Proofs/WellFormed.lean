import Chip8.Proofs.CallStack
import Chip8.Proofs.Execute
import Chip8.Proofs.Run

/-!
# Well-formed machines

What every machine satisfies that comes about by events from a new one. The facts depend on each
other: a return puts an entry of the call stack into the program counter, which is an address only
because a call has put one there; and a machine that waits has no key down only because a pressed
key ends the wait.

`WellFormed.handle` is the step: no event breaks the invariant, whatever word is executed and
whatever the machine was doing. `wellFormed_of_run` is the run.
-/
namespace Chip8.Machine

structure WellFormed (m : Machine) : Prop where
  pc_lt : m.core.pc.toNat < 4096
  stack : m.core.stack.WellFormed
  halted_iff : m.halted = true ↔ m.haltCause ≠ none
  keys_of_awaiting : m.awaiting ≠ none → m.core.keys = 0

/-- The number of the register that waits for a key, or -1 if none does. -/
def awaitingNumber (m : Machine) : Int := m.awaiting.elim (-1) fun x => x.toNat

theorem wellFormed_start (memory : Memory) (key : RandomKey) :
    (start (.start memory) key).WellFormed where
  pc_lt := Address.word_toNat_lt _
  stack := CallStack.wellFormed_empty
  halted_iff := ⟨fun h => (by cases h), fun h => absurd rfl h⟩
  keys_of_awaiting h := absurd rfl h

variable {source : ByteSource} {m : Machine}

/-! ## Executing a word -/

theorem perform_pc_lt (hp : m.core.pc.toNat < 4096) (hs : m.core.stack.WellFormed)
    (i : Instruction) : (perform source m i).core.pc.toNat < 4096 := by
  rw [perform_pc]
  cases i with
  | jump target => exact Address.word_toNat_lt _
  | call target =>
    change BitVec.toNat (ite _ _ _) < 4096
    split
    · exact hp
    · exact Address.word_toNat_lt _
  | returnFromCall =>
    change BitVec.toNat (ite _ _ _) < 4096
    split
    · exact hp
    · exact hs.top_lt
  | skipIf condition =>
    change BitVec.toNat (ite _ _ _) < 4096
    split
    · exact Address.word_toNat_lt _
    · exact hp
  | jumpOffset target => exact Address.word_toNat_lt _
  | _ => exact hp

theorem WellFormed.execute_pc_lt (h : m.WellFormed) (w : Word) :
    (m.execute source w).core.pc.toNat < 4096 := by
  rw [execute_eq]
  change BitVec.toNat (ite _ _ _) < 4096
  split
  · exact h.pc_lt
  · exact perform_pc_lt (m := m.advanced) (Address.word_toNat_lt _) h.stack _

theorem WellFormed.execute_stack (h : m.WellFormed) (w : Word) :
    (m.execute source w).core.stack.WellFormed := by
  rw [Machine.execute_stack]
  cases w.instruction with
  | call target =>
    change CallStack.WellFormed (ite _ _ _)
    split
    · exact h.stack
    · rename_i hf
      exact h.stack.push (by omega) (Address.word_toNat_lt _)
  | returnFromCall =>
    change CallStack.WellFormed (ite _ _ _)
    split
    · exact h.stack
    · rename_i he
      exact h.stack.pop (Nat.pos_of_ne_zero fun h0 => he (BitVec.eq_of_toNat_eq h0))
  | _ => exact h.stack

theorem WellFormed.execute_halted_iff (h : m.WellFormed) (w : Word) :
    (m.execute source w).halted = true ↔ (m.execute source w).haltCause ≠ none := by
  by_cases hf : ∃ r, m.Fault w.instruction r
  · obtain ⟨r, hr⟩ := hf
    rw [m.execute_of_fault source hr]
    exact ⟨fun _ => Option.some_ne_none r, fun _ => rfl⟩
  · obtain ⟨h1, h2⟩ := m.execute_of_not_fault source fun r hr => hf ⟨r, hr⟩
    rw [h1, h2]
    exact h.halted_iff

theorem WellFormed.execute_keys (h : m.WellFormed) (w : Word)
    (ha : (m.execute source w).awaiting ≠ none) : (m.execute source w).core.keys = 0 := by
  rw [Machine.execute_keys]
  obtain ⟨x, hx⟩ := Option.ne_none_iff_exists'.mp ha
  rcases m.awaiting_of_execute source hx with ⟨-, hk⟩ | ⟨-, hm⟩
  · exact hk
  · exact h.keys_of_awaiting (by rw [hm]; exact Option.some_ne_none x)

theorem WellFormed.execute (h : m.WellFormed) (w : Word) : (m.execute source w).WellFormed :=
  ⟨h.execute_pc_lt w, h.execute_stack w, h.execute_halted_iff w, h.execute_keys w⟩

theorem WellFormed.step (h : m.WellFormed) : (m.step source).WellFormed := by
  unfold Machine.step
  split
  · exact h
  · exact h.execute _

/-! ## Events from outside -/

theorem WellFormed.press (h : m.WellFormed) (k : Key) : (m.press k).WellFormed := by
  cases ha : m.awaiting with
  | none =>
    rw [press_of_none ha]
    exact ⟨h.pc_lt, h.stack, h.halted_iff, fun hn => absurd ha hn⟩
  | some x =>
    rw [press_of_some ha]
    exact ⟨Address.word_toNat_lt _, h.stack, h.halted_iff, fun hn => absurd rfl hn⟩

theorem WellFormed.release (h : m.WellFormed) (k : Key) : (m.release k).WellFormed := by
  refine ⟨h.pc_lt, h.stack, h.halted_iff, fun ha => ?_⟩
  change m.core.keys.release k = 0
  rw [h.keys_of_awaiting ha, Keypad.release_zero]

theorem WellFormed.tick (h : m.WellFormed) : m.tick.WellFormed :=
  ⟨h.pc_lt, h.stack, h.halted_iff, h.keys_of_awaiting⟩

theorem WellFormed.install (h : m.WellFormed) (program : List Byte) :
    (m.install program).WellFormed :=
  ⟨h.pc_lt, h.stack, h.halted_iff, h.keys_of_awaiting⟩

/-- No event breaks the invariant. -/
theorem WellFormed.handle (h : m.WellFormed) (e : Event) : (m.handle source e).WellFormed := by
  cases e with
  | execute w =>
    rw [handle_execute]
    exact h.execute _
  | step => exact h.step
  | steps n => exact steps_invariant (fun _ h => h.step) n h
  | press k => exact h.press _
  | release k => exact h.release _
  | tick => exact h.tick
  | load program =>
    rcases handle_load source m program with hl | ⟨bytes, hl⟩
    · rw [hl]
      exact h
    · rw [hl]
      exact h.install bytes
  | reset => exact wellFormed_start _ _

/-- **Reachable machines are well-formed.** After any events in any order, the program counter is
an address, the call stack is well-formed, the machine is halted exactly if it has a reason, and no
key is down while it waits for one. The reason has one of five names, and the register that waits
is one of sixteen. -/
theorem wellFormed_of_run {key : RandomKey} {es : List Event}
    (run : Run AnyEvent (.create key) es m) :
    m.WellFormed ∧
    HaltCause.nameOf m.haltCause ∈
      ["NONE", "HALT_INSTRUCTION", "UNKNOWN_OPCODE", "STACK_OVERFLOW", "STACK_UNDERFLOW"] ∧
    (m.awaitingNumber = -1 ∨ 0 ≤ m.awaitingNumber ∧ m.awaitingNumber ≤ 15) := by
  refine ⟨run.invariant (fun _ _ e h _ => h.handle e) (wellFormed_start _ _), ?_, ?_⟩
  · rcases m.haltCause with _ | _ | _ | _ | _ <;> decide
  · unfold awaitingNumber
    cases m.awaiting with
    | none => exact .inl rfl
    | some x =>
      have := x.isLt
      simp only [Option.elim_some]
      omega

/-- A routine that calls itself until the stack is full, and events on the halted machine. -/
theorem wellFormed_of_run_overflow :
    let es : List Event := [.load [0x22, 0x00], .steps 20, .execute 0xF30A, .press (-7), .tick]
    let m := (Machine.create ⟨0, 0⟩).run (.constant 7) es
    Run AnyEvent (.create ⟨0, 0⟩) es m ∧ m.WellFormed := by
  intro es m
  have run : Run AnyEvent (.create ⟨0, 0⟩) es m := .of_allowed _ _ (fun _ _ _ => trivial) _
  exact ⟨run, (wellFormed_of_run run).1⟩

end Chip8.Machine
