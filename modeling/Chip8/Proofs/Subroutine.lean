import Chip8.Proofs.ProgramCounter
import Chip8.Proofs.Run

/-!
# Subroutines

A call pushes the address of the next instruction, and the body of the subroutine may do what it
likes above it: call and return in turn, change the program, run into a full stack, wait for keys.
As long as the call stack does not drop below the depth that the call has left, it extends that call
stack (`extends_of_run`). So a return from that depth finds the address that the call has pushed and
leaves the call stack as it was before the call (`return_of_run`).
-/
namespace Chip8

/-- The second family is the calls. -/
theorem Word.instruction_of_call {w : Int} (h : w / 4096 % 16 = 2) :
    instruction (BitVec.ofInt 16 w) = .call (nnn (BitVec.ofInt 16 w)) := by
  have hf : family (BitVec.ofInt 16 w) = 2 := by
    apply BitVec.eq_of_toNat_eq
    rw [(fields_ofInt w).1, h]
    rfl
  exact instruction_of_encodes ⟨hf, rfl⟩

namespace Machine

variable {m m' : Machine}

/-- There is no reset, and the call stack holds at least `depth` addresses. Steps are taken one at a
time, so that each machine on the way is seen. -/
def Inside (depth : Nat) (m : Machine) : Event → Prop
  | .steps _ | .reset => False
  | _ => depth ≤ m.core.stack.depth.toNat

/-! ## Single events -/

/-- What a word may do to the call stack. -/
theorem stack_of_execute (source : ByteSource) (m : Machine) (w : Word) :
    (m.execute source w).core.stack = m.core.stack ∨
      (∃ a, m.core.stack.depth.toNat < 16 ∧ (m.execute source w).core.stack = m.core.stack.push a) ∨
      0 < m.core.stack.depth.toNat ∧ (m.execute source w).core.stack = m.core.stack.pop := by
  rw [execute_stack]
  cases w.instruction with
  | call target =>
    by_cases hf : 16 ≤ m.core.stack.depth.toNat
    · exact .inl (if_pos hf)
    · exact .inr (.inl ⟨_, Nat.lt_of_not_le hf, if_neg hf⟩)
  | returnFromCall =>
    by_cases he : m.core.stack.depth = 0
    · exact .inl (if_pos he)
    · exact .inr (.inr ⟨Nat.pos_of_ne_zero fun h0 => he (BitVec.eq_of_toNat_eq h0), if_neg he⟩)
  | _ => exact .inl rfl

/-- Only executing a word changes the call stack. -/
theorem stack_of_handle (source : ByteSource) {depth : Nat} {e : Event} (he : Inside depth m e) :
    (m.handle source e).core.stack = m.core.stack ∨
      ∃ w, m.handle source e = m.execute source w := by
  cases e with
  | execute w => exact .inr ⟨_, m.handle_execute source w⟩
  | step =>
    by_cases hh : m.halted = true
    · exact .inl (congrArg (·.core.stack) (if_pos hh : m.step source = m))
    · exact .inr ⟨m.fetch, if_neg hh⟩
  | steps n => exact absurd he id
  | press k =>
    left
    change (m.press _).core.stack = _
    rw [press_eq]
  | release k => exact .inl rfl
  | tick => exact .inl rfl
  | load program =>
    left
    rw [load_eq]
  | reset => exact absurd he id

theorem Inside.depth_le {depth : Nat} {e : Event} (he : Inside depth m e) :
    depth ≤ m.core.stack.depth.toNat := by
  cases e with
  | steps n => exact absurd he id
  | reset => exact absurd he id
  | _ => exact he

/-! ## Runs -/

/-- The call stack extends the base for as long as it does not drop below it. -/
theorem extends_of_run {base : CallStack} {es : List Event}
    (run : Run (Inside base.depth.toNat) m es m') (h : m.core.stack.Extends base)
    (hd : base.depth.toNat ≤ m'.core.stack.depth.toNat) : m'.core.stack.Extends base := by
  refine run.invariant (P := fun m =>
    base.depth.toNat ≤ m.core.stack.depth.toNat → m.core.stack.Extends base) ?_ (fun _ => h) hd
  intro m source e ih he hd'
  have hs := ih he.depth_le
  rcases stack_of_handle source he with hk | ⟨w, hw⟩
  · rw [hk]
    exact hs
  rw [hw] at hd' ⊢
  rcases stack_of_execute source m w with hk | ⟨a, hf, hk⟩ | ⟨hp, hk⟩ <;>
    rw [hk] at hd' ⊢
  · exact hs
  · exact hs.push he.depth_le hf a
  · -- a pop that leaves the base in place has found more than the base
    have hpop := CallStack.depth_pop_toNat hp
    exact hs.pop (by omega)

theorem execute_call (source : ByteSource) {w : Int} (hw : w / 4096 % 16 = 2)
    (hd : m.core.stack.depth.toNat < 16) :
    (m.handle source (.execute w)).core.stack = m.core.stack.push m.core.nextPc := by
  rw [handle_execute, execute_stack, Word.instruction_of_call hw]
  exact if_neg (by omega)

/-- A return from a running machine goes to the address on top of the call stack. -/
theorem execute_return (source : ByteSource) (hh : m.halted = false) (ha : m.awaiting = none)
    (hd : 0 < m.core.stack.depth.toNat) :
    (m.handle source (.execute 0x00EE)).core.stack = m.core.stack.pop ∧
      (m.handle source (.execute 0x00EE)).core.pc = m.core.stack.top := by
  have hi : Word.instruction 0x00EE = .returnFromCall := by decide
  rw [handle_execute, show BitVec.ofInt 16 0x00EE = 0x00EE by decide]
  have he : m.core.stack.depth ≠ 0 := by
    intro h0
    rw [h0] at hd
    exact absurd hd (by decide)
  have hf : ∀ r, ¬ m.Fault (Word.instruction 0x00EE) r := by
    intro r hr
    rw [hi] at hr
    cases hr with
    | underflow h0 => exact he h0
  have hs : (m.execute source 0x00EE).stalled = false := by
    unfold stalled
    rw [(m.execute_of_not_fault source hf).1, execute_awaiting, hi, hh, ha]
    rfl
  rw [execute_stack, execute_pc, hs, hi]
  exact ⟨if_neg he, if_neg he⟩

/-- **Subroutines return.** After a call, let anything but a reset happen for as long as the call
stack does not drop below the depth that the call has left. If the machine then runs at that depth,
a return goes to the instruction after the call, with the call stack as it was before. -/
theorem return_of_run {source : ByteSource} {w : Int} {body : List Event}
    (hd : m.core.stack.depth.toNat < 16)
    (hc : ∀ i : BitVec 4, m.core.stack.depth.toNat ≤ i.toNat → m.core.stack.entries[i] = 0)
    (hw : w / 4096 % 16 = 2)
    (run : Run (Inside (m.core.stack.depth.toNat + 1)) (m.handle source (.execute w)) body m')
    (hd' : m'.core.stack.depth.toNat = m.core.stack.depth.toNat + 1)
    (hh : m'.halted = false) (ha : m'.awaiting = none) (source' : ByteSource) :
    let m'' := m'.handle source' (.execute 0x00EE)
    m''.core.pc.toNat = (m.core.pc.toNat + 2) % 4096 ∧ m''.core.stack = m.core.stack := by
  have hcall := execute_call source hw hd
  have hdepth := CallStack.depth_push_toNat m.core.nextPc hd
  have hbase : (m.core.stack.push m.core.nextPc).Extends (m.core.stack.push m.core.nextPc) := by
    have h0 : m.core.stack.Extends m.core.stack := ⟨by omega, fun _ _ => rfl, hc⟩
    exact (h0.push (Nat.le_refl _) hd _).refl
  have hstack : m'.core.stack = m.core.stack.push m.core.nextPc := by
    rw [← hdepth] at run hd'
    refine (extends_of_run run ?_ (by omega)).eq_base hbase hd'
    rw [hcall]
    exact hbase
  obtain ⟨hpop, hpc⟩ := execute_return source' hh ha (by omega)
  constructor
  · rw [hpc, hstack, CallStack.top_push _ _ hd, Core.toNat_nextPc]
  · rw [hpop, hstack]
    refine CallStack.pop_push _ _ hd (hc _ ?_)
    rw [BitVec.toNat_setWidth]
    omega

/-- A subroutine that calls another one, which returns, then replaces the program, waits for a key
and gets it. -/
theorem return_of_run_nested :
    let m : Machine := { Machine.create ⟨0, 0⟩ with core.pc := 0xFFE }
    let body : List Event :=
      [.execute 0x2400, .execute 0x00EE, .load [0x22, 0x00], .execute 0xF30A, .tick, .press 7]
    let m' := (m.handle (.constant 0) (.execute 0x2300)).run (.constant 0) body
    let m'' := m'.handle (.constant 0) (.execute 0x00EE)
    Run (Inside 1) (m.handle (.constant 0) (.execute 0x2300)) body m' ∧
      m'.core.stack.depth.toNat = 1 ∧ m'.halted = false ∧ m'.awaiting = none ∧
      m''.core.pc.toNat = 0 ∧ m''.core.stack = m.core.stack := by
  intro m body m' m''
  have run : Run (Inside 1) (m.handle (.constant 0) (.execute 0x2300)) body m' := by
    simp only [m', body, run, List.foldl_cons, List.foldl_nil]
    iterate 6
      refine .cons (.constant 0) ?_ ?_
      · change 1 ≤ _
        decide +kernel
    exact .nil _
  have hd' : m'.core.stack.depth.toNat = 1 := by decide +kernel
  have hh : m'.halted = false := by decide +kernel
  have ha : m'.awaiting = none := by decide +kernel
  have hc : ∀ i : BitVec 4, m.core.stack.depth.toNat ≤ i.toNat → m.core.stack.entries[i] = 0 := by
    decide
  obtain ⟨hpc, hs⟩ :=
    return_of_run (m := m) (w := 0x2300) (by decide) hc (by decide) run hd' hh ha (.constant 0)
  exact ⟨run, hd', hh, ha, hpc.trans (by decide), hs⟩

end Machine

end Chip8
