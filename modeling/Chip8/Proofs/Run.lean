import Chip8.Machine.Execute

/-!
# Runs

`Run allowed m es m'`: from `m` the machine goes through the events `es`, in order, and ends as
`m'`. Each event is one that `allowed` admits of the machine it meets, and each is handled with a
source of random bytes of its own, so what holds of all runs holds for every source.

`Run.invariant` is the induction on runs that the theorems about machines use; `Run.of_allowed`
says that what the executable `run` does is a run.
-/
namespace Chip8

theorem Keypad.release_zero (k : Key) : release 0 k = 0 := BitVec.zero_and

namespace Machine

inductive Run (allowed : Machine → Event → Prop) : Machine → List Event → Machine → Prop where
  | nil (m : Machine) : Run allowed m [] m
  | cons {m m' : Machine} {e : Event} {es : List Event} (source : ByteSource) :
      allowed m e → Run allowed (m.handle source e) es m' → Run allowed m (e :: es) m'

/-- Every event is admitted, of every machine. -/
def AnyEvent (_ : Machine) (_ : Event) : Prop := True

section
variable {allowed : Machine → Event → Prop} {m m' : Machine} {es : List Event}

/-- What every admitted event keeps holds after a run if it held before. -/
theorem Run.invariant {P : Machine → Prop}
    (keep : ∀ m source e, P m → allowed m e → P (m.handle source e))
    (run : Run allowed m es m') (h : P m) : P m' := by
  induction run with
  | nil m => exact h
  | cons source ha _ ih => exact ih (keep _ source _ h ha)

theorem Run.of_allowed (source : ByteSource) (es : List Event)
    (h : ∀ m, ∀ e ∈ es, allowed m e) (m : Machine) : Run allowed m es (m.run source es) := by
  induction es generalizing m with
  | nil => exact .nil m
  | cons e es ih =>
    refine .cons source (h m e List.mem_cons_self) ?_
    exact ih (fun m e he => h m e (List.mem_cons_of_mem _ he)) _

end

/-! ## Single events -/

theorem step_of_running {source : ByteSource} {m : Machine} (hm : m.halted = false) :
    m.step source = m.execute source m.fetch := if_neg (Bool.eq_false_iff.mp hm)

/-- What a step keeps holds after any number of steps. -/
theorem steps_invariant {P : Machine → Prop} {source : ByteSource}
    (keep : ∀ m : Machine, P m → P (m.step source)) (n : Nat) {m : Machine} (h : P m) :
    P (m.steps source n) := by
  unfold steps
  induction n with
  | zero => exact h
  | succ n ih => exact keep _ ih

variable {m : Machine} {k : Key}

theorem press_of_none (ha : m.awaiting = none) :
    m.press k = { m with core.keys := m.core.keys.press k } := by
  unfold press
  simp only [ha]

/-- A pressed key ends the wait: it is loaded, and the program counter moves on. -/
theorem press_of_some {x : Register} (ha : m.awaiting = some x) :
    m.press k =
      { m with
        awaiting := none
        core.keys := m.core.keys.press k
        core.registers := m.core.registers.set x (k.setWidth 8)
        core.pc := m.core.nextPc } := by
  unfold press
  simp only [ha]
  rfl

/-- Pressing a key, brought into the form of one machine. -/
theorem press_eq (m : Machine) (k : Key) :
    m.press k =
      { m with
        awaiting := none
        core.keys := m.core.keys.press k
        core.registers := m.awaiting.elim m.core.registers fun x =>
          m.core.registers.set x (k.setWidth 8)
        core.pc := if m.awaiting.isSome then m.core.nextPc else m.core.pc } := by
  obtain ⟨core, display, halted, haltCause, awaiting, rng⟩ := m
  cases awaiting with
  | none => rfl
  | some x => rfl

/-- A program is installed, or the machine stays as it is. -/
theorem handle_load (source : ByteSource) (m : Machine) (program : List Int) :
    m.handle source (.load program) = m ∨
      ∃ bytes, m.handle source (.load program) = m.install bytes := by
  change (m.load program).toOption.getD m = m ∨ ∃ _, (m.load program).toOption.getD m = _
  unfold load
  cases Program.check program with
  | error e => exact .inl rfl
  | ok bytes => exact .inr ⟨bytes, rfl⟩

/-- Loading a program changes only memory. -/
theorem load_eq (source : ByteSource) (m : Machine) (program : List Int) :
    m.handle source (.load program) =
      { m with core.memory := (m.handle source (.load program)).core.memory } := by
  rcases handle_load source m program with h | ⟨bytes, h⟩
  · rw [h]
  · rw [h]
    rfl

end Machine

end Chip8
