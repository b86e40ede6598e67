import Chip8.Proofs.Execute
import Chip8.Proofs.History
import Chip8.Proofs.Run

/-!
# Timers and keys apart from execution

Ticks and keys act on the timers and the keys of a machine, and few instructions have to do with
those (`Instruction.usesPeripherals`). All others do the same whatever the timers and keys are, and
leave them alone (`adjust_perform`), so a step that executes one of them may be taken before or
after a tick or a key (`adjust_step`).

`play_of_interleaves` takes this to whole runs: steps that use no timer and no key may be
interleaved with ticks and keys in any way, and the machine ends as if all the steps had come first.
-/
namespace Chip8

/-- What ticks and keys act on. -/
structure Peripherals where
  delay : Byte
  sound : Byte
  keys : Keypad

/-- The instruction reads or sets a timer, or looks at the keys. -/
def Instruction.usesPeripherals : Instruction → Bool
  | .loadDelay _ | .setDelay _ | .setSound _ | .awaitKey _ => true
  | .skipIf (.keyDown _) | .skipIf (.keyUp _) => true
  | _ => false

/-- The event is a tick, or a key that is pressed or released. -/
def Event.Peripheral : Event → Prop
  | .tick | .press _ | .release _ => True
  | _ => False

/-- What a tick or a key does to timers and keys. -/
def Event.effect : Event → Peripherals → Peripherals
  | .tick, p => { p with delay := Byte.countDown p.delay, sound := Byte.countDown p.sound }
  | .press k, p => { p with keys := p.keys.press (BitVec.ofInt 4 k) }
  | .release k, p => { p with keys := p.keys.release (BitVec.ofInt 4 k) }
  | _, p => p

/-- No instruction that uses a timer or a key is executed. -/
def Deed.unrelated : Deed → Bool
  | .executed _ w => !w.instruction.usesPeripherals
  | .outside _ => true

/-- The third list has the elements of the first two, those of each in their order. -/
inductive Interleaves {α : Type} : List α → List α → List α → Prop where
  | nil : Interleaves [] [] []
  | left {as bs cs : List α} (a : α) : Interleaves as bs cs → Interleaves (a :: as) bs (a :: cs)
  | right {as bs cs : List α} (b : α) : Interleaves as bs cs → Interleaves as (b :: bs) (b :: cs)

namespace Machine

/-- The machine with its timers and keys changed. -/
def adjust (f : Peripherals → Peripherals) (m : Machine) : Machine :=
  let p := f ⟨m.core.delay, m.core.sound, m.core.keys⟩
  { m with core.delay := p.delay, core.sound := p.sound, core.keys := p.keys }

variable {source : ByteSource} {m : Machine} (f : Peripherals → Peripherals)

/-! ## Single events -/

theorem adjust_holds {condition : Condition}
    (hc : (Instruction.skipIf condition).usesPeripherals = false) :
    condition.holds (m.adjust f).core = condition.holds m.core := by
  cases condition with
  | keyDown x | keyUp x => cases hc
  | _ => rfl

theorem adjust_perform {i : Instruction} (hi : i.usesPeripherals = false) :
    (perform source m i).adjust f = perform source (m.adjust f) i := by
  cases i with
  | loadDelay x | setDelay x | setSound x | awaitKey x => cases hi
  | call target =>
    rw [perform_call, perform_call]
    exact apply_ite (adjust f) ..
  | returnFromCall =>
    rw [perform_returnFromCall, perform_returnFromCall]
    exact apply_ite (adjust f) ..
  | skipIf condition =>
    rw [perform_skipIf, perform_skipIf, adjust_holds f hi]
    rfl
  | combine op x y =>
    rw [perform_combine, perform_combine,
      Core.registers_setFlagged_congr m.core (m.adjust f).core rfl]
    rfl
  | shift op x =>
    rw [perform_shift, perform_shift,
      Core.registers_setFlagged_congr m.core (m.adjust f).core rfl]
    rfl
  | loadRegisters =>
    rw [perform_loadRegisters, perform_loadRegisters]
    rfl
  | _ => rfl

theorem adjust_execute {w : Word} (hw : w.instruction.usesPeripherals = false) :
    (m.execute source w).adjust f = (m.adjust f).execute source w := by
  have h : perform source (m.adjust f).advanced w.instruction =
      (perform source m.advanced w.instruction).adjust f :=
    (adjust_perform (m := m.advanced) f hw).symm
  rw [execute_eq, execute_eq, h]
  rfl

theorem usesPeripherals_of_unrelated (hm : m.halted = false)
    (h : ∀ d ∈ m.stepDeeds, d.unrelated = true) :
    m.fetch.instruction.usesPeripherals = false := by
  rw [stepDeeds_of_running hm, List.forall_mem_singleton] at h
  simpa [Deed.unrelated] using h

/-- A step that uses no timer and no key comes to the same before and after they change. -/
theorem adjust_step (h : ∀ d ∈ m.stepDeeds, d.unrelated = true) :
    (m.step source).adjust f = (m.adjust f).step source := by
  cases hm : m.halted with
  | true => exact (congrArg (adjust f) (if_pos hm)).trans (if_pos hm).symm
  | false =>
    have hrunning : (m.adjust f).halted = false := hm
    rw [step_of_running hm, step_of_running hrunning]
    exact adjust_execute f (usesPeripherals_of_unrelated hm h)

theorem awaiting_step (ha : m.awaiting = none) (h : ∀ d ∈ m.stepDeeds, d.unrelated = true) :
    (m.step source).awaiting = none := by
  cases hm : m.halted with
  | true => exact (congrArg awaiting (if_pos hm)).trans ha
  | false =>
    have hw := usesPeripherals_of_unrelated hm h
    rw [step_of_running hm, execute_awaiting]
    split
    case h_1 hi =>
      rw [hi] at hw
      cases hw
    case h_2 => exact ha

/-- A tick or a key only changes timers and keys, unless the machine waits for a key. -/
theorem handle_peripheral {e : Event} (he : e.Peripheral) (ha : m.awaiting = none) :
    m.handle source e = m.adjust e.effect := by
  cases e with
  | tick => rfl
  | press k => exact press_of_none ha
  | release k => rfl
  | _ => exact absurd he id

/-! ## Interleavings -/

variable {steps inputs script : Script}

theorem awaiting_play_steps (hs : ∀ e ∈ steps, e.2 = .step) (ha : m.awaiting = none)
    (h : ∀ d ∈ m.history steps, d.unrelated = true) : (m.play steps).awaiting = none := by
  induction steps generalizing m with
  | nil => exact ha
  | cons e steps ih =>
    obtain ⟨source, e⟩ := e
    obtain ⟨rfl : e = .step, hlater⟩ := List.forall_mem_cons.mp hs
    rw [history, List.forall_mem_append] at h
    exact ih hlater (awaiting_step ha h.1) h.2

/-- The steps are those of the machine before its timers and keys have changed, whose history tells
what they execute. -/
theorem play_adjust_of_interleaves (hscript : Interleaves steps inputs script)
    (hs : ∀ e ∈ steps, e.2 = .step) (hi : ∀ e ∈ inputs, e.2.Peripheral) (ha : m.awaiting = none)
    (h : ∀ d ∈ m.history steps, d.unrelated = true) :
    (m.adjust f).play script = ((m.play steps).adjust f).play inputs := by
  induction hscript generalizing m f with
  | nil => rfl
  | @left steps inputs script e _ ih =>
    obtain ⟨source, e⟩ := e
    obtain ⟨rfl : e = .step, hlater⟩ := List.forall_mem_cons.mp hs
    rw [history, List.forall_mem_append] at h
    change ((m.adjust f).step source).play script = _
    rw [← adjust_step f h.1]
    exact ih f hlater hi (awaiting_step ha h.1) h.2
  | @right steps inputs script e _ ih =>
    obtain ⟨he, hlater⟩ := List.forall_mem_cons.mp hi
    -- the event and `f` make one change
    change ((m.adjust f).handle e.1 e.2).play script =
      (((m.play steps).adjust f).handle e.1 e.2).play inputs
    rw [handle_peripheral (m := m.adjust f) he ha,
      handle_peripheral (m := (m.play steps).adjust f) he (awaiting_play_steps hs ha h)]
    exact ih (e.2.effect ∘ f) hs hlater ha h

/-- **Timers and keys commute with unrelated execution.** Let a machine that does not wait for a key
take steps that execute no instruction that uses a timer or a key. Ticks and keys may come between
the steps in any way: the machine ends as if they had come after them, halted or not. -/
theorem play_of_interleaves (ha : m.awaiting = none) (hs : ∀ e ∈ steps, e.2 = .step)
    (hi : ∀ e ∈ inputs, e.2.Peripheral) (h : ∀ d ∈ m.history steps, d.unrelated = true)
    (hscript : Interleaves steps inputs script) : m.play script = (m.play steps).play inputs :=
  play_adjust_of_interleaves id hscript hs hi ha h

/-- Two ticks and a key come between three steps, the second of which halts the machine. -/
theorem play_of_interleaves_halt :
    let m : Machine := { (create ⟨0, 0⟩).install [0xC1, 0x0F, 0x00, 0x00] with core.delay := 9 }
    let steps : Script := [(.constant 1, .step), (.constant 2, .step), (.constant 3, .step)]
    let inputs : Script := [.tick, .press 21, .tick].map (.constant 0, ·)
    let script : Script :=
      [(.constant 0, .tick), (.constant 1, .step), (.constant 0, .press 21), (.constant 2, .step),
        (.constant 0, .tick), (.constant 3, .step)]
    m.awaiting = none ∧ (∀ e ∈ steps, e.2 = .step) ∧ (∀ e ∈ inputs, e.2.Peripheral) ∧
      (∀ d ∈ m.history steps, d.unrelated = true) ∧ Interleaves steps inputs script ∧
      (m.play steps).halted = true ∧ m.play script = (m.play steps).play inputs := by
  intro m steps inputs script
  have ha : m.awaiting = none := rfl
  have hs : ∀ e ∈ steps, e.2 = .step := by simp [steps]
  have hi : ∀ e ∈ inputs, e.2.Peripheral := by simp [inputs, Event.Peripheral]
  have h : ∀ d ∈ m.history steps, d.unrelated = true := by decide +kernel
  have hscript : Interleaves steps inputs script :=
    .right _ (.left _ (.right _ (.left _ (.right _ (.left _ .nil)))))
  exact ⟨ha, hs, hi, h, hscript, by decide +kernel, play_of_interleaves ha hs hi h hscript⟩

end Machine

end Chip8
