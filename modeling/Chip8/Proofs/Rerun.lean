import Chip8.Proofs.Effect
import Chip8.Proofs.History
import Chip8.Proofs.RandomDraws
import Chip8.Proofs.Run

/-!
# Running a program again

A reset makes a machine new but for its memory and the key of its random bytes. Few deeds change
those two (`Deed.permanent`): the instructions that store in memory, the one that draws a random
byte, and the loading of a program. A machine that does none of them keeps both
(`kept_of_play`), so however its run has gone, a reset takes it back to where the program was loaded
(`reset_of_play`).
-/
namespace Chip8

/-- The instructions that store in memory or draw a random byte. -/
def Instruction.permanent : Instruction → Bool
  | .storeDecimal _ | .storeRegisters | .random _ _ => true
  | _ => false

/-- The deed may change what a reset keeps. -/
def Deed.permanent : Deed → Bool
  | .executed _ w => w.instruction.permanent
  | .outside (.load _) => true
  | .outside _ => false

namespace Machine

/-- The memory and the random key are the same. -/
def Kept (m m' : Machine) : Prop := m'.core.memory = m.core.memory ∧ m'.rng = m.rng

variable {m m' : Machine}

theorem Kept.execute (h : Kept m m') (source : ByteSource) {w : Word}
    (hw : w.instruction.permanent = false) : Kept m (m'.execute source w) := by
  have hmemory := perform_memory source m'.advanced w.instruction
  have hrng := perform_rng source m'.advanced w.instruction
  rw [execute_eq]
  generalize w.instruction = i at hw hmemory hrng ⊢
  cases i with
  | storeDecimal x | storeRegisters | random x mask => cases hw
  | _ => exact ⟨hmemory.trans h.1, hrng.trans h.2⟩

theorem Kept.outside (h : Kept m m') (source : ByteSource) {e : Event} (he : e.Outside)
    (hd : Deed.permanent (.outside e) = false) : Kept m (m'.handle source e) := by
  refine ⟨Eq.trans ?_ h.1, (rng_of_outside he).trans h.2⟩
  cases e with
  | press k =>
    change (m'.press _).core.memory = _
    rw [press_eq]
  | load program => cases hd
  | release k | tick | reset => rfl
  | _ => exact absurd he id

theorem kept_of_play {script : Script}
    (h : ∀ d ∈ m.history script, d.permanent = false) : Kept m (m.play script) := by
  have hstart : (∀ d ∈ ([] : List Deed), d.permanent = false) → Kept m m := fun _ => ⟨rfl, rfl⟩
  refine history_induction
    (P := fun past m' => (∀ d ∈ past, d.permanent = false) → Kept m m') ?_ ?_ script hstart h
  · intro past m' source w ih hpast
    rw [List.forall_mem_append, List.forall_mem_singleton] at hpast
    exact (ih hpast.1).execute source hpast.2
  · intro past m' source e he ih hpast
    rw [List.forall_mem_append, List.forall_mem_singleton] at hpast
    exact (ih hpast.1).outside source he hpast.2

theorem reset_of_kept (h : Kept m m') : m'.reset = m.reset := by
  change start (.start m'.core.memory) m'.rng = start (.start m.core.memory) m.rng
  rw [h.1, h.2]

theorem reset_of_load {key : RandomKey} {program : List Int}
    (h : (create key).load program = .ok m) : m.reset = m := by
  unfold load at h
  cases hc : Program.check program with
  | error e =>
    rw [hc] at h
    cases h
  | ok bytes =>
    rw [hc] at h
    cases h
    rfl

/-- **A reset makes a program run again.** A machine that is reset is a new one with its memory and
its random key. So if a program is loaded into a new machine and anything happens from then on but
storing in memory, drawing a random byte and loading a program, a reset gives back the machine as it
was when the program was loaded, also if it has halted or waits for a key. -/
theorem reset_of_play :
    (∀ m : Machine, m.reset = { create m.rng with core.memory := m.core.memory }) ∧
    ∀ (key : RandomKey) (program : List Int) (fresh : Machine) (script : Script),
      (create key).load program = .ok fresh →
      (∀ d ∈ fresh.history script, d.permanent = false) → (fresh.play script).reset = fresh := by
  refine ⟨fun m => rfl, fun key program fresh script hload h => ?_⟩
  calc (fresh.play script).reset = fresh.reset := reset_of_kept (kept_of_play h)
    _ = fresh := reset_of_load hload

/-- A program draws, sets a timer, waits for a key and gets it, and returns from no call. -/
theorem reset_of_play_underflow :
    let program : List Int := [0xD0, 0x15, 0x61, 0xFF, 0xF1, 0x15, 0xF2, 0x0A, 0x00, 0xEE]
    let events : List Event := [.step, .step, .step, .step, .tick, .press 7, .step]
    let script : Script := events.map (.constant 0, ·)
    ∃ fresh, (create ⟨3, 4⟩).load program = .ok fresh ∧
      (∀ d ∈ fresh.history script, d.permanent = false) ∧
      (fresh.play script).haltCause = some .stackUnderflow ∧ (fresh.play script).reset = fresh := by
  intro program events script
  obtain ⟨fresh, hload⟩ : ∃ fresh, (create ⟨3, 4⟩).load program = .ok fresh := ⟨_, rfl⟩
  have h : (∀ d ∈ fresh.history script, d.permanent = false) ∧
      (fresh.play script).haltCause = some .stackUnderflow := by
    cases hload
    decide +kernel
  exact ⟨fresh, hload, h.1, h.2, reset_of_play.2 _ program fresh script hload h.1⟩

end Machine

end Chip8
