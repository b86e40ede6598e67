import Chip8.Proofs.Effect
import Chip8.Proofs.History
import Chip8.Proofs.KeyWait
import Chip8.Proofs.Pattern
import Chip8.Proofs.Pieces

/-!
# What the timers show

A timer is set by the words that load it from a register, and by a reset, which sets it to zero.
From then on each tick takes one off, until nothing is left; nothing else that happens to a machine
touches a timer, whatever the machine is doing. So a history tells what a timer shows: what it was
last set to (`Timer.lastSet`) less the ticks since (`Timer.ticks`), but no less than zero.

`Timer.Shown` ties the timers of a machine to its history. The execution of a word and every event
from outside keep it (`Shown.execute`, `Shown.outside`), so it holds after any events, and of each
machine on the way; `timers_of_play` says so of the timers and of the words that read one.
-/
namespace Chip8

inductive Timer where
  | delay
  | sound
  deriving DecidableEq, Repr

theorem Byte.toNat_countDown (b : Byte) : (countDown b).toNat = b.toNat - 1 := by
  have hb := b.isLt
  rw [countDown_eq, lowered, BitVec.toNat_ofNat]
  omega

namespace Timer

/-- What a timer of a machine shows. -/
def value (m : Machine) : Timer → Byte
  | delay => m.core.delay
  | sound => m.core.sound

/-- The low byte of the words that load the timer. -/
def digits : Timer → Byte
  | delay => 0x15
  | sound => 0x18

/-- What a deed sets the timer to, if it does. -/
def set? (t : Timer) : Deed → Option Byte
  | .executed m w =>
    if w.family = 0xF ∧ w.nn = t.digits then some m.core.registers[w.x] else none
  | .outside .reset => some 0
  | .outside _ => none

/-- What the timer was last set to; a new machine has it at zero. -/
def lastSet (t : Timer) (past : List Deed) : Byte := (past.reverse.findSome? t.set?).getD 0

/-- The ticks since the timer was last set. -/
def ticks (t : Timer) (past : List Deed) : Nat :=
  (since (fun d => (t.set? d).isSome) past).count (.outside .tick)

/-- What is left of the last value. -/
def reading (t : Timer) (past : List Deed) : Nat := (t.lastSet past).toNat - t.ticks past

/-- The timers of a machine show what its history tells. -/
def Shown (past : List Deed) (m : Machine) : Prop := ∀ t : Timer, (t.value m).toNat = t.reading past

variable (t : Timer) (past : List Deed) (m : Machine)

/-! ## What a history tells -/

theorem reading_of_set {d : Deed} {b : Byte} (h : t.set? d = some b) :
    t.reading (past ++ [d]) = b.toNat := by
  simp [reading, lastSet, ticks, since_append, h]

theorem reading_of_other {d : Deed} (hs : t.set? d = none) (ht : d ≠ .outside .tick) :
    t.reading (past ++ [d]) = t.reading past := by
  simp [reading, lastSet, ticks, since_append, hs, ht]

theorem reading_tick : t.reading (past ++ [.outside .tick]) = t.reading past - 1 := by
  have hs : t.set? (.outside .tick) = none := rfl
  simp [reading, lastSet, ticks, since_append, hs, Nat.sub_add_eq]

/-! ## What a machine does -/

/-- The instruction that loads the timer from a register. -/
def load : Timer → Register → Instruction
  | delay => .setDelay
  | sound => .setSound

theorem instruction_eq_load {w : Word} (hf : w.family = 0xF) (hn : w.nn = t.digits) :
    w.instruction = t.load w.x := by
  apply Word.instruction_of_encodes
  cases t <;> exact ⟨hf, hn, rfl⟩

theorem digits_of_load {w : Word} {x : Register} (hi : w.instruction = t.load x) :
    w.family = 0xF ∧ w.nn = t.digits := by
  have hw := Word.encodes_instruction w
  rw [hi] at hw
  cases t <;> exact ⟨hw.1, hw.2.1⟩

theorem value_load (source : ByteSource) (x : Register) :
    t.value (Machine.perform source m (t.load x)) = m.core.registers[x] := by
  cases t <;> rfl

theorem value_perform (source : ByteSource) {i : Instruction} (hi : ∀ x, i ≠ t.load x) :
    t.value (Machine.perform source m i) = t.value m := by
  have h := Machine.perform_timers source m i
  cases t with
  | delay =>
    refine h.1.trans ?_
    split
    case h_1 x => exact absurd rfl (hi x)
    case h_2 => rfl
  | sound =>
    refine h.2.trans ?_
    split
    case h_1 x => exact absurd rfl (hi x)
    case h_2 => rfl

theorem value_execute (source : ByteSource) (w : Word) :
    t.value (m.execute source w) = (t.set? (.executed m w)).getD (t.value m) := by
  have h : t.value (m.execute source w) =
      t.value (Machine.perform source m.advanced w.instruction) := by
    rw [Machine.execute_eq]
    cases t <;> rfl
  rw [h, set?]
  split
  case isTrue hw =>
    rw [t.instruction_eq_load hw.1 hw.2]
    exact t.value_load m.advanced source w.x
  case isFalse hw =>
    rw [t.value_perform m.advanced source fun x hi => hw (t.digits_of_load hi)]
    cases t <;> rfl

theorem value_outside {e : Event} (he : e.Outside) (source : ByteSource) :
    t.value (m.handle source e) =
      match e with
      | .reset => 0
      | .tick => Byte.countDown (t.value m)
      | _ => t.value m := by
  cases e with
  | press k =>
    change t.value (m.press _) = _
    rw [Machine.press_eq]
    cases t <;> rfl
  | load program =>
    rw [Machine.load_eq]
    cases t <;> rfl
  | release k | tick | reset => cases t <;> rfl
  | _ => exact absurd he id

/-! ## What is always shown -/

variable {past m}

theorem Shown.execute (h : Shown past m) (source : ByteSource) (w : Word) :
    Shown (past ++ [.executed m w]) (m.execute source w) := by
  intro t
  rw [value_execute]
  cases hs : t.set? (.executed m w) with
  | some b => exact (t.reading_of_set past hs).symm
  | none => exact (h t).trans (t.reading_of_other past hs nofun).symm

theorem Shown.outside (h : Shown past m) {e : Event} (he : e.Outside) (source : ByteSource) :
    Shown (past ++ [.outside e]) (m.handle source e) := by
  intro t
  rw [value_outside t m he]
  cases e with
  | reset => exact (t.reading_of_set past rfl).symm
  | tick =>
    rw [reading_tick, ← h t]
    exact Byte.toNat_countDown _
  | press k | release k | load program =>
    exact (h t).trans (t.reading_of_other past rfl (by simp)).symm
  | execute w | step | steps n => exact absurd he id

end Timer

namespace Machine

/-- A word that reads the delay timer loads what it shows. -/
theorem registers_of_loadDelay (source : ByteSource) (m : Machine) {w : Word}
    (hf : w.family = 0xF) (hn : w.nn = 0x07) :
    (m.execute source w).core.registers = m.core.registers.set w.x m.core.delay := by
  rw [execute_eq, Word.instruction_of_encodes (i := .loadDelay w.x) ⟨hf, hn, rfl⟩]
  exact perform_registers source m.advanced _

/-- **A timer shows its last load, less the ticks since.** After any events in any order, each timer
shows the register that it was last loaded from, as it was then, less the ticks since, but no less
than zero; if it has not been loaded since the machine was new or reset, it shows zero. Each word
that reads the delay timer loads just that into its register. -/
theorem timers_of_play (key : RandomKey) (script : Script) :
    let history := (create key).history script
    (∀ t : Timer,
      (t.value ((create key).play script)).toNat = (t.lastSet history).toNat - t.ticks history) ∧
    ∀ past before w later, history = past ++ .executed before w :: later →
      w.family = 0xF → w.nn = 0x07 → ∀ source,
      (before.execute source w).core.registers =
        before.core.registers.set w.x
          (BitVec.ofNat 8 ((Timer.delay.lastSet past).toNat - Timer.delay.ticks past)) := by
  intro history
  have hstart : Timer.Shown [] (create key) := by
    intro t
    cases t <;> rfl
  have execute : ∀ past m source w, Timer.Shown past m →
      Timer.Shown (past ++ [.executed m w]) (m.execute source w) :=
    fun _ _ source w h => h.execute source w
  have outside : ∀ past m source (e : Event), e.Outside → Timer.Shown past m →
      Timer.Shown (past ++ [.outside e]) (m.handle source e) :=
    fun _ _ source _ he h => h.outside he source
  refine ⟨history_induction execute outside script hstart, ?_⟩
  intro past before w later hpast hf hn source
  have hshown : before.core.delay.toNat =
      (Timer.delay.lastSet past).toNat - Timer.delay.ticks past :=
    history_before execute outside script hstart past before w later hpast .delay
  rw [registers_of_loadDelay source before hf hn, ← hshown, BitVec.ofNat_toNat, BitVec.setWidth_eq]

/-- Both timers are loaded, and the machine halts. Two ticks then use up the sound timer, and a word
that is executed from outside finds two left of the five of the delay timer. -/
theorem timers_of_play_halted :
    let script : Script :=
      [.execute 0x6105, .execute 0x6301, .execute 0xF115, .tick, .execute 0xF318, .execute 0x0000,
        .tick, .tick].map (.constant 0, ·)
    let m := (create ⟨0, 0⟩).play script
    m.halted = true ∧ m.core.sound.toNat = 0 ∧
      (m.execute (.constant 0) 0xF207).core.registers = m.core.registers.set 2 2 := by
  intro script m
  obtain ⟨hshown, -⟩ := timers_of_play ⟨0, 0⟩ script
  obtain ⟨-, hload⟩ := timers_of_play ⟨0, 0⟩ (script ++ [(.constant 0, .execute 0xF207)])
  have hpast : (create ⟨0, 0⟩).history (script ++ [(.constant 0, .execute 0xF207)]) =
      (create ⟨0, 0⟩).history script ++ [.executed m 0xF207] := history_append ..
  have hsound : (Timer.sound.lastSet ((create ⟨0, 0⟩).history script)).toNat -
      Timer.sound.ticks ((create ⟨0, 0⟩).history script) = 0 := by decide +kernel
  have hdelay : (Timer.delay.lastSet ((create ⟨0, 0⟩).history script)).toNat -
      Timer.delay.ticks ((create ⟨0, 0⟩).history script) = 2 := by decide +kernel
  have hread := hload _ m 0xF207 [] hpast (by decide) (by decide) (.constant 0)
  rw [hdelay] at hread
  exact ⟨by decide +kernel, (hshown .sound).trans hsound, hread⟩

end Machine

end Chip8
