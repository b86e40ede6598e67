import Chip8.Proofs.Execute
import Chip8.Proofs.Pattern
import Chip8.Proofs.Run

/-!
# Waiting for a key

A machine starts to wait when it executes an instruction that loads a key and no key is down. In a
run in which nothing is executed from outside and no program is loaded during a wait, a waiting
machine still stands at that instruction (`Waiting`), so each step executes it again and changes
nothing. The key that ends the wait is loaded once and the program counter moves on once, however
many steps were taken in between (`run_of_waiting`, `press_of_wait`).

`waiting_of_run` puts the two together.

A key that is down already is loaded at once (`execute_await_down`), and that comes to the same as a
wait that the key ends: `press_of_steps` says that it does not matter whether a key is pressed
before the instruction is executed or after.
-/
namespace Chip8

/-! ## The word that loads a key -/

namespace Word

theorem fields_append (w : Word) : w.family ++ w.x ++ w.nn = w := by
  apply BitVec.eq_of_getLsbD_eq
  intro i hi
  simp only [family, x, nn, BitVec.getLsbD_append, BitVec.getLsbD_extractLsb']
  grind

/-- An instruction that loads a key is encoded by one word. -/
theorem eq_of_awaitKey {w : Word} {x : Register} (h : w.instruction = .awaitKey x) :
    w = 0xF#4 ++ x ++ 0x0A#8 := by
  have hw := encodes_instruction w
  rw [h] at hw
  obtain ⟨hf, hn, hx⟩ := hw
  rw [← fields_append w, hf, hn, hx]
  rfl

end Word

/-! ## Time -/

/-- The byte less `n`, but no less than zero. -/
def Byte.lowered (b : Byte) (n : Nat) : Byte := BitVec.ofNat 8 (b.toNat - n)

theorem Byte.lowered_lowered (b : Byte) (n k : Nat) :
    lowered (lowered b n) k = lowered b (n + k) := by
  have hb := b.isLt
  apply BitVec.eq_of_toNat_eq
  simp only [lowered, BitVec.toNat_ofNat]
  omega

theorem Byte.lowered_zero (b : Byte) : lowered b 0 = b := by
  simp [lowered]

theorem Byte.countDown_eq (b : Byte) : countDown b = lowered b 1 := by
  have hb := b.isLt
  unfold countDown
  split
  · rename_i h0
    rw [h0]
    rfl
  · rename_i h0
    apply BitVec.eq_of_toNat_eq
    have hp : b.toNat ≠ 0 := fun h => h0 (BitVec.eq_of_toNat_eq h)
    rw [BitVec.toNat_sub, show (1 : Byte).toNat = 1 from rfl, lowered, BitVec.toNat_ofNat]
    omega

/-! ## Keys and addresses as numbers -/

theorem Key.toNat_ofInt (k : Int) : (BitVec.ofInt 4 k).toNat = (k % 16).toNat :=
  BitVec.toNat_ofInt k

theorem Key.setWidth_ofInt (k : Int) :
    (BitVec.ofInt 4 k).setWidth 8 = BitVec.ofInt 8 (k % 16) := by
  apply BitVec.eq_of_toNat_eq
  rw [BitVec.toNat_setWidth, Key.toNat_ofInt, BitVec.toNat_ofInt]
  omega

theorem Keypad.press_zero (k : Key) : press 0 k = BitVec.twoPow 16 k.toNat := BitVec.zero_or

/-- The only key that is down is the lowest. -/
theorem Keypad.lowest?_press_zero (k : Key) : (press 0 k).lowest? = some k := by
  refine (lowest?_eq_some_iff _ k).mpr ⟨?_, fun l hl => ?_⟩
  · rw [isDown_press, decide_eq_true rfl, Bool.or_true]
  · rw [isDown_press, decide_eq_false (BitVec.ne_of_lt hl), Bool.or_false]
    exact isDown_zero l

theorem Core.nextPc_eq (c : Core) : c.nextPc = BitVec.ofNat 16 ((c.pc.toNat + 2) % 4096) := by
  apply BitVec.eq_of_toNat_eq
  rw [toNat_nextPc, BitVec.toNat_ofNat]
  omega

namespace Machine

/-- The machine with both timers `n` lower. -/
def ticked (m : Machine) (n : Nat) : Machine :=
  { m with core.delay := m.core.delay.lowered n, core.sound := m.core.sound.lowered n }

variable {m m' : Machine} {x : Register} {source : ByteSource}

theorem ticked_ticked (m : Machine) (n k : Nat) : (m.ticked n).ticked k = m.ticked (n + k) := by
  simp only [ticked, Byte.lowered_lowered]

theorem ticked_zero (m : Machine) : m.ticked 0 = m := by
  simp only [ticked, Byte.lowered_zero]

theorem tick_eq (m : Machine) : m.tick = m.ticked 1 := by
  simp only [tick, Core.tick, ticked, Byte.countDown_eq]

/-! ## The wait -/

/-- The machine stands at an instruction that loads a key into `x`, and waits for one. -/
structure Waiting (m : Machine) (x : Register) : Prop where
  awaiting : m.awaiting = some x
  halted : m.halted = false
  keys : m.core.keys = 0
  fetch : m.fetch.instruction = .awaitKey x

/-- A step that starts a wait does nothing else. -/
theorem step_of_awaiting (h0 : m.awaiting = none) (h : (m.step source).awaiting = some x) :
    m.step source = { m with awaiting := some x } ∧ (m.step source).Waiting x := by
  by_cases hh : m.halted = true
  · rw [step, if_pos hh, h0] at h
    cases h
  · rw [step_of_running (Bool.eq_false_iff.mpr hh)] at h ⊢
    rcases m.awaiting_of_execute source h with ⟨hi, hk⟩ | ⟨-, ha⟩
    · rw [m.execute_await source hi hk]
      exact ⟨rfl, rfl, Bool.eq_false_iff.mpr hh, hk, hi⟩
    · rw [h0] at ha
      cases ha

/-- A step in a wait executes the instruction that waits once more. -/
theorem Waiting.step_eq (h : m.Waiting x) : m.step source = m := by
  rw [step_of_running h.halted, m.execute_await source h.fetch h.keys, ← h.awaiting]

theorem Waiting.steps_eq (h : m.Waiting x) (n : Nat) : m.steps source n = m :=
  steps_invariant (P := (· = m)) (fun _ e => by rw [e]; exact h.step_eq) n rfl

theorem Waiting.release_eq (h : m.Waiting x) (k : Key) : m.release k = m := by
  unfold release
  rw [h.keys, Keypad.release_zero, ← h.keys]

theorem Waiting.ticked (h : m.Waiting x) (n : Nat) : (m.ticked n).Waiting x :=
  ⟨h.awaiting, h.halted, h.keys, h.fetch⟩

/-- Steps, released keys and ticks: what may happen in a wait without ending it. -/
def Idle (_ : Machine) : Event → Prop
  | .step | .steps _ | .release _ | .tick => True
  | _ => False

/-- However many steps are taken, the first starts the wait and the others do nothing. -/
theorem steps_of_await (hm : m.halted = false) (hi : m.fetch.instruction = .awaitKey x)
    (hk : m.core.keys = 0) (n : Nat) : m.steps source (n + 1) = { m with awaiting := some x } := by
  have hw : ({ m with awaiting := some x } : Machine).Waiting x := ⟨rfl, hm, hk, hi⟩
  induction n with
  | zero =>
    change m.step source = _
    rw [step_of_running hm, m.execute_await source hi hk]
  | succ n ih => exact (congrArg (step source) ih).trans hw.step_eq

/-- In a wait only time passes. -/
theorem run_of_waiting {es : List Event} (run : Run Idle m es m') (h : m.Waiting x) :
    m' = m.ticked (es.count .tick) ∧ m'.Waiting x := by
  induction run with
  | nil m => exact ⟨(ticked_zero m).symm, h⟩
  | @cons m m' e es source ha _ ih =>
    cases e with
    | step =>
      rw [show m.handle source .step = m from h.step_eq] at ih
      exact ih h
    | steps n =>
      rw [show m.handle source (.steps n) = m from h.steps_eq n] at ih
      exact ih h
    | release k =>
      rw [show m.handle source (.release k) = m from h.release_eq _] at ih
      exact ih h
    | tick =>
      rw [show m.handle source .tick = m.ticked 1 from tick_eq m, ticked_ticked] at ih
      rw [List.count_cons_self, Nat.add_comm]
      exact ih (h.ticked 1)
    | _ => exact absurd ha id

/-- The machine with key `k` loaded into `x` by the instruction that it stands at, `n` ticks later,
and that key down. -/
def answered (m : Machine) (x : Register) (k : Int) (n : Nat) : Machine :=
  { m with
    awaiting := none
    core.registers := m.core.registers.set x (BitVec.ofInt 8 (k % 16))
    core.pc := BitVec.ofNat 16 ((m.core.pc.toNat + 2) % 4096)
    core.delay := m.core.delay.lowered n
    core.sound := m.core.sound.lowered n
    core.keys := BitVec.twoPow 16 (k % 16).toNat }

theorem press_of_wait {s : Machine} (hk : s.core.keys = 0) (n : Nat) (k : Int) :
    (({ s with awaiting := some x } : Machine).ticked n).press (BitVec.ofInt 4 k) =
      s.answered x k n := by
  rw [press_of_some (x := x) rfl]
  simp only [ticked, answered, hk, Keypad.press_zero, Key.toNat_ofInt, Key.setWidth_ofInt,
    Core.nextPc_eq]

/-- A key that is pressed before the instruction is executed is loaded by it. -/
theorem step_of_press {s : Machine} (hm : s.halted = false) (ha : s.awaiting = none)
    (hi : s.fetch.instruction = .awaitKey x) (hk : s.core.keys = 0) (k : Int) :
    (s.press (BitVec.ofInt 4 k)).step source = s.answered x k 0 := by
  have hdown : (s.core.keys.press (BitVec.ofInt 4 k)).lowest? = some (BitVec.ofInt 4 k) := by
    rw [hk, Keypad.lowest?_press_zero]
  have hload := execute_await_down source
    { s with core.keys := s.core.keys.press (BitVec.ofInt 4 k) } hm hi hdown
  have hrunning : (s.press (BitVec.ofInt 4 k)).halted = false := by
    rw [press_of_none ha]
    exact hm
  rw [step_of_running hrunning, press_of_none ha]
  refine hload.trans ?_
  simp only [answered, hk, Keypad.press_zero, Key.toNat_ofInt, Key.setWidth_ofInt,
    Byte.lowered_zero, ← Core.nextPc_eq]
  rfl

/-! ## Runs -/

/-- No word is executed from outside, and no program is loaded during a wait. -/
def Orderly (m : Machine) : Event → Prop
  | .execute _ => False
  | .load _ => m.awaiting = none
  | _ => True

/-- In an orderly run a machine that waits stands at the instruction that waits. -/
theorem waiting_of_handle {e : Event} (h : ∀ x, m.awaiting = some x → m.Waiting x)
    (he : Orderly m e) : ∀ x, (m.handle source e).awaiting = some x →
      (m.handle source e).Waiting x := by
  have keep : ∀ m : Machine, (∀ x, m.awaiting = some x → m.Waiting x) →
      ∀ x, (m.step source).awaiting = some x → (m.step source).Waiting x := by
    intro m h x hx
    cases ha : m.awaiting with
    | none => exact (step_of_awaiting ha hx).2
    | some y =>
      rw [(h y ha).step_eq] at hx ⊢
      exact h x hx
  cases e with
  | execute w => exact absurd he id
  | step => exact keep m h
  | steps n => exact steps_invariant keep n h
  | press k =>
    intro x hx
    change (m.press _).awaiting = some x at hx
    cases ha : m.awaiting with
    | none => rw [press_of_none ha, ha] at hx; cases hx
    | some y => rw [press_of_some ha] at hx; cases hx
  | release k =>
    intro x hx
    rw [show m.handle source (.release k) = m from (h x hx).release_eq _]
    exact h x hx
  | tick =>
    intro x hx
    rw [show m.handle source .tick = m.ticked 1 from tick_eq m]
    exact (h x hx).ticked 1
  | load program =>
    intro x hx
    rcases handle_load source m program with hl | ⟨bytes, hl⟩
    · rw [hl] at hx ⊢
      exact h x hx
    · rw [hl, show (m.install bytes).awaiting = none from he] at hx
      cases hx
  | reset => exact fun x hx => by cases hx

theorem waiting_of_orderly {key : RandomKey} {es : List Event}
    (run : Run Orderly (.create key) es m) (hx : m.awaiting = some x) : m.Waiting x :=
  run.invariant (P := fun m => ∀ x, m.awaiting = some x → m.Waiting x)
    (fun _ _ _ h he => waiting_of_handle h he) (fun _ h => by cases h) x hx

/-- **Waiting for a key.** A machine that waits for a key in an orderly run is not halted, has no
key down and stands at the word that waits, and a step changes nothing. If the wait began with a
step, and then there were only steps, released keys and ticks, a pressed key leads to the machine
before that step with the key loaded, the program counter moved on once and the ticks counted
down. -/
theorem waiting_of_run {key : RandomKey} {es : List Event}
    (run : Run Orderly (.create key) es m) :
    (∀ x, m.awaiting = some x →
      m.halted = false ∧ m.core.keys = 0 ∧ m.fetch = 0xF#4 ++ x ++ 0x0A#8 ∧
        ∀ source, m.step source = m) ∧
    (∀ x source later m', m.awaiting = none → (m.step source).awaiting = some x →
      Run Idle (m.step source) later m' →
        ∀ source' k, m'.handle source' (.press k) = m.answered x k (later.count .tick)) := by
  constructor
  · intro x hx
    have hw := waiting_of_orderly run hx
    exact ⟨hw.halted, hw.keys, Word.eq_of_awaitKey hw.fetch, fun _ => hw.step_eq⟩
  · intro x source later m' h0 hx idle source' k
    obtain ⟨he, hw⟩ := step_of_awaiting h0 hx
    have hk : m.core.keys = 0 := by
      have := hw.keys
      rwa [he] at this
    rw [(run_of_waiting idle hw).1, he]
    exact press_of_wait hk _ k

/-- A program whose first instruction loads a key into register 3. -/
theorem waiting_of_run_first :
    let m := (Machine.create ⟨0, 0⟩).handle (.constant 0) (.load [0xF3, 0x0A])
    let later : List Event := [.step, .release 3, .tick, .steps 2]
    let m' := (m.step (.constant 0)).run (.constant 0) later
    Run Orderly (.create ⟨0, 0⟩) [.load [0xF3, 0x0A]] m ∧ m.awaiting = none ∧
      (m.step (.constant 0)).awaiting = some 3 ∧ Run Idle (m.step (.constant 0)) later m' ∧
      m'.handle (.constant 0) (.press 23) = m.answered 3 23 1 := by
  intro m later m'
  have run : Run Orderly (.create ⟨0, 0⟩) [.load [0xF3, 0x0A]] m := .cons _ rfl (.nil _)
  have hx : (m.step (.constant 0)).awaiting = some 3 := by decide +kernel
  have idle : Run Idle (m.step (.constant 0)) later m' :=
    .cons _ trivial (.cons _ trivial (.cons _ trivial (.cons _ trivial (.nil _))))
  exact ⟨run, rfl, hx, idle, (waiting_of_run run).2 3 _ later m' rfl hx idle _ 23⟩

/-- **A key before the wait or after.** A machine that neither is halted nor waits stands at an
instruction that loads a key, and no key is down. If it takes any number of steps, at least one, and
then a key is pressed, it ends as if the key had been pressed first and then one step taken. -/
theorem press_of_steps (source source' : ByteSource) (hm : m.halted = false)
    (ha : m.awaiting = none) (hk : m.core.keys = 0) (hi : m.fetch.instruction = .awaitKey x)
    {n : Nat} (hn : 1 ≤ n) (k : Int) :
    (m.handle source (.steps n)).handle source (.press k) =
      (m.handle source' (.press k)).handle source' .step := by
  obtain ⟨n, rfl⟩ := Nat.exists_eq_add_of_le' hn
  change (m.steps source (n + 1)).press _ = (m.press _).step source'
  rw [steps_of_await hm hi hk, step_of_press hm ha hi hk, ← press_of_wait hk, ticked_zero]

/-- The instruction stands across the end of memory, and the key is given by a negative number. -/
theorem press_of_steps_last_byte :
    let m : Machine :=
      { create ⟨0, 0⟩ with
        core.memory := ((Bank.fill 0).set 0xFFF 0xF3).set 0 0x0A
        core.pc := 0xFFF }
    m.fetch.instruction = .awaitKey 3 ∧
      (m.handle (.constant 0) (.steps 4)).handle (.constant 0) (.press (-9)) =
        (m.handle (.constant 1) (.press (-9))).handle (.constant 1) .step := by
  intro m
  have hi : m.fetch.instruction = .awaitKey 3 := by decide +kernel
  exact ⟨hi, press_of_steps (.constant 0) (.constant 1) rfl rfl rfl hi (by decide) (-9)⟩

end Machine

end Chip8
