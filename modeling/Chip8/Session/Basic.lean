import Chip8.Decode
import Chip8.Log.Journal
import Chip8.Machine.Execute
import Chip8.Random

/-!
# Sessions

A machine that is run at given rates and reports to a journal: programs that are loaded, halts, and
on demand every instruction before it is executed. A halt is reported once, by the step that leads
to it. There is at least one instruction to a timer tick.

What may fail is done to a session step by step (`Session.Action`): what a step has changed stays
changed if a later one fails.
-/
namespace Chip8

/-- How many instructions and how many timer ticks there are in a second (`instruction_frequency`,
`timer_frequency`). -/
structure Rates where
  instructions : Nat
  ticks : Nat
  ticks_pos : 0 < ticks
  ticks_le : ticks ≤ instructions

namespace Rates

/-- The rates of two integers that are fit to be rates. -/
def check (instructions ticks : Int) : Except Failure Rates :=
  if h : instructions ≤ 0 ∨ ticks ≤ 0 then .error (.ratePositive instructions ticks)
  else if h' : instructions < ticks then .error (.rateOrder instructions ticks)
  else .ok ⟨instructions.toNat, ticks.toNat, by omega, by omega⟩

/-- The number of instructions between two ticks (`instructions_per_frame`). -/
def perTick (r : Rates) : Nat := r.instructions / r.ticks

theorem perTick_pos (r : Rates) : 0 < r.perTick := Nat.div_pos r.ticks_le r.ticks_pos

end Rates

/-- How a session is to be opened. -/
structure SessionSettings where
  seed : Int := 0
  source : ByteSource := Threefry.source
  /-- Instructions in a second. -/
  instructions : Int := 700
  /-- Timer ticks in a second. -/
  ticks : Int := 60
  /-- Whether every instruction is reported. -/
  trace : Bool := false

/-- A machine with its surroundings (`Interpreter`). -/
structure Session where
  machine : Machine
  source : ByteSource
  rates : Rates
  trace : Bool
  journal : Journal

namespace Session

/-- A session on a new machine, if its rates are fit. -/
def create (s : SessionSettings) (journal : Journal) : Except Failure Session :=
  (Rates.check s.instructions s.ticks).map fun rates => {
    machine := .create (.ofSeed s.seed)
    source := s.source
    rates := rates
    trace := s.trace
    journal := journal }

/-- Report the instruction that the machine executes next. -/
def reportNext (s : Session) : Session :=
  let word := s.machine.fetch
  { s with journal := s.journal.instruction s.machine.core.pc.toNat word.toNat word.text }

/-- Report that the machine has halted at the instruction that it still points at
(`_report_halt`). -/
def reportHalt (s : Session) : Session :=
  let word := s.machine.fetch
  let reason := HaltCause.nameOf s.machine.haltCause
  { s with journal := s.journal.halt s.machine.core.pc.toNat word.toNat reason word.text }

/-- What the machine is doing (`status`). -/
def status (s : Session) : Status := s.machine.status

/-- Let the machine execute one instruction, report the halt if it is halted then, and tell the
status. -/
def advance (s : Session) : Session × Status :=
  let s := { s with machine := s.machine.step s.source }
  if s.machine.halted then (s.reportHalt, .halted) else (s, s.status)

/-- Execute one instruction, and tell the status (`step`). A halted machine stays as it is, and
nothing is reported. -/
def step (s : Session) : Session × Status :=
  if s.machine.halted then (s, .halted) else (if s.trace then s.reportNext else s).advance

/-- Take up to `n` steps, the last of them one that ends with a halted machine, and add their number
to `taken`. -/
def runFrom (taken : Nat) : Nat → Session → Session × Nat
  | 0, s => (s, taken)
  | n + 1, s =>
    let (s, status) := s.step
    if status = .halted then (s, taken + 1) else runFrom (taken + 1) n s

/-- Take up to `n` steps, and tell how many (`run`). -/
def run (n : Nat) (s : Session) : Session × Nat := runFrom 0 n s

/-- Count both timers down (`tick_timers`). -/
def tick (s : Session) : Session := { s with machine := s.machine.tick }

/-- Run for the time of one tick, tick, and tell the status (`run_frame`). -/
def runPeriod (s : Session) : Session × Status :=
  let s := (s.run s.rates.perTick).1.tick
  (s, s.status)

/-- Start the machine again with the program that it has (`reset`). -/
def reset (s : Session) : Session :=
  { s with machine := s.machine.reset, journal := s.journal.reset }

/-! ## Actions -/

/-- What is done to a session, with its result. It may fail on the way, and then the session is left
as it was at that moment. -/
abbrev Action := EStateM Failure Session

section
variable {α : Type}

/-- What is found out about a session, if that does not fail. -/
def attempt (f : Session → Except Failure α) : Action α := do MonadExcept.ofExcept (f (← get))

/-- What does not fail. -/
def total (f : Session → Session × α) : Action α := modifyGet fun s => (f s).swap

@[simp] theorem run_attempt (f : Session → Except Failure α) (s : Session) :
    (attempt f).run s =
      match f s with
      | .ok a => .ok a s
      | .error e => .error e s := by
  change (MonadExcept.ofExcept (f s) : Action α).run s = _
  cases f s <;> rfl

@[simp] theorem run_total (f : Session → Session × α) (s : Session) :
    (total f).run s = .ok (f s).2 (f s).1 := rfl

end

/-- Take up to `n` steps with a progress display (`run` with `progress`). It counts in signed words
of 64 bits, and a run that may be longer is refused before its first step. -/
def runShown (n : Int) : Action Nat :=
  if n < 0x8000000000000000 then total (run n.toNat) else throw .stepCount

/-- The key of a number from 0 to 15 (`_check_key`). -/
def key (k : Int) : Except Failure Key :=
  if 0 ≤ k ∧ k < 16 then .ok (BitVec.ofInt 4 k) else .error (.keyRange k)

/-- Hold a key (`key_pressed`). -/
def press (k : Int) : Action Unit := do
  let k ← attempt fun _ => key k
  modify fun s => { s with machine := s.machine.press k }

/-- Let a key go (`key_released`). -/
def release (k : Int) : Action Unit := do
  let k ← attempt fun _ => key k
  modify fun s => { s with machine := s.machine.release k }

/-- Load a program, and then report its size and where it came from (`load_program`). -/
def load (program : List Int) (origin : Option String) : Action Unit := do
  let machine ← attempt fun s => s.machine.load program
  modify fun s => { s with machine }
  modify fun s => { s with journal := s.journal.programLoaded program.length origin }

/-- Load the program in a file, given what comes of reading the file (`load_rom`). -/
def loadFile (name : String) (content : Except Failure (List Byte)) : Action Unit := do
  let bytes ← attempt fun _ => content
  load (Byte.numbers bytes) (some name)

end Session

end Chip8
