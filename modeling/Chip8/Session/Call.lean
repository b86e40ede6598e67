import Chip8.Picture.Raster
import Chip8.Session.Basic

/-!
# Calls

What can be asked of a session, and what it answers: among others the registers as a table, and
ranges of memory as bytes or as lines of hexadecimal text.

A call that may fail tries something first, and changes the session only if that succeeds
(`Session.settle`).
-/
namespace Chip8

/-- A line with program counter, depth of the call stack and index, and four lines with the
registers, which run down the columns (`dump_registers`). -/
def Core.table (c : Core) : String :=
  let head := "PC: 0x" ++ Hex.text 4 c.pc.toNat ++ "\tSP: 0x" ++ Hex.text 2 c.stack.depth.toNat ++
    "\tI: 0x" ++ Hex.text 4 c.index.toNat
  let cell (r : Nat) : String :=
    "V" ++ Hex.text 1 r ++ ": 0x" ++ Hex.text 2 c.registers[BitVec.ofNat 4 r].toNat
  let row (i : Nat) : String := "\t".intercalate ((List.range 4).map fun j => cell (i + 4 * j))
  "\n".intercalate (head :: (List.range 4).map row)

namespace Memory

/-- The bytes of a range, which must lie within memory (`read_memory`). -/
def range (m : Memory) (start length : Int) : Except Failure (List Byte) :=
  if start < 0 ∨ length < 0 ∨ 4096 < start + length then .error (.memoryRange start length)
  else .ok (m.bytes (BitVec.ofInt 12 start) length.toNat)

/-- An address and the bytes from there on. -/
def dumpLine (address : Nat) (bytes : List Byte) : String :=
  "0x" ++ Hex.text 4 address ++ ": " ++ " ".intercalate (bytes.map fun b => Hex.text 2 b.toNat)

/-- The lines of a dump with `width` bytes each, the last with what is left. -/
def dumpLines (address width : Nat) (bytes : List Byte) : List String :=
  (List.range ((bytes.length + width - 1) / width)).map fun i =>
    dumpLine (address + i * width) ((bytes.drop (i * width)).take width)

/-- The memory from `start` to before `stop`, with `width` bytes on a line (`dump_memory`). -/
def dump (m : Memory) (start stop width : Int) : Except Failure String :=
  if width ≤ 0 then .error (.dumpWidth width)
  else (m.range start (stop - start)).map fun bytes =>
    "\n".intercalate (dumpLines start.toNat width.toNat bytes)

end Memory

/-- What can be asked of a session. -/
inductive Call where
  | load (program : List Int)
  /-- Load the program in a file, given what comes of reading the file. -/
  | loadFile (name : String) (content : Except Failure (List Byte))
  | step
  | run (n : Int)
  /-- A run with a progress display. -/
  | runShown (n : Int)
  | runPeriod
  | tick
  | press (key : Int)
  | release (key : Int)
  | reset
  | readMemory (start length : Int)
  | table
  | dumpMemory (start stop width : Int)
  | halts
  | sketch (on off : String)
  deriving Repr

/-- What a session answers. -/
inductive Reply where
  | done
  | status (s : Status)
  | count (n : Nat)
  | bytes (bs : List Byte)
  | text (s : String)
  | halts (hs : List HaltRecord)
  deriving DecidableEq, Repr

namespace Session

/-- What a call does, with the answer to it. -/
def act : Call → Action Reply
  | .load program => do
    load program none
    return .done
  | .loadFile name content => do
    loadFile name content
    return .done
  | .step => .status <$> total step
  | .run n => .count <$> total (run n.toNat)
  | .runShown n => .count <$> runShown n
  | .runPeriod => .status <$> total runPeriod
  | .tick => do
    modify tick
    return .done
  | .press k => do
    press k
    return .done
  | .release k => do
    release k
    return .done
  | .reset => do
    modify reset
    return .done
  | .readMemory start length => do
    return .bytes (← attempt fun s => s.machine.core.memory.range start length)
  | .table => do
    return .text (← get).machine.core.table
  | .dumpMemory start stop width => do
    return .text (← attempt fun s => s.machine.core.memory.dump start stop width)
  | .halts => do
    return .halts (← get).journal.halts
  | .sketch on off => do
    return .text (Sketch.ofPixels on off (← get).machine.display.pixel)

/-- The session after a call, with the answer or the reason why there is none. -/
def call (s : Session) (c : Call) : Session × Except Failure Reply :=
  match (act c).run s with
  | .ok reply s => (s, .ok reply)
  | .error e s => (s, .error e)

/-- The session after calls in order. -/
def after (s : Session) (calls : List Call) : Session := calls.foldl (fun s c => (s.call c).1) s

/-! ## Calls that may fail -/

/-- The outcome of a call that tries something first: what follows from it, or the session as it was
with the reason. -/
def settle {α : Type} (s : Session) (x : Except Failure α) (f : α → Session × Reply) :
    Session × Except Failure Reply :=
  match x with
  | .ok a => ((f a).1, .ok (f a).2)
  | .error e => (s, .error e)

section
variable (s : Session)

theorem call_load (program : List Int) :
    s.call (.load program) = s.settle (s.machine.load program) fun machine =>
      ({ s with machine, journal := s.journal.programLoaded program.length none }, .done) := by
  simp only [call, act, load, EStateM.run_bind, run_attempt]
  cases s.machine.load program <;> rfl

theorem call_loadFile (name : String) (content : Except Failure (List Byte)) :
    s.call (.loadFile name content) =
      match content with
      | .error e => (s, .error e)
      | .ok bytes => s.settle (s.machine.load (Byte.numbers bytes)) fun machine =>
        ({ s with machine, journal := s.journal.programLoaded bytes.length name }, .done) := by
  simp only [call, act, loadFile, load, EStateM.run_bind, run_attempt]
  cases content with
  | error e => rfl
  | ok bytes =>
    simp only [Byte.length_numbers]
    cases s.machine.load (Byte.numbers bytes) <;> rfl

theorem call_runShown (n : Int) :
    s.call (.runShown n) =
      if n < 0x8000000000000000 then s.call (.run n) else (s, .error .stepCount) := by
  simp only [call, act, runShown]
  by_cases h : n < 0x8000000000000000
  · rw [if_pos h, if_pos h]
  · rw [if_neg h, if_neg h]
    rfl

theorem call_press (k : Int) :
    s.call (.press k) = s.settle (key k) fun k =>
      ({ s with machine := s.machine.press k }, .done) := by
  simp only [call, act, press, EStateM.run_bind, run_attempt]
  cases key k <;> rfl

theorem call_release (k : Int) :
    s.call (.release k) = s.settle (key k) fun k =>
      ({ s with machine := s.machine.release k }, .done) := by
  simp only [call, act, release, EStateM.run_bind, run_attempt]
  cases key k <;> rfl

theorem call_readMemory (start length : Int) :
    s.call (.readMemory start length) =
      s.settle (s.machine.core.memory.range start length) fun bytes => (s, .bytes bytes) := by
  simp only [call, act, EStateM.run_bind, run_attempt]
  cases s.machine.core.memory.range start length <;> rfl

theorem call_dumpMemory (start stop width : Int) :
    s.call (.dumpMemory start stop width) =
      s.settle (s.machine.core.memory.dump start stop width) fun text => (s, .text text) := by
  simp only [call, act, EStateM.run_bind, run_attempt]
  cases s.machine.core.memory.dump start stop width <;> rfl

end

end Session

end Chip8
