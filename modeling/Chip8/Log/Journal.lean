import Chip8.Log.Console

/-!
# The journal

A journal reports the events of a machine on a console and keeps the most recent halts, as many as
its capacity allows. Halts are kept whether or not their message is written. `lastN_lastN_append`
says that cutting the list at every halt keeps the most recent halts of all. A report that is
refused leaves a journal as it was (`hear`), and what every report keeps holds after any reports
(`after_induction`).
-/
namespace Chip8

structure HaltRecord where
  pc : Int
  word : Int
  reason : String
  deriving DecidableEq, Repr

/-- A console with the halts that it has reported (`MachineLogger`). -/
structure Journal where
  console : Console
  /-- How many halts are kept (`max_halts`). -/
  capacity : Nat
  capacity_pos : 0 < capacity
  /-- The recorded halts, oldest first. -/
  halts : List HaltRecord

/-- What can be told to a journal. -/
inductive Report where
  | message (level : Level) (text : String)
  /-- A message at the level of a name. -/
  | named (level text : String)
  | programLoaded (size : Int) (source : Option String)
  | instruction (pc word : Int) (text : String)
  | halt (pc word : Int) (reason text : String)
  | reset
  deriving DecidableEq, Repr

namespace Journal

/-- A journal with nothing reported, if its settings are fit. -/
def create (s : ConsoleSettings) (capacity : Int) (clock : Clock) : Except Failure Journal :=
  match Console.create s clock with
  | .error e => .error e
  | .ok console =>
    if h : 0 < capacity then .ok ⟨console, capacity.toNat, by omega, []⟩
    else .error (.haltCapacity capacity)

/-- A new journal has a new console, room for a positive number of halts, and no halt. -/
theorem create_eq_ok_iff {s : ConsoleSettings} {capacity : Int} {clock : Clock} {j : Journal} :
    create s capacity clock = .ok j ↔
      Console.create s clock = .ok j.console ∧ j.capacity = capacity ∧ j.halts = [] := by
  obtain ⟨console, room, hroom, halts⟩ := j
  unfold create
  cases Console.create s clock with
  | error e => simp
  | ok c =>
    dsimp only
    split
    case isTrue h =>
      have hcapacity : capacity.toNat = room ↔ (room : Int) = capacity := by omega
      rw [Except.ok.injEq, mk.injEq, Except.ok.injEq, hcapacity, eq_comm (a := [])]
    case isFalse h =>
      simp only [reduceCtorEq, false_iff, not_and]
      omega

def log (j : Journal) (l : Level) (message : String) : Journal :=
  { j with console := j.console.log l message }

/-- The last `n` elements of a list. -/
def lastN {α : Type} (n : Nat) (l : List α) : List α := l.drop (l.length - n)

theorem length_lastN {α : Type} (n : Nat) (l : List α) : (lastN n l).length = min l.length n := by
  simp only [lastN, List.length_drop]
  omega

theorem lastN_nil {α : Type} (n : Nat) : lastN n ([] : List α) = [] := List.drop_nil

theorem lastN_suffix {α : Type} (n : Nat) (l : List α) : lastN n l <:+ l := List.drop_suffix ..

/-- Keeping the last elements as the list grows keeps the last elements of the whole list. -/
theorem lastN_lastN_append {α : Type} (n : Nat) (l m : List α) :
    lastN n (lastN n l ++ m) = lastN n (l ++ m) := by
  apply List.ext_getElem?
  intro i
  simp only [lastN, List.getElem?_drop, List.length_append, List.length_drop]
  by_cases h : l.length ≤ n
  · simp [Nat.sub_eq_zero_of_le h]
  · rw [List.getElem?_append, List.getElem?_append]
    simp only [List.length_drop, List.getElem?_drop]
    split <;> split
    · congr 1
      omega
    · omega
    · rw [List.getElem?_eq_none (by omega), List.getElem?_eq_none (by omega)]
    · congr 1
      omega

/-- Where a program came from, as the end of a phrase. An empty source counts as none. -/
def origin : Option String → String
  | none => ""
  | some source => if source = "" then "" else " from " ++ source

/-- Report a program that was loaded (`log_program_loaded`). -/
def programLoaded (j : Journal) (size : Int) (source : Option String) : Journal :=
  j.log .info ("Loaded " ++ Int.repr size ++ " byte program" ++ origin source ++ " at 0x200")

/-- Report an instruction before it is executed (`log_instruction`). -/
def instruction (j : Journal) (pc word : Int) (text : String) : Journal :=
  j.log .debug ("0x" ++ Hex.text 3 pc ++ ": " ++ Hex.text 4 word ++ "  " ++ text)

/-- The level at which a halt is reported: a halt instruction is routine, all else an error. -/
def haltLevel (reason : String) : Level := if reason = "HALT_INSTRUCTION" then .info else .error

/-- Record a halt and report it (`log_halt`). -/
def halt (j : Journal) (pc word : Int) (reason text : String) : Journal :=
  log { j with halts := lastN j.capacity (j.halts ++ [⟨pc, word, reason⟩]) } (haltLevel reason)
    ("Halted at 0x" ++ Hex.text 3 pc ++ " (" ++ Hex.text 4 word ++ " " ++ text ++ "): " ++ reason)

/-- Forget the halts, and report that (`log_reset`). -/
def reset (j : Journal) : Journal := log { j with halts := [] } .debug "Reset"

/-- The journal after a report, if it is accepted. -/
def tell (j : Journal) : Report → Except Failure Journal
  | .message l text => .ok (j.log l text)
  | .named level text => (j.console.logNamed level text).map fun console => { j with console }
  | .programLoaded size source => .ok (j.programLoaded size source)
  | .instruction pc word text => .ok (j.instruction pc word text)
  | .halt pc word reason text => .ok (j.halt pc word reason text)
  | .reset => .ok j.reset

/-- The journal after a report. One that is refused leaves it as it was. -/
def hear (j : Journal) (r : Report) : Journal := (j.tell r).toOption.getD j

/-- The journal after reports in order. -/
def after (j : Journal) (reports : List Report) : Journal := reports.foldl hear j

theorem hear_named (j : Journal) (level text : String) :
    j.hear (.named level text) = (Level.ofName? level).elim j fun l => j.log l text := by
  simp only [hear, tell, Console.logNamed]
  cases Level.ofName? level <;> rfl

/-- What every report keeps, of a journal and the reports so far, holds after reports. -/
theorem after_induction {P : List Report → Journal → Prop}
    (hear : ∀ past j r, P past j → P (past ++ [r]) (j.hear r)) (reports : List Report)
    {past : List Report} {j : Journal} (h : P past j) : P (past ++ reports) (j.after reports) := by
  induction reports generalizing past j with
  | nil => rwa [List.append_nil]
  | cons r reports ih =>
    rw [← List.singleton_append, ← List.append_assoc]
    exact ih (hear past j r h)

end Journal

end Chip8
