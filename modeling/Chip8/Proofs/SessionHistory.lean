import Chip8.Proofs.History
import Chip8.Proofs.SessionRun

/-!
# The history of a session

All that is asked of a session comes down to events of its machine: a run is as many steps, a run
for the time of a tick ends with a tick, and a call that is refused or only looks is none
(`Call.events`). `machine_after` says that the machine of a session goes through the script of its
calls, so what holds of machines and their histories holds of the machine of a session.

What holds of a session and the history of its machine, `after_induction` proves: it must survive a
step, a reset, and every call that takes no steps (`Call.Quiet`). Such a call changes nothing but
the machine, and tells the journal of a loaded program at the most (`informed_of_quiet`).
-/
namespace Chip8

/-- What a call does to the machine of a session with given rates. -/
def Call.events (r : Rates) : Call → List Event
  | .load program => [.load program]
  | .loadFile _ (.error _) => []
  | .loadFile _ (.ok bytes) => [.load (Byte.numbers bytes)]
  | .step => [.step]
  | .run n => [.steps n.toNat]
  | .runShown n => if n < 0x8000000000000000 then [.steps n.toNat] else []
  | .runPeriod => [.steps r.perTick, .tick]
  | .tick => [.tick]
  | .press k => if 0 ≤ k ∧ k < 16 then [.press k] else []
  | .release k => if 0 ≤ k ∧ k < 16 then [.release k] else []
  | .reset => [.reset]
  | .readMemory .. | .table | .dumpMemory .. | .halts | .sketch .. => []

/-- The call takes no steps and does not reset the machine. -/
def Call.Quiet : Call → Prop
  | .step | .run _ | .runShown _ | .runPeriod | .reset => False
  | _ => True

theorem Call.outside_of_quiet {c : Call} (hc : c.Quiet) {r : Rates} {e : Event}
    (he : e ∈ c.events r) : e.Outside ∧ e ≠ .reset := by
  cases c with
  | load program | tick =>
    rw [List.mem_singleton.mp he]
    exact ⟨trivial, by simp⟩
  | loadFile name content =>
    cases content with
    | error e => cases he
    | ok bytes =>
      rw [List.mem_singleton.mp he]
      exact ⟨trivial, by simp⟩
  | press k | release k =>
    simp only [events] at he
    split at he
    · rw [List.mem_singleton.mp he]
      exact ⟨trivial, by simp⟩
    · cases he
  | step | run n | runShown n | runPeriod | reset => exact absurd hc id
  | _ => cases he

namespace Machine

variable {source : ByteSource} {m : Machine}

theorem deeds_steps_succ (source : ByteSource) (m : Machine) (n : Nat) :
    m.deeds source (.steps (n + 1)) = m.stepDeeds ++ (m.step source).deeds source (.steps n) := by
  change (List.range (n + 1)).flatMap _ = _
  rw [List.range_succ_eq_map, List.flatMap_cons, List.flatMap_map]
  simp only [Nat.succ_eq_add_one, steps_succ]
  rfl

theorem deeds_steps_of_halted (hm : m.halted = true) (n : Nat) :
    m.deeds source (.steps n) = [] := by
  induction n with
  | zero => rfl
  | succ n ih => rw [deeds_steps_succ, stepDeeds_of_halted hm, step_of_halted hm, ih]; rfl

end Machine

namespace Session

variable {s t : Session}

/-- What calls do to the machine, with the source of the session. -/
def script (s : Session) (calls : List Call) : Script :=
  calls.flatMap fun c => (c.events s.rates).map (s.source, ·)

theorem SameSetup.script (h : SameSetup s t) (calls : List Call) :
    t.script calls = s.script calls := by
  unfold Session.script
  rw [h.source, h.rates]

theorem script_cons (s : Session) (c : Call) (calls : List Call) :
    s.script (c :: calls) = s.script [c] ++ s.script calls := by
  simp only [script, List.flatMap_cons, List.flatMap_nil, List.append_nil]

/-! ## Calls that may be refused -/

/-- A session whose machine is another one, and whose journal may have been told of a program. -/
def Informed (s : Session) (m : Machine) (t : Session) : Prop :=
  t = { s with machine := m } ∨
    ∃ text, t = { s with machine := m, journal := s.journal.log .info text }

/-- A program that fits is loaded and told to the journal; one that does not changes nothing. -/
theorem informed_load (program : List Int) (size : Int) (origin : Option String) :
    s.Informed (s.machine.handle s.source (.load program))
      (s.settle (s.machine.load program) fun machine =>
        ({ s with machine, journal := s.journal.programLoaded size origin }, .done)).1 := by
  change s.Informed ((s.machine.load program).toOption.getD s.machine) _
  cases s.machine.load program with
  | error e => exact .inl rfl
  | ok m => exact .inr ⟨_, rfl⟩

theorem settle_look {α : Type} (x : Except Failure α) (f : α → Reply) :
    (s.settle x fun a => (s, f a)).1 = s := by
  cases x <;> rfl

/-! ## The machine of a session -/

theorem machine_run (n : Nat) (s : Session) :
    (s.run n).1.machine = s.machine.steps s.source n := machine_runFrom 0 n s

/-- A call that takes no steps and does not reset the machine tells the journal of a loaded program
at the most. -/
theorem informed_of_quiet {c : Call} (hc : c.Quiet) :
    s.Informed (s.machine.play (s.script [c])) (s.call c).1 := by
  cases c with
  | load program => rw [call_load]; exact informed_load program _ none
  | loadFile name content =>
    rw [call_loadFile]
    cases content with
    | error e => exact .inl rfl
    | ok bytes => exact informed_load (Byte.numbers bytes) _ (some name)
  | press k | release k =>
    simp only [call_press, call_release, script, List.flatMap_cons, Call.events, key]
    -- a number that is no key is no event either
    split <;> exact .inl rfl
  | readMemory start length => rw [call_readMemory, settle_look]; exact .inl rfl
  | dumpMemory start stop width => rw [call_dumpMemory, settle_look]; exact .inl rfl
  | step | run n | runShown n | runPeriod | reset => exact absurd hc id
  | _ => exact .inl rfl

theorem Informed.machine {m : Machine} (h : s.Informed m t) : t.machine = m := by
  rcases h with rfl | ⟨text, rfl⟩ <;> rfl

theorem machine_call (s : Session) (c : Call) :
    (s.call c).1.machine = s.machine.play (s.script [c]) := by
  cases c with
  | step => exact (stepped_step s).machine
  | run n => exact machine_run n.toNat s
  | runShown n =>
    rw [call_runShown]
    simp only [script, List.flatMap_cons, Call.events]
    split
    · exact machine_run n.toNat s
    · rfl
  | runPeriod => exact congrArg Machine.tick (machine_run _ s)
  | reset => rfl
  | _ => exact Informed.machine (informed_of_quiet trivial)

/-- The machine of a session goes through the script of its calls. -/
theorem machine_after (s : Session) (calls : List Call) :
    (s.after calls).machine = s.machine.play (s.script calls) := by
  induction calls generalizing s with
  | nil => rfl
  | cons c calls ih =>
    rw [script_cons, Machine.play_append, ← machine_call, ← (SameSetup.call s c).script]
    exact ih _

theorem outside_of_quiet (s : Session) {c : Call} (hc : c.Quiet) :
    ∀ e ∈ s.script [c], e.2.Outside ∧ e.2 ≠ .reset := by
  intro e he
  rw [script, List.flatMap_singleton, List.mem_map] at he
  obtain ⟨e, he, rfl⟩ := he
  exact Call.outside_of_quiet hc he

/-! ## Induction on the calls -/

theorem step_fst_of_halted (hm : s.machine.halted = true) : s.step.1 = s :=
  congrArg Prod.fst (if_pos hm)

section
variable {P : List Deed → Session → Prop}
  (step : ∀ past s, P past s → P (past ++ s.machine.stepDeeds) s.step.1)
  {past : List Deed}

include step

/-- The steps that a run leaves out are no deeds. -/
theorem runFrom_induction (taken n : Nat) (h : P past s) :
    P (past ++ s.machine.deeds s.source (.steps n)) (runFrom taken n s).1 := by
  induction n generalizing taken s past with
  | zero => rwa [show s.machine.deeds s.source (.steps 0) = [] from rfl, List.append_nil]
  | succ n ih =>
    obtain ⟨hm, -, hsetup⟩ := stepped_step s
    rw [runFrom_succ, Machine.deeds_steps_succ, ← List.append_assoc, ← hm]
    split
    case isTrue hhalted =>
      rw [Machine.deeds_steps_of_halted hhalted, List.append_nil]
      exact step past s h
    case isFalse =>
      rw [← hsetup.source]
      exact ih (taken + 1) (step past s h)

theorem run_induction (n : Nat) (h : P past s) :
    P (past ++ s.machine.history [(s.source, .steps n)]) (s.run n).1 := by
  rw [Machine.history, Machine.history, List.append_nil]
  exact runFrom_induction step 0 n h

variable (reset : ∀ past s, P past s → P (past ++ [.outside .reset]) s.reset)
  (quiet : ∀ past s c, c.Quiet → P past s →
    P (past ++ s.machine.history (s.script [c])) (s.call c).1)

include reset quiet

theorem call_induction (c : Call) (h : P past s) :
    P (past ++ s.machine.history (s.script [c])) (s.call c).1 := by
  cases c with
  | step =>
    rw [show s.machine.history (s.script [.step]) = s.machine.stepDeeds from List.append_nil _]
    exact step past s h
  | run n => exact run_induction step n.toNat h
  | runShown n =>
    rw [call_runShown]
    simp only [script, List.flatMap_singleton, Call.events]
    split
    · exact run_induction step n.toNat h
    · rwa [List.map_nil, Machine.history, List.append_nil]
  | runPeriod =>
    have hscript : s.script [.runPeriod] =
        [(s.source, .steps s.rates.perTick)] ++ [(s.source, .tick)] := rfl
    rw [hscript, Machine.history_append, ← List.append_assoc]
    exact quiet _ _ .tick trivial (run_induction step s.rates.perTick h)
  | reset => exact reset past s h
  | _ => exact quiet past s _ trivial h

/-- What a step, a reset and every other call that takes no steps keep, of a session and the past of
its machine, holds after calls if it held before. -/
theorem after_induction (calls : List Call) (h : P past s) :
    P (past ++ s.machine.history (s.script calls)) (s.after calls) := by
  induction calls generalizing s past with
  | nil => rwa [show s.machine.history (s.script []) = [] from rfl, List.append_nil]
  | cons c calls ih =>
    rw [script_cons, Machine.history_append, ← List.append_assoc, ← machine_call,
      ← (SameSetup.call s c).script calls]
    exact ih (call_induction step reset quiet c h)

end

end Session

end Chip8
