import Chip8.Proofs.Halted
import Chip8.Session.Call

/-!
# Running a session

A session steps its machine one instruction at a time, and a run stops as soon as a step tells that
the machine is halted. The steps that it leaves out would change nothing, so the machine is where
that many steps take it (`machine_runFrom`), and the number that the run tells is that of the first
step after which the machine is halted (`stepsTaken_runFrom`).

What is asked of a session changes neither its source of random bytes nor its rates
(`SameSetup.after`), so this holds whenever a run begins (`run_of_create`). A run with a progress
display is the same run, but one that may be longer than the display counts is refused
(`runShown_refused`).
-/
namespace Chip8

/-- The number of instructions between two ticks is the quotient of the rates. -/
theorem Rates.perTick_of_check {instructions ticks : Int} {r : Rates}
    (h : check instructions ticks = .ok r) : (r.perTick : Int) = instructions / ticks := by
  unfold check at h
  split at h
  · cases h
  split at h
  · cases h
  cases h
  rw [perTick, Int.natCast_ediv, Int.toNat_of_nonneg (by omega), Int.toNat_of_nonneg (by omega)]

namespace Machine

variable {source : ByteSource} {m : Machine} {n k : Nat}

theorem steps_succ (n : Nat) : m.steps source (n + 1) = (m.step source).steps source n := by
  induction n with
  | zero => rfl
  | succ n ih => exact congrArg (step source) ih

theorem status_eq_halted_iff : m.status = .halted ↔ m.halted = true := by
  unfold status
  cases m.halted with
  | true => exact iff_of_true rfl rfl
  | false => cases m.awaiting <;> simp

/-- How many of `n` steps a run takes: it ends with the first that leaves the machine halted. -/
inductive StepsTaken (source : ByteSource) (m : Machine) (n : Nat) : Nat → Prop where
  | stopped {k : Nat} (pos : 1 ≤ k) (le : k ≤ n) (halted : (m.steps source k).halted = true)
      (before : ∀ i, 1 ≤ i → i < k → (m.steps source i).halted = false) : StepsTaken source m n k
  | all (running : ∀ i, 1 ≤ i → i ≤ n → (m.steps source i).halted = false) :
      StepsTaken source m n n

/-- A run takes one number of steps. -/
theorem StepsTaken.unique {k' : Nat} (h : StepsTaken source m n k)
    (h' : StepsTaken source m n k') : k = k' := by
  have le {k k' : Nat} (h : StepsTaken source m n k) (h' : StepsTaken source m n k') : k' ≤ k := by
    cases h with
    | all => cases h' <;> omega
    | stopped pos le halted before =>
      refine Nat.le_of_not_lt fun hlt => ?_
      have hk : (m.steps source k).halted = false := by
        cases h' with
        | stopped _ _ _ before' => exact before' k pos hlt
        | all running => exact running k pos le
      rw [hk] at halted
      cases halted
  exact Nat.le_antisymm (le h' h) (le h h')

theorem StepsTaken.of_halted (h : (m.step source).halted = true) :
    StepsTaken source m (n + 1) 1 :=
  .stopped (Nat.le_refl 1) (by omega) h fun _ _ _ => by omega

/-- A step that leaves the machine running is one more. -/
theorem StepsTaken.succ (h : (m.step source).halted = false)
    (hk : StepsTaken source (m.step source) n k) : StepsTaken source m (n + 1) (k + 1) := by
  -- what the run meets after its first step, the run from there meets one step earlier
  have shift {j : Nat} (hj : ∀ i, 1 ≤ i → i < j → ((m.step source).steps source i).halted = false) :
      ∀ i, 1 ≤ i → i < j + 1 → (m.steps source i).halted = false := by
    intro i hi hij
    obtain ⟨i, rfl⟩ : ∃ i', i = i' + 1 := ⟨i - 1, by omega⟩
    rw [steps_succ]
    cases i with
    | zero => exact h
    | succ i => exact hj (i + 1) (by omega) (by omega)
  cases hk with
  | stopped pos le halted before =>
    exact .stopped (by omega) (by omega) (steps_succ k ▸ halted) (shift before)
  | all running =>
    refine .all fun i hi hin => shift (j := n + 1) (fun i hi hin => running i hi ?_) i hi ?_
    · omega
    · omega

end Machine

namespace Session

variable {s s' t : Session}

/-- The source of random bytes and the rates are the same. -/
structure SameSetup (s t : Session) : Prop where
  source : t.source = s.source
  rates : t.rates = s.rates

theorem SameSetup.refl (s : Session) : SameSetup s s := ⟨rfl, rfl⟩

theorem SameSetup.trans (h : SameSetup s s') (h' : SameSetup s' t) : SameSetup s t :=
  ⟨h'.source.trans h.source, h'.rates.trans h.rates⟩

/-! ## Single steps -/

/-- What a session is, and tells, after a step of its machine. -/
structure Stepped (s : Session) (r : Session × Status) : Prop where
  machine : r.1.machine = s.machine.step s.source
  status : r.2 = r.1.machine.status
  setup : SameSetup s r.1

theorem stepped_advance (s : Session) : Stepped s s.advance := by
  unfold advance
  dsimp only
  split
  case isTrue h => exact ⟨rfl, (Machine.status_eq_halted_iff.mpr h).symm, ⟨rfl, rfl⟩⟩
  case isFalse => exact ⟨rfl, rfl, ⟨rfl, rfl⟩⟩

theorem stepped_step (s : Session) : Stepped s s.step := by
  unfold step
  split
  case isTrue h =>
    exact ⟨(Machine.step_of_halted h).symm, (Machine.status_eq_halted_iff.mpr h).symm, .refl s⟩
  case isFalse =>
    cases s.trace with
    | false => exact stepped_advance s
    | true =>
      obtain ⟨hm, hs, hsetup⟩ := stepped_advance s.reportNext
      exact ⟨hm, hs, ⟨hsetup.source, hsetup.rates⟩⟩

/-! ## Runs -/

theorem runFrom_succ (taken n : Nat) (s : Session) :
    runFrom taken (n + 1) s =
      if s.step.1.machine.halted then (s.step.1, taken + 1)
      else runFrom (taken + 1) n s.step.1 := by
  have h : (s.step.2 = .halted) = (s.step.1.machine.halted = true) := by
    rw [(stepped_step s).status, Machine.status_eq_halted_iff]
  simp only [runFrom, h]

/-- What a step keeps holds after a run if it held before. -/
theorem runFrom_invariant {P : Session → Prop} (keep : ∀ t, P t → P t.step.1) (taken n : Nat)
    (h : P s) : P (runFrom taken n s).1 := by
  induction n generalizing taken s with
  | zero => exact h
  | succ n ih =>
    rw [runFrom_succ]
    split
    · exact keep s h
    · exact ih _ (keep s h)

theorem SameSetup.runFrom (taken n : Nat) (s : Session) : SameSetup s (runFrom taken n s).1 :=
  runFrom_invariant (fun t h => h.trans (stepped_step t).setup) taken n (.refl s)

/-- A run leaves the machine where as many steps take it, halted or not. -/
theorem machine_runFrom (taken n : Nat) (s : Session) :
    (runFrom taken n s).1.machine = s.machine.steps s.source n := by
  induction n generalizing taken s with
  | zero => rfl
  | succ n ih =>
    obtain ⟨hm, -, hsetup⟩ := stepped_step s
    rw [runFrom_succ, Machine.steps_succ, ← hm]
    split
    -- the steps that the run leaves out find a halted machine
    case isTrue h => exact (Machine.steps_of_halted h n).symm
    case isFalse => rw [ih, hsetup.source]

theorem stepsTaken_runFrom (taken n : Nat) (s : Session) :
    ∃ k, (runFrom taken n s).2 = taken + k ∧ Machine.StepsTaken s.source s.machine n k := by
  induction n generalizing taken s with
  | zero => exact ⟨0, rfl, .all fun _ _ _ => by omega⟩
  | succ n ih =>
    obtain ⟨hm, -, hsetup⟩ := stepped_step s
    rw [runFrom_succ]
    split
    case isTrue h => exact ⟨1, rfl, .of_halted (hm ▸ h)⟩
    case isFalse h =>
      obtain ⟨k, hk, ht⟩ := ih (taken + 1) s.step.1
      rw [hm] at h ht
      rw [hsetup.source] at ht
      exact ⟨k + 1, by omega, .succ (Bool.eq_false_iff.mpr h) ht⟩

/-! ## Calls -/

theorem map_eq_ok {α β : Type} {x : Except Failure α} {f : α → β} {b : β} (h : x.map f = .ok b) :
    ∃ a, x = .ok a ∧ f a = b := by
  cases x with
  | error e => cases h
  | ok a => exact ⟨a, rfl, Except.ok.inj h⟩

theorem SameSetup.settle {α : Type} {x : Except Failure α} {f : α → Session × Reply}
    (h : ∀ a, SameSetup s (f a).1) : SameSetup s (s.settle x f).1 := by
  cases x with
  | error e => exact .refl s
  | ok a => exact h a

theorem SameSetup.call (s : Session) (c : Call) : SameSetup s (s.call c).1 := by
  cases c with
  | load program =>
    rw [call_load]
    exact settle fun _ => ⟨rfl, rfl⟩
  | loadFile name content =>
    rw [call_loadFile]
    cases content with
    | error e => exact .refl s
    | ok bytes => exact settle fun _ => ⟨rfl, rfl⟩
  | step => exact (stepped_step s).setup
  | run n => exact .runFrom _ _ s
  | runShown n =>
    rw [call_runShown]
    split
    · exact .runFrom _ _ s
    · exact .refl s
  | runPeriod => exact ⟨(SameSetup.runFrom _ _ s).source, (SameSetup.runFrom _ _ s).rates⟩
  | press k =>
    rw [call_press]
    exact settle fun _ => ⟨rfl, rfl⟩
  | release k =>
    rw [call_release]
    exact settle fun _ => ⟨rfl, rfl⟩
  | readMemory start length =>
    rw [call_readMemory]
    exact settle fun _ => .refl s
  | dumpMemory start stop width =>
    rw [call_dumpMemory]
    exact settle fun _ => .refl s
  | _ => exact ⟨rfl, rfl⟩

theorem SameSetup.after (s : Session) (calls : List Call) : SameSetup s (s.after calls) := by
  induction calls generalizing s with
  | nil => exact .refl s
  | cons c calls ih => exact (SameSetup.call s c).trans (ih _)

theorem SameSetup.of_create {settings : SessionSettings} {journal : Journal}
    (h : create settings journal = .ok s) :
    s.source = settings.source ∧
      Rates.check settings.instructions settings.ticks = .ok s.rates := by
  obtain ⟨rates, hr, rfl⟩ := map_eq_ok h
  exact ⟨rfl, hr⟩

theorem call_runShown_natCast (n : Nat) (s : Session) :
    s.call (.runShown n) =
      if n < 0x8000000000000000 then s.call (.run n) else (s, .error .stepCount) := by
  rw [call_runShown]
  by_cases hn : n < 0x8000000000000000
  · rw [if_pos hn, if_pos (by omega)]
  · rw [if_neg hn, if_neg (by omega)]

/-- **All ways to step agree.** At any time in the life of a session, a run of `n` steps leaves the
machine where `n` steps take it and tells how many steps there were up to the halt. So does a run
with a progress display, except that it is refused from `2 ^ 63` steps on. A step tells the status
that it leaves. There is at least one instruction to a tick, and a run for the time of a tick takes
as many steps as there are instructions to a tick, and ticks once. -/
theorem run_of_create {settings : SessionSettings} {journal : Journal} {s₀ : Session}
    (h : create settings journal = .ok s₀) (calls : List Call) :
    let s := s₀.after calls
    let iterate (n : Nat) : Machine := n.repeat (Machine.step settings.source) s.machine
    (∀ n : Nat, s.machine.handle settings.source (.steps n) = iterate n ∧
      (∃ s' k, s.call (.run n) = (s', .ok (.count k)) ∧ s'.machine = iterate n ∧
        Machine.StepsTaken settings.source s.machine n k) ∧
      s.call (.runShown n) =
        if n < 0x8000000000000000 then s.call (.run n) else (s, .error .stepCount)) ∧
    (∃ s', s.call .step = (s', .ok (.status s'.machine.status)) ∧ s'.machine = iterate 1) ∧
    1 ≤ s.rates.perTick ∧ (s.rates.perTick : Int) = settings.instructions / settings.ticks ∧
    ∃ s', s.call .runPeriod = (s', .ok (.status s'.machine.status)) ∧
      s'.machine = (iterate s.rates.perTick).tick := by
  intro s iterate
  obtain ⟨hs, hr⟩ := SameSetup.of_create h
  obtain ⟨hs', hr'⟩ := SameSetup.after s₀ calls
  have hsource : s.source = settings.source := hs'.trans hs
  have hrates : s.rates = s₀.rates := hr'
  have hrun (n : Nat) : (s.run n).1.machine = iterate n := by
    rw [run, machine_runFrom, hsource]
    rfl
  refine ⟨fun n => ⟨rfl, ?_, call_runShown_natCast n s⟩, ?_, s.rates.perTick_pos, ?_, ?_⟩
  · obtain ⟨k, hk, ht⟩ := stepsTaken_runFrom 0 n s
    rw [hsource] at ht
    refine ⟨(s.run n).1, k, ?_, hrun n, ht⟩
    rw [← Nat.zero_add k, ← hk]
    rfl
  · obtain ⟨hm, hst, -⟩ := stepped_step s
    refine ⟨s.step.1, ?_, ?_⟩
    · rw [← hst]
      rfl
    · rw [hm, hsource]
      rfl
  · rw [hrates]
    exact Rates.perTick_of_check hr
  · exact ⟨s.runPeriod.1, rfl, congrArg Machine.tick (hrun _)⟩

/-- A new journal on a plain console. -/
def plainJournal : Journal where
  console := ⟨"chipvm", .info, false, false, 0, ⟨0, []⟩, #[]⟩
  capacity := 1
  capacity_pos := by decide
  halts := []

/-- A run of five steps over a program that halts with its second instruction. -/
theorem run_of_create_halt :
    let settings : SessionSettings := { source := .constant 0 }
    ∃ s₀ s', create settings plainJournal = .ok s₀ ∧
      (s₀.after [.load [0x60, 0x01, 0x00, 0x00]]).call (.run 5) = (s', .ok (.count 2)) ∧
      s'.machine.halted = true := by
  intro settings
  have hcreate : create settings plainJournal = .ok _ := rfl
  obtain ⟨hrun, -⟩ := run_of_create hcreate [.load [0x60, 0x01, 0x00, 0x00]]
  obtain ⟨-, ⟨s', k, hcall, hm, ht⟩, -⟩ := hrun 5
  have hk : k = 2 := by
    refine ht.unique (.stopped (by decide) (by decide) ?_ ?_)
    · decide +kernel
    · intro i hi hlt
      obtain rfl : i = 1 := by omega
      decide +kernel
  subst hk
  refine ⟨_, s', hcreate, hcall, ?_⟩
  rw [hm]
  decide +kernel

/-- A program that halts at once: a run that might take `2 ^ 63` steps takes one, but with a
progress display it is refused, and the machine stays as it is. -/
theorem runShown_refused :
    let settings : SessionSettings := { source := .constant 0 }
    ∃ s₀, create settings plainJournal = .ok s₀ ∧
      let s := s₀.after [.load [0x00, 0x00]]
      let n : Nat := 0x8000000000000000
      s.call (.runShown n) = (s, .error .stepCount) ∧ s.machine.halted = false ∧
        (n.repeat (Machine.step settings.source) s.machine).halted = true ∧
        (s.call (.run n)).2 = .ok (.count 1) := by
  intro settings
  refine ⟨_, rfl, ?_⟩
  intro s n
  have hstep : (s.machine.step settings.source).halted = true := by decide +kernel
  -- the first step halts the machine, and no later one is evaluated
  have hsteps : s.machine.steps settings.source n = s.machine.step settings.source :=
    (Machine.steps_succ (n - 1)).trans (Machine.steps_of_halted hstep _)
  have hrun : s.run n = (s.step.1, 1) := by
    refine (runFrom_succ 0 (n - 1) s).trans (if_pos ?_)
    rw [(stepped_step s).machine]
    exact hstep
  refine ⟨(call_runShown_natCast n s).trans (if_neg (Nat.lt_irrefl n)), by decide +kernel, ?_, ?_⟩
  · change (s.machine.steps settings.source n).halted = true
    rw [hsteps]
    exact hstep
  · change Except.ok (Reply.count (s.run n).2) = _
    rw [hrun]

end Session

end Chip8
