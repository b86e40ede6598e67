import Chip8.Proofs.SessionHistory

/-!
# Halts are reported once

A session reports a halt after the step that has led to it, from where the machine is then. A word
that halts a machine leaves it where it is (`halt_of_step`), so what is reported is where the
machine was when it executed the word.

The history of a halted machine ends with the word that has halted it and with what was done to it
from outside since (`HaltedAt`). `halts_of_create` says that a journal holds the report of that halt
and no other, and nothing if the machine is not halted, whatever was asked of the session.
-/
namespace Chip8

namespace Journal

/-- There is room for one halt. -/
theorem lastN_singleton {α : Type} {n : Nat} (hn : 0 < n) (a : α) : lastN n [a] = [a] := by
  rw [lastN, List.length_singleton, Nat.sub_eq_zero_of_le hn, List.drop_zero]

theorem halts_create {s : ConsoleSettings} {capacity : Int} {clock : Clock} {j : Journal}
    (h : create s capacity clock = .ok j) : j.halts = [] := (create_eq_ok_iff.mp h).2.2

end Journal

/-- The machine before the word, if the deed executes one. -/
def Deed.before? : Deed → Option Machine
  | .executed before _ => some before
  | .outside _ => none

namespace Machine

variable {source : ByteSource} {m : Machine} {past : List Deed} {halts : List HaltRecord}

/-- The last word of a history was executed by the machine `before`, and has halted it. Since then
it was not reset. -/
structure HaltedAt (past : List Deed) (before : Machine) : Prop where
  running : before.halted = false
  halts (source : ByteSource) : (before.step source).halted = true
  last : ∃ (earlier : List Deed) (later : List Event),
    past = earlier ++ .executed before before.fetch :: later.map .outside ∧ .reset ∉ later

/-- The halts that a journal ought to hold when a machine has a given history. -/
inductive Reported (past : List Deed) (m : Machine) : List HaltRecord → Prop where
  | none : m.halted = false → Reported past m []
  | one (before : Machine) : m.halted = true → HaltedAt past before →
      Reported past m
        [⟨before.core.pc.toNat, before.fetch.toNat, HaltCause.nameOf m.haltCause⟩]

theorem Reported.eq_nil_iff (h : Reported past m halts) : halts = [] ↔ m.halted = false := by
  cases h with
  | none hm => exact iff_of_true rfl hm
  | one before hm => exact iff_of_false nofun (by simp [hm])

theorem Reported.exists_before (h : Reported past m halts) (hm : m.halted = true) :
    ∃ before, HaltedAt past before ∧
      halts = [⟨before.core.pc.toNat, before.fetch.toNat, HaltCause.nameOf m.haltCause⟩] := by
  cases h with
  | none hm' => rw [hm] at hm'; cases hm'
  | one before _ hat => exact ⟨before, hat, rfl⟩

theorem HaltedAt.getLast? {before : Machine} (h : HaltedAt past before) :
    (past.filterMap Deed.before?).getLast? = some before := by
  obtain ⟨earlier, later, rfl, -⟩ := h.last
  have hlater : (later.map Deed.outside).filterMap Deed.before? = [] := by
    rw [List.filterMap_map]
    exact List.filterMap_eq_nil_iff.mpr fun _ _ => rfl
  have hbefore : (Deed.executed before before.fetch).before? = some before := rfl
  rw [List.filterMap_append, List.filterMap_cons_some hbefore, hlater, List.getLast?_concat]

/-- A journal ought to hold one thing. -/
theorem Reported.unique {halts' : List HaltRecord} (h : Reported past m halts)
    (h' : Reported past m halts') : halts = halts' := by
  cases h with
  | none hm => exact (h'.eq_nil_iff.mpr hm).symm
  | one before hm hat =>
    obtain ⟨before', hat', rfl⟩ := h'.exists_before hm
    have hbefore := hat.getLast?.symm.trans hat'.getLast?
    rw [Option.some.inj hbefore]

/-! ## Steps -/

/-- A step that halts a machine leaves it where it is. -/
theorem halt_of_step (hm : m.halted = false) (h : (m.step source).halted = true) :
    ∃ r, ∀ source, m.step source = { m with halted := true, haltCause := some r } := by
  by_cases hf : ∃ r, m.Fault m.fetch.instruction r
  · obtain ⟨r, hr⟩ := hf
    exact ⟨r, fun source => (step_of_running hm).trans (m.execute_of_fault source hr)⟩
  · have hrunning := (m.execute_of_not_fault source fun r hr => hf ⟨r, hr⟩).1
    rw [← step_of_running hm, h, hm] at hrunning
    cases hrunning

/-! ## Events from outside -/

theorem halted_of_outside (source : ByteSource) (m : Machine) {e : Event} (he : e.Outside)
    (hr : e ≠ .reset) :
    (m.handle source e).halted = m.halted ∧ (m.handle source e).haltCause = m.haltCause := by
  cases e with
  | press k =>
    change (m.press _).halted = _ ∧ (m.press _).haltCause = _
    rw [press_eq]
    exact ⟨rfl, rfl⟩
  | load program =>
    rw [load_eq]
    exact ⟨rfl, rfl⟩
  | release k => exact ⟨rfl, rfl⟩
  | tick => exact ⟨rfl, rfl⟩
  | reset => exact absurd rfl hr
  | _ => exact absurd he id

theorem HaltedAt.append {before : Machine} (h : HaltedAt past before) {e : Event}
    (he : e ≠ .reset) : HaltedAt (past ++ [.outside e]) before := by
  obtain ⟨earlier, later, rfl, hlater⟩ := h.last
  refine ⟨h.running, h.halts, earlier, later ++ [e], ?_, ?_⟩
  · rw [List.map_append, List.append_assoc]
    rfl
  · rw [List.mem_append, List.mem_singleton]
    exact fun hmem => hmem.elim hlater he.symm

theorem Reported.outside (source : ByteSource) (h : Reported past m halts) {e : Event}
    (he : e.Outside) (hr : e ≠ .reset) :
    Reported (past ++ [.outside e]) (m.handle source e) halts := by
  obtain ⟨hm, hc⟩ := halted_of_outside source m he hr
  cases h with
  | none hrunning => exact .none (hm.trans hrunning)
  | one before hhalted hat =>
    rw [← hc]
    exact .one before (hm.trans hhalted) (hat.append hr)

theorem Reported.play (h : Reported past m halts) {script : Script}
    (hs : ∀ e ∈ script, e.2.Outside ∧ e.2 ≠ .reset) :
    Reported (past ++ m.history script) (m.play script) halts := by
  induction script generalizing past m with
  | nil => rwa [history, List.append_nil]
  | cons e script ih =>
    obtain ⟨⟨he, hr⟩, hs⟩ := List.forall_mem_cons.mp hs
    rw [history, deeds_of_outside he, ← List.append_assoc]
    exact ih (h.outside e.1 he hr) hs

end Machine

namespace Session

open Machine

variable {s : Session} {past : List Deed}

/-- The halts in the journal are those of the machine with its history. -/
def Reports (past : List Deed) (s : Session) : Prop := Reported past s.machine s.journal.halts

/-! ## Steps -/

theorem halts_advance (s : Session) :
    s.advance.1.journal.halts =
      if (s.machine.step s.source).halted then
        Journal.lastN s.journal.capacity (s.journal.halts ++
          [⟨(s.machine.step s.source).core.pc.toNat, (s.machine.step s.source).fetch.toNat,
            HaltCause.nameOf (s.machine.step s.source).haltCause⟩])
      else s.journal.halts := by
  unfold advance
  dsimp only
  split <;> rfl

theorem halts_step (hm : s.machine.halted = false) :
    s.step.1.journal.halts = s.advance.1.journal.halts := by
  rw [step, if_neg (Bool.eq_false_iff.mp hm)]
  cases s.trace with
  | false => rfl
  | true => exact (halts_advance s.reportNext).trans (halts_advance s).symm

theorem Reports.step (h : Reports past s) : Reports (past ++ s.machine.stepDeeds) s.step.1 := by
  cases hm : s.machine.halted with
  | true => rwa [step_fst_of_halted hm, stepDeeds_of_halted hm, List.append_nil]
  | false =>
    unfold Reports
    rw [halts_step hm, halts_advance, h.eq_nil_iff.mpr hm, (stepped_step s).machine,
      stepDeeds_of_running hm]
    split
    case isFalse hrunning => exact .none (Bool.eq_false_iff.mpr hrunning)
    case isTrue hhalted =>
      obtain ⟨r, hr⟩ := halt_of_step hm hhalted
      have hat : HaltedAt (past ++ [.executed s.machine s.machine.fetch]) s.machine :=
        ⟨hm, fun source => by rw [hr], past, [], rfl, List.not_mem_nil⟩
      rw [List.nil_append, Journal.lastN_singleton s.journal.capacity_pos, hr]
      exact .one s.machine rfl hat

/-! ## Calls -/

theorem halts_of_quiet {c : Call} (hc : c.Quiet) :
    (s.call c).1.journal.halts = s.journal.halts := by
  rcases s.informed_of_quiet hc with h | ⟨text, h⟩ <;> exact congrArg (·.journal.halts) h

theorem Reports.quiet (h : Reports past s) {c : Call} (hc : c.Quiet) :
    Reports (past ++ s.machine.history (s.script [c])) (s.call c).1 := by
  unfold Reports
  rw [machine_call, halts_of_quiet hc]
  exact Reported.play h (s.outside_of_quiet hc)

theorem Reports.after (h : Reports past s) (calls : List Call) :
    Reports (past ++ s.machine.history (s.script calls)) (s.after calls) :=
  after_induction (fun _ _ h => h.step) (fun _ _ _ => .none rfl) (fun _ _ _ hc h => h.quiet hc)
    calls h

/-- Steps of a halted machine change nothing, and nothing is reported. -/
theorem run_fst_of_halted (hm : s.machine.halted = true) (n : Nat) : (s.run n).1 = s :=
  runFrom_invariant (P := (· = s)) (fun t ht => by rw [ht]; exact step_fst_of_halted hm) 0 n rfl

/-- **Halts are reported exactly.** Whatever was asked of a new session with a journal of its own,
the journal holds no halt unless the machine is halted. Then it holds one, with where the machine
was before the step that has halted it, the word that it executed there, and the present reason.
That step is the last that the history of the machine tells, and there was no reset since. More
steps are not reported, and change nothing. -/
theorem halts_of_create {console : ConsoleSettings} {capacity : Int} {clock : Clock}
    {journal : Journal} (hj : Journal.create console capacity clock = .ok journal)
    {settings : SessionSettings} {s₀ : Session} (h : create settings journal = .ok s₀)
    (calls : List Call) :
    let s := s₀.after calls
    let past := s₀.machine.history (s₀.script calls)
    s.machine = s₀.machine.play (s₀.script calls) ∧
    (s.journal.halts = [] ↔ s.machine.halted = false) ∧
    (s.machine.halted = true → ∃ before, HaltedAt past before ∧
      s.journal.halts =
        [⟨before.core.pc.toNat, before.fetch.toNat, HaltCause.nameOf s.machine.haltCause⟩]) ∧
    (s.machine.halted = true → (s.call .step).1 = s ∧ (s.call .runPeriod).1 = s.tick ∧
      ∀ n, (s.call (.run n)).1 = s ∧ (s.call (.runShown n)).1 = s) := by
  intro s past
  have hstart : Reports [] s₀ := by
    obtain ⟨rates, -, rfl⟩ := map_eq_ok h
    unfold Reports
    rw [Journal.halts_create hj]
    exact .none rfl
  have hs : Reports past s := hstart.after calls
  refine ⟨machine_after s₀ calls, hs.eq_nil_iff, hs.exists_before, fun hm => ⟨?_, ?_, fun n => ?_⟩⟩
  · exact step_fst_of_halted hm
  · exact congrArg tick (run_fst_of_halted hm _)
  · refine ⟨run_fst_of_halted hm _, ?_⟩
    rw [call_runShown]
    split
    · exact run_fst_of_halted hm _
    · rfl

/-- A run halts at the second instruction of a program. Then the program is replaced, a key is
pressed, a number that is no key is refused, and the session runs again. -/
theorem halts_of_create_replaced :
    let console : ConsoleSettings := { coloured := false, stamped := false }
    let s₀ : Session :=
      { machine := .create (.ofSeed 0), source := .constant 0, journal := plainJournal
        trace := false, rates := ⟨700, 60, by decide, by decide⟩ }
    let calls : List Call :=
      [.load [0x60, 0x05, 0x00, 0x00], .run 9, .load [0xFF, 0xFF, 0xFF, 0xFF], .press 3, .press 16,
        .runPeriod]
    Journal.create console 1 ⟨0, []⟩ = .ok plainJournal ∧
      create { source := .constant 0 } plainJournal = .ok s₀ ∧
      (s₀.after calls).machine.halted = true ∧
      (s₀.after calls).journal.halts = [⟨0x202, 0x0000, "HALT_INSTRUCTION"⟩] ∧
      ∃ before, HaltedAt (s₀.machine.history (s₀.script calls)) before ∧
        before.core.pc.toNat = 0x202 := by
  intro console s₀ calls
  have hlevel : Level.ofAnyCase? "INFO" = some .info := by decide +kernel
  have hj : Journal.create console 1 ⟨0, []⟩ = .ok plainJournal := by
    simp only [Journal.create, Console.create, console, hlevel]
    rfl
  have h : create { source := .constant 0 } plainJournal = .ok s₀ := rfl
  obtain ⟨-, -, hreport, -⟩ := halts_of_create hj h calls
  have hm : (s₀.after calls).machine.halted = true := by decide +kernel
  have hrecord : (s₀.after calls).journal.halts = [⟨0x202, 0x0000, "HALT_INSTRUCTION"⟩] := by
    decide +kernel
  obtain ⟨before, hat, hhalts⟩ := hreport hm
  refine ⟨hj, h, hm, hrecord, before, hat, ?_⟩
  rw [hrecord] at hhalts
  simp only [List.cons.injEq, HaltRecord.mk.injEq] at hhalts
  omega

end Session

end Chip8
