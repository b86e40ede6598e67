import Chip8.Log.Journal
import Chip8.Proofs.Pieces

/-!
# The window of recent halts

A journal keeps the halts that it was told of since its last reset (`Report.haltsTold`), and of
these the last ones only, as many as there is room for. Each report that tells of a halt moves the
window on, a reset empties it, and no other report touches it, whether its message is written,
filtered out or refused (`halts_hear_of_none`).

Cutting the list at every halt comes to cutting the whole list once, however many halts and resets
there were (`halts_after`); `halts_of_reports` says so of every journal from its creation on.
-/
namespace Chip8

namespace Report

/-- The halt that a report tells of, as it is recorded. -/
def halt? : Report → Option HaltRecord
  | .halt pc word reason _ => some ⟨pc, word, reason⟩
  | _ => none

/-- The halts told since the last reset, oldest first. -/
def haltsTold (reports : List Report) : List HaltRecord :=
  (since (· = .reset) reports).filterMap halt?

theorem haltsTold_reset (reports : List Report) : haltsTold (reports ++ [.reset]) = [] := by
  simp [haltsTold, since_append]

theorem haltsTold_append (reports : List Report) {r : Report} (hr : r ≠ .reset) :
    haltsTold (reports ++ [r]) = haltsTold reports ++ r.halt?.toList := by
  rw [haltsTold, since_append, if_neg (by simpa using hr), List.filterMap_append]
  cases hh : r.halt? <;> simp [hh, haltsTold]

end Report

namespace Journal

variable {j : Journal} {r : Report}

theorem capacity_hear (j : Journal) (r : Report) : (j.hear r).capacity = j.capacity := by
  cases r with
  | named level text =>
    rw [hear_named]
    cases Level.ofName? level <;> rfl
  | _ => rfl

/-- A report that tells of no halt and is no reset leaves the halts as they are. -/
theorem halts_hear_of_none (j : Journal) (hh : r.halt? = none) (hr : r ≠ .reset) :
    (j.hear r).halts = j.halts := by
  cases r with
  | named level text =>
    rw [hear_named]
    cases Level.ofName? level <;> rfl
  | halt pc word reason text => cases hh
  | reset => exact absurd rfl hr
  | _ => rfl

/-- The halts are the last of those told, as many as there is room for. -/
def Recent (capacity : Nat) (past : List Report) (j : Journal) : Prop :=
  j.capacity = capacity ∧ j.halts = lastN capacity (Report.haltsTold past)

theorem Recent.hear {capacity : Nat} {past : List Report} (h : Recent capacity past j)
    (r : Report) : Recent capacity (past ++ [r]) (j.hear r) := by
  refine ⟨(j.capacity_hear r).trans h.1, ?_⟩
  by_cases hr : r = .reset
  · rw [hr, Report.haltsTold_reset, lastN_nil]
    rfl
  rw [Report.haltsTold_append past hr, ← lastN_lastN_append, ← h.2]
  cases hh : r.halt? with
  | none =>
    -- the window is no longer than there is room for, so cutting it again changes nothing
    rw [halts_hear_of_none j hh hr, Option.toList_none, h.2, lastN_lastN_append, List.append_nil]
  | some record =>
    cases r with
    | halt pc word reason text =>
      cases hh
      exact congrArg (lastN · _) h.1
    | _ => cases hh

theorem halts_after (hj : j.halts = []) (reports : List Report) :
    (j.after reports).halts = lastN j.capacity (Report.haltsTold reports) := by
  have hstart : Recent j.capacity [] j := ⟨rfl, hj.trans (lastN_nil _).symm⟩
  exact (after_induction (fun _ _ r h => h.hear r) reports hstart).2

/-- **The halts are a sliding window.** Whatever a journal was told since it was created, it holds
the last of the halts told since its last reset, in order and as they were told: all of them if
there is room, and else as many as its capacity allows. Nothing but the report of a halt and a reset
changes them. -/
theorem halts_of_reports {settings : ConsoleSettings} {capacity : Int} {clock : Clock}
    (hj : create settings capacity clock = .ok j) (reports : List Report) :
    let halts := (j.after reports).halts
    let told := Report.haltsTold reports
    0 < capacity ∧ halts <:+ told ∧ (halts.length : Int) = min (told.length : Int) capacity ∧
    (halts.length : Int) ≤ capacity ∧
    ∀ r : Report, r.halt? = none → r ≠ .reset → ((j.after reports).hear r).halts = halts := by
  intro halts told
  obtain ⟨-, hcapacity, hnone⟩ := create_eq_ok_iff.mp hj
  have hroom := j.capacity_pos
  have hhalts : halts = lastN j.capacity told := halts_after hnone reports
  have hlength : halts.length = min told.length j.capacity := by rw [hhalts, length_lastN]
  refine ⟨by omega, ?_, by omega, by omega, fun r hh hr => halts_hear_of_none _ hh hr⟩
  rw [hhalts]
  exact lastN_suffix ..

/-- A journal with room for two halts, told of four, one of them before a reset. Between the others
a message is refused. -/
theorem halts_of_reports_overflow :
    let j : Journal := ⟨⟨"chipvm", .error, false, false, 0, ⟨0, []⟩, #[]⟩, 2, by decide, []⟩
    let reports : List Report := [
      .halt 0x200 0x0000 "HALT_INSTRUCTION" "HLT", .reset,
      .halt 0x202 0x0000 "HALT_INSTRUCTION" "HLT", .halt 0x300 0x8008 "UNKNOWN_OPCODE" "??? 0x8008",
      .named "LOUD" "hello", .halt 0x204 0x00EE "STACK_UNDERFLOW" "RET"]
    create { threshold := "ERROR", stamped := false } 2 ⟨0, []⟩ = .ok j ∧
      (j.after reports).halts =
        [⟨0x300, 0x8008, "UNKNOWN_OPCODE"⟩, ⟨0x204, 0x00EE, "STACK_UNDERFLOW"⟩] ∧
      ((j.after reports).hear (.named "LOUD" "hello")).halts = (j.after reports).halts := by
  intro j reports
  have hlevel : Level.ofAnyCase? "ERROR" = some .error := by decide +kernel
  have hj : create { threshold := "ERROR", stamped := false } 2 ⟨0, []⟩ = .ok j :=
    create_eq_ok_iff.mpr ⟨Console.create_eq_ok_iff.mpr ⟨_, hlevel, rfl⟩, rfl, rfl⟩
  obtain ⟨-, hsuffix, hlength, -, hsame⟩ := halts_of_reports hj reports
  have htold : Report.haltsTold reports = [⟨0x202, 0x0000, "HALT_INSTRUCTION"⟩,
      ⟨0x300, 0x8008, "UNKNOWN_OPCODE"⟩, ⟨0x204, 0x00EE, "STACK_UNDERFLOW"⟩] := by decide +kernel
  refine ⟨hj, ?_, hsame (.named "LOUD" "hello") rfl (by decide)⟩
  rw [htold] at hsuffix hlength
  have hlength : (j.after reports).halts.length = 2 := Int.ofNat_inj.mp hlength
  rw [List.suffix_iff_eq_drop.mp hsuffix, hlength]
  rfl

end Journal

end Chip8
