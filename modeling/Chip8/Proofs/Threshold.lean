import Chip8.Proofs.HaltWindow

/-!
# What a threshold lets through

A report logs a message at a level (`Report.message?`), or none, if it names a level that does not
exist. A console writes the messages at or above its threshold, one line each, in order
(`Console.Wrote`), and unless lines are stamped a line depends on nothing that happened before it.
So a higher threshold only takes lines away: those of the levels below it
(`Console.linesOf_of_le`). Which reports are refused, and which halts are recorded, does not depend
on the threshold at all. `transcript_of_thresholds` puts this together for two journals that differ
in their thresholds.
-/
namespace Chip8

namespace Report

/-- The message that a report logs, and its level. -/
def message? : Report → Option (Level × String)
  | .message l text => some (l, text)
  | .named level text => (Level.ofName? level).map fun l => (l, text)
  | .programLoaded size source =>
    some (.info,
      "Loaded " ++ Int.repr size ++ " byte program" ++ Journal.origin source ++ " at 0x200")
  | .instruction pc word text =>
    some (.debug, "0x" ++ Hex.text 3 pc ++ ": " ++ Hex.text 4 word ++ "  " ++ text)
  | .halt pc word reason text =>
    some (if reason = "HALT_INSTRUCTION" then .info else .error,
      "Halted at 0x" ++ Hex.text 3 pc ++ " (" ++ Hex.text 4 word ++ " " ++ text ++ "): " ++ reason)
  | .reset => some (.debug, "Reset")

/-- The report is to be logged at a level that does not exist. -/
def Misnamed : Report → Prop
  | .named level _ => ∀ l : Level, l.name ≠ level
  | _ => False

end Report

/-! ## Consoles -/

namespace Console

variable {c d : Console} {messages : List (Level × String)}

/-- The lines that a console writes for messages, if it does not stamp them. -/
def linesOf (c : Console) (messages : List (Level × String)) : List LogLine :=
  (messages.filter fun m => c.admits m.1).map fun m => c.line m.1 m.2

theorem linesOf_append (c : Console) (messages : List (Level × String)) (l : Level)
    (text : String) :
    c.linesOf (messages ++ [(l, text)]) =
      c.linesOf messages ++ if c.admits l then [c.line l text] else [] := by
  rw [linesOf, List.filter_append, List.map_append]
  cases h : c.admits l <;> simp [h, linesOf]

/-- A line that is not stamped tells nothing of the time at which it was written. -/
theorem line_congr (hc : c.stamped = false) (hd : d.stamped = false) (hname : d.name = c.name)
    (hcoloured : d.coloured = c.coloured) (l : Level) (text : String) :
    d.line l text = c.line l text := by
  simp only [line, stamp, tag, hname, hcoloured, hc, hd, Bool.false_eq_true, if_false]

/-- The console `d` is the console `c` after it has written the lines of messages. -/
structure Wrote (c : Console) (messages : List (Level × String)) (d : Console) : Prop where
  same : d = { c with lines := d.lines }
  lines : d.lines.toList = c.linesOf messages

theorem Wrote.log (hc : c.stamped = false) (h : Wrote c messages d) (l : Level) (text : String) :
    Wrote c (messages ++ [(l, text)]) (d.log l text) := by
  have hd : d.stamped = false := by rw [h.same]; exact hc
  have hclock : (if d.stamped then d.clock.tick else d.clock) = d.clock := by rw [hd]; rfl
  have hadmits : d.admits l = c.admits l := by rw [h.same]; rfl
  have hline : d.line l text = c.line l text := by
    refine line_congr hc hd ?_ ?_ l text <;> rw [h.same]
  rw [Console.log, hadmits, hline, hclock]
  split
  case isTrue ha =>
    refine ⟨?_, ?_⟩
    · rw [h.same]
    · rw [Array.toList_push, h.lines, linesOf_append, if_pos ha]
  case isFalse ha =>
    refine ⟨h.same, ?_⟩
    rw [h.lines, linesOf_append, if_neg ha, List.append_nil]

/-- A console with a higher threshold writes the lines of the levels from there on, and no
others. -/
theorem linesOf_of_le (hc : c.stamped = false) (hd : d.stamped = false) (hname : d.name = c.name)
    (hcoloured : d.coloured = c.coloured) (hle : c.threshold.rank ≤ d.threshold.rank)
    (messages : List (Level × String)) :
    d.linesOf messages = (c.linesOf messages).filter fun l => d.threshold.rank ≤ l.level.rank := by
  have hadmits (m : Level × String) :
      d.admits m.1 = (decide (d.threshold.rank ≤ m.1.rank) && c.admits m.1) := by
    rw [admits, admits, ← Bool.decide_and]
    congr 1
    rw [eq_iff_iff]
    omega
  calc d.linesOf messages
      = (messages.filter fun m => d.admits m.1).map fun m => c.line m.1 m.2 := by
        simp only [linesOf, line_congr hc hd hname hcoloured]
    _ = (c.linesOf messages).filter fun l => d.threshold.rank ≤ l.level.rank := by
        rw [linesOf, List.filter_map, List.filter_filter]
        simp only [hadmits]
        rfl

end Console

/-! ## Journals -/

namespace Journal

variable {j : Journal}

theorem console_hear (j : Journal) (r : Report) :
    (j.hear r).console = r.message?.elim j.console fun m => j.console.log m.1 m.2 := by
  cases r with
  | named level text =>
    rw [hear_named, Report.message?]
    cases Level.ofName? level <;> rfl
  | _ => rfl

/-- A console that does not stamp its lines writes those of all messages it is told of. -/
theorem wrote_after (hj : j.console.stamped = false) (hlines : j.console.lines = #[])
    (reports : List Report) :
    j.console.Wrote (reports.filterMap Report.message?) (j.after reports).console := by
  have hstart : j.console.Wrote (([] : List Report).filterMap Report.message?) j.console :=
    ⟨rfl, by rw [hlines]; rfl⟩
  refine after_induction (P := fun past k => j.console.Wrote (past.filterMap Report.message?)
    k.console) (fun past k r h => ?_) reports hstart
  rw [console_hear, List.filterMap_append]
  cases hm : r.message? with
  | none => simpa [hm] using h
  | some m => simpa [hm] using h.log hj m.1 m.2

/-- The reports that are refused are those at a level that does not exist. -/
theorem tell_eq_error_iff (j : Journal) (r : Report) (e : Failure) :
    j.tell r = .error e ↔ r.Misnamed ∧ e = .level := by
  cases r with
  | named level text =>
    rw [Report.Misnamed, ← Level.ofName?_eq_none_iff]
    simp only [tell, Console.logNamed]
    cases Level.ofName? level <;> simp [Except.map, eq_comm]
  | _ => simp [tell, Report.Misnamed]

theorem hear_of_misnamed (j : Journal) {r : Report} (hr : r.Misnamed) : j.hear r = j := by
  rw [hear, (tell_eq_error_iff j r .level).mpr ⟨hr, rfl⟩]
  rfl

/-- **A higher threshold takes away the lines below it, and nothing else.** Two journals of the same
settings but for their thresholds, which do not stamp their lines, are told the same. What the one
with the higher threshold has written are the lines of the other at the levels from there on, in
their order. Both refuse the reports at a level that does not exist, and no others, and write
nothing for them. The halts that they hold are the same. -/
theorem transcript_of_thresholds {settings : ConsoleSettings} (hs : settings.stamped = false)
    {name name' : String} {low high : Level} (hlow : Level.ofAnyCase? name = some low)
    (hhigh : Level.ofAnyCase? name' = some high) (hle : low.rank ≤ high.rank) {capacity : Int}
    {clock clock' : Clock} {j j' : Journal}
    (hj : create { settings with threshold := name } capacity clock = .ok j)
    (hj' : create { settings with threshold := name' } capacity clock' = .ok j')
    (reports : List Report) :
    let k := j.after reports
    let k' := j'.after reports
    let lines := j.console.linesOf (reports.filterMap Report.message?)
    k.console.transcript = String.join (lines.map LogLine.text) ∧
    k'.console.transcript =
      String.join ((lines.filter fun l => high.rank ≤ l.level.rank).map LogLine.text) ∧
    (∀ r e, (k.tell r = .error e ↔ r.Misnamed ∧ e = .level) ∧
      (k'.tell r = .error e ↔ r.Misnamed ∧ e = .level)) ∧
    (∀ r : Report, r.Misnamed → k.hear r = k ∧ k'.hear r = k') ∧
    k'.halts = k.halts := by
  intro k k' lines
  obtain ⟨hconsole, hcapacity, hhalts⟩ := create_eq_ok_iff.mp hj
  obtain ⟨hconsole', hcapacity', hhalts'⟩ := create_eq_ok_iff.mp hj'
  obtain ⟨threshold, ht, hc⟩ := Console.create_eq_ok_iff.mp hconsole
  obtain ⟨threshold', ht', hc'⟩ := Console.create_eq_ok_iff.mp hconsole'
  obtain rfl := Option.some.inj (hlow.symm.trans ht)
  obtain rfl := Option.some.inj (hhigh.symm.trans ht')
  have hstamped : j.console.stamped = false := by rw [hc]; exact hs
  have hstamped' : j'.console.stamped = false := by rw [hc']; exact hs
  have hroom : j'.capacity = j.capacity := Int.ofNat_inj.mp (hcapacity'.trans hcapacity.symm)
  have hk := wrote_after hstamped (by rw [hc]) reports
  have hk' := wrote_after hstamped' (by rw [hc']) reports
  have hlines : j'.console.linesOf (reports.filterMap Report.message?) =
      lines.filter fun l => high.rank ≤ l.level.rank := by
    have hle : j.console.threshold.rank ≤ j'.console.threshold.rank := by rw [hc, hc']; exact hle
    rw [Console.linesOf_of_le hstamped hstamped' (by rw [hc, hc']) (by rw [hc, hc']) hle, hc']
  refine ⟨?_, ?_, fun r e => ⟨k.tell_eq_error_iff r e, k'.tell_eq_error_iff r e⟩,
    fun r hr => ⟨k.hear_of_misnamed hr, k'.hear_of_misnamed hr⟩, ?_⟩
  · rw [Console.transcript_eq_join, hk.lines]
  · rw [Console.transcript_eq_join, hk'.lines, hlines]
  · rw [halts_after hhalts, halts_after hhalts', hroom]

/-- Two journals that are told of a routine halt, of a level that does not exist, and of an
error. -/
theorem transcript_of_thresholds_error :
    let settings : ConsoleSettings := { coloured := false, stamped := false }
    let console : Console := ⟨"chipvm", .debug, false, false, 0, ⟨0, []⟩, #[]⟩
    let j : Journal := ⟨console, 1, by decide, []⟩
    let j' : Journal := ⟨{ console with threshold := .error }, 1, by decide, []⟩
    let reports : List Report := [
      .halt 0x202 0x0000 "HALT_INSTRUCTION" "HLT", .named "LOUD" "hello", .message .warning "low",
      .halt 0x300 0x8008 "UNKNOWN_OPCODE" "??? 0x8008"]
    Journal.create { settings with threshold := "debug" } 1 ⟨0, []⟩ = .ok j ∧
      Journal.create { settings with threshold := "Error" } 1 ⟨0, []⟩ = .ok j' ∧
      (j.after reports).console.transcript =
        "[    INFO][chipvm] Halted at 0x202 (0000 HLT): HALT_INSTRUCTION\n" ++
        "[ WARNING][chipvm] low\n" ++
        "[   ERROR][chipvm] Halted at 0x300 (8008 ??? 0x8008): UNKNOWN_OPCODE\n" ∧
      (j'.after reports).console.transcript =
        "[   ERROR][chipvm] Halted at 0x300 (8008 ??? 0x8008): UNKNOWN_OPCODE\n" ∧
      (j'.after reports).tell (.named "LOUD" "hello") = .error .level ∧
      (j'.after reports).halts = (j.after reports).halts := by
  intro settings console j j' reports
  have hlow : Level.ofAnyCase? "debug" = some .debug := by decide +kernel
  have hhigh : Level.ofAnyCase? "Error" = some .error := by decide +kernel
  have hj : Journal.create { settings with threshold := "debug" } 1 ⟨0, []⟩ = .ok j :=
    create_eq_ok_iff.mpr ⟨Console.create_eq_ok_iff.mpr ⟨_, hlow, rfl⟩, rfl, rfl⟩
  have hj' : Journal.create { settings with threshold := "Error" } 1 ⟨0, []⟩ = .ok j' :=
    create_eq_ok_iff.mpr ⟨Console.create_eq_ok_iff.mpr ⟨_, hhigh, rfl⟩, rfl, rfl⟩
  have hloud : (Report.named "LOUD" "hello").Misnamed := by
    intro l
    cases l <;> decide
  obtain ⟨hout, hout', herror, -, hhalts⟩ :=
    transcript_of_thresholds rfl hlow hhigh (by decide) hj hj' reports
  refine ⟨hj, hj', hout.trans ?_, hout'.trans ?_, (herror _ _).2.mpr ⟨hloud, rfl⟩, hhalts⟩
  · decide +kernel
  · decide +kernel

end Journal

end Chip8
