import Chip8.Proofs.HaltReport

/-!
# The trace of a session

A session tells each instruction to its journal before the machine executes it, if it is to trace.
Nothing of this comes back: what a session answers depends on its machine, its rates and the halts
in the journal (`Alike.reply`), and these do not depend on what is traced, on how the console writes
it or on how many halts there is room for (`Alike.after`).

What is written at the level of single instructions, by a console that admits it, is told by the
history of the machine (`Traces.after`): one line for each word that was executed, and one for each
reset (`Deed.messages`), with the text that such a line has (`debugText`). Words are executed by
running machines only, as they have fetched them (`fetched_history`). `trace_of_create` puts all
this together.
-/
namespace Chip8

/-! ## Sessions that differ in what they write -/

namespace Session

variable {s t : Session}

/-- Sessions with the same machine and setup that have told the same halts. -/
structure Alike (s t : Session) : Prop where
  machine : t.machine = s.machine
  setup : SameSetup s t
  halts : t.journal.halts = s.journal.halts

theorem Alike.run_snd (h : Alike s t) (n : Nat) : (t.run n).2 = (s.run n).2 := by
  obtain ⟨k, hk, hs⟩ := stepsTaken_runFrom 0 n s
  obtain ⟨k', hk', ht⟩ := stepsTaken_runFrom 0 n t
  rw [h.machine, h.setup.source] at ht
  rw [run, run, hk, hk', hs.unique ht]

theorem Alike.machine_run (h : Alike s t) (n : Nat) :
    (t.run n).1.machine = (s.run n).1.machine := by
  rw [Session.machine_run, Session.machine_run, h.machine, h.setup.source]

theorem settle_snd {α : Type} (s : Session) (x : Except Failure α) (f : α → Session × Reply) :
    (s.settle x f).2 = x.map fun a => (f a).2 := by
  cases x <;> rfl

/-- What a session answers is told by its machine, its setup and the halts it knows. -/
theorem Alike.reply (h : Alike s t) (c : Call) : (t.call c).2 = (s.call c).2 := by
  cases c with
  | load program => rw [call_load, call_load, settle_snd, settle_snd, h.machine]
  | loadFile name content =>
    rw [call_loadFile, call_loadFile]
    cases content with
    | error e => rfl
    | ok bytes =>
      dsimp only
      rw [settle_snd, settle_snd, h.machine]
  | step =>
    change Except.ok (Reply.status t.step.2) = .ok (.status s.step.2)
    rw [(stepped_step t).status, (stepped_step s).status, (stepped_step t).machine,
      (stepped_step s).machine, h.machine, h.setup.source]
  | run n => exact congrArg (Except.ok ∘ Reply.count) (h.run_snd n.toNat)
  | runShown n =>
    rw [call_runShown, call_runShown]
    split
    · exact congrArg (Except.ok ∘ Reply.count) (h.run_snd n.toNat)
    · rfl
  | runPeriod =>
    have hm := h.machine_run s.rates.perTick
    change Except.ok (Reply.status (t.run t.rates.perTick).1.machine.tick.status) =
      .ok (.status (s.run s.rates.perTick).1.machine.tick.status)
    rw [h.setup.rates, hm]
  | press k => rw [call_press, call_press, settle_snd, settle_snd]
  | release k => rw [call_release, call_release, settle_snd, settle_snd]
  | readMemory start length =>
    rw [call_readMemory, call_readMemory, settle_snd, settle_snd, h.machine]
  | dumpMemory start stop width =>
    rw [call_dumpMemory, call_dumpMemory, settle_snd, settle_snd, h.machine]
  | halts => exact congrArg (Except.ok ∘ Reply.halts) h.halts
  | table => exact congrArg (fun m : Machine => Except.ok (Reply.text m.core.table)) h.machine
  | sketch on off =>
    exact congrArg (fun m : Machine =>
      Except.ok (Reply.text (Sketch.ofPixels on off m.display.pixel))) h.machine
  | tick | reset => rfl

/-- Sessions that start alike, with the halts that their machine reports, stay alike. -/
theorem Alike.after (h : Alike s t) {past : List Deed} (hs : Reports past s) (calls : List Call) :
    Alike (s.after calls) (t.after calls) := by
  have ht : Reports past t := by rwa [Reports, h.machine, h.halts]
  have hm : (t.after calls).machine = (s.after calls).machine := by
    rw [machine_after, machine_after, h.machine, h.setup.script]
  have hs' := hs.after calls
  have ht' := ht.after calls
  rw [h.machine, h.setup.script, Reports, hm] at ht'
  obtain ⟨hsource, hrates⟩ := SameSetup.after s calls
  obtain ⟨hsource', hrates'⟩ := SameSetup.after t calls
  refine ⟨hm, ⟨?_, ?_⟩, Machine.Reported.unique ht' hs'⟩
  · rw [hsource, hsource', h.setup.source]
  · rw [hrates, hrates', h.setup.rates]

/-- Sessions with the same settings start alike, whether they are to trace or not. -/
theorem Alike.of_create {settings : SessionSettings} {trace : Bool} {journal journal' : Journal}
    (halts : journal.halts = []) (halts' : journal'.halts = [])
    (h : create settings journal = .ok s)
    (h' : create { settings with trace := trace } journal' = .ok t) :
    Alike s t ∧ Reports [] s := by
  obtain ⟨rates, hr, rfl⟩ := map_eq_ok h
  obtain ⟨rates', hr', rfl⟩ := map_eq_ok h'
  cases hr.symm.trans hr'
  refine ⟨⟨rfl, ⟨rfl, rfl⟩, halts'.trans halts.symm⟩, ?_⟩
  unfold Reports
  rw [halts]
  exact .none rfl

end Session

/-! ## Lines of a console -/

/-- The text of a line at the lowest level: the seconds since the opening if lines are stamped, the
level, in its colour if there are colours, the name of the console and the message. -/
def debugText (name : String) (coloured stamped : Bool) (elapsed : Float) (message : String) :
    String :=
  (if stamped then "[" ++ Fixed.text 8 2 elapsed ++ "s]" else "") ++
    (if coloured then "\x1b[36m[   DEBUG]\x1b[0m" else "[   DEBUG]") ++
    "[" ++ name ++ "] " ++ message ++ "\n"

namespace Console

variable {c d : Console} {texts : List String}

/-- What is written at the lowest level. -/
def debugLines (c : Console) : List String :=
  (c.lines.toList.filter fun l => l.level = .debug).map LogLine.text

theorem text_line (c : Console) (message : String) :
    (c.line .debug message).text =
      debugText c.name c.coloured c.stamped (c.clock.now - c.opened) message := by
  have htag : c.tag .debug = if c.coloured then "\x1b[36m[   DEBUG]\x1b[0m" else "[   DEBUG]" := by
    unfold tag
    cases c.coloured <;> decide +kernel
  rw [line, debugText, htag]
  rfl

/-- The console `d` is the console `c` at a later time, and the messages of its lines at the lowest
level are as given. Each was written at a reading of the clock. -/
structure Told (c : Console) (texts : List String) (d : Console) : Prop where
  same : d = { c with clock := d.clock, lines := d.lines }
  lines : ∃ told : List (Float × String), told.map Prod.snd = texts ∧
    d.debugLines = told.map fun (now, message) =>
      debugText c.name c.coloured c.stamped (now - c.opened) message

theorem Told.debug (hc : c.threshold = .debug) (h : Told c texts d) (text : String) :
    Told c (texts ++ [text]) (d.log .debug text) := by
  have hd : d.admits .debug = true := by
    rw [h.same]
    simp [admits, hc, Level.rank]
  have hline : (d.line .debug text).text =
      debugText c.name c.coloured c.stamped (d.clock.now - c.opened) text := by
    rw [text_line, h.same]
  obtain ⟨told, htexts, hlines⟩ := h.lines
  rw [log, if_pos hd]
  refine ⟨?_, told ++ [(d.clock.now, text)], ?_, ?_⟩
  · rw [h.same]
  · rw [List.map_append, htexts]
    rfl
  · rw [List.map_append, ← hlines, debugLines, Array.toList_push, List.filter_append,
      List.map_append]
    exact congrArg (d.debugLines ++ [·]) hline

theorem Told.other {l : Level} (hl : l ≠ .debug) (h : Told c texts d) (text : String) :
    Told c texts (d.log l text) := by
  unfold log
  split
  · obtain ⟨told, htexts, hlines⟩ := h.lines
    refine ⟨?_, told, htexts, ?_⟩
    · rw [h.same]
    · rw [← hlines, debugLines, Array.toList_push, List.filter_append]
      simp [line, hl, debugLines]
  · exact h

end Console

theorem Journal.console_create {settings : ConsoleSettings} {capacity : Int} {clock : Clock}
    {j : Journal} (h : create settings capacity clock = .ok j) :
    Console.create settings clock = .ok j.console := (create_eq_ok_iff.mp h).1

theorem Journal.haltLevel_ne (reason : String) : haltLevel reason ≠ .debug := by
  unfold haltLevel
  split <;> nofun

/-! ## Lines of a session that traces -/

/-- What the lines at the lowest level say of a deed. -/
def Deed.messages : Deed → List String
  | .executed before w =>
    ["0x" ++ Hex.text 3 before.core.pc.toNat ++ ": " ++ Hex.text 4 w.toNat ++ "  " ++ w.text]
  | .outside .reset => ["Reset"]
  | .outside _ => []

theorem Deed.messages_outside {e : Event} (he : e ≠ .reset) : messages (.outside e) = [] := by
  cases e with
  | reset => exact absurd rfl he
  | _ => rfl

/-- A word is executed that a running machine has fetched from where it was. -/
def Deed.Fetched : Deed → Prop
  | .executed before w => before.halted = false ∧ w = before.fetch
  | .outside _ => True

namespace Session

variable {s : Session} {console : Console} {past : List Deed}

/-- The session traces, and its console is the given one after it has written the messages of a
history. -/
structure Traces (console : Console) (past : List Deed) (s : Session) : Prop where
  trace : s.trace = true
  told : console.Told (past.flatMap Deed.messages) s.journal.console

theorem trace_advance (s : Session) : s.advance.1.trace = s.trace := by
  unfold advance
  dsimp only
  split <;> rfl

/-- A halt is reported at a higher level. -/
theorem told_advance {texts : List String} (h : console.Told texts s.journal.console) :
    console.Told texts s.advance.1.journal.console := by
  unfold advance
  dsimp only
  split
  · exact h.other (Journal.haltLevel_ne _) _
  · exact h

theorem Traces.step (hc : console.threshold = .debug) (h : Traces console past s) :
    Traces console (past ++ s.machine.stepDeeds) s.step.1 := by
  cases hm : s.machine.halted with
  | true => rwa [step_fst_of_halted hm, Machine.stepDeeds_of_halted hm, List.append_nil]
  | false =>
    have hstep : s.step.1 = s.reportNext.advance.1 := by
      rw [Session.step, if_neg (Bool.eq_false_iff.mp hm), if_pos h.trace]
    rw [hstep, Machine.stepDeeds_of_running hm]
    refine ⟨(trace_advance s.reportNext).trans h.trace, ?_⟩
    rw [List.flatMap_append]
    exact told_advance (h.told.debug hc _)

theorem Traces.reset (hc : console.threshold = .debug) (h : Traces console past s) :
    Traces console (past ++ [.outside .reset]) s.reset := by
  refine ⟨h.trace, ?_⟩
  rw [List.flatMap_append]
  exact h.told.debug hc _

/-- A loaded program is told at a higher level. -/
theorem Traces.quiet (h : Traces console past s) {c : Call} (hq : c.Quiet) :
    Traces console (past ++ s.machine.history (s.script [c])) (s.call c).1 := by
  have hout := s.outside_of_quiet hq
  have hmessages : (s.machine.history (s.script [c])).flatMap Deed.messages = [] := by
    rw [Machine.history_of_outside fun e he => (hout e he).1, List.flatMap_map]
    exact List.flatMap_eq_nil_iff.mpr fun e he => Deed.messages_outside (hout e he).2
  have hcall : Traces console past (s.call c).1 := by
    rcases s.informed_of_quiet hq with ht | ⟨text, ht⟩ <;> rw [ht]
    · exact ⟨h.trace, h.told⟩
    · exact ⟨h.trace, h.told.other (by decide) text⟩
  refine ⟨hcall.trace, ?_⟩
  rw [List.flatMap_append, hmessages, List.append_nil]
  exact hcall.told

theorem Traces.after (hc : console.threshold = .debug) (h : Traces console past s)
    (calls : List Call) :
    Traces console (past ++ s.machine.history (s.script calls)) (s.after calls) :=
  after_induction (fun _ _ h => h.step hc) (fun _ _ h => h.reset hc) (fun _ _ _ hq h => h.quiet hq)
    calls h

theorem traces_of_create {settings : SessionSettings} {journal : Journal}
    (h : create settings journal = .ok s) (ht : settings.trace = true)
    (hlines : journal.console.lines = #[]) : Traces journal.console [] s := by
  obtain ⟨rates, -, rfl⟩ := map_eq_ok h
  refine ⟨ht, ⟨rfl, [], rfl, ?_⟩⟩
  rw [Console.debugLines, hlines]
  rfl

/-- A session executes what its machine has fetched. -/
theorem fetched_history (s : Session) (calls : List Call) :
    ∀ d ∈ s.machine.history (s.script calls), d.Fetched := by
  have hstart : ∀ d ∈ ([] : List Deed), d.Fetched := nofun
  refine after_induction (P := fun past _ => ∀ d ∈ past, d.Fetched) (fun past s h => ?_)
    (fun past s h => ?_) (fun past s c hq h => ?_) calls hstart
  · refine List.forall_mem_append.mpr ⟨h, fun d hd => ?_⟩
    unfold Machine.stepDeeds at hd
    split at hd
    case isTrue => cases hd
    case isFalse hm =>
      rw [List.mem_singleton.mp hd]
      exact ⟨Bool.eq_false_iff.mpr hm, rfl⟩
  · exact List.forall_mem_append.mpr ⟨h, fun d hd => by rw [List.mem_singleton.mp hd]; trivial⟩
  · rw [Machine.history_of_outside fun e he => (s.outside_of_quiet hq e he).1]
    refine List.forall_mem_append.mpr ⟨h, fun d hd => ?_⟩
    obtain ⟨e, -, rfl⟩ := List.mem_map.mp hd
    trivial

/-- **The trace is the history, and changes nothing.** Two sessions that differ in whether they
trace and in their journals have the same machine after the same calls, and give the same answer to
the next. If one traces to a console that is open to the lowest level, what is written there at this
level has a line for each word that its machine has executed, in order, with the program counter,
the word and its text, and a line for each reset, and no other line. Each of these words was fetched
by a machine that was not halted. -/
theorem trace_of_create {console console' : ConsoleSettings} {capacity capacity' : Int}
    {clock clock' : Clock} {journal journal' : Journal}
    (hj : Journal.create console capacity clock = .ok journal)
    (hj' : Journal.create console' capacity' clock' = .ok journal')
    {settings : SessionSettings} {trace' : Bool} {s₀ t₀ : Session}
    (h : create settings journal = .ok s₀)
    (h' : create { settings with trace := trace' } journal' = .ok t₀) (calls : List Call) :
    let s := s₀.after calls
    let t := t₀.after calls
    let past := s₀.machine.history (s₀.script calls)
    t.machine = s.machine ∧ (∀ c, (t.call c).2 = (s.call c).2) ∧
    s.machine = s₀.machine.play (s₀.script calls) ∧
    (∀ d ∈ past, d.Fetched) ∧
    (settings.trace = true → Level.ofAnyCase? console.threshold = some .debug →
      ∃ told : List (Float × String), told.map Prod.snd = past.flatMap Deed.messages ∧
        s.journal.console.debugLines = told.map fun (now, message) =>
          debugText console.name (console.coloured && console.terminal) console.stamped
            (now - clock.now) message) := by
  intro s t past
  obtain ⟨halike, hreports⟩ :=
    Alike.of_create (Journal.halts_create hj) (Journal.halts_create hj') h h'
  have hafter : Alike s t := halike.after hreports calls
  refine ⟨hafter.machine, hafter.reply, machine_after s₀ calls, fetched_history s₀ calls,
    fun ht hlevel => ?_⟩
  obtain ⟨threshold, hthreshold, hconsole⟩ :=
    Console.create_eq_ok_iff.mp (Journal.console_create hj)
  obtain rfl : threshold = .debug := Option.some.inj (hthreshold.symm.trans hlevel)
  have hstart : Traces journal.console [] s₀ := traces_of_create h ht (by rw [hconsole])
  have htold := (hstart.after (by rw [hconsole]) calls).told.lines
  rwa [hconsole] at htold

/-- A session that traces, and one that does not and has a journal of its own, over a program of two
instructions that is run beyond its end and started again. -/
theorem trace_of_create_restart :
    let console : ConsoleSettings := { threshold := "debug", coloured := false, stamped := false }
    let journal : Journal :=
      { plainJournal with console := { plainJournal.console with threshold := .debug } }
    let s₀ : Session :=
      { machine := .create (.ofSeed 0), source := .constant 0, journal := journal
        trace := true, rates := ⟨700, 60, by decide, by decide⟩ }
    let calls : List Call := [.load [0x60, 0x05, 0x00, 0x00], .run 9, .step, .reset, .step]
    Journal.create console 1 ⟨0, []⟩ = .ok journal ∧
      create { source := .constant 0, trace := true } journal = .ok s₀ ∧
      (∃ journal' t₀, Journal.create {} 64 ⟨5, [7]⟩ = .ok journal' ∧
        create { source := .constant 0 } journal' = .ok t₀ ∧
        (t₀.after calls).machine = (s₀.after calls).machine) ∧
      (s₀.after calls).journal.console.debugLines = [
        "[   DEBUG][chipvm] 0x200: 6005  LD V0, 0x05\n",
        "[   DEBUG][chipvm] 0x202: 0000  HLT\n",
        "[   DEBUG][chipvm] Reset\n",
        "[   DEBUG][chipvm] 0x200: 6005  LD V0, 0x05\n"] := by
  intro console journal s₀ calls
  have hdebug : Level.ofAnyCase? "debug" = some .debug := by decide +kernel
  have hinfo : Level.ofAnyCase? "INFO" = some .info := by decide +kernel
  have hj : Journal.create console 1 ⟨0, []⟩ = .ok journal := by
    simp only [Journal.create, Console.create, console, hdebug]
    rfl
  have hj' : ∃ journal', Journal.create {} 64 ⟨5, [7]⟩ = .ok journal' := by
    simp only [Journal.create, Console.create, hinfo]
    exact ⟨_, rfl⟩
  obtain ⟨journal', hj'⟩ := hj'
  have h : create { source := .constant 0, trace := true } journal = .ok s₀ := rfl
  have h' : create { source := .constant 0 } journal' =
      .ok { s₀ with trace := false, journal := journal' } := rfl
  obtain ⟨hm, -, -, -, htold⟩ := trace_of_create hj hj' h h' calls
  obtain ⟨told, htexts, hlines⟩ := htold rfl hdebug
  refine ⟨hj, h, ⟨journal', _, hj', h', hm⟩, ?_⟩
  -- lines that are not stamped are told by their messages
  have hplain : (s₀.after calls).journal.console.debugLines =
      (told.map Prod.snd).map fun message => "[   DEBUG][chipvm] " ++ message ++ "\n" := by
    rw [hlines, List.map_map]
    rfl
  rw [hplain, htexts]
  decide +kernel

end Session

end Chip8
