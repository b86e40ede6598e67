import Chip8.Proofs.Effect
import Chip8.Proofs.History
import Chip8.Proofs.Pattern
import Chip8.Proofs.Run

/-!
# Random draws

The only words that draw a random byte are those of the family `0xC` (`Deed.draws`). Each of them
asks the source once, with the key that the machine holds, and leaves the machine with the next key;
nothing else that happens to a machine touches the key, a reset included. So the key of a machine
counts its draws, and each draw gives the byte of its place in the sequence (`Drawn`).

As long as nothing is drawn, the key does not matter: machines that differ in their keys alone go
on to do so (`reseed_run`), whatever their sources are. `rng_of_run` puts the two together.
-/
namespace Chip8

/-- The deed is a word that draws a random byte. -/
def Deed.draws : Deed → Bool
  | .executed _ w => w.family = 0xC
  | .outside _ => false

namespace Word

variable {w : Word}

theorem instruction_of_family (hf : w.family = 0xC) : w.instruction = .random w.x w.nn := by
  exact instruction_of_encodes ⟨hf, rfl, rfl⟩

theorem family_of_random {x : Register} {mask : Byte} (hi : w.instruction = .random x mask) :
    w.family = 0xC := by
  have h := encodes_instruction w
  rw [hi] at h
  exact h.1

end Word

theorem ByteSource.advance_succ (source : ByteSource) (n : Nat) (key : RandomKey) :
    source.advance (n + 1) key = (source (source.advance n key)).1 := rfl

namespace Machine

variable {source source' : ByteSource} {m : Machine} {past : List Deed} {key : RandomKey}

/-! ## Where the key goes -/

theorem execute_rng (source : ByteSource) (m : Machine) (w : Word) :
    (m.execute source w).rng = if w.family = 0xC then (source m.rng).1 else m.rng := by
  rw [execute_eq]
  refine (perform_rng source m.advanced _).trans ?_
  split
  case h_1 hi =>
    rw [if_pos (Word.family_of_random hi)]
    rfl
  case h_2 hi =>
    rw [if_neg fun hf => hi _ _ (Word.instruction_of_family hf)]
    rfl

/-- A draw loads the byte that the source gives for the key, under the mask. -/
theorem registers_of_draw {w : Word} (hf : w.family = 0xC) :
    (m.execute source w).core.registers =
      m.core.registers.set w.x ((source m.rng).2 &&& w.nn) := by
  rw [execute_eq, Word.instruction_of_family hf]
  exact perform_registers source m.advanced _

theorem rng_of_outside {e : Event} (he : e.Outside) : (m.handle source e).rng = m.rng := by
  cases e with
  | press k =>
    change (m.press _).rng = _
    rw [press_eq]
  | load program => rw [load_eq]
  | release k | tick | reset => rfl
  | _ => exact absurd he id

/-- What the history of a machine and its key have to do with each other: the key has advanced once
with each draw, and each draw has found it as the earlier ones had left it. -/
structure Drawn (source : ByteSource) (key : RandomKey) (past : List Deed) (m : Machine) :
    Prop where
  rng : m.rng = source.advance (past.filter Deed.draws).length key
  draw : ∀ j before w, (past.filter Deed.draws)[j]? = some (.executed before w) →
    before.rng = source.advance j key

theorem Drawn.execute (h : Drawn source key past m) (w : Word) :
    Drawn source key (past ++ [.executed m w]) (m.execute source w) := by
  obtain ⟨hrng, hdraw⟩ := h
  by_cases hf : w.family = 0xC
  case neg =>
    have hskip : (past ++ [Deed.executed m w]).filter Deed.draws = past.filter Deed.draws := by
      simpa [Deed.draws] using hf
    refine ⟨?_, by rwa [hskip]⟩
    rw [execute_rng, if_neg hf, hskip, hrng]
  case pos =>
    have htake : (past ++ [Deed.executed m w]).filter Deed.draws =
        past.filter Deed.draws ++ [.executed m w] := by
      simpa [Deed.draws] using hf
    refine ⟨?_, fun j before v hj => ?_⟩
    · rw [execute_rng, if_pos hf, htake, hrng, List.length_append, List.length_singleton,
        ByteSource.advance_succ]
    · rw [htake, List.getElem?_append] at hj
      split at hj
      case isTrue => exact hdraw j before v hj
      case isFalse hlast =>
        -- the draw that was just made
        obtain ⟨hzero, hdeed⟩ := List.getElem?_eq_some_iff.mp hj
        have hlen : j = (past.filter Deed.draws).length := by simp at hzero; omega
        simp only [List.getElem_singleton, Deed.executed.injEq] at hdeed
        rw [← hdeed.1, hlen, hrng]

theorem Drawn.outside (h : Drawn source key past m) {e : Event} (he : e.Outside) :
    Drawn source key (past ++ [.outside e]) (m.handle source e) := by
  have hskip : (past ++ [Deed.outside e]).filter Deed.draws = past.filter Deed.draws := by
    simp [Deed.draws]
  exact ⟨by rw [rng_of_outside he, hskip, h.rng], by rw [hskip]; exact h.draw⟩

theorem play_map (source : ByteSource) (m : Machine) (events : List Event) :
    m.play (events.map (source, ·)) = m.run source events := List.foldl_map

theorem Drawn.run (h : Drawn source key past m) (events : List Event) :
    Drawn source key (past ++ m.history (events.map (source, ·))) (m.run source events) := by
  rw [← play_map]
  refine history_induction_of (· = source) ?_ ?_ _ ?_ h
  · rintro past m _ w rfl h
    exact h.execute w
  · rintro past m _ e rfl he h
    exact h.outside he
  · simp

/-! ## Machines with different keys -/

/-- The machine with another key. -/
def reseed (key : RandomKey) (m : Machine) : Machine := { m with rng := key }

variable (source') (key)

theorem reseed_perform {i : Instruction} (hi : ∀ x mask, i ≠ .random x mask) :
    (perform source m i).reseed key = perform source' (m.reseed key) i := by
  cases i with
  | random x mask => exact absurd rfl (hi x mask)
  | call target =>
    rw [perform_call, perform_call]
    exact apply_ite (reseed key) ..
  | returnFromCall =>
    rw [perform_returnFromCall, perform_returnFromCall]
    exact apply_ite (reseed key) ..
  | skipIf condition =>
    rw [perform_skipIf, perform_skipIf]
    rfl
  | awaitKey x =>
    rw [perform_awaitKey, perform_awaitKey]
    rfl
  | combine op x y => cases op <;> rfl
  | shift op x => cases op <;> rfl
  | loadRegisters =>
    rw [perform_loadRegisters, perform_loadRegisters]
    rfl
  | _ => rfl

theorem reseed_execute {w : Word} (hf : w.family ≠ 0xC) :
    (m.execute source w).reseed key = (m.reseed key).execute source' w := by
  have h : perform source' (m.reseed key).advanced w.instruction =
      (perform source m.advanced w.instruction).reseed key :=
    (reseed_perform (m := m.advanced) source' key fun _ _ hi =>
      hf (Word.family_of_random hi)).symm
  rw [execute_eq, execute_eq, h]
  rfl

theorem reseed_step (h : ∀ d ∈ m.stepDeeds, d.draws = false) :
    (m.step source).reseed key = (m.reseed key).step source' := by
  cases hm : m.halted with
  | true => exact (congrArg (reseed key) (if_pos hm)).trans (if_pos hm).symm
  | false =>
    have hrunning : (m.reseed key).halted = false := hm
    rw [stepDeeds_of_running hm, List.forall_mem_singleton] at h
    rw [step_of_running hm, step_of_running hrunning]
    exact reseed_execute source' key (w := m.fetch) (by simpa [Deed.draws] using h)

theorem reseed_steps {n : Nat} (h : ∀ d ∈ m.deeds source (.steps n), d.draws = false) :
    (m.steps source n).reseed key = (m.reseed key).steps source' n := by
  induction n with
  | zero => rfl
  | succ n ih =>
    simp only [deeds, List.range_succ, List.flatMap_append, List.flatMap_singleton,
      List.forall_mem_append] at h
    exact (reseed_step source' key h.2).trans (congrArg (step source') (ih h.1))

theorem reseed_handle {e : Event} (h : ∀ d ∈ m.deeds source e, d.draws = false) :
    (m.handle source e).reseed key = (m.reseed key).handle source' e := by
  cases e with
  | execute w =>
    rw [handle_execute, handle_execute]
    exact reseed_execute source' key (by simpa [deeds, Deed.draws] using h)
  | step => exact reseed_step source' key h
  | steps n => exact reseed_steps source' key h
  | press k =>
    change (m.press _).reseed key = (m.reseed key).press _
    rw [press_eq, press_eq]
    rfl
  | load program =>
    change ((m.load program).toOption.getD m).reseed key =
      ((m.reseed key).load program).toOption.getD _
    unfold load
    cases Program.check program <;> rfl
  | release k | tick | reset => rfl

/-- As long as nothing is drawn, machines that differ in their keys alone go on to do so. -/
theorem reseed_run {events : List Event}
    (h : ∀ d ∈ m.history (events.map (source, ·)), d.draws = false) :
    (m.run source events).reseed key = (m.reseed key).run source' events := by
  induction events generalizing m with
  | nil => rfl
  | cons e events ih =>
    rw [List.map_cons, history, List.forall_mem_append] at h
    change ((m.handle source e).run source events).reseed key =
      ((m.reseed key).handle source' e).run source' events
    rw [ih h.2, reseed_handle source' key h.1]

/-- **Random bytes are neither lost nor repeated.** A new machine goes through any events with one
source. Its key has then advanced once for each word of the family `0xC` that was executed, across
resets, and the `j`-th of them, counted from zero, has found the key advanced `j` times and loaded
the byte that the source gives for it, under the mask of the word. And whatever the machine: as long
as no such word is executed, with another key and another source all goes the same way, and the two
machines differ in the key alone. -/
theorem rng_of_run (source : ByteSource) (key : RandomKey) (events : List Event) :
    let m := (create key).run source events
    let draws := ((create key).history (events.map (source, ·))).filter Deed.draws
    m.rng = source.advance draws.length key ∧
    (∀ j before w, draws[j]? = some (.executed before w) →
      before.rng = source.advance j key ∧
      (before.execute source w).core.registers =
        before.core.registers.set w.x ((source (source.advance j key)).2 &&& w.nn)) ∧
    ∀ (start : Machine) (other : RandomKey) (source' : ByteSource),
      (∀ d ∈ start.history (events.map (source, ·)), d.draws = false) →
      { start with rng := other }.run source' events =
        { start.run source events with rng := other } := by
  intro m draws
  have hstart : Drawn source key [] (create key) := ⟨rfl, nofun⟩
  obtain ⟨hrng, hdraw⟩ := hstart.run events
  refine ⟨hrng, fun j before w hj => ?_, fun start other source' h => ?_⟩
  · have hkey : before.rng = source.advance j key := hdraw j before w hj
    have hmem : Deed.executed before w ∈ draws := List.mem_of_getElem? hj
    have hf : w.family = 0xC := by simpa [Deed.draws] using (List.mem_filter.mp hmem).2
    exact ⟨hkey, by rw [registers_of_draw hf, hkey]⟩
  · exact (reseed_run source' other h).symm

/-- Two draws, a wait for a key and a reset, and the third draw goes on with the third byte of the
key. A program without draws ends the same with another key. -/
theorem rng_of_run_reset :
    let key : RandomKey := ⟨0, 0x04030201⟩
    let earlier : List Event :=
      [.load [0xC1, 0x0F, 0xC2, 0xFF, 0xF3, 0x0A], .steps 4, .press 5, .reset]
    let before := (create key).run .rotating earlier
    let past := (create key).history ((earlier ++ [Event.step]).map (ByteSource.rotating, ·))
    let quiet : List Event := [.load [0x61, 0x0F, 0xF3, 0x0A], .steps 4, .press 5, .reset, .step]
    (past.filter Deed.draws)[2]? = some (.executed before 0xC10F) ∧
      before.rng = ⟨0, 0x02010403⟩ ∧
      (before.execute .rotating 0xC10F).core.registers = before.core.registers.set 1 0x03 ∧
      (∀ d ∈ (create key).history (quiet.map (ByteSource.rotating, ·)), d.draws = false) ∧
      { create key with rng := ⟨7, 7⟩ }.run (.constant 9) quiet =
        { (create key).run .rotating quiet with rng := ⟨7, 7⟩ } := by
  intro key earlier before past quiet
  have hbefore : (past.filter Deed.draws)[2]? = some (.executed before 0xC10F) := by
    have hlen : (((create key).history (earlier.map (ByteSource.rotating, ·))).filter
        Deed.draws).length = 2 := by decide +kernel
    have hlast : before.stepDeeds = [.executed before 0xC10F] := by
      have hfetch : before.fetch = 0xC10F := by decide +kernel
      rw [stepDeeds_of_running (by decide +kernel), hfetch]
    have hpast : past =
        (create key).history (earlier.map (ByteSource.rotating, ·)) ++ before.stepDeeds := by
      simp only [past, List.map_append, history_append, play_map, before]
      simp [history, deeds]
    rw [hpast, hlast, List.filter_append, List.getElem?_append_right (by omega), hlen]
    rfl
  have hquiet :
      ∀ d ∈ (create key).history (quiet.map (ByteSource.rotating, ·)), d.draws = false := by
    decide +kernel
  obtain ⟨-, hdraw, -⟩ := rng_of_run .rotating key (earlier ++ [Event.step])
  obtain ⟨-, -, hsame⟩ := rng_of_run .rotating key quiet
  obtain ⟨hkey, hload⟩ := hdraw 2 before 0xC10F hbefore
  have hthird : ByteSource.rotating.advance 2 key = ⟨0, 0x02010403⟩ := by decide +kernel
  have hbyte : (ByteSource.rotating ⟨0, 0x02010403⟩).2 &&& Word.nn 0xC10F = 0x03 := by
    decide +kernel
  have hx : Word.x 0xC10F = 1 := by decide +kernel
  rw [hthird] at hkey
  rw [hthird, hbyte, hx] at hload
  exact ⟨hbefore, hkey, hload, hquiet, hsame (create key) ⟨7, 7⟩ (.constant 9) hquiet⟩

end Machine

end Chip8
