import Chip8.Proofs.Execute

/-!
# Histories

A script lists events, each with the source of random bytes that it is handled with. `play` takes a
machine through a script, and `history` tells what has happened to the machine on the way, deed by
deed: each word that it has executed, with the machine as it was before, and what was done to it
from outside. A halted machine executes nothing, so a step of it is no deed.

What a machine is like after a script is told by its history. `history_induction` says how to prove
such a fact: it must survive the execution of a word, and each event from outside. If the fact is
about sources of a kind, `history_induction_of` proves it for scripts with such sources. A fact that
is proved so holds on the way too: `history_before` finds it at every word that is executed. What
does not depend on the words that are executed can be told from the events alone
(`play_induction`).
-/
namespace Chip8

/-- Events, each with the source that it is handled with. -/
abbrev Script := List (ByteSource × Event)

/-- One thing that happens to a machine. -/
inductive Deed where
  /-- It executes a word; `before` is the machine before that. -/
  | executed (before : Machine) (word : Word)
  | outside (e : Event)
  deriving DecidableEq, Repr

/-- Nothing is executed in the event. -/
def Event.Outside : Event → Prop
  | .execute _ | .step | .steps _ => False
  | _ => True

namespace Machine

/-- The machine after the events of a script. -/
def play (m : Machine) (script : Script) : Machine :=
  script.foldl (fun m e => m.handle e.1 e.2) m

/-- What happens in a step. -/
def stepDeeds (m : Machine) : List Deed := if m.halted then [] else [.executed m m.fetch]

/-- What happens in an event. -/
def deeds (source : ByteSource) (m : Machine) : Event → List Deed
  | .execute w => [.executed m (BitVec.ofInt 16 w)]
  | .step => m.stepDeeds
  | .steps n => (List.range n).flatMap fun k => (m.steps source k).stepDeeds
  | e => [.outside e]

/-- What happens in the events of a script. -/
def history (m : Machine) : Script → List Deed
  | [] => []
  | e :: script => m.deeds e.1 e.2 ++ history (m.handle e.1 e.2) script

theorem stepDeeds_of_halted {m : Machine} (hm : m.halted = true) : m.stepDeeds = [] := if_pos hm

theorem stepDeeds_of_running {m : Machine} (hm : m.halted = false) :
    m.stepDeeds = [.executed m m.fetch] := if_neg (Bool.eq_false_iff.mp hm)

theorem deeds_of_outside {e : Event} (he : e.Outside) (source : ByteSource) (m : Machine) :
    m.deeds source e = [.outside e] := by
  cases e with
  | execute w | step | steps n => exact absurd he id
  | _ => rfl

/-- If nothing is executed in the events of a script, they are its history. -/
theorem history_of_outside {script : Script} (hs : ∀ e ∈ script, e.2.Outside) (m : Machine) :
    m.history script = script.map fun e => .outside e.2 := by
  induction script generalizing m with
  | nil => rfl
  | cons e script ih =>
    obtain ⟨he, hs⟩ := List.forall_mem_cons.mp hs
    rw [history, deeds_of_outside he, ih hs]
    rfl

theorem play_append (m : Machine) (script later : Script) :
    m.play (script ++ later) = (m.play script).play later := List.foldl_append

theorem history_append (m : Machine) (script later : Script) :
    m.history (script ++ later) = m.history script ++ (m.play script).history later := by
  induction script generalizing m with
  | nil => rfl
  | cons e script ih =>
    rw [List.cons_append, history, history, ih, List.append_assoc]
    rfl

section
variable {P : List Deed → Machine → Prop} {allowed : ByteSource → Prop}
  (execute : ∀ past m source w, allowed source → P past m →
    P (past ++ [.executed m w]) (m.execute source w))
  (outside : ∀ past m source e, allowed source → e.Outside → P past m →
    P (past ++ [.outside e]) (m.handle source e))
  {source : ByteSource} {past : List Deed} {m : Machine}

include execute

theorem step_induction (hs : allowed source) (h : P past m) :
    P (past ++ m.stepDeeds) (m.step source) := by
  unfold stepDeeds step
  split
  · rwa [List.append_nil]
  · exact execute past m source _ hs h

include outside

theorem deeds_induction (e : Event) (hs : allowed source) (h : P past m) :
    P (past ++ m.deeds source e) (m.handle source e) := by
  cases e with
  | execute w =>
    rw [handle_execute]
    exact execute past m source _ hs h
  | step => exact step_induction execute hs h
  | steps n =>
    change P (past ++ (List.range n).flatMap _) (m.steps source n)
    induction n with
    | zero =>
      rw [List.range_zero, List.flatMap_nil, List.append_nil]
      exact h
    | succ n ih =>
      rw [List.range_succ, List.flatMap_append, List.flatMap_singleton, ← List.append_assoc]
      exact step_induction execute hs ih
  | _ => exact outside past m source _ hs trivial h

variable (allowed) in
/-- What the execution of a word and every event from outside keep, of a machine and its past, if
they are handled with sources of a kind, holds after a script with such sources. -/
theorem history_induction_of (script : Script) (hs : ∀ e ∈ script, allowed e.1) (h : P past m) :
    P (past ++ m.history script) (m.play script) := by
  induction script generalizing past m with
  | nil => rwa [history, List.append_nil]
  | cons e script ih =>
    obtain ⟨he, hs⟩ := List.forall_mem_cons.mp hs
    rw [history, ← List.append_assoc]
    exact ih hs (deeds_induction execute outside e.2 he h)

end

/-- What the execution of a word and every event from outside keep, of a machine and its past, holds
after a script if it held before. -/
theorem history_induction {P : List Deed → Machine → Prop}
    (execute : ∀ past m source w, P past m → P (past ++ [.executed m w]) (m.execute source w))
    (outside : ∀ past m source e, e.Outside → P past m →
      P (past ++ [.outside e]) (m.handle source e))
    (script : Script) {past : List Deed} {m : Machine} (h : P past m) :
    P (past ++ m.history script) (m.play script) :=
  history_induction_of (fun _ => True) (fun past m source w _ => execute past m source w)
    (fun past m source e _ => outside past m source e) script (fun _ _ => trivial) h

/-- The fact is true of each machine that executes a word in a history, and of its past. -/
def Found (P : List Deed → Machine → Prop) (history : List Deed) : Prop :=
  ∀ past before w later, history = past ++ .executed before w :: later → P past before

theorem Found.append {P : List Deed → Machine → Prop} {past : List Deed} {d : Deed}
    (h : Found P past) (hd : ∀ m w, d = .executed m w → P past m) : Found P (past ++ [d]) := by
  intro earlier before w later hpast
  rcases List.eq_nil_or_concat later with rfl | ⟨between, last, rfl⟩
  · obtain ⟨rfl, hlast⟩ := List.append_inj' hpast rfl
    exact hd before w (List.singleton_inj.mp hlast)
  · rw [List.concat_eq_append, ← List.cons_append, ← List.append_assoc] at hpast
    exact h earlier before w between (List.append_inj' hpast rfl).1

/-- What the execution of a word and every event from outside keep, of a machine and its past, is
true of each machine that executes a word in a script. -/
theorem history_before {P : List Deed → Machine → Prop}
    (execute : ∀ past m source w, P past m → P (past ++ [.executed m w]) (m.execute source w))
    (outside : ∀ past m source e, e.Outside → P past m →
      P (past ++ [.outside e]) (m.handle source e))
    (script : Script) {m : Machine} (h : P [] m) : Found P (m.history script) := by
  have hstart : Found P [] := by
    intro past before w later hnil
    simp at hnil
  have hplay : P ([] ++ m.history script) (m.play script) ∧ Found P ([] ++ m.history script) := by
    refine history_induction (P := fun past m => P past m ∧ Found P past) ?_ ?_ script ⟨h, hstart⟩
    · rintro past m source w ⟨h, found⟩
      refine ⟨execute past m source w h, found.append ?_⟩
      rintro _ _ ⟨⟩
      exact h
    · rintro past m source e he ⟨h, found⟩
      exact ⟨outside past m source e he h, found.append nofun⟩
  exact hplay.2

/-- What every event keeps, of a machine and the events so far, holds after a script. -/
theorem play_induction {P : List Event → Machine → Prop}
    (handle : ∀ events m source e, P events m → P (events ++ [e]) (m.handle source e))
    (script : Script) {events : List Event} {m : Machine} (h : P events m) :
    P (events ++ script.map Prod.snd) (m.play script) := by
  induction script generalizing events m with
  | nil => simpa [play] using h
  | cons e script ih =>
    rw [List.map_cons, ← List.singleton_append, ← List.append_assoc]
    exact ih (handle events m e.1 e.2 h)

end Machine

end Chip8
