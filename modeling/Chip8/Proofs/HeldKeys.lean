import Chip8.Proofs.Execute
import Chip8.Proofs.History
import Chip8.Proofs.KeyWait
import Chip8.Proofs.Pieces
import Chip8.Proofs.Run

/-!
# The keys that are held

Keys are pressed and released from outside, and nothing that a machine executes changes which of
them are held. So the events alone tell it: a key is held if the last thing that happened to it
since the last reset is that it was pressed (`Event.Held`). Numbers that agree modulo 16 are one
key.

`Tracks` says so of a machine and the events it has been through, and every event keeps it
(`Tracks.handle`). What happened to one key does not depend on what happened to another in between,
so the order of events of different keys does not matter; `keys_of_play` states all this of any run.
-/
namespace Chip8

theorem Key.ofInt_eq_iff (k j : Int) : BitVec.ofInt 4 k = BitVec.ofInt 4 j ↔ k % 16 = j % 16 := by
  rw [← BitVec.toNat_inj, Key.toNat_ofInt, Key.toNat_ofInt]
  omega

theorem Key.ofInt_toNat (k : Key) : BitVec.ofInt 4 k.toNat = k := by
  rw [BitVec.ofInt_natCast, BitVec.ofNat_toNat, BitVec.setWidth_eq]

namespace Event

/-- What an event does to the key of a number, if anything: press it or release it. -/
def switch? (k : Int) : Event → Option Bool
  | .press j => if k % 16 = j % 16 then some true else none
  | .release j => if k % 16 = j % 16 then some false else none
  | _ => none

/-- What happened to a key since the last reset, in order. -/
def switches (k : Int) (events : List Event) : List Bool :=
  (since (· = .reset) events).filterMap (switch? k)

/-- Since the last reset the key was pressed, and not released after that. -/
def Held (events : List Event) (k : Int) : Prop := (switches k events).getLast? = some true

/-- Numbers that agree modulo 16 are one key. -/
theorem switches_emod (k : Int) (events : List Event) :
    switches (k % 16) events = switches k events := by
  unfold switches
  congr 1
  funext e
  cases e <;> simp [switch?]

theorem switches_reset (k : Int) (events : List Event) : switches k (events ++ [.reset]) = [] := by
  simp [switches, since_append]

theorem getLast?_switches (k : Int) (events : List Event) {e : Event} (he : e ≠ .reset) :
    (switches k (events ++ [e])).getLast? = (e.switch? k).or (switches k events).getLast? := by
  rw [switches, since_append, if_neg (by simpa using he), List.filterMap_append,
    List.getLast?_append]
  cases hs : e.switch? k <;> simp [hs, switches]

end Event

namespace Machine

variable {events : List Event} {m : Machine}

/-! ## What a machine does -/

theorem handle_keys (source : ByteSource) (m : Machine) (e : Event) :
    (m.handle source e).core.keys =
      match e with
      | .press k => m.core.keys.press (BitVec.ofInt 4 k)
      | .release k => m.core.keys.release (BitVec.ofInt 4 k)
      | .reset => 0
      | _ => m.core.keys := by
  have step (m : Machine) : (m.step source).core.keys = m.core.keys := by
    unfold step
    split
    · rfl
    · exact m.execute_keys source _
  cases e with
  | execute w =>
    rw [handle_execute]
    exact m.execute_keys source _
  | step => exact step m
  | steps n =>
    exact steps_invariant (P := fun n => n.core.keys = m.core.keys)
      (fun n h => (step n).trans h) n rfl
  | press k =>
    change (m.press _).core.keys = _
    rw [press_eq]
  | load program => rw [load_eq]
  | release k | tick | reset => rfl

/-- The keys that are down are those that the events leave held. -/
def Tracks (events : List Event) (m : Machine) : Prop :=
  ∀ k : Int, m.core.keys.isDown (BitVec.ofInt 4 k) =
    (Event.switches k events).getLast?.getD false

theorem Tracks.handle (h : Tracks events m) (source : ByteSource) (e : Event) :
    Tracks (events ++ [e]) (m.handle source e) := by
  intro k
  by_cases he : e = .reset
  · rw [he, Event.switches_reset]
    exact Keypad.isDown_zero _
  rw [handle_keys, Event.getLast?_switches k events he]
  cases e with
  | reset => exact absurd rfl he
  | press j =>
    refine (Keypad.isDown_press ..).trans ?_
    rw [h k, Event.switch?]
    by_cases hj : k % 16 = j % 16 <;> simp [Key.ofInt_eq_iff, hj]
  | release j =>
    refine (Keypad.isDown_release ..).trans ?_
    rw [h k, Event.switch?]
    by_cases hj : k % 16 = j % 16 <;> simp [Key.ofInt_eq_iff, hj]
  | _ => exact h k

/-! ## Runs -/

theorem tracks_play (key : RandomKey) (script : Script) :
    Tracks (script.map Prod.snd) ((create key).play script) := by
  have hstart : Tracks [] (create key) := fun k => Keypad.isDown_zero _
  exact play_induction (fun _ _ source e h => h.handle source e) script hstart

theorem Tracks.isDown_iff (h : Tracks events m) (k : Int) :
    m.core.keys.isDown (BitVec.ofInt 4 k) = true ↔ Event.Held events k := by
  rw [h k, Event.Held]
  rcases (Event.switches k events).getLast? with _ | _ | _ <;> simp

/-- **The keypad is the set of held keys.** After any events in any order, a key is down exactly if
the last thing that happened to it since the last reset is that it was pressed. Some key is down if
there is such a key, and then the first that is down is the one with the lowest number; if there is
none, it is given as the key 0. Two runs end with the same keys down if, since their last resets,
the same has happened to each key in the same order. So the events of different keys may come in
any order, with anything else between them. -/
theorem keys_of_play (key : RandomKey) (script : Script) :
    let events := script.map Prod.snd
    let keys := ((create key).play script).core.keys
    (∀ k : Int, keys.isDown (BitVec.ofInt 4 k) = true ↔ Event.Held events k) ∧
    (keys.anyDown = true ↔ ∃ k, Event.Held events k) ∧
    (∀ k, Event.Held events k →
      Event.Held events keys.first.toNat ∧ (keys.first.toNat : Int) ≤ k % 16) ∧
    ((∀ k, ¬ Event.Held events k) → keys.first = 0) ∧
    ∀ (key' : RandomKey) (script' : Script),
      (∀ k, Event.switches k (script'.map Prod.snd) = Event.switches k events) →
      ((create key').play script').core.keys = keys := by
  intro events keys
  have htracks : Tracks events ((create key).play script) := tracks_play key script
  have hdown : ∀ k : Int, keys.isDown (BitVec.ofInt 4 k) = true ↔ Event.Held events k :=
    htracks.isDown_iff
  have hany : keys.anyDown = true ↔ ∃ k, Event.Held events k := by
    rw [Keypad.anyDown_iff]
    constructor
    · rintro ⟨k, hk⟩
      exact ⟨k.toNat, (hdown _).mp (by rwa [Key.ofInt_toNat])⟩
    · rintro ⟨k, hk⟩
      exact ⟨_, (hdown k).mpr hk⟩
  refine ⟨hdown, hany, fun k hk => ?_, fun hnone => ?_, fun key' script' h => ?_⟩
  · obtain ⟨hfirst, hle⟩ := Keypad.isDown_first ((hdown k).mpr hk)
    refine ⟨(hdown _).mp (by rwa [Key.ofInt_toNat]), ?_⟩
    rw [BitVec.le_def, Key.toNat_ofInt] at hle
    omega
  · have hzero : keys = 0 := by
      refine Keypad.ext fun k => ?_
      have hk : ¬ keys.isDown k = true := by
        rw [← Key.ofInt_toNat k, hdown]
        exact hnone k.toNat
      rw [Bool.eq_false_iff.mpr hk]
      exact (Keypad.isDown_zero k).symm
    rw [hzero, Keypad.first_zero]
  · have htracks' := tracks_play key' script'
    refine Keypad.ext fun k => ?_
    rw [← Key.ofInt_toNat k, htracks' _, h, ← htracks _]

/-- A wait for a key, and keys under many numbers: 21, 37 and 5 are one, -7 and 9 another. In the
second run the same events come in another order, and the wait gets another key. -/
theorem keys_of_play_reordered :
    let events : List Event :=
      [.press 5, .reset, .execute 0xF20A, .press 21, .press (-7), .tick, .release 37, .press 2]
    let events' : List Event :=
      [.reset, .execute 0xF20A, .press (-7), .press 21, .press 2, .release 37, .tick]
    let m := (create ⟨0, 0⟩).play (events.map (.constant 0, ·))
    let m' := (create ⟨0, 0⟩).play (events'.map (.constant 0, ·))
    (∀ k, Event.switches k events' = Event.switches k events) ∧
      m.core.registers ≠ m'.core.registers ∧ m'.core.keys = m.core.keys ∧
      Event.Held events 9 ∧ m.core.keys.anyDown = true ∧ m.core.keys.first.toNat ≤ 9 := by
  intro events events' m m'
  obtain ⟨-, hany, hfirst, -, hsame⟩ :=
    keys_of_play ⟨0, 0⟩ (events.map (ByteSource.constant 0, ·))
  have hevents : (events.map (ByteSource.constant 0, ·)).map Prod.snd = events := rfl
  have hevents' : (events'.map (ByteSource.constant 0, ·)).map Prod.snd = events' := rfl
  rw [hevents] at hany hfirst hsame
  have hswitches : ∀ k, Event.switches k events' = Event.switches k events := by
    intro k
    have hsixteen : ∀ r < 16, Event.switches (r : Nat) events' = Event.switches r events := by
      decide
    rw [← Event.switches_emod, ← Event.switches_emod k events]
    obtain ⟨r, hr⟩ := Int.eq_ofNat_of_zero_le (Int.emod_nonneg k (by decide : (16 : Int) ≠ 0))
    rw [hr]
    exact hsixteen r (by omega)
  have hheld : Event.Held events 9 := by unfold Event.Held; decide
  have hle : (m.core.keys.first.toNat : Int) ≤ 9 % 16 := (hfirst 9 hheld).2
  exact ⟨hswitches, by decide +kernel, hsame ⟨0, 0⟩ _ (by rwa [hevents']), hheld,
    hany.mpr ⟨9, hheld⟩, by omega⟩

end Machine

end Chip8
