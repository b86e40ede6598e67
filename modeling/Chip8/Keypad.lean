import Chip8.Word

/-!
# Keypad

Sixteen keys; bit `k` of the mask tells whether key `k` is held. A keypad is the set of its held
keys (`ext`), which `isDown_press` and `isDown_release` describe after each change.
-/
namespace Chip8

abbrev Keypad := BitVec 16

namespace Keypad

/-- The keypad with a key held (`press_key`). -/
def press (keys : Keypad) (k : Key) : Keypad := keys ||| BitVec.twoPow 16 k.toNat

/-- The keypad with a key let go (`release_key`). -/
def release (keys : Keypad) (k : Key) : Keypad := keys &&& ~~~BitVec.twoPow 16 k.toNat

/-- Whether a key is held (`is_key_down`). -/
def isDown (keys : Keypad) (k : Key) : Bool := keys.getLsbD k.toNat

/-- Whether any key is held (`any_key_down`). -/
def anyDown (keys : Keypad) : Bool := keys ≠ 0

/-- The held key with the lowest number. -/
def lowest? (keys : Keypad) : Option Key :=
  ((List.range 16).find? keys.getLsbD).map (BitVec.ofNat 4)

/-- The held key with the lowest number, or the key 0 if none is held (`first_key_down`). -/
def first (keys : Keypad) : Key := keys.lowest?.getD 0

@[simp] theorem isDown_press (keys : Keypad) (k l : Key) :
    (keys.press k).isDown l = (keys.isDown l || decide (l = k)) := by
  have hk := k.isLt
  simp only [isDown, press, BitVec.getLsbD_or, BitVec.getLsbD_twoPow, ← BitVec.toNat_inj]
  congr 1
  rw [Bool.eq_iff_iff]
  simp only [Bool.and_eq_true, decide_eq_true_eq]
  omega

@[simp] theorem isDown_release (keys : Keypad) (k l : Key) :
    (keys.release k).isDown l = (keys.isDown l && decide (l ≠ k)) := by
  have hl := l.isLt
  simp only [isDown, release, BitVec.getLsbD_and, BitVec.getLsbD_not, BitVec.getLsbD_twoPow]
  congr 1
  rw [Bool.eq_iff_iff]
  simp [← BitVec.toNat_inj]
  omega

@[simp] theorem isDown_zero (k : Key) : isDown 0#16 k = false := by simp [isDown]

/-- A keypad is determined by the keys that are down. -/
theorem ext {keys others : Keypad} (h : ∀ k, isDown keys k = isDown others k) :
    keys = others := by
  apply BitVec.eq_of_getLsbD_eq
  intro i hi
  simpa [isDown, Nat.mod_eq_of_lt hi] using h (BitVec.ofNat 4 i)

theorem anyDown_iff (keys : Keypad) : keys.anyDown ↔ ∃ k, keys.isDown k := by
  simp only [anyDown, decide_eq_true_eq]
  constructor
  · intro h
    apply Classical.byContradiction
    intro hn
    exact h (ext fun k => by simpa using fun hk => hn ⟨k, hk⟩ : keys = 0#16)
  · rintro ⟨k, hk⟩ rfl
    simp at hk

theorem lowest?_eq_some_iff (keys : Keypad) (k : Key) :
    keys.lowest? = some k ↔ keys.isDown k ∧ ∀ l < k, keys.isDown l = false := by
  simp only [lowest?, Option.map_eq_some_iff, List.find?_range_eq_some, List.mem_range, isDown]
  constructor
  · rintro ⟨i, ⟨hi, hlt, hmin⟩, rfl⟩
    have e : (BitVec.ofNat 4 i).toNat = i := by simp [Nat.mod_eq_of_lt hlt]
    refine ⟨by rw [e]; exact hi, fun l hl => ?_⟩
    have : l.toNat < i := by simpa [BitVec.lt_def, e] using hl
    simpa using hmin l.toNat this
  · rintro ⟨hk, hmin⟩
    refine ⟨k.toNat, ⟨hk, k.isLt, fun j hj => ?_⟩, by simp⟩
    have hj' : j < 16 := by have := k.isLt; omega
    have := hmin (BitVec.ofNat 4 j) (by simp [BitVec.lt_def, Nat.mod_eq_of_lt hj', hj])
    simpa [Nat.mod_eq_of_lt hj'] using this

theorem lowest?_eq_none_iff (keys : Keypad) : keys.lowest? = none ↔ keys = 0 := by
  simp only [lowest?, Option.map_eq_none_iff, List.find?_range_eq_none]
  constructor
  · intro h
    exact ext fun k => by simpa [isDown] using h k.toNat k.isLt
  · rintro rfl i -
    simp

theorem ne_zero_of_lowest? {keys : Keypad} {k : Key} (h : keys.lowest? = some k) : keys ≠ 0 := by
  intro h0
  rw [(lowest?_eq_none_iff keys).2 h0] at h
  cases h

/-- If a key is held, the first one is held and none below it. -/
theorem isDown_first {keys : Keypad} {k : Key} (h : keys.isDown k) :
    keys.isDown keys.first ∧ keys.first ≤ k := by
  unfold first
  cases hl : keys.lowest? with
  | none =>
    rw [(lowest?_eq_none_iff keys).1 hl] at h
    simp at h
  | some l =>
    obtain ⟨hdown, hmin⟩ := (lowest?_eq_some_iff keys l).1 hl
    refine ⟨hdown, BitVec.not_lt.mp fun hk => ?_⟩
    rw [hmin k hk] at h
    cases h

theorem first_zero : first 0 = 0 := rfl

end Keypad

end Chip8
