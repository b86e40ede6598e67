import Chip8.Core

/-!
# Call stacks in use

A call stack that has only been pushed below its limit and popped above its floor counts at most
sixteen entries, holds addresses only, and is clear from its depth on. `WellFormed.push` and
`WellFormed.pop` say that the two operations keep this where their callers use them.

`Extends` compares a call stack with an earlier one that it has not been popped below: the entries
of the earlier one are still there, and back at its depth nothing else is (`Extends.eq_base`).
-/
namespace Chip8.CallStack

structure WellFormed (s : CallStack) : Prop where
  depth_le : s.depth.toNat ≤ 16
  entry_lt : ∀ i : BitVec 4, s.entries[i].toNat < 4096
  clear : ∀ i : BitVec 4, s.depth.toNat ≤ i.toNat → s.entries[i] = 0

theorem wellFormed_empty : empty.WellFormed := by
  refine ⟨Nat.zero_le _, fun i => ?_, fun i _ => ?_⟩ <;> simp [empty]

variable {s : CallStack}

theorem depth_push_toNat (a : Word) (hf : s.depth.toNat < 16) :
    (s.push a).depth.toNat = s.depth.toNat + 1 := by
  rw [depth_push, BitVec.toNat_add, show (1 : Byte).toNat = 1 from rfl]
  omega

theorem depth_pop_toNat (he : 0 < s.depth.toNat) : s.pop.depth.toNat = s.depth.toNat - 1 := by
  have := s.depth.isLt
  rw [depth_pop, BitVec.toNat_sub, show (1 : Byte).toNat = 1 from rfl]
  omega

/-- The entry below the depth, if there is one. -/
theorem top_eq (he : s.depth ≠ 0) (hd : s.depth.toNat ≤ 16) :
    s.top = s.entries[BitVec.ofNat 4 (s.depth.toNat - 1)] := by
  have hp : 0 < s.depth.toNat := Nat.pos_of_ne_zero fun h0 => he (BitVec.eq_of_toNat_eq h0)
  have hi : (s.depth - 1).toNat = s.depth.toNat - 1 := depth_pop_toNat hp
  unfold top fetch
  rw [if_pos (by omega)]
  congr 1
  apply BitVec.eq_of_toNat_eq
  rw [BitVec.toNat_setWidth, hi, BitVec.toNat_ofNat]

theorem WellFormed.top_lt (h : s.WellFormed) : s.top.toNat < 4096 := by
  unfold top fetch
  split
  · exact h.entry_lt _
  · exact h.entry_lt _

theorem entries_push (a : Word) (hf : s.depth.toNat < 16) (i : BitVec 4) :
    (s.push a).entries[i] = if i.toNat = s.depth.toNat then a else s.entries[i] := by
  simp only [CallStack.push, store, if_pos hf, Bank.getElem_set, ← BitVec.toNat_inj,
    BitVec.toNat_setWidth, Nat.mod_eq_of_lt hf, eq_comm (a := s.depth.toNat)]

theorem entries_pop (he : 0 < s.depth.toNat) (hd : s.depth.toNat ≤ 16) (i : BitVec 4) :
    s.pop.entries[i] = if i.toNat + 1 = s.depth.toNat then 0 else s.entries[i] := by
  have hp : (s.depth - 1).toNat = s.depth.toNat - 1 := depth_pop_toNat he
  have hlt : (s.depth - 1).toNat < 16 := by omega
  have hi : i.toNat + 1 = s.depth.toNat ↔ (s.depth - 1).toNat = i.toNat := by omega
  simp only [CallStack.pop, store, if_pos hlt, Bank.getElem_set, ← BitVec.toNat_inj,
    BitVec.toNat_setWidth, Nat.mod_eq_of_lt hlt, hi]

theorem WellFormed.push (h : s.WellFormed) (hf : s.depth.toNat < 16) {a : Word}
    (ha : a.toNat < 4096) : (s.push a).WellFormed := by
  have hd := depth_push_toNat a hf
  refine ⟨by omega, fun i => ?_, fun i hi => ?_⟩ <;> rw [entries_push a hf]
  · split
    · exact ha
    · exact h.entry_lt i
  · rw [if_neg (by omega)]
    exact h.clear i (by omega)

theorem WellFormed.pop (h : s.WellFormed) (he : 0 < s.depth.toNat) : s.pop.WellFormed := by
  have hd := depth_pop_toNat he
  have hle := h.depth_le
  refine ⟨by omega, fun i => ?_, fun i hi => ?_⟩ <;> rw [entries_pop he hle]
  · split
    · decide
    · exact h.entry_lt i
  · split
    · rfl
    · exact h.clear i (by omega)

/-! ## Growing from a base -/

/-- What a call stack looks like that has grown from a base and has not been popped below it. -/
structure Extends (s base : CallStack) : Prop where
  depth_le : s.depth.toNat ≤ 16
  below : ∀ i : BitVec 4, i.toNat < base.depth.toNat → s.entries[i] = base.entries[i]
  clear : ∀ i : BitVec 4, s.depth.toNat ≤ i.toNat → s.entries[i] = 0

variable {base : CallStack}

theorem Extends.refl (h : s.Extends base) : s.Extends s := ⟨h.depth_le, fun _ _ => rfl, h.clear⟩

theorem Extends.push (h : s.Extends base) (hb : base.depth.toNat ≤ s.depth.toNat)
    (hf : s.depth.toNat < 16) (a : Word) : (s.push a).Extends base := by
  have hd := depth_push_toNat a hf
  refine ⟨by omega, fun i hi => ?_, fun i hi => ?_⟩ <;>
    rw [entries_push a hf, if_neg (by omega)]
  · exact h.below i hi
  · exact h.clear i (by omega)

theorem Extends.pop (h : s.Extends base) (hb : base.depth.toNat < s.depth.toNat) :
    s.pop.Extends base := by
  have he : 0 < s.depth.toNat := by omega
  have hd := depth_pop_toNat he
  have hle := h.depth_le
  refine ⟨by omega, fun i hi => ?_, fun i hi => ?_⟩ <;> rw [entries_pop he hle]
  · rw [if_neg (by omega)]
    exact h.below i hi
  · split
    · rfl
    · exact h.clear i (by omega)

/-- Back at the depth of the base, it is the base. -/
theorem Extends.eq_base (h : s.Extends base) (hb : base.Extends base)
    (hd : s.depth.toNat = base.depth.toNat) : s = base := by
  obtain ⟨entries, depth⟩ := s
  obtain rfl : depth = base.depth := BitVec.eq_of_toNat_eq hd
  have he : entries = base.entries := by
    apply Bank.ext
    intro i
    rcases Nat.lt_or_ge i.toNat base.depth.toNat with hi | hi
    · exact h.below i hi
    · rw [hb.clear i hi]
      exact h.clear i hi
  rw [he]

end Chip8.CallStack
