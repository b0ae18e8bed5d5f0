import Mathlib.Data.BitVec
import Mathlib.Data.Nat.ModEq

/-!
# Unsigned counters

Counting up and down in a machine word of any width, away from and across its ends.
-/

namespace VirtLearn.Counter

variable {width : ℕ} {counter : BitVec width}

theorem toNat_one (wide : 0 < width) : (1 : BitVec width).toNat = 1 := by
  change 1 % 2 ^ width = 1
  exact Nat.mod_eq_of_lt (Nat.one_lt_two_pow (Nat.ne_of_gt wide))

theorem toNat_add_one (below : counter.toNat + 1 < 2 ^ width) :
    (counter + 1).toNat = counter.toNat + 1 := by
  rcases width with _ | width
  · simp at below
  · rw [BitVec.toNat_add, toNat_one width.succ_pos, Nat.mod_eq_of_lt below]

theorem toNat_sub_one (positive : 0 < counter.toNat) :
    (counter - 1).toNat = counter.toNat - 1 := by
  rcases width with _ | width
  · have := counter.isLt
    omega
  · have one := toNat_one width.succ_pos
    rw [BitVec.toNat_sub_of_le (by rw [BitVec.le_def, one]; exact positive), one]

/-- Counting down from zero wraps to the top of the word. -/
theorem toNat_sub_one_of_zero (zero : counter.toNat = 0) :
    (counter - 1).toNat = 2 ^ width - 1 := by
  rcases width with _ | width
  · have := (counter - 1).isLt
    omega
  · rw [BitVec.toNat_sub, toNat_one width.succ_pos, zero, Nat.add_zero]
    exact Nat.mod_eq_of_lt (Nat.sub_lt (Nat.two_pow_pos _) Nat.one_pos)

theorem toNat_add_one_modEq (counter : BitVec width) :
    (counter + 1).toNat ≡ counter.toNat + 1 [MOD 2 ^ width] := by
  rcases width with _ | width
  · simp [Nat.ModEq, Nat.mod_one]
  · rw [BitVec.toNat_add, toNat_one width.succ_pos]
    exact Nat.mod_modEq _ _

theorem toNat_sub_one_modEq (counter : BitVec width) :
    (counter - 1).toNat + 1 ≡ counter.toNat [MOD 2 ^ width] := by
  have up := toNat_add_one_modEq (counter - 1)
  rw [BitVec.sub_add_cancel] at up
  exact up.symm

/-- Counting up brings a counter closer to any value it has not reached, across the top too. -/
theorem toNat_sub_add_one_lt {target : BitVec width} (other : counter ≠ target) :
    (target - (counter + 1)).toNat < (target - counter).toNat := by
  have apart : 0 < (target - counter).toNat := by
    apply Nat.pos_of_ne_zero
    intro zero
    have same : target - counter = 0 := BitVec.eq_of_toNat_eq (by simpa using zero)
    exact other (sub_eq_zero.mp same).symm
  rw [← sub_sub, toNat_sub_one apart]
  omega

theorem lt_add_one_cases {other : BitVec width} (below : other < counter + 1) :
    other < counter ∨ other = counter := by
  rcases Nat.lt_or_ge (counter.toNat + 1) (2 ^ width) with room | top
  · rw [BitVec.lt_def, toNat_add_one room] at below
    rcases Nat.lt_succ_iff_lt_or_eq.mp below with less | same
    · exact Or.inl (BitVec.lt_def.mpr less)
    · exact Or.inr (BitVec.eq_of_toNat_eq same)
  · rcases width with _ | width
    · exact Or.inr (Subsingleton.elim _ _)
    · have inWord := counter.isLt
      have wrapped : (counter + 1).toNat = 0 := by
        rw [BitVec.toNat_add, toNat_one width.succ_pos]
        have sum : counter.toNat + 1 = 2 ^ (width + 1) := by omega
        rw [sum, Nat.mod_self]
      rw [BitVec.lt_def, wrapped] at below
      omega

theorem lt_add_one (room : counter.toNat + 1 < 2 ^ width) : counter < counter + 1 := by
  rw [BitVec.lt_def, toNat_add_one room]
  exact Nat.lt_succ_self _

theorem toNat_add_one_le {bound : BitVec width} (room : counter.toNat + 1 < 2 ^ width)
    (within : counter ≤ bound) : (counter + 1).toNat ≤ bound.toNat + 1 := by
  rw [toNat_add_one room]
  exact Nat.succ_le_succ (BitVec.le_def.mp within)

theorem lt_of_le_of_not_le {other bound : BitVec width} (within : other ≤ bound)
    (left : ¬counter ≤ bound) : other < counter := by
  rw [BitVec.le_def] at within left
  rw [BitVec.lt_def]
  omega

end VirtLearn.Counter
