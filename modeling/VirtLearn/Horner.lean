import Mathlib.Algebra.Order.Ring.Defs
import Mathlib.Algebra.Ring.Hom.Defs
import Mathlib.Algebra.Ring.Parity
import Mathlib.Data.List.Forall2
import Mathlib.Data.List.Induction
import Mathlib.Tactic.Ring

/-!
# Horner's rule

The value of a list of digits to a base, as a loop over the digits computes it, in any semiring.
The digits are elements of the semiring too: nothing bounds them by the base.
-/

namespace VirtLearn

universe u v

section Semiring

variable {R : Type u} {S : Type v} [CommSemiring R] [CommSemiring S] {base : R} {digits : List R}

/-- The value of digits to a base, the most significant first. -/
def horner (base : R) (digits : List R) : R :=
  digits.foldl (fun value digit => value * base + digit) 0

@[simp]
theorem horner_nil : horner base [] = 0 :=
  rfl

theorem horner_concat (digits : List R) (digit : R) :
    horner base (digits ++ [digit]) = horner base digits * base + digit := by
  rw [horner, List.foldl_append]
  rfl

theorem horner_append (first second : List R) :
    horner base (first ++ second) =
      horner base first * base ^ second.length + horner base second := by
  induction second using List.reverseRecOn with
  | nil => simp
  | append_singleton second digit ih =>
      rw [← List.append_assoc, horner_concat, ih, horner_concat, List.length_append,
        List.length_singleton, pow_succ]
      ring

theorem horner_cons (digit : R) (digits : List R) :
    horner base (digit :: digits) = digit * base ^ digits.length + horner base digits := by
  have single : horner base [digit] = digit := by simp [horner]
  rw [← List.singleton_append, horner_append, single]

theorem map_horner (hom : R →+* S) (base : R) (digits : List R) :
    hom (horner base digits) = horner (hom base) (digits.map hom) := by
  induction digits using List.reverseRecOn with
  | nil => simp
  | append_singleton digits digit ih =>
      rw [horner_concat, map_add, map_mul, ih, List.map_append, List.map_singleton, horner_concat]

/-- A number with the same digit in every place is that digit times the number of ones. -/
theorem horner_replicate (count : ℕ) (digit : R) :
    horner base (List.replicate count digit) =
      digit * horner base (List.replicate count 1) := by
  induction count with
  | zero => simp
  | succ count ih =>
      rw [List.replicate_succ', List.replicate_succ', horner_concat, horner_concat, ih]
      ring

/-- To an even base, a number is odd if its last digit is. -/
theorem odd_horner_ones {R : Type u} [CommRing R] {base : R} (even : Even base) (count : ℕ) :
    Odd (horner base (List.replicate (count + 1) 1)) := by
  rw [List.replicate_succ', horner_concat]
  exact (even.mul_left _).add_one

end Semiring

section Ordered

variable {R : Type u} [CommRing R] [PartialOrder R] [IsStrictOrderedRing R] {base : R}
  {smaller larger : List R}

theorem horner_nonneg (positive : 0 < base) {digits : List R}
    (digit : ∀ digit ∈ digits, 0 ≤ digit) :
    0 ≤ horner base digits := by
  induction digits with
  | nil => exact le_refl _
  | cons first digits ih =>
      rw [horner_cons]
      have here := mul_nonneg (digit first (by simp)) (pow_nonneg positive.le digits.length)
      exact add_nonneg here (ih fun later mem => digit later (List.mem_cons_of_mem _ mem))

/-- Digits that are nowhere larger make a number that is no larger. -/
theorem horner_le (positive : 0 < base) (below : List.Forall₂ (· ≤ ·) smaller larger) :
    horner base smaller ≤ horner base larger := by
  induction below with
  | nil => exact le_refl _
  | cons first rest ih =>
      rw [horner_cons, horner_cons, rest.length_eq]
      exact add_le_add (mul_le_mul_of_nonneg_right first (pow_nonneg positive.le _)) ih

/-- If some digit is smaller besides, the number is. -/
theorem horner_lt (positive : 0 < base) (below : List.Forall₂ (· ≤ ·) smaller larger)
    (different : smaller ≠ larger) : horner base smaller < horner base larger := by
  induction below with
  | nil => exact absurd rfl different
  | @cons digit other smaller larger first rest ih =>
      rw [horner_cons, horner_cons, rest.length_eq]
      rcases first.eq_or_lt with rfl | less
      · have later : smaller ≠ larger := fun same => different (by rw [same])
        exact add_lt_add_of_le_of_lt (le_refl _) (ih later)
      · exact add_lt_add_of_lt_of_le (mul_lt_mul_of_pos_right less (pow_pos positive _))
          (horner_le positive rest)

end Ordered

end VirtLearn
