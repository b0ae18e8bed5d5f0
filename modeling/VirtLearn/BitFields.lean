import Mathlib.Data.List.Induction
import Mathlib.Data.Nat.Bitwise

/-!
# Bit fields

A word is packed from values that are each masked to the width of a field, shifted to its position
and or-ed to what is there. Where no two of the fields overlap, a field reads back as the value it
was packed from, up to its width.
-/

namespace VirtLearn

/-- The `width` bits of a word from bit `shift` on. -/
structure BitField where
  shift : ℕ
  width : ℕ
deriving DecidableEq

namespace BitField

variable {field other : BitField} {fields : List (BitField × ℕ)} {value : ℕ}

def get (field : BitField) (word : ℕ) : ℕ :=
  word >>> field.shift % 2 ^ field.width

def put (field : BitField) (value : ℕ) : ℕ :=
  (value % 2 ^ field.width) <<< field.shift

/-- No bit is in both fields. -/
def Apart (field other : BitField) : Prop :=
  field.shift + field.width ≤ other.shift ∨ other.shift + other.width ≤ field.shift

instance (field other : BitField) : Decidable (field.Apart other) :=
  inferInstanceAs (Decidable (_ ∨ _))

theorem Apart.symm (apart : field.Apart other) : other.Apart field :=
  Or.symm apart

def packed (fields : List (BitField × ℕ)) : ℕ :=
  fields.foldl (fun word field => word ||| field.1.put field.2) 0

theorem get_or (field : BitField) (word more : ℕ) :
    field.get (word ||| more) = field.get word ||| field.get more := by
  rw [get, Nat.shiftRight_or_distrib, Nat.or_mod_two_pow]
  rfl

theorem get_put (field : BitField) (value : ℕ) :
    field.get (field.put value) = value % 2 ^ field.width := by
  rw [get, put, Nat.shiftLeft_shiftRight, Nat.mod_mod]

theorem get_put_of_apart (apart : field.Apart other) (value : ℕ) :
    field.get (other.put value) = 0 := by
  apply Nat.eq_of_testBit_eq
  intro k
  rw [get, put, Nat.testBit_mod_two_pow, Nat.testBit_shiftRight, Nat.testBit_shiftLeft,
    Nat.testBit_mod_two_pow, Nat.zero_testBit]
  by_cases inside : k < field.width
  · rcases apart with behind | before
    · have notYet : ¬field.shift + k ≥ other.shift := by omega
      simp [notYet]
    · have beyond : ¬field.shift + k - other.shift < other.width := by omega
      simp [beyond]
  · simp [inside]

theorem packed_concat (fields : List (BitField × ℕ)) (last : BitField × ℕ) :
    packed (fields ++ [last]) = packed fields ||| last.1.put last.2 := by
  rw [packed, List.foldl_append]
  rfl

theorem get_packed_of_apart (apart : ∀ other ∈ fields, field.Apart other.1) :
    field.get (packed fields) = 0 := by
  induction fields using List.reverseRecOn with
  | nil => simp [packed, get]
  | append_singleton fields last ih =>
      rw [packed_concat, get_or, ih fun other listed => apart other (List.mem_append_left _ listed),
        get_put_of_apart (apart last (by simp))]
      rfl

/-- Every field reads back as its value, up to its width. -/
theorem get_packed (apart : (fields.map Prod.fst).Pairwise Apart)
    (listed : (field, value) ∈ fields) :
    field.get (packed fields) = value % 2 ^ field.width := by
  rw [List.pairwise_map] at apart
  induction fields using List.reverseRecOn with
  | nil => cases listed
  | append_singleton fields last ih =>
      rw [packed_concat, get_or]
      rcases List.pairwise_append.mp apart with ⟨before, _, behind⟩
      rcases List.mem_append.mp listed with earlier | here
      · rw [ih before earlier, get_put_of_apart (behind _ earlier last (by simp)), Nat.or_zero]
      · have free : field.get (packed fields) = 0 :=
          get_packed_of_apart fun other old => (behind other old (field, value) here).symm
        rw [← List.mem_singleton.mp here, get_put, free, Nat.zero_or]

/-- Cutting a word off behind a field leaves the field as it is. -/
theorem get_mod_two_pow {bits : ℕ} (inside : field.shift + field.width ≤ bits) (word : ℕ) :
    field.get (word % 2 ^ bits) = field.get word := by
  apply Nat.eq_of_testBit_eq
  intro k
  rw [get, get, Nat.testBit_mod_two_pow, Nat.testBit_mod_two_pow, Nat.testBit_shiftRight,
    Nat.testBit_shiftRight, Nat.testBit_mod_two_pow]
  by_cases below : k < field.width
  · have kept : field.shift + k < bits := by omega
    simp [kept]
  · simp [below]

/-- A field put by the machine's operations on a byte. -/
theorem toNat_put {mask : BitVec 8} (byte : BitVec 8) {width bits : ℕ} (wide : 8 ≤ bits)
    (masked : mask.toNat = 2 ^ width - 1) {shift : ℕ} (fits : shift + width ≤ bits) :
    ((byte &&& mask).setWidth bits <<< shift).toNat = put ⟨shift, width⟩ byte.toNat := by
  have bytes : 2 ^ 8 ≤ 2 ^ bits := Nat.pow_le_pow_right (by decide) wide
  have small : byte.toNat % 2 ^ width < 2 ^ bits :=
    Nat.lt_of_le_of_lt (Nat.mod_le _ _) (Nat.lt_of_lt_of_le byte.isLt bytes)
  have inWord : byte.toNat % 2 ^ width * 2 ^ shift < 2 ^ bits := by
    calc byte.toNat % 2 ^ width * 2 ^ shift
        < 2 ^ width * 2 ^ shift :=
          Nat.mul_lt_mul_of_pos_right (Nat.mod_lt _ (Nat.two_pow_pos _)) (Nat.two_pow_pos _)
      _ = 2 ^ (shift + width) := by rw [Nat.mul_comm, ← Nat.pow_add]
      _ ≤ 2 ^ bits := Nat.pow_le_pow_right (by decide) fits
  rw [put, BitVec.toNat_shiftLeft, BitVec.toNat_setWidth, BitVec.toNat_and, masked,
    Nat.and_two_pow_sub_one_eq_mod, Nat.mod_eq_of_lt small, Nat.shiftLeft_eq,
    Nat.mod_eq_of_lt inWord]

end BitField

end VirtLearn
