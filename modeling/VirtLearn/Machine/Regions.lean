import VirtLearn.Machine.Memory

/-!
# Objects in memory

A range of addresses is an object in memory. Objects that share no byte are apart, and a store to
one of them leaves the value of the other. Places inside an object are told by their offset.
-/

namespace VirtLearn

/-- No byte is in both of two ranges. -/
def Apart (first : Address) (size : ℕ) (second : Address) (secondSize : ℕ) : Prop :=
  ∀ place, Within place first size → ¬Within place second secondSize

variable {first second base place : Address} {size secondSize offset other count otherCount : ℕ}

theorem Apart.symm (apart : Apart first size second secondSize) :
    Apart second secondSize first size :=
  fun place inSecond inFirst => apart place inFirst inSecond

theorem apart_of_toNat_le (order : first.toNat + size ≤ second.toNat)
    (room : second.toNat + secondSize ≤ 2 ^ 64) : Apart first size second secondSize := by
  intro place inFirst inSecond
  simp only [Within] at inFirst inSecond
  bv_omega

/-- The places of a range inside an object, by their offsets. -/
theorem within_add_iff (fits : offset + count ≤ 2 ^ 64) :
    Within place (base + BitVec.ofNat 64 offset) count ↔
      offset ≤ (place - base).toNat ∧ (place - base).toNat < offset + count := by
  have bound := (place - base).isLt
  simp only [Within]
  constructor
  · intro inside
    bv_omega
  · rintro ⟨low, high⟩
    bv_omega

theorem Within.of_add (inside : Within place (base + BitVec.ofNat 64 offset) count)
    (fits : offset + count ≤ size) (small : size ≤ 2 ^ 64) : Within place base size := by
  rw [within_add_iff (by omega)] at inside
  exact Nat.lt_of_lt_of_le inside.2 fits

theorem Apart.part (apart : Apart base size second secondSize) (fits : offset + count ≤ size)
    (small : size ≤ 2 ^ 64) : Apart (base + BitVec.ofNat 64 offset) count second secondSize :=
  fun place inside => apart place (inside.of_add fits small)

theorem apart_of_offsets (base : Address) (fits : offset + count ≤ 2 ^ 64)
    (otherFits : other + otherCount ≤ 2 ^ 64)
    (disjoint : offset + count ≤ other ∨ other + otherCount ≤ offset) :
    Apart (base + BitVec.ofNat 64 offset) count (base + BitVec.ofNat 64 other) otherCount := by
  intro place inside inOther
  rw [within_add_iff fits] at inside
  rw [within_add_iff otherFits] at inOther
  omega

/-- The cell of an aligned object that a place is in. -/
theorem Within.toNat_of_aligned (inside : Within place base size) (aligned : size ∣ base.toNat)
    (divides : size ∣ 2 ^ 64) : base.toNat = place.toNat / size * size := by
  have bound := base.isLt
  have positive : 0 < size := Nat.pos_of_dvd_of_pos divides (by decide)
  have room : base.toNat + size ≤ 2 ^ 64 := by
    rcases aligned with ⟨index, aligned⟩
    rcases divides with ⟨cells, whole⟩
    rw [aligned, whole] at bound
    have below : index < cells := Nat.lt_of_mul_lt_mul_left bound
    rw [aligned, whole, ← Nat.mul_succ]
    exact Nat.mul_le_mul_left size below
  have sum : place.toNat = base.toNat + (place - base).toNat := by
    simp only [Within] at inside
    bv_omega
  rw [sum, Nat.add_div_of_dvd_right aligned, Nat.div_eq_of_lt inside, Nat.add_zero,
    Nat.div_mul_cancel aligned]

theorem apart_of_aligned (aligned : size ∣ first.toNat) (otherAligned : size ∣ second.toNat)
    (divides : size ∣ 2 ^ 64) (different : first ≠ second) : Apart first size second size := by
  intro place inFirst inSecond
  apply different
  apply BitVec.eq_of_toNat_eq
  rw [inFirst.toNat_of_aligned aligned divides, inSecond.toNat_of_aligned otherAligned divides]

/-- A store to one object leaves the value of another. -/
theorem Memory.read_write_of_apart {width narrow : ℕ} (memory : Memory) (value : BitVec narrow)
    (apart : Apart first (width / 8) second (narrow / 8)) (small : width / 8 ≤ 2 ^ 64)
    (smallValue : narrow / 8 ≤ 2 ^ 64) :
    (memory.write second value).read width first = memory.read width first := by
  apply Memory.read_congr small
  intro place inFirst
  exact Memory.write_of_not_within smallValue (apart place inFirst)

/-! ### Clearing -/

namespace Memory

/-- The memory with a range set to 0. -/
def clear (memory : Memory) (base : Address) (count : ℕ) : Memory :=
  fun place => if Within place base count then 0 else memory place

variable {memory : Memory}

theorem clear_of_within (inside : Within place base count) : memory.clear base count place = 0 :=
  if_pos inside

theorem clear_of_not_within (outside : ¬Within place base count) :
    memory.clear base count place = memory place :=
  if_neg outside

/-- Two ranges one behind the other, cleared from behind. -/
theorem clear_clear (fits : offset + count ≤ 2 ^ 64) :
    (memory.clear (base + BitVec.ofNat 64 offset) count).clear base offset =
      memory.clear base (offset + count) := by
  funext place
  by_cases low : Within place base offset
  · have whole : Within place base (offset + count) := Nat.lt_add_right count low
    rw [clear_of_within low, clear_of_within whole]
  · rw [clear_of_not_within low]
    have behind : offset ≤ (place - base).toNat := Nat.not_lt.mp low
    by_cases high : Within place (base + BitVec.ofNat 64 offset) count
    · have whole : Within place base (offset + count) := ((within_add_iff fits).mp high).2
      rw [clear_of_within high, clear_of_within whole]
    · have outside : ¬Within place base (offset + count) :=
        fun whole => high ((within_add_iff fits).mpr ⟨behind, whole⟩)
      rw [clear_of_not_within high, clear_of_not_within outside]

theorem clear_comm (memory : Memory) (first second : Address) (count otherCount : ℕ) :
    (memory.clear first count).clear second otherCount =
      (memory.clear second otherCount).clear first count := by
  funext place
  by_cases inFirst : Within place first count <;>
    by_cases inSecond : Within place second otherCount <;>
    simp [clear, inFirst, inSecond]

theorem bytesOf_zero (count : ℕ) : bytesOf count 0 = List.replicate count 0 := by
  induction count with
  | zero => rfl
  | succ count ih =>
      rw [bytesOf, ih]
      rfl

theorem write_zero {width : ℕ} (small : width / 8 ≤ 2 ^ 64) (memory : Memory) (base : Address) :
    memory.write base (0 : BitVec width) = memory.clear base (width / 8) := by
  funext place
  have zeros : bytesOf (width / 8) (0 : BitVec width).toNat = List.replicate (width / 8) 0 := by
    rw [← bytesOf_zero]
    simp
  rw [write, store_apply _ _ (by simpa using small), zeros]
  by_cases inside : Within place base (width / 8)
  · rw [clear_of_within inside, List.getD_replicate _ inside]
  · have behind : width / 8 ≤ (place - base).toNat := Nat.not_lt.mp inside
    rw [clear_of_not_within inside, List.getD_eq_default _ _ (by simpa using behind)]

theorem read_of_zero {width : ℕ} (small : width / 8 ≤ 2 ^ 64)
    (zero : ∀ place, Within place base (width / 8) → memory place = 0) :
    memory.read width base = 0 := by
  have loaded : ∀ count (base : Address), load (fun _ => 0) base count = bytesOf count 0 := by
    intro count
    induction count with
    | zero => exact fun _ => rfl
    | succ count ih =>
        intro base
        rw [load, ih]
        rfl
  have value : Memory.read (fun _ => 0) width base = 0 := by
    rw [Memory.read, loaded, valueOf_bytesOf, Nat.zero_mod]
    rfl
  rw [← value]
  exact read_congr small zero

/-! ### Changes -/

/-- Outside some ranges, told by where they begin and their size, nothing has changed. -/
def SameOutside (ranges : List (Address × ℕ)) (before after : Memory) : Prop :=
  ∀ place, (∀ range ∈ ranges, ¬Within place range.1 range.2) → after place = before place

namespace SameOutside

variable {ranges more : List (Address × ℕ)} {before between after : Memory} {bytes : List Byte}

theorem refl (ranges : List (Address × ℕ)) (memory : Memory) : SameOutside ranges memory memory :=
  fun _ _ => rfl

theorem trans (earlier : SameOutside ranges before between)
    (later : SameOutside ranges between after) : SameOutside ranges before after :=
  fun place outside => (later place outside).trans (earlier place outside)

theorem mono (same : SameOutside ranges before after)
    (covered : ∀ range ∈ ranges, ∃ wider ∈ more,
      ∀ place, Within place range.1 range.2 → Within place wider.1 wider.2) :
    SameOutside more before after := by
  intro place outside
  apply same place
  intro range listed inside
  rcases covered range listed with ⟨wider, listedToo, wide⟩
  exact outside wider listedToo (wide place inside)

theorem store (same : SameOutside ranges before after) {range : Address × ℕ}
    (listed : range ∈ ranges) (small : bytes.length ≤ 2 ^ 64)
    (inside : ∀ place, Within place base bytes.length → Within place range.1 range.2) :
    SameOutside ranges before (after.store base bytes) := by
  intro place outside
  rw [store_of_not_within small, same place outside]
  exact fun stored => outside range listed (inside place stored)

/-- What is apart from all that has changed is as before. -/
theorem load_eq (same : SameOutside ranges before after) (small : count ≤ 2 ^ 64)
    (apart : ∀ range ∈ ranges, Apart base count range.1 range.2) :
    after.load base count = before.load base count :=
  load_congr small fun place inside =>
    same place fun range listed => apart range listed place inside

end SameOutside

end Memory

end VirtLearn
