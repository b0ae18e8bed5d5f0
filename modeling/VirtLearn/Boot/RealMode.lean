import Mathlib.Data.BitVec

/-!
# Registers and variables of real-mode code

The 32-bit registers that the boot code computes with, of which its instructions also read and
write the low word and its two bytes. The rest of a register is kept by such a write, which is
where what a register held before comes in. The 32-bit variables are written by words as well.
-/

namespace VirtLearn.Boot

structure Registers where
  eax : BitVec 32
  ebx : BitVec 32
  ecx : BitVec 32
  edx : BitVec 32
  edi : BitVec 32
deriving DecidableEq

/-- The variables of `disk_address_packet`. -/
structure DiskAddressPacket where
  readSectors : BitVec 16
  bufferOffset : BitVec 16
  bufferSelector : BitVec 16
  startSector : BitVec 32
  totalSectors : BitVec 32
deriving DecidableEq

variable (register : BitVec 32)

/-- The low word, such as `ax` of `eax`. -/
def word : BitVec 16 :=
  register.setWidth 16

/-- The low byte, such as `al` of `eax`. -/
def low : BitVec 8 :=
  register.setWidth 8

/-- The high byte of the low word, such as `ah` of `eax`. -/
def high : BitVec 8 :=
  register.extractLsb' 8 8

/-- The upper half, which has no name. -/
def upper : BitVec 16 :=
  register.extractLsb' 16 16

def withWord (value : BitVec 16) : BitVec 32 :=
  upper register ++ value

def withLow (value : BitVec 8) : BitVec 32 :=
  withWord register (high register ++ value)

def withHigh (value : BitVec 8) : BitVec 32 :=
  withWord register (value ++ low register)

/--
`div` of `edx:eax` by a 32-bit register: the quotient for `eax` and the remainder for `edx`. A
quotient that does not fit is a divide error, as is a division by zero.
-/
def div (edx eax divisor : BitVec 32) : Option (BitVec 32 × BitVec 32) :=
  let dividend := edx.toNat * 2 ^ 32 + eax.toNat
  if divisor = 0 ∨ 2 ^ 32 ≤ dividend / divisor.toNat then none
  else
    some (BitVec.ofNat 32 (dividend / divisor.toNat), BitVec.ofNat 32 (dividend % divisor.toNat))

variable {register}

theorem toNat_word (register : BitVec 32) : (word register).toNat = register.toNat % 2 ^ 16 :=
  BitVec.toNat_setWidth 16 register

theorem toNat_low (register : BitVec 32) : (low register).toNat = register.toNat % 2 ^ 8 :=
  BitVec.toNat_setWidth 8 register

theorem toNat_high (register : BitVec 32) :
    (high register).toNat = register.toNat / 2 ^ 8 % 2 ^ 8 := by
  rw [high, BitVec.extractLsb'_toNat, Nat.shiftRight_eq_div_pow]

theorem toNat_upper (register : BitVec 32) :
    (upper register).toNat = register.toNat / 2 ^ 16 := by
  have bound := register.isLt
  rw [upper, BitVec.extractLsb'_toNat, Nat.shiftRight_eq_div_pow]
  omega

theorem toNat_append_eq_add {count : ℕ} (first : BitVec count) {width : ℕ} (second : BitVec width) :
    (first ++ second).toNat = first.toNat * 2 ^ width + second.toNat := by
  rw [BitVec.toNat_append, ← Nat.shiftLeft_add_eq_or_of_lt second.isLt, Nat.shiftLeft_eq]

theorem toNat_withWord (register : BitVec 32) (value : BitVec 16) :
    (withWord register value).toNat = register.toNat / 2 ^ 16 * 2 ^ 16 + value.toNat := by
  rw [withWord, toNat_append_eq_add, toNat_upper]

theorem toNat_withLow (register : BitVec 32) (value : BitVec 8) :
    (withLow register value).toNat = register.toNat / 2 ^ 8 * 2 ^ 8 + value.toNat := by
  rw [withLow, toNat_withWord, toNat_append_eq_add, toNat_high]
  omega

theorem toNat_withHigh (register : BitVec 32) (value : BitVec 8) :
    (withHigh register value).toNat =
      register.toNat / 2 ^ 16 * 2 ^ 16 + value.toNat * 2 ^ 8 + register.toNat % 2 ^ 8 := by
  rw [withHigh, toNat_withWord, toNat_append_eq_add, toNat_low, Nat.add_assoc]

@[simp]
theorem word_withWord (value : BitVec 16) : word (withWord register value) = value := by
  have bound := value.isLt
  apply BitVec.eq_of_toNat_eq
  rw [toNat_word, toNat_withWord]
  omega

@[simp]
theorem low_withLow (value : BitVec 8) : low (withLow register value) = value := by
  have bound := value.isLt
  apply BitVec.eq_of_toNat_eq
  rw [toNat_low, toNat_withLow]
  omega

@[simp]
theorem high_withLow (value : BitVec 8) : high (withLow register value) = high register := by
  have bound := value.isLt
  apply BitVec.eq_of_toNat_eq
  rw [toNat_high, toNat_withLow, toNat_high]
  omega

@[simp]
theorem low_withHigh (value : BitVec 8) : low (withHigh register value) = low register := by
  have bound := value.isLt
  apply BitVec.eq_of_toNat_eq
  rw [toNat_low, toNat_withHigh, toNat_low]
  omega

@[simp]
theorem high_withHigh (value : BitVec 8) : high (withHigh register value) = value := by
  have bound := value.isLt
  apply BitVec.eq_of_toNat_eq
  rw [toNat_high, toNat_withHigh]
  omega

theorem div_of_ne_zero {eax divisor : BitVec 32} (nonzero : divisor ≠ 0) :
    div 0 eax divisor = some (eax / divisor, eax % divisor) := by
  have fits : ¬2 ^ 32 ≤ eax.toNat / divisor.toNat :=
    Nat.not_le.mpr (Nat.lt_of_le_of_lt (Nat.div_le_self _ _) eax.isLt)
  have quotient : BitVec.ofNat 32 (eax.toNat / divisor.toNat) = eax / divisor := by
    apply BitVec.eq_of_toNat_eq
    rw [BitVec.toNat_ofNat, BitVec.toNat_udiv, Nat.mod_eq_of_lt (Nat.not_le.mp fits)]
  have remainder : BitVec.ofNat 32 (eax.toNat % divisor.toNat) = eax % divisor := by
    rw [← BitVec.toNat_umod, BitVec.ofNat_toNat, BitVec.setWidth_eq]
  have defined : ¬(divisor = 0 ∨ 2 ^ 32 ≤ eax.toNat / divisor.toNat) := by
    rintro (zero | large)
    · exact nonzero zero
    · exact fits large
  simp only [div, BitVec.ofNat_eq_ofNat, BitVec.toNat_ofNat, Nat.zero_mod, Nat.zero_mul,
    Nat.zero_add] at defined ⊢
  rw [if_neg defined, quotient, remainder]

theorem div_zero (edx eax : BitVec 32) : div edx eax 0 = none := by
  simp [div]

end VirtLearn.Boot
