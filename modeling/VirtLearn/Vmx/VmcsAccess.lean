import Mathlib.Data.BitVec
import Mathlib.Logic.Function.Basic
import VirtLearn.LastWrite

/-!
# Reading and writing the VMCS

The wrappers of `ops.h` around `vmread` and `vmwrite`, on x86-64. The current VMCS maps the
encodings of its fields to 64-bit values.

The parameter of every write wrapper is a `u16`, whatever the width in the wrapper's name, so a
value reads back if and only if it fits in 16 bits (`vmcs_round_trip_iff`).
-/

namespace VirtLearn.Vmx

/-- The current VMCS, by the encoding of its fields. -/
abbrev Vmcs :=
  BitVec 64 → BitVec 64

section Wrappers

variable (vmcs : Vmcs) (field : BitVec 64)

/-- `__vmcs_readl`, the `vmread` instruction. -/
def rawVmcsReadl : BitVec 64 :=
  vmcs field

def vmcsRead16 : BitVec 16 :=
  (rawVmcsReadl vmcs field).setWidth 16

def vmcsRead32 : BitVec 32 :=
  (rawVmcsReadl vmcs field).setWidth 32

/-- With `CONFIG_X86_64`. -/
def vmcsRead64 : BitVec 64 :=
  rawVmcsReadl vmcs field

def vmcsReadl : BitVec 64 :=
  rawVmcsReadl vmcs field

/-- `__vmcs_writel`, the `vmwrite` instruction. -/
def rawVmcsWritel (value : BitVec 64) : Vmcs :=
  Function.update vmcs field value

def vmcsWrite16 (value : BitVec 16) : Vmcs :=
  rawVmcsWritel vmcs field (value.setWidth 64)

def vmcsWrite32 (value : BitVec 16) : Vmcs :=
  rawVmcsWritel vmcs field (value.setWidth 64)

def vmcsWrite64 (value : BitVec 16) : Vmcs :=
  rawVmcsWritel vmcs field (value.setWidth 64)

def vmcsWritel (value : BitVec 16) : Vmcs :=
  rawVmcsWritel vmcs field (value.setWidth 64)

end Wrappers

/-- The four widths there are wrappers for. -/
inductive Accessor where
  | word
  | long
  | quad
  | natural
deriving DecidableEq

namespace Accessor

def width : Accessor → ℕ
  | word => 16
  | long => 32
  | quad => 64
  | natural => 64

def read (accessor : Accessor) (vmcs : Vmcs) (field : BitVec 64) : BitVec accessor.width :=
  match accessor with
  | word => vmcsRead16 vmcs field
  | long => vmcsRead32 vmcs field
  | quad => vmcsRead64 vmcs field
  | natural => vmcsReadl vmcs field

/-- The wrapper called with a value of its width, converted to the type of the parameter. -/
def write (accessor : Accessor) (vmcs : Vmcs) (field : BitVec 64)
    (value : BitVec accessor.width) : Vmcs :=
  match accessor with
  | word => vmcsWrite16 vmcs field (value.setWidth 16)
  | long => vmcsWrite32 vmcs field (value.setWidth 16)
  | quad => vmcsWrite64 vmcs field (value.setWidth 16)
  | natural => vmcsWritel vmcs field (value.setWidth 16)

end Accessor

/-- One call of a write wrapper. -/
structure VmcsWrite where
  accessor : Accessor
  field : BitVec 64
  value : BitVec accessor.width

def vmcsWrites (vmcs : Vmcs) (writes : List VmcsWrite) : Vmcs :=
  writes.foldl (fun vmcs write => write.accessor.write vmcs write.field write.value) vmcs

def lastVmcsWrite (writes : List VmcsWrite) (field : BitVec 64) : Option VmcsWrite :=
  (writes.filter (·.field = field)).getLast?

section RoundTrip

variable {accessor : Accessor} {vmcs : Vmcs} {field : BitVec 64}

/-- The bits that get through the parameter of a write wrapper. -/
def passed {width : ℕ} (value : BitVec width) : BitVec 64 :=
  (value.setWidth 16).setWidth 64

theorem write_eq (accessor : Accessor) (vmcs : Vmcs) (field : BitVec 64)
    (value : BitVec accessor.width) :
    accessor.write vmcs field value = Function.update vmcs field (passed value) := by
  cases accessor <;> rfl

theorem read_eq (accessor : Accessor) (vmcs : Vmcs) (field : BitVec 64) :
    accessor.read vmcs field = (vmcs field).setWidth accessor.width := by
  cases accessor
  case word => rfl
  case long => rfl
  all_goals exact (BitVec.setWidth_eq _).symm

theorem sixteen_le_width (accessor : Accessor) : 16 ≤ accessor.width ∧ accessor.width ≤ 64 := by
  cases accessor <;> decide

theorem setWidth_passed_iff (value : BitVec accessor.width) :
    (passed value).setWidth accessor.width = value ↔ value.toNat < 2 ^ 16 := by
  have wide : 2 ^ 16 ≤ 2 ^ accessor.width :=
    Nat.pow_le_pow_right (by decide) (sixteen_le_width accessor).1
  have low : value.toNat % 2 ^ 16 < 2 ^ 16 := Nat.mod_lt _ (by decide)
  have through : ((passed value).setWidth accessor.width).toNat = value.toNat % 2 ^ 16 := by
    simp only [passed, BitVec.toNat_setWidth]
    rw [Nat.mod_eq_of_lt (show value.toNat % 2 ^ 16 < 2 ^ 64 by omega),
      Nat.mod_eq_of_lt (by omega)]
  rw [← BitVec.toNat_inj, through]
  constructor
  · intro same
    omega
  · exact Nat.mod_eq_of_lt

theorem read_write_iff (accessor : Accessor) (vmcs : Vmcs) (field : BitVec 64)
    (value : BitVec accessor.width) :
    accessor.read (accessor.write vmcs field value) field = value ↔ value.toNat < 2 ^ 16 := by
  rw [read_eq, write_eq, Function.update_self]
  exact setWidth_passed_iff value

/-- What a call leaves in a field, if it is the one it writes. -/
def VmcsWrite.leaves (write : VmcsWrite) (field : BitVec 64) : Option (BitVec 64) :=
  if write.field = field then some (passed write.value) else none

theorem vmcsWrites_eq (vmcs : Vmcs) (writes : List VmcsWrite) (field : BitVec 64) :
    vmcsWrites vmcs writes field =
      ((lastVmcsWrite writes field).map fun write => passed write.value).getD (vmcs field) := by
  have last : lastWrite (VmcsWrite.leaves · field) writes =
      (lastVmcsWrite writes field).map fun write => passed write.value :=
    lastWrite_of_ite fun write _ => rfl
  have steps : ∀ (vmcs : Vmcs) (write : VmcsWrite),
      write.accessor.write vmcs write.field write.value field =
        (write.leaves field).getD (vmcs field) := by
    intro vmcs write
    rw [write_eq, VmcsWrite.leaves]
    by_cases here : write.field = field
    · rw [if_pos here, here, Function.update_self]
      rfl
    · rw [if_neg here, Function.update_of_ne (Ne.symm here)]
      rfl
  rw [← last]
  exact @observe_foldl_of_steps Vmcs VmcsWrite _ (· field) _ _ steps vmcs writes

/--
For every VMCS: what one wrapper writes, the matching one reads back if and only if the value fits
in 16 bits, and no other field is changed. So after any sequence of writes a field reads back the
value last written to it if and only if that value fits, and is as before if none was written.
-/
theorem vmcs_round_trip_iff (vmcs : Vmcs) :
    (∀ (accessor : Accessor) (field : BitVec 64) (value : BitVec accessor.width),
      (accessor.read (accessor.write vmcs field value) field = value ↔ value.toNat < 2 ^ 16) ∧
        ∀ other, other ≠ field → accessor.write vmcs field value other = vmcs other) ∧
    ∀ (writes : List VmcsWrite) (field : BitVec 64),
      (∀ last, lastVmcsWrite writes field = some last →
        (last.accessor.read (vmcsWrites vmcs writes) field = last.value ↔
          last.value.toNat < 2 ^ 16)) ∧
        (lastVmcsWrite writes field = none → vmcsWrites vmcs writes field = vmcs field) := by
  refine ⟨?_, ?_⟩
  · intro accessor field value
    refine ⟨read_write_iff accessor vmcs field value, ?_⟩
    intro other apart
    rw [write_eq, Function.update_of_ne apart]
  · intro writes field
    have left := vmcsWrites_eq vmcs writes field
    refine ⟨?_, ?_⟩
    · intro last found
      rw [read_eq, left, found]
      exact setWidth_passed_iff last.value
    · intro unwritten
      rw [left, unwritten]
      rfl

/-- A value of 17 bits is lost on its way into the field of `HOST_RSP`, one of 16 is not. -/
theorem vmcs_round_trip_hostRsp :
    vmcsReadl (vmcsWrites (fun _ => 0) [⟨.natural, 0x6c14, 0xffff⟩]) 0x6c14 = 0xffff ∧
      vmcsReadl (vmcsWrites (fun _ => 0) [⟨.natural, 0x6c14, 0x10000⟩]) 0x6c14 ≠ 0x10000 := by
  have fits := (((vmcs_round_trip_iff fun _ => 0).2 [⟨.natural, 0x6c14, 0xffff⟩] 0x6c14).1 _
    rfl).mpr (by decide)
  have lost := (((vmcs_round_trip_iff fun _ => 0).2 [⟨.natural, 0x6c14, 0x10000⟩] 0x6c14).1 _
    rfl).not.mpr (by decide)
  exact ⟨fits, lost⟩

theorem not_vmcs_round_trip : ¬∀ (vmcs : Vmcs) (accessor : Accessor) (field : BitVec 64)
    (value : BitVec accessor.width),
    accessor.read (accessor.write vmcs field value) field = value := by
  intro claimed
  have kept := claimed (fun _ => 0) .long 0x4002 0x10000
  revert kept
  decide

end RoundTrip

end VirtLearn.Vmx
