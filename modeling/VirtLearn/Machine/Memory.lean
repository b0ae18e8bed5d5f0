import Mathlib.Data.BitVec
import Mathlib.Data.List.GetD
import Mathlib.Logic.Function.Basic

/-!
# Byte memory

Memory is a byte for every 64-bit address; wider values are stored least significant byte first.
Loads and stores are of lists of bytes, and addresses wrap around like the machine's.
-/

namespace VirtLearn

abbrev Byte :=
  BitVec 8

abbrev Address :=
  BitVec 64

abbrev Memory :=
  Address → Byte

/-- The `count` bytes of a number, least significant first. -/
def bytesOf : ℕ → ℕ → List Byte
  | 0, _ => []
  | count + 1, value => BitVec.ofNat 8 value :: bytesOf count (value / 256)

/-- The number behind some bytes. -/
def valueOf : List Byte → ℕ
  | [] => 0
  | byte :: rest => byte.toNat + 256 * valueOf rest

@[simp]
theorem length_bytesOf (count value : ℕ) : (bytesOf count value).length = count := by
  induction count generalizing value with
  | zero => rfl
  | succ count ih => simp [bytesOf, ih]

theorem valueOf_bytesOf (count value : ℕ) :
    valueOf (bytesOf count value) = value % 256 ^ count := by
  induction count generalizing value with
  | zero => simp [bytesOf, valueOf, Nat.mod_one]
  | succ count ih =>
      rw [bytesOf, valueOf, ih, Nat.pow_succ', Nat.mod_mul, BitVec.toNat_ofNat]

theorem valueOf_append (first second : List Byte) :
    valueOf (first ++ second) = valueOf first + 256 ^ first.length * valueOf second := by
  induction first with
  | nil => simp [valueOf]
  | cons byte rest ih =>
      rw [List.cons_append, valueOf, ih, valueOf, List.length_cons, Nat.pow_succ', Nat.mul_add,
        Nat.mul_assoc, Nat.add_assoc]

theorem valueOf_lt (bytes : List Byte) : valueOf bytes < 256 ^ bytes.length := by
  induction bytes with
  | nil => exact Nat.one_pos
  | cons byte rest ih =>
      have bound := byte.isLt
      rw [valueOf, List.length_cons, Nat.pow_succ']
      omega

/-- The bytes of a number are those of its low part. -/
theorem bytesOf_mod (count value : ℕ) :
    bytesOf count (value % 256 ^ count) = bytesOf count value := by
  induction count generalizing value with
  | zero => rfl
  | succ count ih =>
      have low : BitVec.ofNat 8 (value % 256 ^ (count + 1)) = BitVec.ofNat 8 value := by
        apply BitVec.eq_of_toNat_eq
        rw [BitVec.toNat_ofNat, BitVec.toNat_ofNat]
        exact Nat.mod_mod_of_dvd _ (Dvd.intro_left _ (Nat.pow_succ ..).symm)
      have rest : value % 256 ^ (count + 1) / 256 = value / 256 % 256 ^ count := by
        rw [Nat.pow_succ', Nat.mod_mul_right_div_self]
      rw [bytesOf, bytesOf, low, rest, ih]

/-- The byte at `place` is one of the `count` bytes from `base` on. -/
def Within (place base : Address) (count : ℕ) : Prop :=
  (place - base).toNat < count

instance (place base : Address) (count : ℕ) : Decidable (Within place base count) :=
  inferInstanceAs (Decidable (_ < _))

theorem within_self (base : Address) {count : ℕ} (positive : 0 < count) :
    Within base base count := by
  simpa [Within] using positive

theorem Within.succ {place base : Address} {count : ℕ} (within : Within place (base + 1) count)
    (small : count < 2 ^ 64) : Within place base (count + 1) ∧ place ≠ base := by
  simp only [Within] at within ⊢
  constructor
  · bv_omega
  · rintro rfl
    bv_omega

namespace Memory

/-- The `count` bytes from `base` on. -/
def load (memory : Memory) (base : Address) : ℕ → List Byte
  | 0 => []
  | count + 1 => memory base :: memory.load (base + 1) count

/-- Store bytes from `base` on. -/
def store (memory : Memory) (base : Address) : List Byte → Memory
  | [] => memory
  | byte :: rest => Function.update (memory.store (base + 1) rest) base byte

@[simp]
theorem length_load (memory : Memory) (base : Address) (count : ℕ) :
    (memory.load base count).length = count := by
  induction count generalizing base with
  | zero => rfl
  | succ count ih => rw [load, List.length_cons, ih]

variable {memory other : Memory} {base place : Address} {bytes : List Byte} {count : ℕ}

theorem load_congr (small : count ≤ 2 ^ 64)
    (same : ∀ place, Within place base count → memory place = other place) :
    memory.load base count = other.load base count := by
  induction count generalizing base with
  | zero => rfl
  | succ count ih =>
      rw [load, load, same base (within_self base (Nat.succ_pos count))]
      congr 1
      apply ih (Nat.le_of_succ_le small)
      intro place within
      exact same place (within.succ small).1

/-- A byte after a store: one of those stored, or the one that was there. -/
theorem store_apply (memory : Memory) (base : Address) (small : bytes.length ≤ 2 ^ 64)
    (place : Address) :
    memory.store base bytes place = bytes.getD (place - base).toNat (memory place) := by
  induction bytes generalizing base with
  | nil => rfl
  | cons byte rest ih =>
      by_cases first : place = base
      · simp [store, first]
      · have index : (place - base).toNat = (place - (base + 1)).toNat + 1 := by bv_omega
        rw [store, Function.update_of_ne first, ih (base + 1) (Nat.le_of_succ_le small), index,
          List.getD_cons_succ]

theorem store_of_not_within (small : bytes.length ≤ 2 ^ 64)
    (outside : ¬Within place base bytes.length) : memory.store base bytes place = memory place := by
  rw [store_apply memory base small, List.getD_eq_default _ _ (Nat.not_lt.mp outside)]

theorem load_store (memory : Memory) (base : Address) (small : bytes.length ≤ 2 ^ 64) :
    (memory.store base bytes).load base bytes.length = bytes := by
  induction bytes generalizing base with
  | nil => rfl
  | cons byte rest ih =>
      have behind : (memory.store base (byte :: rest)).load (base + 1) rest.length =
          (memory.store (base + 1) rest).load (base + 1) rest.length := by
        apply load_congr (Nat.le_of_succ_le small)
        intro place within
        exact Function.update_of_ne (within.succ small).2 _ _
      rw [List.length_cons, load, behind, ih (base + 1) (Nat.le_of_succ_le small), store,
        Function.update_self]

theorem getD_overwritten {later : List Byte} {offset : ℕ} (inside : offset ≤ bytes.length)
    (index : ℕ) (byte : Byte) :
    (bytes.take offset ++ later ++ bytes.drop (offset + later.length)).getD index byte =
      if index < offset then bytes.getD index byte
      else later.getD (index - offset) (bytes.getD index byte) := by
  simp only [List.getD_eq_getElem?_getD]
  by_cases before : index < offset
  · rw [if_pos before, List.append_assoc, List.getElem?_append_left (by simp; omega),
      List.getElem?_take_of_lt before]
  · rw [if_neg before]
    by_cases during : index - offset < later.length
    · rw [List.getElem?_append_left (by simp; omega), List.getElem?_append_right (by simp; omega)]
      simp [inside, during]
    · have behind : offset + later.length + (index - (offset + later.length)) = index := by omega
      rw [List.getElem?_append_right (by simp; omega), List.getElem?_drop,
        List.getElem?_eq_none (by omega : later.length ≤ index - offset)]
      simp [inside, behind]

/-- A store that begins inside an earlier one or right behind it, as one store. -/
theorem store_store (memory : Memory) (base : Address) {later : List Byte} {offset : ℕ}
    (inside : offset ≤ bytes.length) (small : offset + later.length + bytes.length ≤ 2 ^ 64) :
    (memory.store base bytes).store (base + BitVec.ofNat 64 offset) later =
      memory.store base
        (bytes.take offset ++ later ++ bytes.drop (offset + later.length)) := by
  funext place
  have bound := (place - base).isLt
  rw [store_apply _ _ (by omega), store_apply _ _ (by omega),
    store_apply _ _ (by simp; omega), getD_overwritten inside]
  by_cases before : (place - base).toNat < offset
  · have outside : later.length ≤ (place - (base + BitVec.ofNat 64 offset)).toNat := by bv_omega
    rw [if_pos before, List.getD_eq_default _ _ outside]
  · have index : (place - (base + BitVec.ofNat 64 offset)).toNat =
        (place - base).toNat - offset := by bv_omega
    rw [if_neg before, index]

/-- A store that reaches from before an earlier one into it, as one store. -/
theorem store_store_before (memory : Memory) (base : Address) {later : List Byte} {offset : ℕ}
    (reaches : offset ≤ later.length) (inside : later.length ≤ offset + bytes.length)
    (small : offset + bytes.length ≤ 2 ^ 64) :
    (memory.store (base + BitVec.ofNat 64 offset) bytes).store base later =
      memory.store base (later ++ bytes.drop (later.length - offset)) := by
  funext place
  have bound := (place - base).isLt
  rw [store_apply _ _ (by omega), store_apply _ _ (by omega), store_apply _ _ (by simp; omega)]
  simp only [List.getD_eq_getElem?_getD]
  by_cases during : (place - base).toNat < later.length
  · rw [List.getElem?_append_left during, List.getElem?_eq_getElem during]
    rfl
  · have index : (place - (base + BitVec.ofNat 64 offset)).toNat =
        (place - base).toNat - offset := by bv_omega
    have behind : later.length - offset + ((place - base).toNat - later.length) =
        (place - base).toNat - offset := by omega
    rw [List.getElem?_append_right (Nat.not_lt.mp during), List.getElem?_drop, behind, index,
      List.getElem?_eq_none (Nat.not_lt.mp during)]
    rfl

theorem load_add (memory : Memory) (base : Address) (first second : ℕ) :
    memory.load base (first + second) =
      memory.load base first ++ memory.load (base + BitVec.ofNat 64 first) second := by
  induction first generalizing base with
  | zero => simp [load]
  | succ first ih =>
      have next : base + 1 + BitVec.ofNat 64 first = base + BitVec.ofNat 64 (first + 1) := by
        rw [BitVec.add_assoc, BitVec.ofNat_add, BitVec.add_comm (BitVec.ofNat 64 first)]
        rfl
      rw [Nat.succ_add, load, ih, load, next, List.cons_append]

theorem load_eq_of_bytes
    (known : ∀ offset < bytes.length,
      memory (base + BitVec.ofNat 64 offset) = bytes.getD offset 0) :
    memory.load base bytes.length = bytes := by
  induction bytes generalizing base with
  | nil => rfl
  | cons byte rest ih =>
      have first := known 0 (Nat.succ_pos _)
      rw [List.length_cons, load, ih]
      · simpa using first
      · intro offset below
        have next := known (offset + 1) (Nat.succ_lt_succ below)
        rwa [BitVec.ofNat_add, BitVec.add_comm (BitVec.ofNat 64 offset), ← BitVec.add_assoc,
          List.getD_cons_succ] at next

/-- The value of `width` bits at `base`. -/
def read (memory : Memory) (width : ℕ) (base : Address) : BitVec width :=
  BitVec.ofNat width (valueOf (memory.load base (width / 8)))

/-- Store a value of `width` bits at `base`. -/
def write (memory : Memory) {width : ℕ} (base : Address) (value : BitVec width) : Memory :=
  memory.store base (bytesOf (width / 8) value.toNat)

/-- A value is made of the values in its two parts. -/
theorem read_append {low high : ℕ} (whole : 8 ∣ low) (memory : Memory) (base : Address) :
    memory.read (high + low) base =
      memory.read high (base + BitVec.ofNat 64 (low / 8)) ++ memory.read low base := by
  rcases whole with ⟨bytes, rfl⟩
  have lowBytes : 8 * bytes / 8 = bytes := Nat.mul_div_cancel_left bytes (by decide)
  have allBytes : (high + 8 * bytes) / 8 = bytes + high / 8 := by omega
  have bits : 2 ^ (8 * bytes) = 256 ^ bytes := Nat.pow_mul 2 8 bytes
  have small : valueOf (memory.load base bytes) < 2 ^ (8 * bytes) := by
    simpa [bits] using valueOf_lt (memory.load base bytes)
  apply BitVec.eq_of_toNat_eq
  rw [BitVec.toNat_append]
  simp only [read, BitVec.toNat_ofNat, lowBytes, allBytes, load_add, valueOf_append, length_load]
  rw [← Nat.shiftLeft_add_eq_or_of_lt (Nat.mod_lt _ (Nat.two_pow_pos _)), Nat.shiftLeft_eq, ← bits,
    Nat.mod_eq_of_lt small, Nat.add_comm high, Nat.pow_add, Nat.mod_mul, Nat.add_mul_mod_self_left,
    Nat.mod_eq_of_lt small, Nat.add_mul_div_left _ _ (Nat.two_pow_pos _), Nat.div_eq_of_lt small,
    Nat.zero_add, Nat.add_comm, Nat.mul_comm]

theorem read_eight (memory : Memory) (base : Address) : memory.read 8 base = memory base := by
  simp [read, load, valueOf]

theorem read_congr {width : ℕ} (small : width / 8 ≤ 2 ^ 64)
    (same : ∀ place, Within place base (width / 8) → memory place = other place) :
    memory.read width base = other.read width base := by
  rw [read, load_congr small same, read]

theorem read_write {width : ℕ} (whole : 8 ∣ width) (small : width / 8 ≤ 2 ^ 64) (memory : Memory)
    (base : Address) (value : BitVec width) :
    (memory.write base value).read width base = value := by
  have bits : 256 ^ (width / 8) = 2 ^ width := by
    rw [show 256 = 2 ^ 8 from rfl, ← Nat.pow_mul, Nat.mul_div_cancel' whole]
  have loaded := load_store memory base
    (show (bytesOf (width / 8) value.toNat).length ≤ 2 ^ 64 by simpa using small)
  rw [length_bytesOf] at loaded
  rw [read, write, loaded, valueOf_bytesOf, bits]
  apply BitVec.eq_of_toNat_eq
  simp

theorem write_of_not_within {width : ℕ} {value : BitVec width} (small : width / 8 ≤ 2 ^ 64)
    (outside : ¬Within place base (width / 8)) : memory.write base value place = memory place := by
  apply store_of_not_within
  · simpa using small
  · simpa using outside

end Memory

end VirtLearn
