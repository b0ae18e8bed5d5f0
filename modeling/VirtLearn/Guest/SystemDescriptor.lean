import VirtLearn.Machine.Logic
import VirtLearn.Machine.Regions

/-!
# System descriptors

`__set_system_descriptor` of `libs64.S` builds a descriptor of the global descriptor table from a
base, a limit and a type. The base goes to its three places by two overlapping stores, and the low
part of the limit over what they leave in front. The last byte, with the top of the limit and the
granularity, is shifted together by a 16-bit `shrd` by 17 bits. The processor defines no result of
a shift that far (`wp_setSystemDescriptor_iff`).
-/

namespace VirtLearn.Guest

open Assembly Register

/--
Where the table is, as `sgdt` tells it, and where the routine has it told: the `gdt_pointer` of
`libs64.S` is no part of the table, which does not reach around the address space.
-/
structure DescriptorTable where
  gdtPointer : Address
  limit : BitVec 16
  base : Address
  room : base.toNat + limit.toNat < 2 ^ 64
  apart : Apart gdtPointer 10 base (limit.toNat + 1)

variable (table : DescriptorTable)

/-- `__set_system_descriptor`, on a processor that leaves `undefined` where it may do anything. -/
def setSystemDescriptor (undefined : BitVec 16) : Routine Unit := do
  sgdt table.limit table.base table.gdtPointer
  mov 64 (.symbol (table.gdtPointer + 2)) (.reg rax)
  and_ 64 (.imm 0xfff8) (.reg rsi)
  mov 64 (.reg r8) (.mem 4 (some rax) (some rsi))
  mov 32 (.reg r8) (.mem 2 (some rax) (some rsi))
  or_ 8 (.imm 0x80) (.reg r9)
  mov 8 (.reg r9) (.mem 5 (some rax) (some rsi))
  mov 64 (.reg rdi) (.reg r8)
  shr 64 12 (.reg r8)
  cmovz 32 (.reg rdi) (.reg r8)
  setnz (.reg rdi)
  mov 16 (.reg r8) (.mem 0 (some rax) (some rsi))
  shl 16 5 (.reg r8)
  shrd 16 17 undefined (.reg rdi) (.reg r8)
  mov 8 (.reg r8) (.mem 6 (some rax) (some rsi))

/-! ### One descriptor -/

/-- What the processor reads from a system descriptor; the limit is in bytes. -/
structure SystemDescriptor where
  base : BitVec 64
  limit : ℕ
  granularity : Bool
  type : BitVec 4
  system : Bool
  dpl : BitVec 2
  present : Bool
deriving DecidableEq

def decodeDescriptor (bytes : List Byte) : SystemDescriptor :=
  let limit := valueOf (bytes.take 2) + 2 ^ 16 * ((bytes.getD 6 0).toNat % 16)
  let granularity := (bytes.getD 6 0).getLsbD 7
  { base := BitVec.ofNat 64 (valueOf ((bytes.drop 2).take 3 ++ (bytes.drop 7).take 5))
    limit := if granularity then 2 ^ 12 * limit + 0xfff else limit
    granularity
    type := (bytes.getD 5 0).extractLsb' 0 4
    system := !(bytes.getD 5 0).getLsbD 4
    dpl := (bytes.getD 5 0).extractLsb' 5 2
    present := (bytes.getD 5 0).getLsbD 7 }

def descriptorAt (memory : Memory) (address : Address) : SystemDescriptor :=
  decodeDescriptor (memory.load address 16)

/-- The descriptor asked for: a limit from 4 KiB on is rounded up to the end of its page. -/
def systemDescriptor (base : BitVec 64) (limit : BitVec 32) (type : BitVec 4) :
    SystemDescriptor where
  base := base
  limit := if limit.toNat < 0x1000 then limit.toNat else limit.toNat ||| 0xfff
  granularity := 0x1000 ≤ limit.toNat
  type := type
  system := true
  dpl := 0
  present := true

/-- The low word of the limit, in bytes or in pages. -/
def limitWord (limit : BitVec 32) : BitVec 16 :=
  if limit.toNat < 0x1000 then limit.setWidth 16 else (limit >>> 12).setWidth 16

/-- The bytes of a descriptor that are written, with `last` for the top of the limit. -/
def descriptorBytes (base : BitVec 64) (limit : BitVec 32) (attributes last : Byte) : List Byte :=
  bytesOf 2 (limitWord limit).toNat ++ (bytesOf 8 base.toNat).take 3 ++ [attributes, last] ++
    (bytesOf 8 base.toNat).drop 3

def DescriptorTable.address (selector : BitVec 64) : Address :=
  table.base + (selector &&& 0xfff8)

def DescriptorTable.scratch : List Byte :=
  bytesOf 2 table.limit.toNat ++ bytesOf 8 table.base.toNat

def DescriptorTable.InRam (machine : Machine) : Prop :=
  ∀ place, Within place table.gdtPointer 10 ∨ Within place table.base (table.limit.toNat + 1) →
    machine.ram place = true

/-- The 16 bytes of the descriptor that a selector names are in the table. -/
def DescriptorTable.Holds (selector : BitVec 64) : Prop :=
  (selector &&& 0xfff8).toNat + 15 ≤ table.limit.toNat

/-- What a processor may leave as the top of the limit for the descriptor to be right. -/
def TopOfLimit (limit : BitVec 32) (last : BitVec 16) : Prop :=
  last.getLsbD 7 = decide (0x1000 ≤ limit.toNat) ∧ last.toNat % 16 = limit.toNat / 2 ^ 28

/-- The descriptor is the one asked for, and every other byte of the table is as before. -/
structure Describes (selector base : BitVec 64) (limit : BitVec 32) (type : BitVec 4)
    (before after : Memory) : Prop where
  decoded : descriptorAt after (table.address selector) = systemDescriptor base limit type
  others : ∀ place, Within place table.base (table.limit.toNat + 1) →
    ¬Within place (table.address selector) 16 → after place = before place

@[simp]
theorem length_descriptorBytes (base : BitVec 64) (limit : BitVec 32) (attributes last : Byte) :
    (descriptorBytes base limit attributes last).length = 12 := by
  simp [descriptorBytes]

/-- Of the two copies of the base, the first shows behind the second. -/
theorem write_base (memory : Memory) (address : Address) (base : BitVec 64) :
    (memory.write (address + 4) base).write (address + 2) (base.setWidth 32) =
      memory.store (address + BitVec.ofNat 64 2)
        (bytesOf 4 base.toNat ++ (bytesOf 8 base.toNat).drop 2) := by
  have fourth : address + 4 = address + BitVec.ofNat 64 2 + BitVec.ofNat 64 2 := by
    rw [BitVec.add_assoc]
    rfl
  have second : address + 2 = address + BitVec.ofNat 64 2 := rfl
  have low : bytesOf (32 / 8) (base.setWidth 32).toNat = bytesOf 4 base.toNat := by
    rw [BitVec.toNat_setWidth]
    exact bytesOf_mod 4 base.toNat
  simp only [Memory.write, fourth, second, low]
  rw [Memory.store_store_before _ _ (by simp) (by simp) (by simp), length_bytesOf]

theorem write_descriptor (memory : Memory) (address : Address) (base : BitVec 64)
    (limit : BitVec 32) (attributes last : Byte) :
    (((((memory.write (address + 4) base).write (address + 2) (base.setWidth 32)).write
      (address + 5) attributes).write address (limitWord limit)).write (address + 6) last) =
        memory.store address (descriptorBytes base limit attributes last) := by
  have fifth : address + 5 = address + BitVec.ofNat 64 2 + BitVec.ofNat 64 3 := by
    rw [BitVec.add_assoc]
    rfl
  have sixth : address + 6 = address + BitVec.ofNat 64 6 := rfl
  rw [write_base]
  simp only [Memory.write, fifth, sixth]
  rw [@Memory.store_store _ memory _ _ 3 (by simp) (by simp),
    @Memory.store_store_before _ memory _ _ 2 (by simp) (by simp) (by simp),
    Memory.store_store _ _ (by simp) (by simp)]
  simp [bytesOf, descriptorBytes]

/-- The bytes of the base in their three places. -/
theorem valueOf_base (base : BitVec 64) :
    BitVec.ofNat 64 (valueOf ((bytesOf 8 base.toNat).take 3 ++ (bytesOf 8 base.toNat).drop 3)) =
      base := by
  rw [List.take_append_drop, valueOf_bytesOf]
  apply BitVec.eq_of_toNat_eq
  rw [BitVec.toNat_ofNat, Nat.mod_mod_of_dvd _ (by decide)]
  exact Nat.mod_eq_of_lt base.isLt

theorem attributes_type (type : BitVec 4) :
    (type.setWidth 8 ||| (0x80 : BitVec 8)).extractLsb' 0 4 = type ∧
      (type.setWidth 8 ||| (0x80 : BitVec 8)).getLsbD 4 = false ∧
      (type.setWidth 8 ||| (0x80 : BitVec 8)).extractLsb' 5 2 = 0 ∧
      (type.setWidth 8 ||| (0x80 : BitVec 8)).getLsbD 7 = true := by
  revert type
  decide

/-- Every limit has an outcome with the wrong granularity. -/
theorem exists_not_topOfLimit (limit : BitVec 32) : ∃ last, ¬TopOfLimit limit last := by
  by_cases short : limit.toNat < 0x1000
  · refine ⟨0x80, ?_⟩
    rintro ⟨granular, _⟩
    have paged := of_decide_eq_true (granular.symm.trans rfl)
    omega
  · refine ⟨0, ?_⟩
    rintro ⟨granular, _⟩
    have small := of_decide_eq_false (granular.symm.trans rfl)
    omega

theorem toNat_limitWord (limit : BitVec 32) :
    (limitWord limit).toNat =
      if limit.toNat < 0x1000 then limit.toNat else limit.toNat / 2 ^ 12 % 2 ^ 16 := by
  rw [limitWord]
  split
  · rw [BitVec.toNat_setWidth]
    omega
  · rw [BitVec.toNat_setWidth, BitVec.toNat_ushiftRight, Nat.shiftRight_eq_div_pow]

/-- A limit rounded up to the end of its page. -/
theorem or_page (limit : ℕ) : limit ||| 0xfff = 2 ^ 12 * (limit / 2 ^ 12) + 0xfff := by
  have low : limit ||| 0xfff = (limit / 2 ^ 12) <<< 12 ||| 0xfff := by
    apply Nat.eq_of_testBit_eq
    intro bit
    rw [show 0xfff = 2 ^ 12 - 1 from rfl, Nat.testBit_or, Nat.testBit_or,
      Nat.testBit_two_pow_sub_one, Nat.testBit_shiftLeft, Nat.testBit_div_two_pow]
    by_cases below : bit < 12
    · simp [below]
    · have reached : 12 ≤ bit := by omega
      simp [below, reached]
  rw [low, ← Nat.shiftLeft_add_eq_or_of_lt (by decide), Nat.shiftLeft_eq, Nat.mul_comm]

/-- Whatever the last four bytes are, the top of the limit decides. -/
theorem decodeDescriptor_descriptorBytes (base : BitVec 64) (limit : BitVec 32) (type : BitVec 4)
    (last : BitVec 16) (rest : List Byte) :
    decodeDescriptor (descriptorBytes base limit (type.setWidth 8 ||| 0x80) (last.setWidth 8) ++
      rest) = systemDescriptor base limit type ↔ TopOfLimit limit last := by
  rcases attributes_type type with ⟨typed, system, dpl, present⟩
  have whole := valueOf_base base
  have word : valueOf (bytesOf 2 (limitWord limit).toNat) = (limitWord limit).toNat := by
    rw [valueOf_bytesOf]
    exact Nat.mod_eq_of_lt (limitWord limit).isLt
  simp only [BitVec.ofNat_eq_ofNat] at typed dpl
  simp [bytesOf] at whole word
  simp [bytesOf, decodeDescriptor, descriptorBytes, systemDescriptor, whole, word, typed, dpl]
  have bound := limit.isLt
  rw [toNat_limitWord, or_page, TopOfLimit, BitVec.getLsbD_eq_getElem (by decide : 7 < 16)]
  constructor
  · rintro ⟨length, granular⟩
    refine ⟨granular, ?_⟩
    by_cases short : limit.toNat < 0x1000
    · have clear : last[7] = false := by rw [granular]; simpa using short
      simp only [clear, short, Bool.false_eq_true, if_true, if_false] at length
      omega
    · have set : last[7] = true := by rw [granular]; simpa using short
      simp only [set, short, if_true, if_false] at length
      omega
  · rintro ⟨granular, top⟩
    refine ⟨?_, granular⟩
    by_cases short : limit.toNat < 0x1000
    · have clear : last[7] = false := by rw [granular]; simpa using short
      simp only [clear, short, Bool.false_eq_true, if_true, if_false]
      omega
    · have set : last[7] = true := by rw [granular]; simpa using short
      simp only [set, short, if_true, if_false]
      omega

/-! ### The routine -/

variable {table}

theorem write_gdtPointer (memory : Memory) :
    (memory.write table.gdtPointer table.limit).write (table.gdtPointer + 2) table.base =
      memory.store table.gdtPointer table.scratch :=
  Memory.store_store memory table.gdtPointer (Nat.le_refl 2) (by simp)

theorem DescriptorTable.Holds.within {selector : BitVec 64} (holds : table.Holds selector)
    {offset : ℕ} (below : offset < 16) :
    Within (table.address selector + BitVec.ofNat 64 offset) table.base
      (table.limit.toNat + 1) := by
  have room := table.room
  have cancelled : table.address selector + BitVec.ofNat 64 offset - table.base =
      (selector &&& 0xfff8) + BitVec.ofNat 64 offset := by
    rw [DescriptorTable.address, BitVec.add_assoc, BitVec.add_comm, BitVec.add_sub_cancel]
  simp only [DescriptorTable.Holds] at holds
  have small := table.limit.isLt
  rw [Within, cancelled, BitVec.toNat_add, BitVec.toNat_ofNat]
  omega

section

variable {machine : Machine} {limit : BitVec 32} {type : BitVec 4} {post : Unit → Machine → Prop}
  {rest : Routine Unit}

theorem effective_of_place {place : Address}
    (found : machine.registers rax + machine.registers rsi = place) (offset : Address) :
    machine.effective offset (some rax) (some rsi) = place + offset := by
  rw [← found, BitVec.add_comm, ← BitVec.add_assoc]
  rfl

/-- The table is found, and the offset of the descriptor in it. -/
theorem wp_table (inRam : table.InRam machine)
    (remaining : ∀ after,
      OnlyRegisters [rax, rsi] { machine with
        memory := machine.memory.store table.gdtPointer table.scratch } after →
      after.registers rax = table.base →
      after.registers rsi = machine.registers rsi &&& 0xfff8 → wp rest post after) :
    wp (do
      sgdt table.limit table.base table.gdtPointer
      mov 64 (.symbol (table.gdtPointer + 2)) (.reg rax)
      and_ 64 (.imm 0xfff8) (.reg rsi)
      rest) post machine := by
  have pointer : machine.ram table.gdtPointer = true := by
    apply inRam
    simp [Within]
  have pointerBase : machine.ram (table.gdtPointer + 2#64) = true := by
    apply inRam
    left
    simp [Within]
  have stored := @write_gdtPointer table machine.memory
  simp only [BitVec.ofNat_eq_ofNat] at stored
  simp [Operand.symbol, Machine.effective, pointerBase, Machine.memory_poke, pointer,
    Memory.read_write]
  apply remaining
  · refine (((?_ : OnlyRegisters _ _ _).put ?_ _).put ?_ _).withFlags _ _
    · constructor <;> simp [Machine.memory_poke, Machine.writes_poke, pointer, pointerBase, stored]
    · simp
    · simp
  · simp
  · simp

/-- The bytes around the low word of the limit. -/
theorem wp_attributes {place : Address}
    (found : machine.registers rax + machine.registers rsi = place)
    (inRam : ∀ offset < 16, machine.ram (place + BitVec.ofNat 64 offset) = true)
    (typed : machine.get 8 r9 = type.setWidth 8)
    (remaining : ∀ after,
      OnlyRegisters [r9] { machine with
        memory := ((machine.memory.write (place + 4) (machine.registers r8)).write (place + 2)
          ((machine.registers r8).setWidth 32)).write (place + 5)
            (type.setWidth 8 ||| 0x80) } after → wp rest post after) :
    wp (do
      mov 64 (.reg r8) (.mem 4 (some rax) (some rsi))
      mov 32 (.reg r8) (.mem 2 (some rax) (some rsi))
      or_ 8 (.imm 0x80) (.reg r9)
      mov 8 (.reg r9) (.mem 5 (some rax) (some rsi))
      rest) post machine := by
  have reached : ∀ offset : Address, offset + machine.registers rax + machine.registers rsi =
      place + offset := by
    intro offset
    rw [BitVec.add_assoc, found, BitVec.add_comm]
  have two := inRam 2 (by decide)
  have four := inRam 4 (by decide)
  have five := inRam 5 (by decide)
  simp [Machine.effective, Machine.get_poke, typed, reached]
  apply remaining
  constructor
  · intro register kept
    simp at kept
    simp [kept]
  all_goals simp [Machine.memory_poke, Machine.writes_poke, two, four, five, Machine.get]

/-- The low word of the limit is worked out in `r8`. -/
theorem wp_limitWord (limited : machine.registers rdi = limit.setWidth 64)
    (remaining : ∀ after, OnlyRegisters [r8, rdi] machine after →
      after.get 16 r8 = limitWord limit → wp rest post after) :
    wp (do
      mov 64 (.reg rdi) (.reg r8)
      shr 64 12 (.reg r8)
      cmovz 32 (.reg rdi) (.reg r8)
      setnz (.reg rdi)
      rest) post machine := by
  simp [limited]
  apply remaining
  · refine ((((OnlyRegisters.refl _ machine).put ?_ _).put ?_ _).withFlags _ _).put ?_ _ |>.put ?_ _
      <;> simp
  · have shifted : limit.setWidth 64 >>> 12 = 0#64 ↔ limit.toNat < 0x1000 := by
      rw [← BitVec.toNat_inj, BitVec.toNat_ushiftRight, Nat.shiftRight_eq_div_pow]
      simp
      omega
    have small := limit.isLt
    rw [Machine.get_put_of_ne (by decide), Machine.get, Machine.registers_put, if_pos rfl,
      Machine.setWidth_merge (by decide) (by decide), limitWord]
    simp only [shifted]
    split
    · simp [Machine.get, limited]
    · simp only [Machine.get, Machine.registers_put, if_pos, Machine.merge_qword]
      bv_omega

/-- Whatever the shifts leave as the top of the limit. -/
theorem wp_topOfLimit (undefined : BitVec 16)
    (remaining : ∀ after, OnlyRegisters [r8] machine after →
      after.get 8 r8 = undefined.setWidth 8 → wp rest post after) :
    wp (do
      shl 16 5 (.reg r8)
      shrd 16 17 undefined (.reg rdi) (.reg r8)
      rest) post machine := by
  simp
  apply remaining
  · refine ((((OnlyRegisters.refl _ machine).put ?_ _).withFlags _ _).put ?_ _).withFlags _ _
      <;> simp
  · rw [Machine.get_withFlags, Machine.get, Machine.registers_put, if_pos rfl,
      Machine.setWidth_merge (by decide) (by decide)]

theorem wp_setSystemDescriptor (undefined : BitVec 16)
    (holds : table.Holds (machine.registers rsi)) (inRam : table.InRam machine)
    (limited : machine.registers rdi = limit.setWidth 64)
    (typed : machine.get 8 r9 = type.setWidth 8) :
    wp (setSystemDescriptor table undefined) (fun _ after => after.stack = machine.stack ∧
      after.memory = (machine.memory.store table.gdtPointer table.scratch).store
        (table.address (machine.registers rsi))
        (descriptorBytes (machine.registers r8) limit (type.setWidth 8 ||| 0x80)
          (undefined.setWidth 8))) machine := by
  apply wp_table inRam
  intro first found based selected
  have place : first.registers rax + first.registers rsi =
      table.address (machine.registers rsi) := by
    rw [based, selected]
    rfl
  have room : ∀ offset < 16, machine.ram
      (table.address (machine.registers rsi) + BitVec.ofNat 64 offset) = true := by
    intro offset below
    exact inRam _ (Or.inr (holds.within below))
  have base := found.registers r8 (by decide)
  apply @wp_attributes first type _ _ _ place (by rwa [found.ram])
  · rw [Machine.get, found.registers r9 (by decide)]
    exact typed
  intro second around
  apply @wp_limitWord second limit
  · rw [around.registers rdi (by decide)]
    exact (found.registers rdi (by decide)).trans limited
  intro third word lowWord
  have thirdPlace : third.registers rax + third.registers rsi =
      table.address (machine.registers rsi) := by
    rw [word.registers rax (by decide), word.registers rsi (by decide),
      around.registers rax (by decide), around.registers rsi (by decide)]
    exact place
  have thirdRam : third.ram = machine.ram := by rw [word.ram, around.ram, found.ram]
  have zeroth : third.ram (table.address (machine.registers rsi) + 0) = true := by
    rw [thirdRam]
    exact room 0 (by decide)
  rw [wp_bind, mov, wp_bind, wp_fetch_reg, wp_assign_mem, lowWord, effective_of_place thirdPlace,
    Machine.poke_of_ram zeroth]
  apply wp_topOfLimit
  intro last top topByte
  have lastPlace : last.registers rax + last.registers rsi =
      table.address (machine.registers rsi) := by
    rw [top.registers rax (by decide), top.registers rsi (by decide)]
    exact thirdPlace
  have sixth : last.ram (table.address (machine.registers rsi) + 6) = true := by
    rw [top.ram]
    exact thirdRam ▸ room 6 (by decide)
  rw [mov, wp_bind, wp_fetch_reg, wp_assign_mem, topByte, effective_of_place lastPlace,
    Machine.poke_of_ram sixth]
  constructor
  · exact top.stack.trans (word.stack.trans (around.stack.trans found.stack))
  · simp only [top.memory, word.memory, around.memory, found.memory, base, BitVec.ofNat_eq_ofNat,
      BitVec.add_zero]
    exact write_descriptor _ _ _ _ _ _

/-- The last four bytes are those that were there. -/
theorem descriptorAt_store (memory : Memory) (address : Address) {bytes : List Byte}
    (length : bytes.length = 12) :
    ∃ rest, descriptorAt (memory.store address bytes) address =
      decodeDescriptor (bytes ++ rest) := by
  have loaded := @Memory.load_store bytes memory address (by rw [length]; decide)
  rw [length] at loaded
  refine ⟨(memory.store address bytes).load (address + BitVec.ofNat 64 12) 4, ?_⟩
  rw [descriptorAt, Memory.load_add _ _ 12 4, loaded]

theorem describes_iff {memory : Memory} {selector base : BitVec 64} {undefined : BitVec 16} :
    Describes table selector base limit type memory
      ((memory.store table.gdtPointer table.scratch).store (table.address selector)
        (descriptorBytes base limit (type.setWidth 8 ||| 0x80) (undefined.setWidth 8))) ↔
      TopOfLimit limit undefined := by
  have scratchLength : table.scratch.length = 10 := by simp [DescriptorTable.scratch]
  rcases descriptorAt_store (memory.store table.gdtPointer table.scratch)
    (table.address selector) (length_descriptorBytes base limit (type.setWidth 8 ||| 0x80)
      (undefined.setWidth 8)) with ⟨rest, loaded⟩
  constructor
  · intro describes
    rw [← decodeDescriptor_descriptorBytes base limit type undefined rest, ← loaded]
    exact describes.decoded
  · intro top
    have decodes := (decodeDescriptor_descriptorBytes base limit type undefined rest).mpr top
    refine ⟨loaded.trans decodes, ?_⟩
    intro place inTable outside
    have outsideBytes : ¬Within place (table.address selector) 12 := by
      intro inside
      exact outside (Nat.lt_of_lt_of_le inside (by decide))
    have outsideScratch : ¬Within place table.gdtPointer 10 :=
      fun inScratch => table.apart place inScratch inTable
    rw [Memory.store_of_not_within (by rw [length_descriptorBytes]; decide)
        (by rwa [length_descriptorBytes]),
      Memory.store_of_not_within (by rw [scratchLength]; decide) (by rwa [scratchLength])]

/--
The descriptor is right exactly if the processor happens to leave the top of the limit and the
granularity where the 16-bit `shrd` by 17 bits leaves anything, so it is never to be relied on.
-/
theorem wp_setSystemDescriptor_iff (table : DescriptorTable) (machine : Machine)
    (limit : BitVec 32) (type : BitVec 4) (holds : table.Holds (machine.registers rsi))
    (inRam : table.InRam machine) (limited : machine.registers rdi = limit.setWidth 64)
    (typed : machine.get 8 r9 = type.setWidth 8) :
    (∀ undefined, wp (setSystemDescriptor table undefined) (fun _ after =>
      after.stack = machine.stack ∧
        (Describes table (machine.registers rsi) (machine.registers r8) limit type machine.memory
          after.memory ↔ TopOfLimit limit undefined)) machine) ∧
      ¬∀ undefined, wp (setSystemDescriptor table undefined) (fun _ after =>
        Describes table (machine.registers rsi) (machine.registers r8) limit type machine.memory
          after.memory) machine := by
  have exactly : ∀ undefined, wp (setSystemDescriptor table undefined) (fun _ after =>
      after.stack = machine.stack ∧
        (Describes table (machine.registers rsi) (machine.registers r8) limit type machine.memory
          after.memory ↔ TopOfLimit limit undefined)) machine := by
    intro undefined
    apply (wp_setSystemDescriptor undefined holds inRam limited typed).mono
    rintro _ after ⟨stack, memory⟩
    rw [memory]
    exact ⟨stack, describes_iff⟩
  refine ⟨exactly, ?_⟩
  intro always
  -- A result with the wrong granularity.
  rcases exists_not_topOfLimit limit with ⟨undefined, wrong⟩
  rcases exactly undefined with ⟨_, after, ends, _, describes⟩
  exact wrong (describes.mp ((wp_iff_of_ends ends).mp (always undefined)))

end

/-- A table of 24 descriptors at 0x200000, and `gdt_pointer` at 0x10000. -/
def bootTable : DescriptorTable where
  gdtPointer := 0x10000
  limit := 0xbf
  base := 0x200000
  room := by decide
  apart := apart_of_toNat_le (by decide) (by decide)

/-- The machine as `learn.S` calls the routine for its task state segment. -/
def taskStateMachine : Machine where
  registers := fun register =>
    if register = rsi then 0x58 else if register = rdi then 0x67
    else if register = r8 then 0x201000 else if register = r9 then 0x9 else 0
  ram := fun _ => true
  memory := fun _ => 0

theorem wp_setSystemDescriptor_iff_taskState :
    ¬∀ undefined, wp (setSystemDescriptor bootTable undefined) (fun _ after =>
      Describes bootTable 0x58 0x201000 0x67 0x9 taskStateMachine.memory after.memory)
        taskStateMachine :=
  (wp_setSystemDescriptor_iff bootTable taskStateMachine 0x67 0x9 (Nat.le_of_ble_eq_true rfl)
    (fun _ _ => rfl) rfl rfl).2

/-- With all ones for the result of the shift, the limit would be 0xf0067fff. -/
theorem not_describes_taskState :
    ¬wp (setSystemDescriptor bootTable 0xffff) (fun _ after =>
      Describes bootTable 0x58 0x201000 0x67 0x9 taskStateMachine.memory after.memory)
        taskStateMachine := by
  intro right
  rcases @wp_setSystemDescriptor bootTable taskStateMachine 0x67 0x9 0xffff
    (Nat.le_of_ble_eq_true rfl) (fun _ _ => rfl) rfl rfl with ⟨_, after, ends, _, memory⟩
  have describes := (wp_iff_of_ends ends).mp right
  rw [memory] at describes
  have granular := (describes_iff.mp describes).1
  exact absurd granular (by decide)

end VirtLearn.Guest
