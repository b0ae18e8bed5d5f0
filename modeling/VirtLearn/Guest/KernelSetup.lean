import VirtLearn.Guest.SystemCopy

/-!
# The kernel before user mode

The code of `learn.S` from `entry64` to its far return: it copies the tables of the image to their
own pages, has the processor use them there, installs the handlers, enables the local APIC and goes
to user mode. The descriptor of the task state segment comes from `set_system_descriptor`, which
leaves the top of its limit to the processor; whatever that is, the segment is long enough
(`wp_kernelSetup`).
-/

namespace VirtLearn.Guest

open Assembly Register Paging

section Code

variable (symbols : KernelSymbols)

/-- The pointer to a table, in the copy, gets the address of the table in the copy. -/
def relocate (pointerAt tableAt : ℕ) : Routine Unit := do
  mov 64 (.imm systemData64Base) (.reg rbx)
  add 64 (.imm (BitVec.ofNat 64 pointerAt)) (.reg rbx)
  mov 64 (.imm (systemData64Base + BitVec.ofNat 64 tableAt)) (.reg rax)
  mov 64 (.reg rax) (.mem 2 (some rbx) none)

/-- A routine that stores `GDTR` or `IDTR`, where the register has this limit and base. -/
def whereTable (register : Processor → TableRegister) (limit : BitVec 16) (base : Address)
    (routine : Routine Unit) : Privileged Unit := do
  if register (← get) = { limit, base } then onMachine routine else failure

/-- The descriptor of the task state segment, on a processor that leaves `undefined` where it may do
anything. -/
def setTaskState (undefined : BitVec 16) : Privileged Unit := do
  onMachine do
    mov 64 (.imm tss64Sel) (.reg rsi)
    mov 64 (.imm 0x67) (.reg rdi)
    mov 64 (.imm (systemData64Base + BitVec.ofNat 64 taskStatusSegmentAt)) (.reg r8)
    mov 64 (.imm tss64) (.reg r9)
  whereTable Processor.gdtr symbols.gdt.limit symbols.gdt.base
    (call (setSystemDescriptor symbols.gdt undefined))
  onMachine (mov 16 (.imm (tss64Sel.setWidth 16)) (.reg rax))
  ltr

def installHandlers : Privileged Unit :=
  whereTable Processor.idtr symbols.idt.limit symbols.idt.base
    (installAll symbols.idt symbols.handlerCalls)

def enableApic : Privileged Unit := do
  onMachine (mov 64 (.imm (ia32ApicBase.setWidth 64)) (.reg rcx))
  readMsr
  onMachine (bts 64 11 (.reg rax))
  wrmsr
  onMachine (bts 32 8 (.symbol ApicRegister.svr.address))

def loadSegments : Privileged Unit := do
  onMachine (mov 16 (.imm kernelSS) (.reg rax))
  loadData .ds
  loadData .es
  loadStack

/-- The version of the local APIC is read, and user mode is asked for. -/
def pushEntry : Routine Unit := do
  mov 32 (.symbol ApicRegister.apicVer.address) (.reg rax)
  pushImm (userSS ||| 0x3)
  mov 64 (.imm userRsp) (.reg rax)
  push rax
  pushImm (userCS ||| 0x3)
  pushImm (symbols.userEntry.setWidth 32)

/-- From `entry64` to `retfq`. -/
def kernelSetup (undefined : BitVec 16) : Privileged Entry := do
  loadSegments
  movRsp processor0KernelRsp
  onMachine (copySystemData symbols)
  cli
  onMachine (relocate gdtPointer64At globalDescriptorTableAt)
  lgdt rbx
  onMachine (relocate idtPointer64At interruptDescriptorTableAt)
  lidt rbx
  setTaskState symbols undefined
  installHandlers symbols
  sti
  callPrivileged enableApic
  onMachine (pushEntry symbols)
  retfqOuter

end Code

/-! ### The instructions in order -/

section Instructions

variable {processor : Processor} {machine : Machine} {ram : Address → Bool} {memory : Memory}
  {post : Unit → Processor → Prop}

/-- Between its calls the kernel has nothing on its stack, and nothing that matters in registers. -/
structure Rests (ram : Address → Bool) (memory : Memory) (machine : Machine) : Prop where
  stack : machine.stack = []
  ram : machine.ram = ram
  memory : machine.memory = memory

/-- `rax` names a data segment of the most privileged level, at which the code is. -/
structure NamesData (processor : Processor) (selector : BitVec 16)
    (descriptor : SegmentDescriptor) : Prop where
  selected : processor.machine.get 16 rax = selector
  notNull : ¬IsNull selector
  requested : rpl selector = 0
  found : processor.gdtr.descriptor processor.machine.memory selector = some descriptor
  readable : descriptor.readable = true
  writable : descriptor.writable = true
  present : descriptor.present = true
  level : descriptor.dpl = 0
  kernel : processor.cpl = 0

namespace NamesData

variable {selector : BitVec 16} {descriptor : SegmentDescriptor}

theorem wp_loadData (names : NamesData processor selector descriptor) (segment : Segment)
    (remaining : post () (processor.select segment selector)) :
    wpPrivileged (loadData segment) post processor := by
  have allowed : descriptor.readable = true ∧ descriptor.present = true ∧
      (descriptor.conforming = true ∨ rpl selector ≤ descriptor.dpl ∧
        processor.cpl ≤ descriptor.dpl) := by
    rw [names.requested, names.level, names.kernel]
    exact ⟨names.readable, names.present, Or.inr ⟨by decide, by decide⟩⟩
  simp only [loadData, wpPrivileged_bind, wpPrivileged_get, names.selected, names.notNull, if_false,
    names.found]
  rwa [if_pos allowed, wpPrivileged_set]

theorem wp_loadStack (names : NamesData processor selector descriptor)
    (remaining : post () (processor.select .ss selector)) :
    wpPrivileged loadStack post processor := by
  have allowed : descriptor.writable = true ∧ descriptor.present = true ∧
      rpl selector = processor.cpl ∧ descriptor.dpl = processor.cpl := by
    rw [names.kernel]
    exact ⟨names.writable, names.present, names.requested, names.level⟩
  simp only [loadStack, wpPrivileged_bind, wpPrivileged_get, names.selected, names.notNull,
    if_false, names.found]
  rwa [if_pos allowed, wpPrivileged_set]

end NamesData

/-- The kernel may load its data segment, which `rax` names. -/
def MayLoad (processor : Processor) : Prop :=
  processor.machine.get 16 rax = kernelSS ∧
    processor.gdtr.descriptor processor.machine.memory kernelSS = some (segmentOf kernelSS) ∧
    processor.cpl = 0

theorem MayLoad.names (may : MayLoad processor) :
    NamesData processor kernelSS (segmentOf kernelSS) := by
  rcases may with ⟨selected, found, kernel⟩
  rw [kernelSS, segmentOf_kernelSS] at found ⊢
  exact ⟨selected, by decide, by decide, found, by decide, by decide, by decide, by decide, kernel⟩

/-- The selectors of the kernel: the code segment as it was, and one for all data. -/
def kernelSelectors (selectors : Segment → BitVec 16) : Segment → BitVec 16
  | .cs => selectors .cs
  | _ => kernelSS

theorem wp_loadSegments {entry : Address}
    (gdtr : processor.gdtr = { limit := gdtLimit, base := entry })
    (image : SystemDataAt processor.machine.memory entry) (kernel : processor.cpl = 0)
    (remaining : post () { processor with
      machine := processor.machine.put rax kernelSS
      selectors := kernelSelectors processor.selectors }) :
    wpPrivileged loadSegments post processor := by
  have found : processor.gdtr.descriptor processor.machine.memory kernelSS =
      some (segmentOf kernelSS) := by
    rw [gdtr]
    apply descriptor_of_load (by decide)
    exact load_globalDescriptorTable image (by decide)
  have may : MayLoad { processor with machine := processor.machine.put rax kernelSS } :=
    ⟨by simp, found, kernel⟩
  have selectors : kernelSelectors processor.selectors =
      Function.update (Function.update (Function.update processor.selectors .ds kernelSS) .es
        kernelSS) .ss kernelSS := by
    funext segment
    cases segment <;> rfl
  rw [selectors] at remaining
  simp only [loadSegments, wpPrivileged_bind, wpPrivileged_onMachine, mov, wp_bind, wp_fetch_imm,
    wp_assign_reg]
  refine may.names.wp_loadData .ds ?_
  refine NamesData.wp_loadData (MayLoad.names ?_) .es ?_
  · exact ⟨may.1, found, kernel⟩
  refine NamesData.wp_loadStack (MayLoad.names ?_) ?_
  · exact ⟨may.1, found, kernel⟩
  exact remaining

theorem wp_copySystemData {symbols : KernelSymbols} (rests : Rests ram memory machine)
    (mapped : WindowsMapped ram) :
    wp (copySystemData symbols)
      (fun _ after => Rests ram (copied symbols.systemData64Entry memory) after) machine := by
  rcases symbols.tables with ⟨above, below⟩
  have size : systemData64Size = 2564 := rfl
  have apart : Apart symbols.systemData64Entry systemData64Size systemData64Base
      systemData64Size := by
    apply apart_of_toNat_le
    · have base : systemData64Base.toNat = 0xfffffff800000000 := rfl
      omega
    · decide
  simp only [copySystemData, repMovsb, mov, wp_bind, wp_fetch_imm, wp_assign_reg, wp_get]
  generalize next_eq : Machine.put _ _ _ = next
  have counted : (next.registers rcx).toNat = systemData64Size := by
    rw [← next_eq]
    simp [size]
  have nextRests : Rests ram memory next := by
    rw [← next_eq]
    exact ⟨rests.stack, rests.ram, rests.memory⟩
  have source : next.registers rsi = symbols.systemData64Entry := by
    rw [← next_eq]
    simp
  have target : next.registers rdi = systemData64Base := by
    rw [← next_eq]
    simp
  have inRam : ∀ place, Within place symbols.systemData64Entry systemData64Size ∨
      Within place systemData64Base systemData64Size → next.ram place = true := by
    rw [nextRests.ram]
    rintro place (inSource | inTarget)
    · simp only [Within, size] at inSource
      exact ram_image mapped (by bv_omega) (by bv_omega)
    · exact ram_systemData mapped (Nat.lt_of_lt_of_le inTarget (by decide))
  rw [counted]
  apply (wp_movsbs source target (by decide) apart inRam).mono
  intro _ after only
  refine ⟨only.stack.trans nextRests.stack, only.ram.trans nextRests.ram, ?_⟩
  rw [only.memory, copied, nextRests.memory]

theorem wp_relocate {pointerAt tableAt : ℕ}
    (rests : Rests ram memory machine)
    (inRam : ram (systemData64Base + BitVec.ofNat 64 pointerAt + 2) = true) :
    wp (relocate pointerAt tableAt)
      (fun _ after =>
        after.registers rbx = systemData64Base + BitVec.ofNat 64 pointerAt ∧
          Rests ram (memory.write (systemData64Base + BitVec.ofNat 64 pointerAt + 2)
            (systemData64Base + BitVec.ofNat 64 tableAt)) after) machine := by
  rcases rests with ⟨stack, rfl, rfl⟩
  generalize pointer_eq : systemData64Base + BitVec.ofNat 64 pointerAt = pointer at inRam ⊢
  simp only [BitVec.ofNat_eq_ofNat, BitVec.add_comm pointer] at inRam ⊢
  simp [relocate, Machine.effective, pointer_eq]
  refine ⟨?_, ?_, ?_⟩
  · simp [stack]
  · simp
  · simp [Machine.memory_poke, inRam]

theorem wp_readTable {post : TableRegister → Processor → Prop} {address base : Address}
    {limit : BitVec 16}
    (inRam : processor.machine.ram address = true ∧ processor.machine.ram (address + 2) = true)
    (limited : processor.machine.memory.read 16 address = limit)
    (based : processor.machine.memory.read 64 (address + 2) = base) (canonical : Canonical base)
    (remaining : post { limit, base } processor) :
    wpPrivileged (readTable address) post processor := by
  have whole : ∀ address : Address, processor.machine.effective address none none = address := by
    simp [Machine.effective]
  simp only [readTable, wpPrivileged_bind, wpPrivileged_onMachine, Operand.symbol, wp_fetch_mem,
    whole, inRam, limited, based, true_and]
  rwa [if_pos canonical, wpPrivileged_pure]

section Tables

variable {pointer base : Address} {limit : BitVec 16}

/-- A pointer to a table with this limit and base is in memory, and `rbx` has its address. -/
structure PointerAt (pointer : Address) (limit : BitVec 16) (base : Address)
    (machine : Machine) : Prop where
  loaded : machine.registers rbx = pointer
  limit_inRam : machine.ram pointer = true
  base_inRam : machine.ram (pointer + 2) = true
  limit_eq : machine.memory.read 16 pointer = limit
  base_eq : machine.memory.read 64 (pointer + 2) = base
  canonical : Canonical base

theorem wp_lgdt (found : PointerAt pointer limit base processor.machine)
    (remaining : post () { processor with gdtr := { limit, base } }) :
    wpPrivileged (lgdt rbx) post processor := by
  simp only [lgdt, wpPrivileged_bind, wpPrivileged_get, found.loaded]
  apply wp_readTable ⟨found.limit_inRam, found.base_inRam⟩ found.limit_eq found.base_eq
    found.canonical
  rwa [wpPrivileged_modify]

theorem wp_lidt (found : PointerAt pointer limit base processor.machine)
    (remaining : post () { processor with idtr := { limit, base } }) :
    wpPrivileged (lidt rbx) post processor := by
  simp only [lidt, wpPrivileged_bind, wpPrivileged_get, found.loaded]
  apply wp_readTable ⟨found.limit_inRam, found.base_inRam⟩ found.limit_eq found.base_eq
    found.canonical
  rwa [wpPrivileged_modify]

end Tables

/-- The pointers that are relocated are in the copy. -/
theorem wp_relocate_pointer {pointerAt tableAt : ℕ} {limit : BitVec 16}
    (rests : Rests ram memory machine) (mapped : WindowsMapped ram)
    (limited : memory.read 16 (systemData64Base + BitVec.ofNat 64 pointerAt) = limit)
    (inside : pointerAt + 10 ≤ systemData64Size) (tableInside : tableAt ≤ systemData64Size) :
    wp (relocate pointerAt tableAt)
      (fun _ after =>
        PointerAt (systemData64Base + BitVec.ofNat 64 pointerAt) limit
            (systemData64Base + BitVec.ofNat 64 tableAt) after ∧
          Rests ram (memory.write (systemData64Base + BitVec.ofNat 64 (pointerAt + 2))
            (systemData64Base + BitVec.ofNat 64 tableAt)) after) machine := by
  have size : systemData64Size = 2564 := rfl
  have inCopy : ∀ offset ≤ systemData64Size,
      ram (systemData64Base + BitVec.ofNat 64 offset) = true := by
    intro offset small
    apply ram_systemData mapped
    have cancelled : systemData64Base + BitVec.ofNat 64 offset - systemData64Base =
        BitVec.ofNat 64 offset := by
      rw [BitVec.add_comm, BitVec.add_sub_cancel]
    rw [Within, cancelled, BitVec.toNat_ofNat]
    omega
  have next : systemData64Base + BitVec.ofNat 64 pointerAt + 2 =
      systemData64Base + BitVec.ofNat 64 (pointerAt + 2) := by
    rw [BitVec.ofNat_add, ← BitVec.add_assoc]
    rfl
  have apart := apart_of_offsets systemData64Base (by omega : pointerAt + 2 ≤ 2 ^ 64)
    (by omega : pointerAt + 2 + 8 ≤ 2 ^ 64) (Or.inl (le_refl _))
  have canonical : Canonical (systemData64Base + BitVec.ofNat 64 tableAt) := by
    right
    have base : systemData64Base = 0xfffffff800000000 := rfl
    rw [base]
    bv_omega
  apply (wp_relocate rests (next ▸ inCopy _ (by omega))).mono
  rintro _ after ⟨loaded, rests⟩
  rw [next] at rests
  refine ⟨⟨loaded, ?_, ?_, ?_, ?_, canonical⟩, rests⟩
  · rw [rests.ram]
    exact inCopy _ (by omega)
  · rw [rests.ram, next]
    exact inCopy _ (by omega)
  · rw [rests.memory, Memory.read_write_of_apart _ _ apart (by decide) (by decide), limited]
  · rw [rests.memory, next, Memory.read_write (by decide) (by decide)]

/-! ### The task state segment -/

/-- All of a descriptor but the top of its limit, whatever the processor leaves there. -/
theorem decodeDescriptor_parts (base : BitVec 64) (limit : BitVec 32) (type : BitVec 4)
    (last : Byte) (rest : List Byte) {descriptor : SystemDescriptor}
    (decoded : decodeDescriptor (descriptorBytes base limit (type.setWidth 8 ||| 0x80) last ++
      rest) = descriptor) :
    descriptor.base = base ∧ descriptor.type = type ∧ descriptor.system = true ∧
      descriptor.present = true ∧ (limitWord limit).toNat ≤ descriptor.limit := by
  rcases attributes_type type with ⟨typed, system, dpl, present⟩
  have whole := valueOf_base base
  have word : valueOf (bytesOf 2 (limitWord limit).toNat) = (limitWord limit).toNat := by
    rw [valueOf_bytesOf]
    exact Nat.mod_eq_of_lt (limitWord limit).isLt
  simp only [BitVec.ofNat_eq_ofNat] at typed
  simp [bytesOf] at whole word
  rw [← decoded]
  simp [bytesOf, decodeDescriptor, descriptorBytes, whole, word, typed]
  split <;> omega

/-- Where the descriptor of the task state segment is. -/
def taskDescriptorAt : ℕ :=
  0x58

theorem wp_ltr {descriptor : SystemDescriptor}
    (rests : Rests ram memory processor.machine) (mapped : WindowsMapped ram)
    (gdtr : processor.gdtr = { limit := gdtLimit, base := systemData64Base })
    (selected : processor.machine.get 16 rax = 0x58)
    (found : descriptorAt memory (systemData64Base + BitVec.ofNat 64 taskDescriptorAt) = descriptor)
    (available : descriptor.system = true ∧ descriptor.type = 0x9 ∧ descriptor.present = true)
    (canonical : Canonical descriptor.base)
    (upper : memory (systemData64Base + BitVec.ofNat 64 taskDescriptorAt + 13) = 0)
    (remaining : ∀ machine byte,
      Rests ram (memory.write
        (systemData64Base + BitVec.ofNat 64 (taskDescriptorAt + 5)) (byte : Byte)) machine →
      post () { processor with
        machine
        gdtr := { limit := gdtLimit, base := systemData64Base }
        tr := some
          { selector := 0x58, base := descriptor.base, limit := descriptor.limit } }) :
    wpPrivileged ltr post processor := by
  rcases rests with ⟨stack, rfl, rfl⟩
  rcases available with ⟨system, type, present⟩
  have selector : ¬(IsNull 0x58 ∨ (0x58 : BitVec 16).getLsbD 2 = true ∨
      gdtLimit.toNat < ((0x58 : BitVec 16) &&& 0xfff8).toNat + 15) := by
    decide
  have place : ((0x58 : BitVec 16) &&& 0xfff8).setWidth 64 =
      BitVec.ofNat 64 taskDescriptorAt := rfl
  have fine : ¬((!descriptor.system) = true ∨ descriptor.type ≠ 0x9 ∨
      (processor.machine.memory
        (systemData64Base + BitVec.ofNat 64 taskDescriptorAt + 13)).setWidth 5 ≠ 0#5 ∨
      (!descriptor.present) = true ∨ ¬Canonical descriptor.base) := by
    rw [upper]
    simp [system, type, present, canonical]
  have fifth : systemData64Base + BitVec.ofNat 64 taskDescriptorAt + 5 =
      systemData64Base + BitVec.ofNat 64 (taskDescriptorAt + 5) := rfl
  have writable : processor.machine.ram
      (systemData64Base + BitVec.ofNat 64 (taskDescriptorAt + 5)) = true := by
    apply ram_systemData mapped
    decide
  simp only [ltr, wpPrivileged_bind, wpPrivileged_get, selected, gdtr, place, found, fifth]
  rw [if_neg selector, if_neg fine, wpPrivileged_set]
  apply remaining
  · rw [Machine.poke_of_ram writable]
    exact ⟨stack, rfl, rfl⟩

theorem keepsRam_setSystemDescriptor (table : DescriptorTable) (undefined : BitVec 16) :
    KeepsRam (setSystemDescriptor table undefined) := by
  refine keepsRam_bind (keepsRam_sidt _ _ _) fun _ => keepsRam_bind (keepsRam_mov _ _) fun _ =>
    keepsRam_bind (keepsRam_bitwise _ _ _) fun _ => keepsRam_bind (keepsRam_mov _ _) fun _ =>
    keepsRam_bind (keepsRam_mov _ _) fun _ => keepsRam_bind (keepsRam_bitwise _ _ _) fun _ =>
    keepsRam_bind (keepsRam_mov _ _) fun _ => keepsRam_bind (keepsRam_mov _ _) fun _ => ?_
  exact keepsRam_bind (keepsRam_shr _ _) fun _ => keepsRam_bind (keepsRam_cmovz _ _) fun _ =>
    keepsRam_bind (keepsRam_setnz _) fun _ => keepsRam_bind (keepsRam_mov _ _) fun _ =>
    keepsRam_bind (keepsRam_shl _ _) fun _ => keepsRam_bind (keepsRam_shrd _ _ _ _) fun _ =>
    keepsRam_mov _ _

/-- The places that the kernel changes for the descriptor of the task state segment. -/
def taskRanges (symbols : KernelSymbols) : List (Address × ℕ) :=
  [(systemData64Base + BitVec.ofNat 64 taskDescriptorAt, 16), (symbols.gdtPointer, 10)]

/-- The scratch of `libs64.S` is below the copy. -/
theorem apart_scratch {scratch : Address} (placed : scratch.toNat + 10 ≤ 0x1a000) {offset count : ℕ}
    (inside : offset + count ≤ systemData64Size) :
    Apart (systemData64Base + BitVec.ofNat 64 offset) count scratch 10 := by
  have size : systemData64Size = 2564 := rfl
  have base : systemData64Base = 0xfffffff800000000 := rfl
  apply Apart.symm
  apply apart_of_toNat_le
  · rw [base]
    bv_omega
  · rw [base]
    bv_omega

/-- The memory with the descriptor of the task state segment, and what `libs64.S` notes there. -/
def described (symbols : KernelSymbols) (undefined : BitVec 16) (memory : Memory) : Memory :=
  (memory.store symbols.gdt.gdtPointer symbols.gdt.scratch).store
    (systemData64Base + BitVec.ofNat 64 taskDescriptorAt)
    (descriptorBytes (systemData64Base + BitVec.ofNat 64 taskStatusSegmentAt) 0x67
      ((0x9 : BitVec 4).setWidth 8 ||| 0x80) (undefined.setWidth 8))

section Described

variable (symbols : KernelSymbols) (undefined : BitVec 16) (memory : Memory)

theorem length_gdt_scratch : symbols.gdt.scratch.length = 10 := by
  simp [DescriptorTable.scratch]

theorem sameOutside_described :
    memory.SameOutside (taskRanges symbols) (described symbols undefined memory) := by
  refine ((Memory.SameOutside.refl _ _).store (List.mem_cons_of_mem _ (List.mem_cons_self ..))
    ?_ ?_).store (List.mem_cons_self ..) ?_ ?_
  · simp [length_gdt_scratch]
  · rw [length_gdt_scratch]
    exact fun _ inside => inside
  · simp
  · rw [length_descriptorBytes]
    exact fun _ inside => Nat.lt_of_lt_of_le inside (by decide)

/-- The last four bytes of the descriptor are not written. -/
theorem described_upper :
    described symbols undefined memory
        (systemData64Base + BitVec.ofNat 64 (taskDescriptorAt + 13)) =
      memory (systemData64Base + BitVec.ofNat 64 (taskDescriptorAt + 13)) := by
  have behind : ¬Within (systemData64Base + BitVec.ofNat 64 (taskDescriptorAt + 13))
      (systemData64Base + BitVec.ofNat 64 taskDescriptorAt) 12 := by
    decide
  have outside : ¬Within (systemData64Base + BitVec.ofNat 64 (taskDescriptorAt + 13))
      symbols.gdt.gdtPointer 10 :=
    apart_scratch symbols.gdtScratch.2
      (show taskDescriptorAt + 13 + 1 ≤ systemData64Size by decide) _ (within_self _ (by decide))
  rw [described]
  refine (Memory.store_of_not_within ?_ ?_).trans (Memory.store_of_not_within ?_ ?_)
  · rw [length_descriptorBytes]
    decide
  · rw [length_descriptorBytes]
    exact behind
  · rw [length_gdt_scratch]
    decide
  · rw [length_gdt_scratch]
    exact outside

/-- What `ltr` finds, whatever the top of the limit is. -/
theorem descriptorAt_described {descriptor : SystemDescriptor}
    (found : descriptorAt (described symbols undefined memory)
      (systemData64Base + BitVec.ofNat 64 taskDescriptorAt) = descriptor) :
    descriptor.base = systemData64Base + BitVec.ofNat 64 taskStatusSegmentAt ∧
      (descriptor.system = true ∧ descriptor.type = 0x9 ∧ descriptor.present = true) ∧
      0x67 ≤ descriptor.limit := by
  rcases descriptorAt_store (memory.store symbols.gdt.gdtPointer symbols.gdt.scratch)
    (systemData64Base + BitVec.ofNat 64 taskDescriptorAt)
    (length_descriptorBytes (systemData64Base + BitVec.ofNat 64 taskStatusSegmentAt) 0x67
      ((0x9 : BitVec 4).setWidth 8 ||| 0x80) (undefined.setWidth 8)) with ⟨rest, decoded⟩
  rcases decodeDescriptor_parts _ _ _ _ _ (decoded.symm.trans found) with
    ⟨base, type, system, present, limit⟩
  exact ⟨base, ⟨system, type, present⟩, Nat.le_trans (by decide) limit⟩

end Described

theorem KernelSymbols.gdt_inRam (symbols : KernelSymbols) (mapped : WindowsMapped machine.ram) :
    symbols.gdt.InRam machine := by
  rcases symbols.gdtScratch with ⟨above, below⟩
  have small : symbols.gdt.limit.toNat + 1 ≤ 0x2000 := by
    change 200 ≤ 0x2000
    decide
  rintro place (inScratch | inTable)
  · change Within place symbols.gdtPointer 10 at inScratch
    simp only [Within] at inScratch
    exact ram_image mapped (by bv_omega) (by bv_omega)
  · exact ram_systemData mapped (Nat.lt_of_lt_of_le inTable small)

theorem wp_call_setSystemDescriptor {symbols : KernelSymbols} {undefined : BitVec 16}
    (rests : Rests ram memory machine) (mapped : WindowsMapped ram)
    (selector : machine.registers rsi = tss64Sel)
    (limited : machine.registers rdi = (0x67 : BitVec 32).setWidth 64)
    (based : machine.registers r8 = systemData64Base + BitVec.ofNat 64 taskStatusSegmentAt)
    (typed : machine.get 8 r9 = (0x9 : BitVec 4).setWidth 8) :
    wp (call (setSystemDescriptor symbols.gdt undefined))
      (fun _ after => Rests ram (described symbols undefined memory) after) machine := by
  rcases rests with ⟨stack, rfl, rfl⟩
  have holds : symbols.gdt.Holds tss64Sel := by
    change ((0x58 : BitVec 64) &&& 0xfff8).toNat + 15 ≤ 199
    decide
  have address : symbols.gdt.address tss64Sel =
      systemData64Base + BitVec.ofNat 64 taskDescriptorAt := rfl
  apply wp_call
  have written := @wp_setSystemDescriptor symbols.gdt
    (machine.withStack (.returnAddress :: machine.stack)) 0x67 0x9 undefined
    (by rw [Machine.withStack_registers, selector]; exact holds) (symbols.gdt_inRam mapped) limited
    typed
  apply ((keepsRam_setSystemDescriptor _ undefined).wp written).mono
  rintro _ after ⟨ram, afterStack, changed⟩
  rw [Machine.withStack_registers, selector, based, address] at changed
  exact ⟨afterStack, stack, ram, changed⟩

theorem wp_setTaskState {symbols : KernelSymbols} {undefined : BitVec 16}
    (rests : Rests ram memory processor.machine) (mapped : WindowsMapped ram)
    (gdtr : processor.gdtr = { limit := gdtLimit, base := systemData64Base })
    (upper : memory (systemData64Base + BitVec.ofNat 64 (taskDescriptorAt + 13)) = 0)
    (remaining : ∀ machine changed task,
      Rests ram changed machine → memory.SameOutside (taskRanges symbols) changed →
      task.base = systemData64Base + BitVec.ofNat 64 taskStatusSegmentAt → 0x67 ≤ task.limit →
      post () { processor with
        machine
        gdtr := { limit := gdtLimit, base := systemData64Base }
        tr := some task }) :
    wpPrivileged (setTaskState symbols undefined) post processor := by
  rcases rests with ⟨stack, rfl, rfl⟩
  simp only [setTaskState, whereTable, wpPrivileged_bind, wpPrivileged_onMachine, mov, wp_bind,
    wp_fetch_imm, wp_assign_reg, wpPrivileged_get]
  generalize next_eq : Machine.put _ _ _ = next
  have nextRests : Rests processor.machine.ram processor.machine.memory next := by
    rw [← next_eq]
    exact ⟨stack, rfl, rfl⟩
  have found : processor.gdtr = { limit := symbols.gdt.limit, base := symbols.gdt.base } := gdtr
  rw [if_pos found, wpPrivileged_onMachine]
  refine (@wp_call_setSystemDescriptor next _ _ symbols undefined nextRests mapped ?_ ?_ ?_
    ?_).mono ?_
  · rw [← next_eq]
    simp
  · rw [← next_eq]
    simp
  · rw [← next_eq]
    simp
  · rw [← next_eq, Machine.get, Machine.registers_put, if_pos rfl, Machine.merge_qword]
    decide
  rintro _ after ⟨afterStack, afterRam, changed⟩
  rcases descriptorAt_described symbols undefined processor.machine.memory rfl with
    ⟨base, available, limit⟩
  have canonical : Canonical (systemData64Base + BitVec.ofNat 64 taskStatusSegmentAt) := by decide
  refine wp_ltr ⟨afterStack, afterRam, changed⟩ mapped gdtr ?_ rfl available
    (base ▸ canonical) ((described_upper symbols undefined _).trans upper) ?_
  · exact Machine.get_put_self (by decide) _ _
  · intro machine byte rests
    refine remaining machine _ _ rests ?_ base limit
    refine (sameOutside_described symbols undefined _).store (List.mem_cons_self ..) (by simp) ?_
    intro place inside
    rw [length_bytesOf] at inside
    exact Within.of_add (show Within place
      (systemData64Base + BitVec.ofNat 64 taskDescriptorAt + BitVec.ofNat 64 5) 1 from inside)
      (by decide) (by decide)

/-! ### The handlers -/

theorem keepsRam_installAll (table : InterruptTable) (requests : List HandlerCall) :
    KeepsRam (installAll table requests) := by
  have gate : ∀ attributes, KeepsRam (setGate table attributes) := fun attributes =>
    keepsRam_bind (keepsRam_sidt _ _ _) fun _ => keepsRam_bind (keepsRam_mov _ _) fun _ =>
      keepsRam_bind (keepsRam_shl _ _) fun _ => keepsRam_bind (keepsRam_mov _ _) fun _ =>
      keepsRam_bind (keepsRam_mov _ _) fun _ => keepsRam_bind (keepsRam_mov _ _) fun _ =>
      keepsRam_bind (keepsRam_mov _ _) fun _ => keepsRam_mov _ _
  induction requests with
  | nil => exact keepsRam_pure _
  | cons request rest ih =>
      rw [installAll, install_eq]
      refine keepsRam_bind (keepsRam_bind (keepsRam_mov _ _) fun _ => ?_) fun _ => ih
      exact keepsRam_bind (keepsRam_mov _ _) fun _ => keepsRam_call (gate _)

/-- The memory after some calls. -/
def installedAll (table : InterruptTable) (requests : List HandlerCall) (memory : Memory) :
    Memory :=
  requests.foldl (fun memory request =>
    table.installed memory request.vector request.handler request.attributes) memory

section Installed

variable {table : InterruptTable} {requests : List HandlerCall} {vector : BitVec 64}

/-- Nothing but gates and the scratch of `libs64.S` is changed. -/
theorem sameOutside_installedAll
    (inside : ∀ request ∈ requests, request.vector.toNat < interruptVectors) (memory : Memory) :
    memory.SameOutside [(table.base, 16 * interruptVectors), (table.idtPointer, 10)]
      (installedAll table requests memory) := by
  intro place outside
  simp only [List.forall_mem_cons] at outside
  rw [installedAll, foldl_installed, lastWrite_eq_none_iff.mpr]
  · rfl
  · intro request listed
    apply writes_eq_none outside.2.1
    intro inGate
    apply outside.1
    have offset : table.gateAddress request.vector + BitVec.ofNat 64
        (place - table.gateAddress request.vector).toNat = place := by
      rw [BitVec.ofNat_toNat, BitVec.setWidth_eq, BitVec.add_comm, BitVec.sub_add_cancel]
    rw [← offset]
    exact within_gateAddress (inside request listed) inGate

theorem installedAll_of_lastFor {request : HandlerCall}
    (inside : ∀ request ∈ requests, request.vector.toNat < interruptVectors) (memory : Memory)
    (last : lastFor requests vector = some request) {offset : ℕ} (below : offset < 12) :
    installedAll table requests memory (table.gateAddress vector + BitVec.ofNat 64 offset) =
      (gateBytes request.handler request.attributes).getD offset 0 := by
  rcases mem_of_lastFor last with ⟨listed, rfl⟩
  rw [installedAll, foldl_installed, lastWrite_of_ite fun earlier earlier_mem =>
    writes_gateAddress (inside request listed) (inside earlier earlier_mem) below]
  rw [lastFor] at last
  rw [last]
  rfl

/-- A gate without a handler is as before. -/
theorem installedAll_of_none
    (inside : ∀ request ∈ requests, request.vector.toNat < interruptVectors) (memory : Memory)
    (vectorInside : vector.toNat < interruptVectors) (unnamed : lastFor requests vector = none)
    {offset : ℕ} (below : offset < 16) :
    installedAll table requests memory (table.gateAddress vector + BitVec.ofNat 64 offset) =
      memory (table.gateAddress vector + BitVec.ofNat 64 offset) := by
  rw [installedAll, foldl_installed, lastWrite_eq_none_iff.mpr]
  · rfl
  · intro request listed
    apply writes_eq_none
    · exact fun inScratch => table.apart _ inScratch (within_gateAddress vectorInside below)
    · intro inGate
      have named := eq_of_within_gate vectorInside (inside request listed) below inGate
      rw [lastFor, List.getLast?_eq_none_iff, List.filter_eq_nil_iff] at unnamed
      exact unnamed request listed (by simpa using named)

end Installed

theorem KernelSymbols.handlerCalls_inside (symbols : KernelSymbols) :
    ∀ request ∈ symbols.handlerCalls, request.vector.toNat < interruptVectors := by
  simp only [handlerCalls, List.map_cons, List.map_nil, List.cons_append, List.nil_append,
    List.forall_mem_cons, List.not_mem_nil, false_implies, implies_true]
  decide

theorem KernelSymbols.idt_inRam (symbols : KernelSymbols) (mapped : WindowsMapped machine.ram) :
    symbols.idt.InRam machine := by
  rcases symbols.idtScratch with ⟨above, below⟩
  rintro place (inScratch | inTable)
  · change Within place symbols.idtPointer 10 at inScratch
    simp only [Within] at inScratch
    exact ram_image mapped (by bv_omega) (by bv_omega)
  · apply ram_systemData mapped
    exact Within.of_add inTable (by decide) (by decide)

theorem wp_installHandlers {symbols : KernelSymbols}
    (rests : Rests ram memory processor.machine) (mapped : WindowsMapped ram)
    (idtr : processor.idtr = { limit := symbols.idt.limit, base := symbols.idt.base })
    (remaining : ∀ machine,
      Rests ram (installedAll symbols.idt symbols.handlerCalls memory) machine →
      post () { processor with machine }) :
    wpPrivileged (installHandlers symbols) post processor := by
  rcases rests with ⟨stack, rfl, rfl⟩
  simp only [installHandlers, whereTable, wpPrivileged_bind, wpPrivileged_get]
  rw [if_pos idtr, wpPrivileged_onMachine]
  apply ((keepsRam_installAll _ _).wp (wp_installAll symbols.handlerCalls_inside
    (symbols.idt_inRam mapped))).mono
  rintro _ after ⟨afterRam, afterStack, changed⟩
  exact remaining after ⟨afterStack.trans stack, afterRam, changed⟩

/-! ### The local APIC -/

/-- Bit 11 of `IA32_APIC_BASE` is set. -/
def enabledMsrs (msrs : BitVec 32 → BitVec 64) : BitVec 32 → BitVec 64 :=
  Function.update msrs ia32ApicBase (msrs ia32ApicBase ||| BitVec.twoPow 64 11)

/-- Bit 8 of the spurious vector register is set. -/
def enabledSvr (memory : Memory) : Memory :=
  memory.write ApicRegister.svr.address
    (apicRegister memory .svr ||| BitVec.twoPow 32 8)

/-- A bit of the low half, set with the halves in two registers. -/
theorem append_or_twoPow {bit : ℕ} (low : bit < 32) (value : BitVec 64) :
    value.extractLsb' 32 32 ++ (value.setWidth 32 ||| (BitVec.twoPow 64 bit).setWidth 32) =
      value ||| BitVec.twoPow 64 bit := by
  apply BitVec.eq_of_getLsbD_eq
  intro index inside
  simp only [BitVec.getLsbD_append, BitVec.getLsbD_or, BitVec.getLsbD_setWidth,
    BitVec.getLsbD_twoPow]
  by_cases below : index < 32
  · have small : bit < 64 := by omega
    simp [below, small]
  · have other : ¬bit = index := by omega
    have offset : index - 32 < 32 := by omega
    have whole : 32 + (index - 32) = index := by omega
    simp [below, other, offset, whole]

theorem wp_enableApic (rests : Rests ram memory processor.machine) (mapped : WindowsMapped ram)
    (remaining : ∀ machine, Rests ram (enabledSvr memory) machine →
      post () { processor with machine, msrs := enabledMsrs processor.msrs }) :
    wpPrivileged (callPrivileged enableApic) post processor := by
  rcases rests with ⟨stack, rfl, rfl⟩
  have inRam : processor.machine.ram ApicRegister.svr.address = true :=
    ram_apic mapped (by decide) (by decide)
  have written := @append_or_twoPow 11 (by decide) (processor.msrs ia32ApicBase)
  rw [enabledMsrs, ← written] at remaining
  simp [callPrivileged, enableApic, readMsr, wrmsr, bts, Operand.symbol, Machine.effective, inRam,
    Machine.get, merge]
  apply remaining
  refine ⟨stack, ?_, ?_⟩
  · simp
  · simp [Machine.memory_poke, inRam, enabledSvr, apicRegister]

/-! ### To user mode -/

/-- The code and stack segments of the user are in the table. -/
structure UserSegments (processor : Processor) : Prop where
  code : processor.gdtr.descriptor processor.machine.memory 0x4b = some (segmentOf 0x4b)
  stack : processor.gdtr.descriptor processor.machine.memory 0x53 = some (segmentOf 0x53)
  kernelData : processor.gdtr.descriptor processor.machine.memory kernelSS =
    some (segmentOf kernelSS)
  kernel : processor.cpl = 0

/-- In user mode the kernel's data segments are gone. -/
def userSelectors : Segment → BitVec 16
  | .cs => 0x4b
  | .ss => 0x53
  | _ => 0

/-- The state in which user mode begins. -/
def userEntered (symbols : KernelSymbols) : Entry where
  rip := symbols.userEntry
  cs := 0x4b
  rsp := userRsp
  ss := 0x53

theorem wp_retfqOuter {post : Entry → Processor → Prop} {symbols : KernelSymbols}
    {rest : List StackItem} (segments : UserSegments processor)
    (data : processor.selectors .ds = kernelSS ∧ processor.selectors .es = kernelSS)
    (top : processor.machine.stack =
      .word symbols.userEntry :: .word 0x4b :: .word userRsp :: .word 0x53 :: rest)
    (remaining : post (userEntered symbols) { processor with
      machine := processor.machine.withStack []
      selectors := userSelectors
      stackTop := userRsp }) :
    wpPrivileged retfqOuter post processor := by
  have levels : ¬(IsNull 0x4b ∨ IsNull 0x53 ∨ rpl 0x4b ≤ processor.cpl) := by
    rw [segments.kernel]
    decide
  have code : ¬((!(segmentOf 0x4b).code) = true ∨ (!(segmentOf 0x4b).present) = true ∨
      (!(segmentOf 0x4b).long) = true ∨ (segmentOf 0x4b).big = true ∨
      (if (segmentOf 0x4b).conforming then rpl 0x4b < (segmentOf 0x4b).dpl
        else (segmentOf 0x4b).dpl ≠ rpl 0x4b)) := by
    rw [segmentOf_userCS]
    decide
  have stack : ¬((!(segmentOf 0x53).writable) = true ∨ (!(segmentOf 0x53).present) = true ∨
      rpl 0x53 ≠ rpl 0x4b ∨ (segmentOf 0x53).dpl ≠ rpl 0x4b) := by
    rw [segmentOf_userSS]
    decide
  have canonical : Canonical symbols.userEntry :=
    Or.inl (Nat.lt_trans symbols.userCode (by decide))
  have codeSelector : (0x4b : BitVec 64).setWidth 16 = (0x4b : BitVec 16) := rfl
  have stackSelector : (0x53 : BitVec 64).setWidth 16 = (0x53 : BitVec 16) := rfl
  simp only [retfqOuter, wpPrivileged_bind, wpPrivileged_get, top, codeSelector, stackSelector,
    segments.code, segments.stack]
  rw [if_neg levels, if_neg code, if_neg stack, if_neg (not_not.mpr canonical)]
  simp only [wpPrivileged_bind, wpPrivileged_set, wpPrivileged_pure]
  have selectors : (fun segment =>
      if segment = .cs then (0x4b : BitVec 16)
      else if segment = .ss then 0x53
      else if (processor.gdtr.descriptor processor.machine.memory
          (processor.selectors segment)).any
            (fun data => !data.conforming && data.dpl < rpl 0x4b) then 0
      else processor.selectors segment) = userSelectors := by
    have given : (some (segmentOf kernelSS)).any
        (fun data => !data.conforming && data.dpl < rpl 0x4b) = true := by
      rw [kernelSS, segmentOf_kernelSS]
      decide
    funext segment
    cases segment with
    | cs | ss => rfl
    | ds =>
        rw [if_neg (by decide), if_neg (by decide), data.1, segments.kernelData, if_pos given]
        rfl
    | es =>
        rw [if_neg (by decide), if_neg (by decide), data.2, segments.kernelData, if_pos given]
        rfl
  rw [selectors]
  exact remaining

/-- The words that `retfq` takes. -/
theorem wp_pushEntry {symbols : KernelSymbols} {post : Unit → Machine → Prop}
    (rests : Rests ram memory machine) (mapped : WindowsMapped ram)
    (remaining : ∀ after, after.ram = ram → after.memory = memory → after.stack =
      [.word symbols.userEntry, .word 0x4b, .word userRsp, .word 0x53] → post () after) :
    wp (pushEntry symbols) post machine := by
  rcases rests with ⟨stack, rfl, rfl⟩
  have inRam : machine.ram ApicRegister.apicVer.address = true :=
    ram_apic mapped (by decide) (by decide)
  have placed := symbols.userCode
  have entry : (symbols.userEntry.setWidth 32).signExtend 64 = symbols.userEntry := by
    have positive : (symbols.userEntry.setWidth 32).msb = false := by
      rw [BitVec.msb_eq_false_iff_two_mul_lt]
      bv_omega
    rw [BitVec.signExtend_eq_setWidth_of_msb_false positive]
    bv_omega
  simp [pushEntry, pushImm, Operand.symbol, Machine.effective, inRam, entry]
  apply remaining
  · rfl
  · rfl
  · simp [stack]
    decide

end Instructions

/-! ### What is left in memory -/

section Setup

variable (symbols : KernelSymbols)

/-- The copy, with the pointers relocated. -/
def relocated (memory : Memory) : Memory :=
  (memory.write (systemData64Base + BitVec.ofNat 64 (gdtPointer64At + 2))
    (systemData64Base + BitVec.ofNat 64 globalDescriptorTableAt)).write
    (systemData64Base + BitVec.ofNat 64 (idtPointer64At + 2))
    (systemData64Base + BitVec.ofNat 64 interruptDescriptorTableAt)

/-- The places of the copy that are changed, and those elsewhere. -/
def changedRanges : List (Address × ℕ) :=
  [
    (systemData64Base + BitVec.ofNat 64 (gdtPointer64At + 2), 18),
    (systemData64Base + BitVec.ofNat 64 taskDescriptorAt, 16),
    (systemData64Base + BitVec.ofNat 64 interruptDescriptorTableAt, 16 * interruptVectors),
    (symbols.gdtPointer, 10),
    (symbols.idtPointer, 10),
    (ApicRegister.svr.address, 4)
  ]

/-- The pages of the copy, the scratch of `libs64.S` and a register of the APIC. -/
def setupRanges : List (Address × ℕ) :=
  [
    (systemData64Base, systemData64Size),
    (symbols.gdtPointer, 10),
    (symbols.idtPointer, 10),
    (ApicRegister.svr.address, 4)
  ]

variable {symbols} {memory copy changed last : Memory} {entry : Address}

theorem sameOutside_relocated (memory : Memory) :
    memory.SameOutside [(systemData64Base + BitVec.ofNat 64 (gdtPointer64At + 2), 18)]
      (relocated memory) := by
  refine ((Memory.SameOutside.refl _ _).store (List.mem_cons_self ..) ?_ ?_).store
    (List.mem_cons_self ..) ?_ ?_
  · simp
  · rw [length_bytesOf]
    exact fun _ inside => Nat.lt_of_lt_of_le inside (by decide)
  · simp
  · rw [length_bytesOf]
    intro place inside
    exact Within.of_add (show Within place
      (systemData64Base + BitVec.ofNat 64 (gdtPointer64At + 2) + BitVec.ofNat 64 10) 8 from inside)
      (by decide) (by decide)

/-- All the changes to the copy. -/
theorem sameOutside_changed
    (described : (relocated copy).SameOutside (taskRanges symbols) changed) :
    copy.SameOutside (changedRanges symbols)
      (enabledSvr (installedAll symbols.idt symbols.handlerCalls changed)) := by
  have pointers : copy.SameOutside (changedRanges symbols) (relocated copy) :=
    (sameOutside_relocated copy).mono (by simp [changedRanges])
  have task : (relocated copy).SameOutside (changedRanges symbols) changed :=
    described.mono (by simp [changedRanges, taskRanges])
  have gates : changed.SameOutside (changedRanges symbols)
      (installedAll symbols.idt symbols.handlerCalls changed) :=
    (sameOutside_installedAll symbols.handlerCalls_inside changed).mono
      (by simp [changedRanges, KernelSymbols.idt])
  have listed : (ApicRegister.svr.address, 4) ∈ changedRanges symbols := by
    simp [changedRanges]
  refine ((pointers.trans task).trans gates).store listed ?_ ?_
  · simp
  · rw [length_bytesOf]
    exact fun _ inside => inside

/-- The parts of the copy that are not changed. -/
theorem load_unchanged (same : copy.SameOutside (changedRanges symbols) last) {offset count : ℕ}
    (inside : offset + count ≤ gdtPointer64At)
    (noTask : offset + count ≤ taskDescriptorAt ∨ taskDescriptorAt + 16 ≤ offset)
    (noGate : offset + count ≤ interruptDescriptorTableAt ∨ taskStatusSegmentAt ≤ offset) :
    last.load (systemData64Base + BitVec.ofNat 64 offset) count =
      copy.load (systemData64Base + BitVec.ofNat 64 offset) count := by
  have size : systemData64Size = 2564 := rfl
  have base : systemData64Base = 0xfffffff800000000 := rfl
  simp only [gdtPointer64At] at inside
  apply same.load_eq (by omega)
  simp only [changedRanges, List.forall_mem_cons, List.not_mem_nil, false_implies, implies_true,
    and_true, gdtPointer64At]
  refine ⟨?_, ?_, ?_, ?_, ?_, ?_⟩
  · exact apart_of_offsets _ (by omega) (by decide) (Or.inl (by omega))
  · exact apart_of_offsets _ (by omega) (by decide) noTask
  · exact apart_of_offsets _ (by omega) (by decide) noGate
  · exact apart_scratch symbols.gdtScratch.2 (by omega)
  · exact apart_scratch symbols.idtScratch.2 (by omega)
  · apply Apart.symm
    apply apart_of_toNat_le
    · rw [base, show ApicRegister.svr.address = 0x8000f0 from rfl]
      bv_omega
    · rw [base]
      bv_omega

/-- The gates are empty before there are handlers. -/
theorem gate_empty (parts : PartsAt copy systemData64Base entry)
    (described : (relocated copy).SameOutside (taskRanges symbols) changed) {offset : ℕ}
    (inside : offset < 16 * interruptVectors) :
    changed (systemData64Base + BitVec.ofNat 64 interruptDescriptorTableAt +
      BitVec.ofNat 64 offset) = 0 := by
  have vectors : interruptVectors = 0x50 := rfl
  have size : systemData64Size = 2564 := rfl
  have whole : copy.load (systemData64Base + BitVec.ofNat 64 interruptDescriptorTableAt)
      interruptDescriptorTable.length = interruptDescriptorTable := by
    apply parts (interruptDescriptorTableAt, interruptDescriptorTable)
    simp [systemDataParts]
  rw [length_interruptDescriptorTable] at whole
  have zero := @load_part copy _ _ _ whole offset 1 (by omega)
  rw [interruptDescriptorTable, List.drop_replicate, List.take_replicate,
    show min 1 (16 * interruptVectors - offset) = 1 by omega] at zero
  rw [BitVec.add_assoc, ← BitVec.ofNat_add] at zero ⊢
  have kept : changed.load (systemData64Base +
      BitVec.ofNat 64 (interruptDescriptorTableAt + offset)) 1 =
        copy.load (systemData64Base + BitVec.ofNat 64 (interruptDescriptorTableAt + offset)) 1 := by
    simp only [interruptDescriptorTableAt]
    rw [described.load_eq (by decide), (sameOutside_relocated copy).load_eq (by decide)]
    · simp only [List.forall_mem_singleton, gdtPointer64At]
      exact apart_of_offsets _ (by omega) (by decide) (Or.inl (by omega))
    · simp only [taskRanges, List.forall_mem_cons, List.not_mem_nil, false_implies, implies_true,
        and_true, taskDescriptorAt]
      exact ⟨apart_of_offsets _ (by omega) (by decide) (Or.inr (by omega)),
        apart_scratch symbols.gdtScratch.2 (by omega)⟩
  exact (List.cons.inj (kept.trans zero)).1

/-- The last bytes of the descriptor of the task state segment are empty. -/
theorem task_upper (parts : PartsAt copy systemData64Base entry) :
    relocated copy (systemData64Base + BitVec.ofNat 64 (taskDescriptorAt + 13)) = 0 := by
  have zero := @load_globalDescriptorTable _ _ _ parts (taskDescriptorAt + 13) 1 (by decide)
  have kept : (relocated copy).load (systemData64Base + BitVec.ofNat 64 (taskDescriptorAt + 13)) 1 =
      copy.load (systemData64Base + BitVec.ofNat 64 (taskDescriptorAt + 13)) 1 := by
    apply (sameOutside_relocated copy).load_eq (by decide)
    simp only [List.forall_mem_singleton]
    exact apart_of_offsets _ (by decide) (by decide) (Or.inl (by decide))
  have last := (List.cons.inj (kept.trans zero)).1
  rw [last]
  decide

theorem gatePlace_eq (base : Address) (vector : BitVec 8) :
    base + BitVec.ofNat 64 (16 * vector.toNat) = base + (vector.setWidth 64) <<< 4 := by
  congr 1
  apply BitVec.eq_of_toNat_eq
  have bound := vector.isLt
  rw [BitVec.toNat_ofNat, BitVec.toNat_shiftLeft, BitVec.toNat_setWidth, Nat.shiftLeft_eq]
  omega

/-- The register of the APIC is no part of a gate. -/
theorem enabledSvr_gate {vector : BitVec 64} (inside : vector.toNat < interruptVectors)
    (memory : Memory) {offset : ℕ} (below : offset < 16) :
    enabledSvr memory (symbols.idt.gateAddress vector + BitVec.ofNat 64 offset) =
      memory (symbols.idt.gateAddress vector + BitVec.ofNat 64 offset) := by
  have apart : Apart ApicRegister.svr.address 4
      (systemData64Base + BitVec.ofNat 64 interruptDescriptorTableAt) (16 * interruptVectors) :=
    apart_of_toNat_le (by decide) (by decide)
  exact Memory.write_of_not_within (by decide)
    fun inRegister => apart _ inRegister (within_gateAddress inside below)

/-- In the end each gate has what its handler needs. -/
theorem gate_installed {vector : BitVec 64} {call : HandlerCall}
    (last : lastFor symbols.handlerCalls vector = some call) :
    gateAt (enabledSvr (installedAll symbols.idt symbols.handlerCalls changed))
        (symbols.idt.gateAddress vector) = call.gate ∧
      (enabledSvr (installedAll symbols.idt symbols.handlerCalls changed)
        (symbols.idt.gateAddress vector + 5)).getLsbD 4 = false := by
  have inside : vector.toNat < interruptVectors := by
    rcases mem_of_lastFor last with ⟨listed, rfl⟩
    exact symbols.handlerCalls_inside call listed
  have bytes : ∀ offset < 12, enabledSvr (installedAll symbols.idt symbols.handlerCalls changed)
      (symbols.idt.gateAddress vector + BitVec.ofNat 64 offset) =
        (gateBytes call.handler call.attributes).getD offset 0 := by
    intro offset below
    rw [enabledSvr_gate inside _ (by omega),
      installedAll_of_lastFor symbols.handlerCalls_inside _ last below]
  refine ⟨gateAt_of_gateBytes bytes, ?_⟩
  have fifth := bytes 5 (by decide)
  rw [BitVec.ofNat_eq_ofNat] at fifth
  rw [BitVec.ofNat_eq_ofNat, fifth]
  rcases call with ⟨_ | _, called, handler⟩
  · simp [gateBytes, bytesOf, HandlerCall.attributes]
  · simp [gateBytes, bytesOf, HandlerCall.attributes]

/-- The other gates stay empty. -/
theorem gate_uninstalled {vector : BitVec 64} (parts : PartsAt copy systemData64Base entry)
    (described : (relocated copy).SameOutside (taskRanges symbols) changed)
    (inside : vector.toNat < interruptVectors)
    (unnamed : lastFor symbols.handlerCalls vector = none) :
    (gateAt (enabledSvr (installedAll symbols.idt symbols.handlerCalls changed))
      (symbols.idt.gateAddress vector)).type = 0 := by
  have address : symbols.idt.gateAddress vector + BitVec.ofNat 64 5 =
      systemData64Base + BitVec.ofNat 64 interruptDescriptorTableAt +
        BitVec.ofNat 64 (16 * vector.toNat + 5) := by
    have shifted : vector <<< 4 = BitVec.ofNat 64 (16 * vector.toNat) := by
      apply BitVec.eq_of_toNat_eq
      rw [toNat_shiftLeft_vector inside, BitVec.toNat_ofNat]
      simp only [interruptVectors] at inside
      omega
    rw [InterruptTable.gateAddress, shifted, BitVec.add_assoc, ← BitVec.ofNat_add]
    rfl
  have fifth : enabledSvr (installedAll symbols.idt symbols.handlerCalls changed)
      (symbols.idt.gateAddress vector + BitVec.ofNat 64 5) = 0 := by
    rw [enabledSvr_gate inside _ (by decide),
      installedAll_of_none symbols.handlerCalls_inside _ inside unnamed (by decide), address]
    apply gate_empty parts described
    omega
  have loaded : (Memory.load (enabledSvr (installedAll symbols.idt symbols.handlerCalls changed))
      (symbols.idt.gateAddress vector) 16).getD 5 0 = 0 := by
    rw [Memory.load_add _ _ 5 11, List.getD_append_right _ _ _ _ (by simp)]
    exact fifth
  rw [gateAt, decodeGate, loaded]
  rfl

/-! ### The whole setup -/

/-- A place of the copy has memory behind it. -/
theorem ram_copy {ram : Address → Bool} (mapped : WindowsMapped ram) {offset : ℕ}
    (inside : offset < 0x2000) : ram (systemData64Base + BitVec.ofNat 64 offset) = true := by
  apply ram_systemData mapped
  have cancelled : systemData64Base + BitVec.ofNat 64 offset - systemData64Base =
      BitVec.ofNat 64 offset := by
    rw [BitVec.add_comm, BitVec.add_sub_cancel]
  rw [Within, cancelled, BitVec.toNat_ofNat]
  omega

theorem mapped_copy {processor : Processor} (mapped : WindowsMapped processor.machine.ram)
    {offset count : ℕ} (inside : offset + count ≤ 0x2000) :
    processor.mapped (systemData64Base + BitVec.ofNat 64 offset) count = true := by
  rw [Processor.mapped, List.all_eq_true]
  intro index listed
  rw [List.mem_range] at listed
  rw [BitVec.add_assoc, ← BitVec.ofNat_add]
  exact ram_copy mapped (by omega)

theorem room_processor0IdtRsp {processor : Processor}
    (mapped : WindowsMapped processor.machine.ram) : Room processor processor0IdtRsp := by
  have aligned : processor0IdtRsp &&& ~~~0xf = 0xffffffffffe04800 := by decide
  refine ⟨by decide, ?_⟩
  intro depth _ shallow
  rw [aligned]
  apply ram_kernelStack mapped
  bv_omega

theorem KernelSymbols.handlerCalls_canonical (symbols : KernelSymbols) :
    ∀ call ∈ symbols.handlerCalls, Canonical call.handler := by
  have low : ∀ address : Address, address.toNat < 0x1a000 → Canonical address :=
    fun _ below => Or.inl (Nat.lt_trans below (by decide))
  simp only [handlerCalls, List.map_cons, List.map_nil, List.cons_append, List.nil_append,
    List.forall_mem_cons, List.not_mem_nil, false_implies, implies_true, and_true]
  simp only [low _ (symbols.handlers _), low _ symbols.dbCode, low _ symbols.timerCode, and_self]

/-- The registers that tell where the tables are. -/
structure TablesLoaded (processor : Processor) : Prop where
  gdtr : processor.gdtr = { limit := gdtLimit, base := systemData64Base }
  idtr : processor.idtr =
    { limit := idtLimit, base := systemData64Base + BitVec.ofNat 64 interruptDescriptorTableAt }
  tr : ∃ task, processor.tr = some task ∧ 0x67 ≤ task.limit ∧
    task.base = systemData64Base + BitVec.ofNat 64 taskStatusSegmentAt

theorem descriptor_unchanged {copy last : Memory} {entry : Address} {symbols : KernelSymbols}
    (parts : PartsAt copy systemData64Base entry)
    (same : copy.SameOutside (changedRanges symbols) last) {selector : BitVec 16}
    (used : selector ∈ usedSelectors) :
    TableRegister.descriptor { limit := gdtLimit, base := systemData64Base } last selector =
      some (segmentOf selector) := by
  have inside := (usedSelectors_spec selector used).2
  apply descriptor_of_load used
  rw [load_unchanged same (Nat.le_trans inside (by decide)) (Or.inl inside)
    (Or.inl (Nat.le_trans inside (by decide)))]
  exact load_globalDescriptorTable parts (Nat.le_trans inside (by decide))

theorem tablesReady_of_loaded {processor : Processor} {symbols : KernelSymbols}
    {copy changed : Memory} {entry : Address} (loaded : TablesLoaded processor)
    (mapped : WindowsMapped processor.machine.ram) (parts : PartsAt copy systemData64Base entry)
    (described : (relocated copy).SameOutside (taskRanges symbols) changed)
    (memory : processor.machine.memory =
      enabledSvr (installedAll symbols.idt symbols.handlerCalls changed)) :
    TablesReady processor symbols.handlerCalls processor0IdtRsp := by
  have same := sameOutside_changed described
  rw [← memory] at same
  have gates : ∀ vector : BitVec 8, processor.gatePlace vector.toNat =
      symbols.idt.gateAddress (vector.setWidth 64) := by
    intro vector
    rw [Processor.gatePlace, loaded.idtr]
    exact gatePlace_eq _ vector
  rcases loaded.tr with ⟨task, isTask, limit, base⟩
  have stack : task.base + 4 = systemData64Base + BitVec.ofNat 64 (taskStatusSegmentAt + 4) := by
    rw [base]
    rfl
  have code : processor.gdtr.descriptor processor.machine.memory 0x28 = some kernelCode := by
    rw [loaded.gdtr, descriptor_unchanged parts same (by decide), segmentOf_kernelCS]
  refine
    { limit := ?_
      gatesMapped := ?_
      inside := symbols.handlerCalls_inside
      installed := ?_
      empty := ?_
      canonical := symbols.handlerCalls_canonical
      segment := ⟨kernelCode, code, rfl⟩
      code
      codeMapped := ?_
      task := ⟨task, isTask, by omega, ?_, ?_⟩
      room := room_processor0IdtRsp mapped }
  · rw [loaded.idtr]
    rfl
  · intro vector inside
    simp only [interruptVectors] at inside
    rw [Processor.gatePlace, loaded.idtr]
    simp only [BitVec.add_assoc, ← BitVec.ofNat_add]
    apply mapped_copy mapped
    simp only [interruptDescriptorTableAt]
    omega
  · intro vector call last
    rw [gates, memory]
    exact gate_installed last
  · intro vector inside unnamed
    rw [gates, memory]
    apply gate_uninstalled parts described _ unnamed
    rw [BitVec.toNat_setWidth]
    omega
  · rw [loaded.gdtr]
    exact @mapped_copy _ mapped 0x28 8 (by decide)
  · rw [stack]
    exact mapped_copy mapped (by decide)
  · rw [stack, Memory.read, load_unchanged same (by decide) (by decide) (by decide),
      ← Memory.read]
    exact read_rsp0 parts

/-- What is known when user mode begins. -/
structure UserModeReady (symbols : KernelSymbols) (before after : Processor) : Prop where
  loaded : TablesLoaded after
  tables : TablesReady after symbols.handlerCalls processor0IdtRsp
  selectors : after.selectors = userSelectors
  interruptFlag : after.interruptFlag = true
  msrs : after.msrs = enabledMsrs before.msrs
  svr : (apicRegister after.machine.memory .svr).getLsbD 8 = true
  ram : after.machine.ram = before.machine.ram
  elsewhere : before.machine.memory.SameOutside (setupRanges symbols) after.machine.memory

/-- What the setup changes at all. -/
theorem sameOutside_setup {symbols : KernelSymbols} {memory last : Memory} {entry : Address}
    (same : (copied entry memory).SameOutside (changedRanges symbols) last) :
    memory.SameOutside (setupRanges symbols) last := by
  have copying : memory.SameOutside (setupRanges symbols) (copied entry memory) := by
    refine (Memory.SameOutside.refl _ _).store (List.mem_cons_self ..) ?_ ?_
    · rw [Memory.length_load]
      decide
    · rw [Memory.length_load]
      exact fun _ inside => inside
  apply copying.trans
  apply same.mono
  have part : ∀ {offset count : ℕ}, offset + count ≤ systemData64Size →
      ∃ wider ∈ setupRanges symbols, ∀ place,
        Within place (systemData64Base + BitVec.ofNat 64 offset) count →
          Within place wider.1 wider.2 := by
    intro offset count fits
    exact ⟨_, List.mem_cons_self .., fun place inside => inside.of_add fits (by decide)⟩
  simp only [changedRanges, List.forall_mem_cons, List.not_mem_nil, false_implies, implies_true,
    and_true]
  refine ⟨part (by decide), part (by decide), part (by decide), ?_, ?_, ?_⟩
  · exact ⟨(symbols.gdtPointer, 10), by simp [setupRanges], fun _ inside => inside⟩
  · exact ⟨(symbols.idtPointer, 10), by simp [setupRanges], fun _ inside => inside⟩
  · exact ⟨(ApicRegister.svr.address, 4), by simp [setupRanges], fun _ inside => inside⟩

theorem enabledSvr_svr (memory : Memory) :
    (apicRegister (enabledSvr memory) .svr).getLsbD 8 = true := by
  rw [apicRegister, enabledSvr, Memory.read_write (by decide) (by decide), BitVec.getLsbD_or,
    BitVec.getLsbD_twoPow]
  simp

theorem wp_kernelSetup {processor : Processor} (symbols : KernelSymbols) (undefined : BitVec 16)
    (gdtr : processor.gdtr = { limit := gdtLimit, base := symbols.systemData64Entry })
    (image : SystemDataAt processor.machine.memory symbols.systemData64Entry)
    (kernel : processor.cpl = 0) (mapped : WindowsMapped processor.machine.ram) :
    wpPrivileged (kernelSetup symbols undefined)
      (fun entry after => entry = userEntered symbols ∧ UserModeReady symbols processor after)
      processor := by
  simp only [kernelSetup, wpPrivileged_bind]
  apply wp_loadSegments gdtr image kernel
  simp only [movRsp, cli, sti, wpPrivileged_modify, wpPrivileged_onMachine]
  have parts := partsAt_copied image
  have rests : Rests processor.machine.ram processor.machine.memory
      ((processor.machine.put rax kernelSS).withStack []) := ⟨rfl, rfl, rfl⟩
  apply (wp_copySystemData rests mapped).mono
  rintro _ copying rests
  -- the tables are used where they are copied to
  have gdtLimited := read_limit parts (gdtPointer64_mem symbols.systemData64Entry)
  apply (wp_relocate_pointer rests mapped gdtLimited (by decide) (by decide)).mono
  rintro _ first ⟨pointer, rests⟩
  apply wp_lgdt pointer
  have idtLimited : Memory.read ((copied symbols.systemData64Entry processor.machine.memory).write
      (systemData64Base + BitVec.ofNat 64 (gdtPointer64At + 2))
      (systemData64Base + BitVec.ofNat 64 globalDescriptorTableAt)) 16
        (systemData64Base + BitVec.ofNat 64 idtPointer64At) = idtLimit := by
    rw [Memory.read_write_of_apart _ _ _ (by decide) (by decide)]
    · exact read_limit parts (idtPointer64_mem symbols.systemData64Entry)
    · exact apart_of_offsets _ (by decide) (by decide) (Or.inr (by decide))
  apply (wp_relocate_pointer rests mapped idtLimited (by decide) (by decide)).mono
  rintro _ second ⟨pointer, rests⟩
  apply wp_lidt pointer
  apply wp_setTaskState rests mapped rfl (task_upper parts)
  intro third changed task rests described base limit
  apply wp_installHandlers rests mapped rfl
  intro fourth rests
  apply wp_enableApic rests mapped
  intro fifth rests
  apply wp_pushEntry rests mapped
  intro last ram memory stack
  have same := sameOutside_changed described
  have found : ∀ selector ∈ usedSelectors,
      TableRegister.descriptor { limit := gdtLimit, base := systemData64Base } last.memory
        selector = some (segmentOf selector) := by
    rw [memory]
    exact fun selector used => descriptor_unchanged parts same used
  have mappedLast : WindowsMapped last.ram := by
    rw [ram]
    exact mapped
  refine wp_retfqOuter ⟨found 0x4b (by decide), found 0x53 (by decide), found 0x30 (by decide),
    kernel⟩ ⟨rfl, rfl⟩ stack ⟨rfl, ?_⟩
  have loaded : TablesLoaded
      { machine := last.withStack []
        gdtr := { limit := gdtLimit, base := systemData64Base }
        idtr :=
          { limit := idtLimit
            base := systemData64Base + BitVec.ofNat 64 interruptDescriptorTableAt }
        tr := some task
        selectors := userSelectors
        stackTop := userRsp
        interruptFlag := true
        msrs := enabledMsrs processor.msrs } := ⟨rfl, rfl, task, rfl, limit, base⟩
  refine
    { loaded
      tables := tablesReady_of_loaded loaded mappedLast parts described memory
      selectors := rfl
      interruptFlag := rfl
      msrs := rfl
      svr := ?_
      ram := ram
      elsewhere := ?_ }
  · rw [Machine.withStack_memory, memory]
    exact enabledSvr_svr _
  · rw [Machine.withStack_memory, memory]
    exact sameOutside_setup same

end Setup

end VirtLearn.Guest
