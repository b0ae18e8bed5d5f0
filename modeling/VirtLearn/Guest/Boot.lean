import VirtLearn.Guest.LongMode

/-!
# From the boot sector to user mode

`_start` of `learn.S`, which the monitor has the processor begin with in real mode, and what it
leads to: user mode, or a fault on a processor without the features that `entry32` asks for
(`boot_iff`). Real mode adds sixteen times the selector of a segment to an offset; its interrupts
are left out.
-/

namespace VirtLearn.Guest

open Assembly Register Paging

def code32Sel : BitVec 16 :=
  0x18

/-- `BASE`, where the boot sector begins, and its stack ends. -/
def bootBase : Address :=
  0x7c00

def realAddress (selector : BitVec 16) (offset : Address) : Address :=
  selector.setWidth 64 <<< 4 + (offset.setWidth 16).setWidth 64

section Instructions

/-- `mov %ax` to a segment register, without a check. -/
def loadReal (segment : Segment) : Privileged Unit :=
  modify fun processor => processor.select segment (processor.machine.get 16 rax)

/-- `lgdt` and `lidt` of 16 bits leave out the upper 8 bits of the base. -/
def readTable16 (offset : Address) : Startup TableRegister := do
  let data := (← get).processor.selectors .ds
  let (limit, base) ← readPointer (realAddress data offset)
  return { limit, base := (base &&& 0xffffff).setWidth 64 }

def lgdt16 (offset : Address) : Startup Unit := do
  let gdtr ← readTable16 offset
  onProcessor (modify fun processor => { processor with gdtr })

def lidt16 (offset : Address) : Startup Unit := do
  let idtr ← readTable16 offset
  onProcessor (modify fun processor => { processor with idtr })

/-- The far jump to 32-bit code, with protection on. -/
def farJump32 (selector : BitVec 16) : Startup Unit := do
  let legacy ← get
  let processor := legacy.processor
  match processor.gdtr.descriptor processor.machine.memory selector with
  | none => failure
  | some code =>
      if legacy.cr0.getLsbD 0 = true ∧ code.code ∧ code.present ∧ code.big ∧ ¬code.long ∧
          ¬code.conforming ∧ code.dpl = 0 ∧ rpl selector = 0 then
        onProcessor (modify fun processor => processor.select .cs selector)
      else failure

def realModeEnvironment (symbols : KernelSymbols) : Startup Unit := do
  let code := (← get).processor.selectors .cs
  onRoutine (assign (.reg rax) code)
  onProcessor (loadReal .ds)
  onProcessor (loadReal .es)
  onProcessor (loadReal .ss)
  onProcessor (movRsp bootBase)
  onProcessor sti
  lgdt16 (symbols.systemData64Entry + BitVec.ofNat 64 gdtPointer32At)
  lidt16 (symbols.systemData64Entry + BitVec.ofNat 64 idtPointer32At)

def openProtectedMode : Startup Unit := do
  readCr0
  onRoutine (bts 32 0 (.reg rax))
  writeCr0

/-- `_start`. -/
def realModeStart (symbols : KernelSymbols) : Startup Unit := do
  realModeEnvironment symbols
  openProtectedMode
  farJump32 code32Sel

def boot (features : Features) (symbols : KernelSymbols) (fuel : ℕ) : Startup Processor := do
  realModeStart symbols
  entry32 features symbols fuel

end Instructions

section Boot

variable {features : Features} {symbols : KernelSymbols} {expected legacy after : Legacy}

/--
The state in which the monitor has the processor begin, with the image in memory: the bits of `CR0`
and `CR4` that the code relies on and does not set are clear, as after a reset.
-/
structure Boots (symbols : KernelSymbols) (legacy : Legacy) : Prop extends AsReset legacy where
  paging : legacy.cr0.getLsbD 31 = false
  code : legacy.processor.selectors .cs = 0
  image : SystemDataAt legacy.processor.machine.memory symbols.systemData64Entry
  backed : WindowsBacked legacy.processor.machine.ram
  bsp : (legacy.processor.msrs ia32ApicBase).getLsbD 8 = true

theorem segmentOf_code32Sel : segmentOf code32Sel = ⟨0xa, true, 0, true, false, true⟩ := by
  decide +kernel

theorem realAddress_zero {offset : Address} (small : offset.toNat < 2 ^ 16) :
    realAddress 0 offset = offset := by
  apply BitVec.eq_of_toNat_eq
  simp [realAddress]
  omega

theorem wpStartup_readTable16 {post : TableRegister → Legacy → Prop} {pointerAt table : ℕ}
    {limit : BitVec 16} {memory : Memory} {ram : Address → Bool}
    (data : legacy.processor.selectors .ds = 0)
    (image : SystemDataAt memory symbols.systemData64Entry) (backed : ImageBacked ram)
    (listed : (pointerAt, bytesOf 2 limit.toNat ++ bytesOf 4 table) ∈
      systemDataParts symbols.systemData64Entry)
    (sameMemory : legacy.processor.machine.memory = memory)
    (sameRam : legacy.processor.machine.ram = ram) (small : table < 2 ^ 24)
    (remaining : post { limit, base := BitVec.ofNat 64 table } legacy) :
    wpStartup (readTable16 (symbols.systemData64Entry + BitVec.ofNat 64 pointerAt)) post
      legacy := by
  rcases symbols.tables with ⟨above, below⟩
  have size : systemData64Size = 2564 := rfl
  have inside := parts_inside symbols.systemData64Entry _ listed
  simp only [List.length_append, length_bytesOf] at inside
  have place : realAddress 0 (symbols.systemData64Entry + BitVec.ofNat 64 pointerAt) =
      symbols.systemData64Entry + BitVec.ofNat 64 pointerAt := by
    apply realAddress_zero
    bv_omega
  have base : (BitVec.ofNat 32 table &&& 0xffffff).setWidth 64 = BitVec.ofNat 64 table := by
    apply BitVec.eq_of_toNat_eq
    have mask : ∀ value : ℕ, value &&& 0xffffff = value % 2 ^ 24 :=
      fun value => Nat.and_two_pow_sub_one_eq_mod value 24
    simp only [BitVec.toNat_setWidth, BitVec.toNat_and, BitVec.toNat_ofNat]
    have ones : (0xffffff : BitVec 32).toNat = 0xffffff := rfl
    rw [ones, mask]
    omega
  simp only [readTable16, wpStartup_bind, wpStartup_get, data, place]
  refine wpStartup_readPointer image backed 0 listed sameMemory sameRam ?_
  rw [wpStartup_pure, base]
  exact remaining

theorem gdtPointer32_mem (entry : Address) :
    (gdtPointer32At,
      bytesOf 2 gdtLimit.toNat ++ bytesOf 4 (entry.toNat + globalDescriptorTableAt)) ∈
        systemDataParts entry := by
  simp [systemDataParts]

theorem idtPointer32_mem (entry : Address) :
    (idtPointer32At,
      bytesOf 2 idtLimit.toNat ++ bytesOf 4 (entry.toNat + interruptDescriptorTableAt)) ∈
        systemDataParts entry := by
  simp [systemDataParts]

def Legacy.withGdtr (legacy : Legacy) (gdtr : TableRegister) : Legacy :=
  { legacy with processor.gdtr := gdtr }

theorem wpStartup_realModeEnvironment (boots : Boots symbols legacy) :
    wpStartup (realModeEnvironment symbols)
      (fun _ after =>
        Passes (legacy.withGdtr { limit := gdtLimit, base := symbols.systemData64Entry }) after ∧
          after.processor.machine.get 32 rcx = legacy.processor.machine.get 32 rcx) legacy := by
  rcases symbols.tables with ⟨above, below⟩
  have size : systemData64Size = 2564 := rfl
  have image := boots.image
  have backed : ImageBacked legacy.processor.machine.ram := fun _ => boots.backed.image
  simp only [realModeEnvironment, loadReal, movRsp, sti, lgdt16, lidt16, wpStartup_bind,
    wpStartup_get, wpStartup_onRoutine, wpStartup_onProcessor, wp_assign_reg, wpPrivileged_modify,
    boots.code]
  refine wpStartup_readTable16 ?_ image backed (gdtPointer32_mem _) rfl rfl ?_ ?_
  · simp [Processor.select]
  · have table : globalDescriptorTableAt = 0 := rfl
    omega
  refine wpStartup_readTable16 ?_ image backed (idtPointer32_mem _) rfl rfl ?_ ?_
  · simp [Processor.select]
  · have table : interruptDescriptorTableAt = 0x100 := rfl
    omega
  refine ⟨⟨rfl, rfl, rfl, ?_, rfl, rfl, rfl, rfl, rfl⟩, ?_⟩
  · rw [gdt_base]
    rfl
  · simp [Processor.select]

theorem wpStartup_openProtectedMode (passes : Passes expected legacy)
    (paging : expected.cr0.getLsbD 31 = false) :
    wpStartup openProtectedMode
      (fun _ after =>
        Passes { expected with cr0 := expected.cr0 ||| BitVec.twoPow 32 0 } after ∧
          after.processor.machine.get 32 rcx = legacy.processor.machine.get 32 rcx) legacy := by
  simp only [openProtectedMode, readCr0, bts, wpStartup_bind, wpStartup_get, wpStartup_onRoutine,
    wp_assign_reg, wp_bind, wp_fetch_reg, wp_get, wp_setFlags]
  apply (settles_writeCr0 ?_).ends
  · have off : expected.cr0[31] = false := by simpa using paging
    simp [passes.cr0, off]
  · refine ⟨⟨passes.stack, passes.ram, passes.memory, passes.gdtr, passes.cs, passes.msrs, ?_,
      passes.cr3, passes.cr4⟩, ?_⟩
    · simp [passes.cr0]
    · simp

theorem wpStartup_farJump32 {post : Unit → Legacy → Prop}
    (protection : legacy.cr0.getLsbD 0 = true)
    (gdtr : legacy.processor.gdtr = { limit := gdtLimit, base := symbols.systemData64Entry })
    (image : SystemDataAt legacy.processor.machine.memory symbols.systemData64Entry)
    (remaining : post () { legacy with processor := legacy.processor.select .cs code32Sel }) :
    wpStartup (farJump32 code32Sel) post legacy := by
  have found : legacy.processor.gdtr.descriptor legacy.processor.machine.memory code32Sel =
      some ⟨0xa, true, 0, true, false, true⟩ := by
    rw [gdtr, ← segmentOf_code32Sel]
    apply descriptor_of_inside (by decide) (by decide)
    exact load_globalDescriptorTable image (by decide)
  simp only [farJump32, wpStartup_bind, wpStartup_get, found]
  rw [if_pos ⟨protection, by decide⟩, wpStartup_onProcessor, wpPrivileged_modify]
  exact remaining

/-- The state at `entry32`: what decides there has not changed. -/
theorem wpStartup_realModeStart (boots : Boots symbols legacy) :
    wpStartup (realModeStart symbols)
      (fun _ after => Starts symbols after ∧ after.cr4 = legacy.cr4 ∧
        after.processor.msrs = legacy.processor.msrs ∧
        after.processor.machine.get 32 rcx = legacy.processor.machine.get 32 rcx) legacy := by
  rw [realModeStart, wpStartup_bind]
  apply (wpStartup_realModeEnvironment boots).mono
  rintro _ first ⟨passes, kept⟩
  rw [wpStartup_bind]
  apply (wpStartup_openProtectedMode passes boots.paging).mono
  rintro _ second ⟨passes, keptThen⟩
  have protection : second.cr0.getLsbD 0 = true := by
    rw [passes.cr0]
    simp
  have image : SystemDataAt second.processor.machine.memory symbols.systemData64Entry :=
    passes.memory ▸ boots.image
  apply wpStartup_farJump32 protection passes.gdtr image
  have reset : AsReset second := by
    refine ⟨?_, ?_, passes.cr4 ▸ boots.levels⟩
    · rw [passes.cr0, BitVec.getLsbD_or]
      simpa [Legacy.withGdtr, emBit] using boots.emulation
    · rw [passes.cr0, BitVec.getLsbD_or]
      simpa [Legacy.withGdtr, tsBit] using boots.switched
  refine ⟨⟨⟨reset.emulation, reset.switched, reset.levels⟩, protection, ?_, passes.gdtr, image,
    passes.ram ▸ boots.backed, ?_⟩, passes.cr4, passes.msrs, keptThen.trans kept⟩
  · simp [Processor.cpl, Processor.select, code32Sel, rpl]
  · rw [Processor.select, passes.msrs]
    exact boots.bsp

/-- What decides at `entry32` is decided by these. -/
theorem enters_congr (cr4 : after.cr4 = legacy.cr4)
    (msrs : after.processor.msrs = legacy.processor.msrs)
    (asked : after.processor.machine.get 32 rcx = legacy.processor.machine.get 32 rcx) :
    Enters features after ↔ Enters features legacy := by
  have sse : sseCr4 after = sseCr4 legacy := by rw [sseCr4, cr4, sseCr4]
  have reported : paeReported features { after with cr4 := sseCr4 legacy } =
      paeReported features { legacy with cr4 := sseCr4 legacy } := by
    simp only [paeReported, asked]
  have long : longCr4 features after = longCr4 features legacy := by
    rw [longCr4, longCr4, sse, paeCr4, paeCr4, reported]
  have efer : longEfer after.processor = longEfer legacy.processor := by
    rw [longEfer, msrs, longEfer]
  constructor
  · rintro ⟨allowed, pae, enabled⟩
    exact ⟨long ▸ allowed, long ▸ pae, efer ▸ enabled⟩
  · rintro ⟨allowed, pae, enabled⟩
    exact ⟨long ▸ allowed, long ▸ pae, efer ▸ enabled⟩

/-- On a processor with the features that the code asks for, and on no other, the boot sector leads
to 64-bit mode; and then the kernel gets to user mode. -/
theorem boot_iff {fuel : ℕ} (undefined : BitVec 16) (boots : Boots symbols legacy)
    (enough : 32 < fuel) :
    Settles (boot features symbols fuel) legacy (Enters features legacy)
      fun processor _ => wpPrivileged (kernelSetup symbols undefined)
        (fun entry after => entry = userEntered symbols ∧ UserModeReady symbols processor after)
        processor := by
  apply settles_bind
  apply (wpStartup_realModeStart boots).mono
  rintro _ after ⟨starts, cr4, msrs, asked⟩
  exact (settles_entry32 undefined starts enough).congr (enters_congr cr4 msrs asked)

end Boot

/-- Virtual machines are what bit 13 of `CR4` is for. -/
def virtualFeatures : Features where
  cpuid := fun leaf _ => if leaf = 1 then { edx := BitVec.twoPow 32 6 } else {}
  cr4 := 0x27ff
  efer := 0xd01

/-- The image of `kernelProcessor`, on a processor after its reset. -/
def resetLegacy : Legacy where
  processor := { kernelProcessor with
    gdtr := { limit := 0xffff, base := 0 }
    idtr := { limit := 0xffff, base := 0 }
    selectors := fun _ => 0
    msrs := fun msr => if msr = ia32ApicBase then 0xfee00900 else 0 }
  cr0 := 0x60000010
  cr3 := 0
  cr4 := 0

theorem boots_resetLegacy : Boots kernelImage resetLegacy where
  emulation := by decide
  switched := by decide
  levels := by decide
  paging := by decide
  code := rfl
  image := systemDataAt_systemDataMemory 0x9000
  backed := fun _ _ _ _ _ _ _ => rfl
  bsp := by decide

theorem boot_iff_virtual :
    wpStartup (boot virtualFeatures kernelImage 33)
        (fun processor _ => wpPrivileged (kernelSetup kernelImage 0xffff)
          (fun entry after => entry = userEntered kernelImage ∧
            UserModeReady kernelImage processor after) processor) resetLegacy ∧
      boot { virtualFeatures with cr4 := 0x7ff } kernelImage 33 resetLegacy = none := by
  constructor
  · apply (boot_iff 0xffff boots_resetLegacy (by decide)).ends
    exact ⟨by decide +kernel, by decide +kernel, by decide +kernel⟩
  · apply (boot_iff 0xffff boots_resetLegacy (by decide)).faults
    intro enters
    exact absurd enters.cr4 (by decide +kernel)

end VirtLearn.Guest
