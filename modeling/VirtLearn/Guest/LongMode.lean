import VirtLearn.Guest.UserEvents
import VirtLearn.Kvm.Cpuid

/-!
# The way to 64-bit mode

`entry32` of `learn.S`, behind the far jump to protected mode and up to the one to 64-bit mode, with
`pae_enable` of `page64.S`. Paging is off until then, so that addresses are physical. What there is
of the processor is an argument (`Features`), and instructions have no result where they fault.

To open SSE the code sets bits 9 and 13 of `CR4`, the second of which is for virtual machines. A
processor that does not have this bit does not get to 64-bit mode (`settles_entry32`).
-/

namespace VirtLearn.Guest

open Assembly Register Paging

/-- What `CPUID` answers, and which bits of the registers may be set. -/
structure Features where
  cpuid : Kvm.Host
  cr4 : BitVec 32
  efer : BitVec 64

/-- The processor before 64-bit mode: the memory of its machine is physical. -/
structure Legacy where
  processor : Processor
  cr0 : BitVec 32
  cr3 : BitVec 32
  cr4 : BitVec 32

/-- Instructions before 64-bit mode. -/
abbrev Startup :=
  StateT Legacy Option

def data32Sel : BitVec 16 :=
  0x20

def ia32Efer : BitVec 32 :=
  0xc0000080

def paeBit : ℕ :=
  5

/-- `CR0.EM`. -/
def emBit : ℕ :=
  2

/-- `CR0.TS`. -/
def tsBit : ℕ :=
  3

/-- `CR4.OSFXSR`. -/
def osfxsrBit : ℕ :=
  9

/-- `CR4.LA57`. -/
def la57Bit : ℕ :=
  12

def pml4tBase : BitVec 32 :=
  0x200000

/-- Where the section of `entry32` begins. -/
def entry32Address : Address :=
  0x9000

def onProcessor {α : Type} (code : Privileged α) : Startup α := fun legacy =>
  (code legacy.processor).map fun (value, processor) => (value, { legacy with processor })

def onRoutine {α : Type} (routine : Routine α) : Startup α :=
  onProcessor (onMachine routine)

/-- An address leads where the tables tell, for whatever mode. -/
def lead (entryAt : ℕ → ℕ → Option PageEntry) (root : ℕ) (address : Address) : Option Address :=
  if Canonical address then
    (walk entryAt root address).map fun translation => BitVec.ofNat 64 translation.physical
  else none

/-- The machine as it is seen behind the tables in its memory. -/
def behindTables (root : ℕ) (machine : Machine) : Machine :=
  let space := lead machine.memory.entryAt root
  { machine with
    ram := fun address => (space address).any machine.ram
    memory := seen space machine.memory }

section Instructions

variable (features : Features)

/-- `lgdt` and `lidt` read the limit and the base behind it. -/
def readPointer (address : Address) : Startup (BitVec 16 × BitVec 32) := do
  let limit : BitVec 16 ← onRoutine (fetch (.symbol address))
  let base : BitVec 32 ← onRoutine (fetch (.symbol (address + 2)))
  return (limit, base)

/-- `lgdt` and `lidt` of 32 bits. -/
def readTable32 (address : Address) : Startup TableRegister := do
  let (limit, base) ← readPointer address
  return { limit, base := base.setWidth 64 }

def lgdt32 (address : Address) : Startup Unit := do
  let gdtr ← readTable32 address
  onProcessor (modify fun processor => { processor with gdtr })

def lidt32 (address : Address) : Startup Unit := do
  let idtr ← readTable32 address
  onProcessor (modify fun processor => { processor with idtr })

/-- `mov %cr4,%eax`. -/
def readCr4 : Startup Unit := do
  let legacy ← get
  onRoutine (assign (.reg rax) legacy.cr4)

/-- `mov %eax,%cr4`. -/
def writeCr4 : Startup Unit := do
  let legacy ← get
  let value := legacy.processor.machine.get 32 rax
  if value &&& ~~~features.cr4 = 0 then set { legacy with cr4 := value } else failure

/-- `mov %eax,%cr3`. -/
def writeCr3 : Startup Unit :=
  modify fun legacy => { legacy with cr3 := legacy.processor.machine.get 32 rax }

/-- `mov %cr0,%eax`. -/
def readCr0 : Startup Unit := do
  let legacy ← get
  onRoutine (assign (.reg rax) legacy.cr0)

/-- `mov %eax,%cr0`: no paging without protection, and none for 64-bit mode without `PAE`. -/
def writeCr0 : Startup Unit := do
  let legacy ← get
  let value := legacy.processor.machine.get 32 rax
  if value.getLsbD 31 = true ∧ (value.getLsbD 0 = false ∨
      (legacy.processor.msrs ia32Efer).getLsbD 8 = true ∧ legacy.cr4.getLsbD paeBit = false) then
    failure
  else set { legacy with cr0 := value }

/-- `wrmsr` to `EFER`. -/
def writeEfer : Startup Unit := do
  let legacy ← get
  let machine := legacy.processor.machine
  let value : BitVec 64 := machine.get 32 rdx ++ machine.get 32 rax
  if value &&& ~~~features.efer = 0 then onProcessor wrmsr else failure

def cpuid : Routine Unit := do
  let machine ← get
  let answer := features.cpuid (machine.get 32 rax) (machine.get 32 rcx)
  assign (.reg rax) answer.eax
  assign (.reg rbx) answer.ebx
  assign (.reg rcx) answer.ecx
  assign (.reg rdx) answer.edx

/-- Call instructions that are not all of the machine. -/
def callStartup (code : Startup Unit) : Startup Unit := do
  onRoutine (modify fun machine => machine.withStack (.returnAddress :: machine.stack))
  code
  let legacy ← get
  match legacy.processor.machine.stack with
  | .returnAddress :: rest => onRoutine (modify fun machine => machine.withStack rest)
  | _ => failure

def paeEnable : Startup Unit := do
  onRoutine do
    mov 32 (.imm 1) (.reg rax)
    cpuid features
    bt 32 6 (.reg rdx)
  if ← onRoutine jnc then return
  else
    readCr4
    onRoutine (bts 32 paeBit (.reg rax))
    writeCr4 features

/-- The instructions of SSE fault unless they are opened, and the processor runs them itself. -/
def sseInstructions : Startup Unit := do
  let legacy ← get
  if legacy.cr4.getLsbD osfxsrBit = true ∧ legacy.cr0.getLsbD emBit = false ∧
      legacy.cr0.getLsbD tsBit = false then
    return
  else failure

/-- The far jump to 64-bit code, with paging on; there is no result for tables of five levels. -/
def farJump64 (selector : BitVec 16) : Startup Processor := do
  let legacy ← get
  let processor := legacy.processor
  let machine := behindTables (legacy.cr3 &&& 0xfffff000).toNat processor.machine
  match processor.gdtr.descriptor machine.memory selector with
  | none => failure
  | some code =>
      if legacy.cr0.getLsbD 31 = true ∧ (processor.msrs ia32Efer).getLsbD 8 = true ∧
          legacy.cr4.getLsbD la57Bit = false ∧ code.code ∧ code.present ∧ code.long ∧
          ¬code.big ∧ ¬code.conforming ∧
          code.dpl = processor.cpl ∧ rpl selector ≤ processor.cpl then
        return { (processor.select .cs selector) with machine }
      else failure

def protectedModeEnvironment (symbols : KernelSymbols) : Startup Unit := do
  onRoutine (mov 16 (.imm data32Sel) (.reg rax))
  onProcessor (loadData .ds)
  onProcessor loadStack
  onProcessor (movRsp entry32Address)
  lgdt32 (symbols.systemData64Entry + BitVec.ofNat 64 gdtPointer64At)
  lidt32 (symbols.systemData64Entry + BitVec.ofNat 64 idtPointer64At)

def openSse : Startup Unit := do
  readCr4
  onRoutine (bts 32 osfxsrBit (.reg rax))
  onRoutine (bts 32 13 (.reg rax))
  writeCr4 features

def setTables : Startup Unit := do
  onRoutine (mov 32 (.imm pml4tBase) (.reg rax))
  writeCr3

def setEfer : Startup Unit := do
  onRoutine (mov 32 (.imm ia32Efer) (.reg rcx))
  onProcessor readMsr
  onRoutine (bts 32 8 (.reg rax))
  writeEfer features

def openLongMode : Startup Unit := do
  readCr0
  onRoutine (bts 32 31 (.reg rax))
  writeCr0

/-- From `entry32` to the far jump. -/
def entry32 (symbols : KernelSymbols) (fuel : ℕ) : Startup Processor := do
  protectedModeEnvironment symbols
  openSse features
  callStartup (paeEnable features)
  let msrs := (← get).processor.msrs
  -- `init_paging` clears the tables by them
  sseInstructions
  onRoutine (call (initPaging msrs fuel))
  setTables
  setEfer features
  openLongMode
  farJump64 kernelCode64Sel

end Instructions

/-! ### Rules -/

/-- The instructions end in a state that meets the postcondition. -/
def wpStartup {α : Type} (code : Startup α) (post : α → Legacy → Prop) (legacy : Legacy) : Prop :=
  ∃ value after, code legacy = some (value, after) ∧ post value after

/-- The instructions end, and then as wanted, exactly under a condition. -/
structure Settles {α : Type} (code : Startup α) (legacy : Legacy) (condition : Prop)
    (post : α → Legacy → Prop) : Prop where
  ends : condition → wpStartup code post legacy
  faults : ¬condition → code legacy = none

section Rules

variable {α : Type} {β : Type} {legacy : Legacy} {condition : Prop}

theorem wpStartup_iff_of_ends {code : Startup α} {post : α → Legacy → Prop} {value : α}
    {after : Legacy} (ends : code legacy = some (value, after)) :
    wpStartup code post legacy ↔ post value after := by
  rw [wpStartup, ends]
  constructor
  · rintro ⟨_, _, same, met⟩
    cases same
    exact met
  · intro met
    exact ⟨value, after, rfl, met⟩

theorem wpStartup.mono {code : Startup α} {post weaker : α → Legacy → Prop}
    (holds : wpStartup code post legacy)
    (weakens : ∀ value after, post value after → weaker value after) :
    wpStartup code weaker legacy := by
  rcases holds with ⟨value, after, ends, met⟩
  exact ⟨value, after, ends, weakens value after met⟩

@[simp]
theorem wpStartup_pure (value : α) (post : α → Legacy → Prop) :
    wpStartup (pure value) post legacy ↔ post value legacy :=
  wpStartup_iff_of_ends rfl

@[simp]
theorem wpStartup_bind (first : Startup α) (second : α → Startup β) (post : β → Legacy → Prop) :
    wpStartup (first >>= second) post legacy ↔
      wpStartup first (fun value after => wpStartup (second value) post after) legacy := by
  simp only [wpStartup, bind, StateT.bind, Option.bind_eq_some_iff]
  constructor
  · rintro ⟨value, after, ⟨⟨middle, between⟩, begins, ends⟩, met⟩
    exact ⟨middle, between, begins, value, after, ends, met⟩
  · rintro ⟨middle, between, begins, value, after, ends, met⟩
    exact ⟨value, after, ⟨⟨middle, between⟩, begins, ends⟩, met⟩

@[simp]
theorem wpStartup_get (post : Legacy → Legacy → Prop) :
    wpStartup get post legacy ↔ post legacy legacy :=
  wpStartup_iff_of_ends rfl

@[simp]
theorem wpStartup_modify (change : Legacy → Legacy) (post : PUnit → Legacy → Prop) :
    wpStartup (modify change) post legacy ↔ post ⟨⟩ (change legacy) :=
  wpStartup_iff_of_ends rfl

@[simp]
theorem wpStartup_onProcessor (code : Privileged α) (post : α → Legacy → Prop) :
    wpStartup (onProcessor code) post legacy ↔
      wpPrivileged code (fun value processor => post value { legacy with processor })
        legacy.processor := by
  simp only [wpStartup, onProcessor, wpPrivileged, Option.map_eq_some_iff]
  constructor
  · rintro ⟨_, _, ⟨⟨value, processor⟩, ends, same⟩, met⟩
    cases same
    exact ⟨value, processor, ends, met⟩
  · rintro ⟨value, processor, ends, met⟩
    exact ⟨value, { legacy with processor }, ⟨(value, processor), ends, rfl⟩, met⟩

@[simp]
theorem wpStartup_onRoutine (routine : Routine α) (post : α → Legacy → Prop) :
    wpStartup (onRoutine routine) post legacy ↔
      wp routine (fun value machine =>
        post value { legacy with processor := { legacy.processor with machine } })
        legacy.processor.machine := by
  rw [onRoutine, wpStartup_onProcessor, wpPrivileged_onMachine]

/-- Instructions that cannot fault leave it to those behind them. -/
theorem settles_bind {first : Startup α} {second : α → Startup β} {post : β → Legacy → Prop}
    (begins : wpStartup first (fun value after => Settles (second value) after condition post)
      legacy) : Settles (first >>= second) legacy condition post := by
  rcases begins with ⟨value, after, ends, settles⟩
  refine ⟨?_, ?_⟩
  · intro holds
    rw [wpStartup_bind, wpStartup_iff_of_ends ends]
    exact settles.ends holds
  · intro fails
    have faults := settles.faults fails
    simp only [bind, StateT.bind, ends, Option.bind_some, faults]

/-- Instructions that may fault have those behind them go on. -/
theorem settles_bind_of_settles {first : Startup α} {second : α → Startup β} {early : Prop}
    {post : β → Legacy → Prop}
    (begins : Settles first legacy early fun value after =>
      Settles (second value) after condition post) :
    Settles (first >>= second) legacy (early ∧ condition) post := by
  refine ⟨?_, ?_⟩
  · rintro ⟨first, holds⟩
    rw [wpStartup_bind]
    apply (begins.ends first).mono
    intro _ _ settles
    exact settles.ends holds
  · intro fails
    by_cases first : early
    · have onward := settles_bind (begins.ends first)
      exact onward.faults fun holds => fails ⟨first, holds⟩
    · simp only [bind, StateT.bind, begins.faults first, Option.bind_none]

theorem Settles.mono {code : Startup α} {post weaker : α → Legacy → Prop}
    (settles : Settles code legacy condition post)
    (weakens : ∀ value after, post value after → weaker value after) :
    Settles code legacy condition weaker :=
  ⟨fun holds => (settles.ends holds).mono weakens, settles.faults⟩

theorem settles_of_wp {code : Startup α} {post : α → Legacy → Prop}
    (holds : wpStartup code post legacy) : Settles code legacy True post :=
  ⟨fun _ => holds, fun fails => absurd trivial fails⟩

theorem Settles.congr {code : Startup α} {post : α → Legacy → Prop} {other : Prop}
    (settles : Settles code legacy condition post) (same : condition ↔ other) :
    Settles code legacy other post :=
  ⟨fun holds => settles.ends (same.mpr holds), fun fails =>
    settles.faults fun holds => fails (same.mp holds)⟩

/-- A check of the processor. -/
theorem settles_check [Decidable condition] {passed : Startup α} {post : α → Legacy → Prop}
    (onward : condition → wpStartup passed post legacy) :
    Settles (if condition then passed else failure) legacy condition post := by
  refine ⟨fun holds => ?_, fun fails => ?_⟩
  · rw [if_pos holds]
    exact onward holds
  · rw [if_neg fails]
    rfl

theorem settles_check_not [Decidable condition] {passed : Startup α} {post : α → Legacy → Prop}
    (onward : ¬condition → wpStartup passed post legacy) :
    Settles (if condition then failure else passed) legacy (¬condition) post := by
  rw [← ite_not]
  exact settles_check onward

theorem settles_writeCr4 {features : Features} {post : Unit → Legacy → Prop}
    (onward : post () { legacy with cr4 := legacy.processor.machine.get 32 rax }) :
    Settles (writeCr4 features) legacy
      (legacy.processor.machine.get 32 rax &&& ~~~features.cr4 = 0) post := by
  apply settles_bind
  rw [wpStartup_get]
  exact settles_check fun _ => wpStartup_iff_of_ends rfl |>.mpr onward

theorem settles_writeCr0 {post : Unit → Legacy → Prop}
    (onward : post () { legacy with cr0 := legacy.processor.machine.get 32 rax }) :
    Settles writeCr0 legacy
      (¬((legacy.processor.machine.get 32 rax).getLsbD 31 = true ∧
        ((legacy.processor.machine.get 32 rax).getLsbD 0 = false ∨
          (legacy.processor.msrs ia32Efer).getLsbD 8 = true ∧
            legacy.cr4.getLsbD paeBit = false))) post := by
  apply settles_bind
  rw [wpStartup_get]
  exact settles_check_not fun _ => wpStartup_iff_of_ends rfl |>.mpr onward

end Rules

/-! ### Memory behind the tables -/

section View

variable {memory : Memory} {place address : Address} {ram : Address → Bool}

/-- `init_paging` changes its tables only. -/
theorem pageTables_of_not_inTables (memory : Memory) (outside : ¬InTables place.toNat) :
    pageTables memory place = memory place := by
  have stored : ∀ stores : List (BitVec 32 × Address),
      (∀ store ∈ stores, InTables store.2.toNat ∧ 4 ∣ store.2.toNat) → ∀ memory : Memory,
      storeAll memory stores place = memory place := by
    intro stores
    induction stores with
    | nil => exact fun _ _ => rfl
    | cons store rest ih =>
        intro inside memory
        rcases inside store List.mem_cons_self with ⟨inTables, aligned⟩
        have apart : ¬Within place store.2 (32 / 8) := by
          simp only [InTables, Within] at inTables outside ⊢
          bv_omega
        rw [storeAll, List.foldl_cons]
        refine (ih (fun later listed => inside later (List.mem_cons_of_mem _ listed)) _).trans ?_
        exact Memory.write_of_not_within (by decide) apart
  have cleared : ∀ start count : ℕ,
      (∀ place : Address, Within place (BitVec.ofNat 64 start) count → InTables place.toNat) →
      ¬Within place (BitVec.ofNat 64 start) count :=
    fun start count inside within => outside (inside place within)
  have inside : ∀ store ∈ pageTableStores, InTables store.2.toNat ∧ 4 ∣ store.2.toNat :=
    fun store listed => ⟨stores_in_tables store listed, aligned_stores store listed⟩
  rw [pageTables, stored _ inside, Memory.clear_of_not_within, Memory.clear_of_not_within,
    Memory.clear_of_not_within]
  · apply cleared 0x200000
    intro place within
    simp only [Within, InTables] at within ⊢
    bv_omega
  · apply cleared 0x201000
    intro place within
    simp only [Within, InTables] at within ⊢
    bv_omega
  · apply cleared 0x300000
    intro place within
    simp only [Within, InTables] at within ⊢
    bv_omega

/-- The kernel gets to all windows, and nowhere else. -/
theorem lead_pageTables (memory : Memory) :
    lead (pageTables memory).entryAt 0x200000 address = some place ↔
      ∃ window ∈ windows, window.virtual ≤ address.toNat ∧
        address.toNat < window.virtual + window.size ∧
        place.toNat = window.physical + (address.toNat - window.virtual) := by
  rw [lead]
  split
  case isTrue canonical =>
    rw [Option.map_eq_some_iff]
    simp only [walk_pageTables memory canonical, Paging.Mapping.Maps]
    constructor
    · rintro ⟨_, ⟨window, mem, above, below, rfl⟩, rfl⟩
      have bounded := windows_physical window mem
      refine ⟨window, mem, above, below, ?_⟩
      rw [BitVec.toNat_ofNat]
      exact Nat.mod_eq_of_lt (by simp only; omega)
    · rintro ⟨window, mem, above, below, led⟩
      refine ⟨_, ⟨window, mem, above, below, rfl⟩, ?_⟩
      rw [← led]
      simp
  case isFalse notCanonical =>
    constructor
    · intro found
      cases found
    · rintro ⟨window, mem, above, below, _⟩
      exact absurd (canonical_of_window mem above below) notCanonical

/-- There is memory behind the windows, apart from those of the screen and the doorbell. -/
def WindowsBacked (ram : Address → Bool) : Prop :=
  ∀ window ∈ windows, window.virtual ≠ 0xb8000 → window.virtual ≠ 0x8000000 →
    ∀ place : Address, window.physical ≤ place.toNat →
      place.toNat < window.physical + window.size → ram place = true

theorem WindowsBacked.backed {machine : Machine} (backed : WindowsBacked machine.ram) :
    Backed machine 0x200000 0xf000 ∧ Backed machine 0x300000 0x5000 := by
  have tables := backed ⟨0x200000, 0x200000, 0x200000, false⟩ (by simp [windows]) (by decide)
    (by decide)
  constructor
  · intro place above below
    apply tables
    · simp only [BitVec.toNat_ofNat]
      omega
    · simp only [BitVec.toNat_ofNat]
      omega
  · intro place above below
    apply tables
    · simp only [BitVec.toNat_ofNat]
      omega
    · simp only [BitVec.toNat_ofNat]
      omega

theorem WindowsBacked.image (backed : WindowsBacked ram) (above : 0x9000 ≤ place.toNat)
    (below : place.toNat < 0x1a000) : ram place = true :=
  backed ⟨0x9000, 0x11000, 0x9000, true⟩ (by simp [windows]) (by decide) (by decide) place above
    below

theorem windowsMapped_behindTables {machine : Machine} (backed : WindowsBacked machine.ram)
    (tables : machine.memory = pageTables memory) :
    WindowsMapped (behindTables 0x200000 machine).ram := by
  intro window mem notScreen notDoorbell address above below
  have bounded := windows_physical window mem
  have led : lead machine.memory.entryAt 0x200000 address =
      some (BitVec.ofNat 64 (window.physical + (address.toNat - window.virtual))) := by
    rw [tables, lead_pageTables]
    refine ⟨window, mem, above, below, ?_⟩
    rw [BitVec.toNat_ofNat]
    exact Nat.mod_eq_of_lt (by omega)
  have ram : (behindTables 0x200000 machine).ram address =
      (lead machine.memory.entryAt 0x200000 address).any machine.ram := rfl
  rw [ram, led, Option.any_some]
  apply backed window mem notScreen notDoorbell
  · rw [BitVec.toNat_ofNat, Nat.mod_eq_of_lt (by omega)]
    omega
  · rw [BitVec.toNat_ofNat, Nat.mod_eq_of_lt (by omega)]
    omega

/-- The image is where it was. -/
theorem memory_behindTables {machine : Machine} (tables : machine.memory = pageTables memory)
    (above : 0x9000 ≤ address.toNat) (below : address.toNat < 0x1a000) :
    (behindTables 0x200000 machine).memory address = memory address := by
  have led : lead machine.memory.entryAt 0x200000 address = some address := by
    rw [tables, lead_pageTables]
    refine ⟨⟨0x9000, 0x11000, 0x9000, true⟩, by simp [windows], above, below, ?_⟩
    simp only
    omega
  have seen : (behindTables 0x200000 machine).memory address =
      (lead machine.memory.entryAt 0x200000 address).elim 0 machine.memory := rfl
  have outside : ¬InTables address.toNat := by
    simp only [InTables]
    omega
  rw [seen, led, Option.elim_some, tables, pageTables_of_not_inTables memory outside]

theorem systemDataAt_behindTables {machine : Machine} {symbols : KernelSymbols}
    (tables : machine.memory = pageTables memory)
    (image : SystemDataAt memory symbols.systemData64Entry) :
    SystemDataAt (behindTables 0x200000 machine).memory symbols.systemData64Entry := by
  intro part listed
  have size : systemData64Size = 2564 := rfl
  have inside := parts_inside symbols.systemData64Entry part listed
  rcases symbols.tables with ⟨above, below⟩
  refine Eq.trans ?_ (image part listed)
  apply Memory.load_congr (by omega)
  intro place inPart
  apply memory_behindTables tables
  · simp only [Within] at inPart
    bv_omega
  · simp only [Within] at inPart
    bv_omega

end View

/-! ### The instructions in order -/

section Way

variable {features : Features} {symbols : KernelSymbols} {expected legacy : Legacy}

/-- In what matters a state is as expected, and nothing is on the stack. -/
structure Passes (expected legacy : Legacy) : Prop where
  stack : legacy.processor.machine.stack = []
  ram : legacy.processor.machine.ram = expected.processor.machine.ram
  memory : legacy.processor.machine.memory = expected.processor.machine.memory
  gdtr : legacy.processor.gdtr = expected.processor.gdtr
  cs : legacy.processor.selectors .cs = expected.processor.selectors .cs
  msrs : legacy.processor.msrs = expected.processor.msrs
  cr0 : legacy.cr0 = expected.cr0
  cr3 : legacy.cr3 = expected.cr3
  cr4 : legacy.cr4 = expected.cr4

/-- `CR4` with SSE open. -/
def sseCr4 (legacy : Legacy) : BitVec 32 :=
  legacy.cr4 ||| BitVec.twoPow 32 osfxsrBit ||| BitVec.twoPow 32 13

/-- `CPUID` tells that there is `PAE`. -/
def paeReported (features : Features) (legacy : Legacy) : Bool :=
  (features.cpuid 1 (legacy.processor.machine.get 32 rcx)).edx.getLsbD 6

/-- `CR4` behind `pae_enable`. -/
def paeCr4 (features : Features) (legacy : Legacy) : BitVec 32 :=
  if paeReported features legacy then legacy.cr4 ||| BitVec.twoPow 32 paeBit else legacy.cr4

theorem segmentOf_data32Sel : segmentOf data32Sel = ⟨0x2, true, 0, true, false, true⟩ := by
  decide +kernel

/-- There is memory for the image. -/
def ImageBacked (ram : Address → Bool) : Prop :=
  ∀ place : Address, 0x9000 ≤ place.toNat → place.toNat < 0x1a000 → ram place = true

/-- The pointer to a table of the image is read as it is. -/
theorem wpStartup_readPointer {post : BitVec 16 × BitVec 32 → Legacy → Prop}
    {pointerAt table : ℕ} {limit : BitVec 16} {memory : Memory} {ram : Address → Bool}
    (image : SystemDataAt memory symbols.systemData64Entry) (backed : ImageBacked ram) (more : ℕ)
    (listed : (pointerAt, bytesOf 2 limit.toNat ++ bytesOf (4 + more) table) ∈
      systemDataParts symbols.systemData64Entry)
    (sameMemory : legacy.processor.machine.memory = memory)
    (sameRam : legacy.processor.machine.ram = ram)
    (remaining : post (limit, BitVec.ofNat 32 table) legacy) :
    wpStartup (readPointer (symbols.systemData64Entry + BitVec.ofNat 64 pointerAt)) post
      legacy := by
  subst sameMemory sameRam
  rcases symbols.tables with ⟨above, below⟩
  have size : systemData64Size = 2564 := rfl
  have inside := parts_inside symbols.systemData64Entry _ listed
  simp only [List.length_append, length_bytesOf] at inside
  have whole : ∀ address : Address,
      legacy.processor.machine.effective address none none = address := by
    simp [Machine.effective]
  have limitInRam := backed (symbols.systemData64Entry + BitVec.ofNat 64 pointerAt) (by bv_omega)
    (by bv_omega)
  have baseInRam := backed (symbols.systemData64Entry + BitVec.ofNat 64 pointerAt + 2)
    (by bv_omega) (by bv_omega)
  simp only [readPointer, wpStartup_bind, wpStartup_onRoutine, Operand.symbol, wp_fetch_mem, whole,
    limitInRam, baseInRam, read_limit image listed, read_base32 image more listed, true_and,
    wpStartup_pure]
  exact remaining

theorem wpStartup_readTable32 {post : TableRegister → Legacy → Prop} {pointerAt table : ℕ}
    {limit : BitVec 16} {memory : Memory} {ram : Address → Bool}
    (image : SystemDataAt memory symbols.systemData64Entry) (backed : ImageBacked ram)
    (listed : (pointerAt, bytesOf 2 limit.toNat ++ bytesOf 8 table) ∈
      systemDataParts symbols.systemData64Entry)
    (sameMemory : legacy.processor.machine.memory = memory)
    (sameRam : legacy.processor.machine.ram = ram) (small : table < 2 ^ 32)
    (remaining : post { limit, base := BitVec.ofNat 64 table } legacy) :
    wpStartup (readTable32 (symbols.systemData64Entry + BitVec.ofNat 64 pointerAt)) post
      legacy := by
  have base : (BitVec.ofNat 32 table).setWidth 64 = BitVec.ofNat 64 table := by
    apply BitVec.eq_of_toNat_eq
    simp only [BitVec.toNat_setWidth, BitVec.toNat_ofNat]
    omega
  rw [readTable32, wpStartup_bind]
  refine wpStartup_readPointer image backed 4 listed sameMemory sameRam ?_
  rw [wpStartup_pure, base]
  exact remaining

/-- The pointers to the table of segments have the place of the image. -/
theorem gdt_base (entry : Address) :
    BitVec.ofNat 64 (entry.toNat + globalDescriptorTableAt) = entry := by
  rw [globalDescriptorTableAt, Nat.add_zero, BitVec.ofNat_toNat, BitVec.setWidth_eq]

theorem wpStartup_protectedModeEnvironment
    (gdtr : legacy.processor.gdtr = { limit := gdtLimit, base := symbols.systemData64Entry })
    (image : SystemDataAt legacy.processor.machine.memory symbols.systemData64Entry)
    (kernel : legacy.processor.cpl = 0)
    (backed : ImageBacked legacy.processor.machine.ram) :
    wpStartup (protectedModeEnvironment symbols)
      (fun _ after => Passes legacy after ∧
        after.processor.machine.get 32 rcx = legacy.processor.machine.get 32 rcx) legacy := by
  rcases symbols.tables with ⟨above, below⟩
  have size : systemData64Size = 2564 := rfl
  have found : legacy.processor.gdtr.descriptor legacy.processor.machine.memory data32Sel =
      some ⟨0x2, true, 0, true, false, true⟩ := by
    rw [gdtr, ← segmentOf_data32Sel]
    apply descriptor_of_inside (by decide) (by decide)
    exact load_globalDescriptorTable image (by decide)
  have names : NamesData
      { legacy.processor with machine := legacy.processor.machine.put rax data32Sel } data32Sel
      ⟨0x2, true, 0, true, false, true⟩ :=
    ⟨by simp, by decide, by decide, found, by decide, by decide, by decide, by decide, kernel⟩
  simp only [protectedModeEnvironment, wpStartup_bind, wpStartup_onRoutine, wpStartup_onProcessor,
    mov, wp_bind, wp_fetch_imm, wp_assign_reg]
  apply names.wp_loadData
  refine NamesData.wp_loadStack ⟨names.selected, names.notNull, names.requested, found,
    names.readable, names.writable, names.present, names.level, kernel⟩ ?_
  simp only [movRsp, wpPrivileged_modify, lgdt32, lidt32, wpStartup_bind, wpStartup_onProcessor]
  refine wpStartup_readTable32 image backed (gdtPointer64_mem _) rfl rfl ?_ ?_
  · have table : globalDescriptorTableAt = 0 := rfl
    omega
  refine wpStartup_readTable32 image backed (idtPointer64_mem _) rfl rfl ?_ ?_
  · have table : interruptDescriptorTableAt = 0x100 := rfl
    omega
  refine ⟨⟨rfl, rfl, rfl, ?_, rfl, rfl, rfl, rfl, rfl⟩, ?_⟩
  · rw [gdtr, gdt_base]
  · simp [Processor.select]

theorem settles_openSse (passes : Passes expected legacy)
    (kept : legacy.processor.machine.get 32 rcx = expected.processor.machine.get 32 rcx) :
    Settles (openSse features) legacy (sseCr4 expected &&& ~~~features.cr4 = 0)
      fun _ after => Passes { expected with cr4 := sseCr4 expected } after ∧
        after.processor.machine.get 32 rcx = expected.processor.machine.get 32 rcx := by
  apply settles_bind
  simp only [readCr4, wpStartup_bind, wpStartup_get, wpStartup_onRoutine, wp_assign_reg]
  apply settles_bind
  simp only [bts, wpStartup_onRoutine, wp_bind, wp_fetch_reg, wp_get, wp_assign_reg, wp_setFlags]
  apply settles_bind
  simp only [wpStartup_onRoutine, wp_bind, wp_fetch_reg, wp_get, wp_assign_reg, wp_setFlags]
  refine (settles_writeCr4 ?_).congr ?_
  · refine ⟨⟨passes.stack, passes.ram, passes.memory, passes.gdtr, passes.cs, passes.msrs,
      passes.cr0, passes.cr3, ?_⟩, ?_⟩
    · simp [sseCr4, passes.cr4]
    · simp [kept]
  · simp [sseCr4, passes.cr4]

def Legacy.withStack (legacy : Legacy) (stack : List StackItem) : Legacy :=
  { legacy with processor.machine := legacy.processor.machine.withStack stack }

def Legacy.withMemory (legacy : Legacy) (memory : Memory) : Legacy :=
  { legacy with processor.machine.memory := memory }

theorem settles_callStartup {code : Startup Unit} {condition : Prop} {post : Unit → Legacy → Prop}
    {stack : List StackItem} (same : legacy.processor.machine.stack = stack)
    (settles : Settles code (legacy.withStack (.returnAddress :: stack)) condition
      fun _ after => after.processor.machine.stack = .returnAddress :: stack ∧
        post () (after.withStack stack)) :
    Settles (callStartup code) legacy condition post := by
  subst same
  apply settles_bind
  simp only [wpStartup_onRoutine, wp_modify]
  refine Settles.congr ?_ (and_iff_left trivial : condition ∧ True ↔ condition)
  apply settles_bind_of_settles
  apply settles.mono
  rintro _ after ⟨top, met⟩
  apply settles_of_wp
  simp only [wpStartup_bind, wpStartup_get, top, wpStartup_onRoutine, wp_modify]
  exact met

theorem wp_askPae (features : Features) (machine : Machine) :
    wp (do mov 32 (.imm 1) (.reg rax); cpuid features; bt 32 6 (.reg rdx))
      (fun _ after => OnlyRegisters [rax, rbx, rcx, rdx] machine after ∧
        after.cf = (features.cpuid 1 (machine.get 32 rcx)).edx.getLsbD 6) machine := by
  simp only [cpuid, mov, bt, wp_bind, wp_fetch_imm, wp_fetch_reg, wp_get, wp_assign_reg,
    wp_setFlags]
  constructor
  · apply OnlyRegisters.withFlags
    apply OnlyRegisters.put _ (by simp)
    apply OnlyRegisters.put _ (by simp)
    apply OnlyRegisters.put _ (by simp)
    apply OnlyRegisters.put _ (by simp)
    exact (OnlyRegisters.refl _ machine).put (by simp) _
  · simp

theorem settles_paeEnable (passes : Passes expected legacy)
    (kept : legacy.processor.machine.get 32 rcx = expected.processor.machine.get 32 rcx) :
    Settles (callStartup (paeEnable features)) legacy
      (paeReported features expected = true → paeCr4 features expected &&& ~~~features.cr4 = 0)
      fun _ after => Passes { expected with cr4 := paeCr4 features expected } after := by
  apply settles_callStartup passes.stack
  apply settles_bind
  rw [wpStartup_onRoutine]
  apply (wp_askPae features _).mono
  rintro _ machine ⟨only, carry⟩
  apply settles_bind
  have asked : machine.cf = paeReported features expected := by
    rw [paeReported, ← kept]
    exact carry
  have ram := only.ram.trans passes.ram
  have memory := only.memory.trans passes.memory
  rw [wpStartup_onRoutine, wp_jnc, asked]
  by_cases reported : paeReported features expected = true
  · have set : paeCr4 features expected = expected.cr4 ||| BitVec.twoPow 32 paeBit :=
      if_pos reported
    rw [reported, set, Bool.not_true, if_neg (by decide)]
    apply settles_bind
    simp only [readCr4, wpStartup_bind, wpStartup_get, wpStartup_onRoutine, wp_assign_reg]
    apply settles_bind
    simp only [bts, wpStartup_onRoutine, wp_bind, wp_fetch_reg, wp_get, wp_assign_reg,
      wp_setFlags]
    refine (settles_writeCr4 ?_).congr ?_
    · refine ⟨only.stack, ⟨rfl, ram, memory, passes.gdtr, passes.cs, passes.msrs, passes.cr0,
        passes.cr3, ?_⟩⟩
      simp [Legacy.withStack, passes.cr4]
    · simp [Legacy.withStack, passes.cr4]
  · have unset : paeCr4 features expected = expected.cr4 := if_neg reported
    rw [Bool.not_eq_true] at reported
    rw [reported, unset, Bool.not_false, if_pos rfl]
    refine (settles_of_wp ?_).congr (by simp)
    rw [wpStartup_pure]
    exact ⟨only.stack, ⟨rfl, ram, memory, passes.gdtr, passes.cs, passes.msrs, passes.cr0,
      passes.cr3, passes.cr4⟩⟩

/-- The tables are in memory. -/
theorem wpStartup_initPaging {fuel : ℕ} (passes : Passes expected legacy)
    (bsp : (legacy.processor.msrs ia32ApicBase).getLsbD 8 = true)
    (backed : WindowsBacked legacy.processor.machine.ram) (enough : 32 < fuel) :
    wpStartup (onRoutine (call (initPaging legacy.processor.msrs fuel)))
      (fun _ after => Passes
        (expected.withMemory (pageTables expected.processor.machine.memory)) after) legacy := by
  have called : wp (call (initPaging legacy.processor.msrs fuel))
      (fun _ after => OnlyRegisters [rax, rcx, rdx, rsi, rdi]
        { legacy.processor.machine with
          memory := pageTables legacy.processor.machine.memory } after)
      legacy.processor.machine := by
    refine wp_call_of_only (by rfl) ?_
    exact @wp_initPaging (legacy.processor.machine.withStack _) _ _ bsp backed.backed.1
      backed.backed.2 enough
  rw [wpStartup_onRoutine]
  apply called.mono
  intro _ machine only
  refine ⟨only.stack.trans passes.stack, only.ram.trans passes.ram, only.memory.trans ?_,
    passes.gdtr, passes.cs, passes.msrs, passes.cr0, passes.cr3, passes.cr4⟩
  exact congrArg pageTables passes.memory

theorem wpStartup_setTables (passes : Passes expected legacy) :
    wpStartup setTables (fun _ after => Passes { expected with cr3 := pml4tBase } after)
      legacy := by
  simp only [setTables, writeCr3, mov, wpStartup_bind, wpStartup_onRoutine, wp_bind, wp_fetch_imm,
    wp_assign_reg, wpStartup_modify]
  refine ⟨passes.stack, passes.ram, passes.memory, passes.gdtr, passes.cs, passes.msrs, passes.cr0,
    ?_, passes.cr4⟩
  simp

/-- `EFER` with 64-bit mode enabled. -/
def longEfer (processor : Processor) : BitVec 64 :=
  processor.msrs ia32Efer ||| BitVec.twoPow 64 8

def Legacy.withEfer (legacy : Legacy) (value : BitVec 64) : Legacy :=
  { legacy with processor.msrs := Function.update legacy.processor.msrs ia32Efer value }

theorem settles_writeEfer {value : BitVec 64} {post : Unit → Legacy → Prop}
    (loaded : legacy.processor.machine.get 32 rdx ++ legacy.processor.machine.get 32 rax = value)
    (onward : post () { legacy with
      processor.msrs := Function.update legacy.processor.msrs
        (legacy.processor.machine.get 32 rcx) value }) :
    Settles (writeEfer features) legacy (value &&& ~~~features.efer = 0) post := by
  subst loaded
  apply settles_bind
  rw [wpStartup_get]
  apply settles_check
  intro _
  simp only [wrmsr, wpStartup_onProcessor, wpPrivileged_bind, wpPrivileged_get, wpPrivileged_set]
  exact onward

theorem settles_setEfer (passes : Passes expected legacy) :
    Settles (setEfer features) legacy (longEfer expected.processor &&& ~~~features.efer = 0)
      fun _ after => Passes (expected.withEfer (longEfer expected.processor)) after := by
  have written := @append_or_twoPow 8 (by decide) (legacy.processor.msrs ia32Efer)
  have narrow : (BitVec.twoPow 64 8).setWidth 32 = BitVec.twoPow 32 8 := by decide
  rw [narrow] at written
  have selected : (legacy.processor.machine.put rcx ia32Efer).get 32 rcx = ia32Efer :=
    Machine.get_put_self (by decide) _ _
  apply settles_bind
  simp only [mov, wpStartup_onRoutine, wp_bind, wp_fetch_imm, wp_assign_reg]
  apply settles_bind
  simp only [readMsr, rdmsr, wpStartup_onProcessor, wpPrivileged_bind, wpPrivileged_get,
    wpPrivileged_onMachine, wp_bind, wp_get, wp_assign_reg, selected]
  apply settles_bind
  simp only [bts, wpStartup_onRoutine, wp_bind, wp_fetch_reg, wp_get, wp_assign_reg, wp_setFlags]
  have loaded : legacy.processor.msrs ia32Efer ||| BitVec.twoPow 64 8 =
      longEfer expected.processor := by
    rw [passes.msrs, longEfer]
  rw [loaded] at written
  refine settles_writeEfer ?_ ?_
  · simp [written]
  · refine ⟨passes.stack, passes.ram, passes.memory, passes.gdtr, passes.cs, ?_, passes.cr0,
      passes.cr3, passes.cr4⟩
    simp [Legacy.withEfer, passes.msrs]

theorem settles_openLongMode (passes : Passes expected legacy)
    (protection : expected.cr0.getLsbD 0 = true)
    (enabled : (expected.processor.msrs ia32Efer).getLsbD 8 = true) :
    Settles openLongMode legacy (expected.cr4.getLsbD paeBit = true)
      fun _ after =>
        Passes { expected with cr0 := expected.cr0 ||| BitVec.twoPow 32 31 } after := by
  apply settles_bind
  simp only [readCr0, wpStartup_bind, wpStartup_get, wpStartup_onRoutine, wp_assign_reg]
  apply settles_bind
  simp only [bts, wpStartup_onRoutine, wp_bind, wp_fetch_reg, wp_get, wp_assign_reg, wp_setFlags]
  refine (settles_writeCr0 ?_).congr ?_
  · refine ⟨passes.stack, passes.ram, passes.memory, passes.gdtr, passes.cs, passes.msrs, ?_,
      passes.cr3, passes.cr4⟩
    simp [passes.cr0]
  · simp [passes.cr0, passes.cr4, passes.msrs, protection, enabled]

theorem wpStartup_farJump64 {post : Processor → Legacy → Prop} {memory : Memory}
    (paging : legacy.cr0.getLsbD 31 = true) (root : legacy.cr3 = pml4tBase)
    (enabled : (legacy.processor.msrs ia32Efer).getLsbD 8 = true)
    (levels : legacy.cr4.getLsbD la57Bit = false)
    (gdtr : legacy.processor.gdtr = { limit := gdtLimit, base := symbols.systemData64Entry })
    (kernel : legacy.processor.cpl = 0)
    (tables : legacy.processor.machine.memory = pageTables memory)
    (image : SystemDataAt memory symbols.systemData64Entry)
    (remaining : post { (legacy.processor.select .cs kernelCode64Sel) with
      machine := behindTables 0x200000 legacy.processor.machine } legacy) :
    wpStartup (farJump64 kernelCode64Sel) post legacy := by
  have root : (legacy.cr3 &&& 0xfffff000).toNat = 0x200000 := by
    rw [root]
    decide
  have seen := systemDataAt_behindTables tables image
  have found : legacy.processor.gdtr.descriptor
      (behindTables 0x200000 legacy.processor.machine).memory kernelCode64Sel =
        some kernelCode := by
    rw [gdtr, kernelCode64Sel, ← segmentOf_kernelCS]
    apply descriptor_of_load (by decide)
    exact load_globalDescriptorTable seen (by decide)
  have allowed : legacy.cr0.getLsbD 31 = true ∧
      (legacy.processor.msrs ia32Efer).getLsbD 8 = true ∧
      legacy.cr4.getLsbD la57Bit = false ∧ kernelCode.code = true ∧
      kernelCode.present = true ∧ kernelCode.long = true ∧ ¬kernelCode.big = true ∧
      ¬kernelCode.conforming = true ∧ kernelCode.dpl = legacy.processor.cpl ∧
      rpl kernelCode64Sel ≤ legacy.processor.cpl := by
    rw [kernel]
    exact ⟨paging, enabled, levels, by decide⟩
  simp only [farJump64, wpStartup_bind, wpStartup_get, root, found]
  rw [if_pos allowed, wpStartup_pure]
  exact remaining

/-- `CR4` with what `entry32` asks for. -/
def longCr4 (features : Features) (legacy : Legacy) : BitVec 32 :=
  paeCr4 features { legacy with cr4 := sseCr4 legacy }

theorem getLsbD_longCr4 (features : Features) (legacy : Legacy) (bit : ℕ) (other : bit ≠ paeBit) :
    (longCr4 features legacy).getLsbD bit = (sseCr4 legacy).getLsbD bit := by
  rw [longCr4, paeCr4]
  split
  · rw [BitVec.getLsbD_or, BitVec.getLsbD_twoPow]
    simp [Ne.symm other]
  · rfl

theorem osfxsr_longCr4 (features : Features) (legacy : Legacy) :
    (longCr4 features legacy).getLsbD osfxsrBit = true := by
  rw [getLsbD_longCr4 _ _ _ (by decide)]
  simp [sseCr4, osfxsrBit]

theorem la57_longCr4 (features : Features) (legacy : Legacy) :
    (longCr4 features legacy).getLsbD la57Bit = legacy.cr4.getLsbD la57Bit := by
  rw [getLsbD_longCr4 _ _ _ (by decide)]
  simp [sseCr4, osfxsrBit, la57Bit]

/-- After a reset nothing keeps SSE from being opened, and the tables have four levels. -/
structure AsReset (legacy : Legacy) : Prop where
  emulation : legacy.cr0.getLsbD emBit = false
  switched : legacy.cr0.getLsbD tsBit = false
  levels : legacy.cr4.getLsbD la57Bit = false

theorem AsReset.sseInstructions (reset : AsReset legacy)
    {features : Features} {post : Unit → Legacy → Prop} {later : Legacy}
    (cr0 : later.cr0 = legacy.cr0) (cr4 : later.cr4 = longCr4 features legacy)
    (remaining : post () later) : wpStartup Guest.sseInstructions post later := by
  have opened : later.cr4.getLsbD osfxsrBit = true := by
    rw [cr4]
    exact osfxsr_longCr4 features legacy
  have allowed := And.intro opened (cr0 ▸ And.intro reset.emulation reset.switched)
  rw [Guest.sseInstructions, wpStartup_bind, wpStartup_get, if_pos allowed, wpStartup_pure]
  exact remaining

/-- The state before `entry32`: in protected mode, with the image in memory, on the processor that
sets up the tables. -/
structure Starts (symbols : KernelSymbols) (legacy : Legacy) : Prop extends AsReset legacy where
  protection : legacy.cr0.getLsbD 0 = true
  kernel : legacy.processor.cpl = 0
  gdtr : legacy.processor.gdtr = { limit := gdtLimit, base := symbols.systemData64Entry }
  image : SystemDataAt legacy.processor.machine.memory symbols.systemData64Entry
  backed : WindowsBacked legacy.processor.machine.ram
  bsp : (legacy.processor.msrs ia32ApicBase).getLsbD 8 = true

/-- The processor has the features that the code asks for, and ends up with `PAE`. -/
structure Enters (features : Features) (legacy : Legacy) : Prop where
  cr4 : longCr4 features legacy &&& ~~~features.cr4 = 0
  pae : (longCr4 features legacy).getLsbD paeBit = true
  efer : longEfer legacy.processor &&& ~~~features.efer = 0

/-- The checks in their order. -/
theorem enters_iff :
    (sseCr4 legacy &&& ~~~features.cr4 = 0 ∧
        (paeReported features legacy = true → longCr4 features legacy &&& ~~~features.cr4 = 0) ∧
        longEfer legacy.processor &&& ~~~features.efer = 0 ∧
        (longCr4 features legacy).getLsbD paeBit = true ∧ True) ↔
      Enters features legacy := by
  constructor
  · rintro ⟨sse, reported, efer, pae, -⟩
    refine ⟨?_, pae, efer⟩
    by_cases asked : paeReported features legacy = true
    · exact reported asked
    · have unset : longCr4 features legacy = sseCr4 legacy := if_neg asked
      rwa [unset]
  · rintro ⟨cr4, pae, efer⟩
    refine ⟨?_, fun _ => cr4, efer, pae, trivial⟩
    rw [longCr4, paeCr4] at cr4
    split at cr4
    · rw [BitVec.and_or_distrib_right] at cr4
      exact (BitVec.or_eq_zero_iff.mp cr4).1
    · exact cr4

/-- On a processor with the features that the code asks for, and on no other, `entry32` gets to
64-bit mode; and then the kernel gets to user mode. -/
theorem settles_entry32 {fuel : ℕ} (undefined : BitVec 16) (starts : Starts symbols legacy)
    (enough : 32 < fuel) :
    Settles (entry32 features symbols fuel) legacy (Enters features legacy)
      fun processor _ => wpPrivileged (kernelSetup symbols undefined)
        (fun entry after => entry = userEntered symbols ∧ UserModeReady symbols processor after)
        processor := by
  refine Settles.congr ?_ enters_iff
  apply settles_bind
  apply (wpStartup_protectedModeEnvironment starts.gdtr starts.image starts.kernel
    fun _ => starts.backed.image).mono
  rintro _ first ⟨passes, kept⟩
  apply settles_bind_of_settles
  apply (settles_openSse passes kept).mono
  rintro _ second ⟨passes, kept⟩
  apply settles_bind_of_settles
  apply (settles_paeEnable passes kept).mono
  rintro _ third passes
  apply settles_bind
  rw [wpStartup_get]
  apply settles_bind
  refine starts.toAsReset.sseInstructions passes.cr0 passes.cr4 ?_
  apply settles_bind
  apply (wpStartup_initPaging passes (passes.msrs ▸ starts.bsp) (passes.ram ▸ starts.backed)
    enough).mono
  rintro _ fourth passes
  apply settles_bind
  apply (wpStartup_setTables passes).mono
  rintro _ fifth passes
  apply settles_bind_of_settles
  apply (settles_setEfer passes).mono
  rintro _ sixth passes
  apply settles_bind_of_settles
  apply (settles_openLongMode passes starts.protection (by simp [Legacy.withEfer, longEfer])).mono
  rintro _ last passes
  apply settles_of_wp
  -- the far jump, and what is behind it
  have kernel : last.processor.cpl = 0 := by
    rw [Processor.cpl, passes.cs]
    exact starts.kernel
  have gdtr := passes.gdtr.trans starts.gdtr
  have levels : last.cr4.getLsbD la57Bit = false := by
    rw [passes.cr4]
    exact (la57_longCr4 features legacy).trans starts.levels
  refine wpStartup_farJump64 (by rw [passes.cr0]; simp) passes.cr3
    (by rw [passes.msrs]; simp [Legacy.withEfer, longEfer]) levels gdtr kernel passes.memory
    starts.image ?_
  apply wp_kernelSetup symbols undefined
  · exact gdtr
  · exact systemDataAt_behindTables passes.memory starts.image
  · rw [Processor.cpl, Processor.select]
    simp only [Function.update_self]
    decide
  · apply windowsMapped_behindTables _ passes.memory
    rw [passes.ram]
    exact starts.backed

end Way

end VirtLearn.Guest
