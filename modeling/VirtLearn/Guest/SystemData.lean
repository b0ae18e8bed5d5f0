import VirtLearn.Guest.Delivery
import VirtLearn.Guest.PageTables

/-!
# The tables of the processor in the image

`table_desc.S` has the initial contents of the tables, one behind the other: the segments, the
interrupt gates, the task state segment, and the pointers that `lgdt` and `lidt` read. The kernel
copies all of it to its own pages and fills in the rest there.
-/

namespace VirtLearn.Guest

open Assembly Register Paging

def kernelSS : BitVec 16 :=
  0x30

def userCS : BitVec 32 :=
  0x48

def userSS : BitVec 32 :=
  0x50

def tss64Sel : BitVec 64 :=
  0x58

def tss64 : BitVec 64 :=
  0x9

def systemData64Base : Address :=
  0xfffffff800000000

def processor0KernelRsp : Address :=
  0xffffffffffe00800

def processor0IdtRsp : Address :=
  0xffffffffffe04800

def processor0Ist1Rsp : Address :=
  0xffffffffffe10800

def userRsp : BitVec 64 :=
  0x7fffffe00800

/-- Values of 64 bits as the assembler lays them out. -/
def quads (values : List ℕ) : List Byte :=
  values.flatMap (bytesOf 8)

/-- The 25 entries of `__global_descriptor_table`; the one of the task state segment has a limit
only. -/
def globalDescriptorTable : List Byte :=
  quads
    [
      0,
      0x00009a000000ffff,
      0x000092000000ffff,
      0x00cf9a000000ffff,
      0x00cf92000000ffff,
      0x0020980000000000,
      0x0000920000000001,
      0x00cffa000000ffff,
      0x00cff2000000ffff,
      0x0020f80000000000,
      0x0000f20000000000,
      0x67,
      0,
      0, 0,
      0,
      0,
      0x0000f20000000000,
      0x0020f80000000000,
      0x0000f00000000000,
      0, 0, 0, 0, 0
    ]

def interruptDescriptorTable : List Byte :=
  List.replicate (16 * interruptVectors) 0

def taskStatusSegment : List Byte :=
  bytesOf 4 0 ++ quads [processor0IdtRsp.toNat, 0, 0, 0, processor0Ist1Rsp.toNat] ++
    List.replicate 0x3c 0

/-! Where the parts are, from `system_data64_entry` on. -/

def globalDescriptorTableAt : ℕ :=
  0

def interruptDescriptorTableAt : ℕ :=
  256

def taskStatusSegmentAt : ℕ :=
  1536

def gdtPointer32At : ℕ :=
  2528

def idtPointer32At : ℕ :=
  2534

def gdtPointer64At : ℕ :=
  2544

def idtPointer64At : ℕ :=
  2554

/-- `system_data64_end`. -/
def systemData64Size : ℕ :=
  2564

def gdtLimit : BitVec 16 :=
  0xc7

def idtLimit : BitVec 16 :=
  0x4ff

/-- The parts of the image that the processor and the kernel use, for an image at some address. -/
def systemDataParts (entry : Address) : List (ℕ × List Byte) :=
  [
    (globalDescriptorTableAt, globalDescriptorTable),
    (interruptDescriptorTableAt, interruptDescriptorTable),
    (taskStatusSegmentAt, taskStatusSegment),
    (gdtPointer32At,
      bytesOf 2 gdtLimit.toNat ++ bytesOf 4 (entry.toNat + globalDescriptorTableAt)),
    (idtPointer32At,
      bytesOf 2 idtLimit.toNat ++ bytesOf 4 (entry.toNat + interruptDescriptorTableAt)),
    (gdtPointer64At,
      bytesOf 2 gdtLimit.toNat ++ bytesOf 8 (entry.toNat + globalDescriptorTableAt)),
    (idtPointer64At,
      bytesOf 2 idtLimit.toNat ++ bytesOf 8 (entry.toNat + interruptDescriptorTableAt))
  ]

/-- The image with its tables at `entry` is in memory. -/
def SystemDataAt (memory : Memory) (entry : Address) : Prop :=
  ∀ part ∈ systemDataParts entry,
    memory.load (entry + BitVec.ofNat 64 part.1) part.2.length = part.2

/-- Where the image has what the kernel refers to. The tables are in the second section of the
image, code and the scratch of `libs64.S` in the third. -/
structure KernelSymbols where
  systemData64Entry : Address
  gdtPointer : Address
  idtPointer : Address
  userEntry : Address
  handler : Exception → Address
  dbHandler : Address
  apicTimerHandler : Address
  tables : 0x9000 ≤ systemData64Entry.toNat ∧
    systemData64Entry.toNat + systemData64Size ≤ 0x10000
  gdtScratch : 0x10000 ≤ gdtPointer.toNat ∧ gdtPointer.toNat + 10 ≤ 0x1a000
  idtScratch : 0x10000 ≤ idtPointer.toNat ∧ idtPointer.toNat + 10 ≤ 0x1a000
  userCode : userEntry.toNat < 0x1a000
  handlers : ∀ exception, (handler exception).toNat < 0x1a000
  dbCode : dbHandler.toNat < 0x1a000
  timerCode : apicTimerHandler.toNat < 0x1a000

def Exception.vector : Exception → BitVec 64
  | de => 0x0
  | nmi => 0x2
  | of => 0x4
  | ud => 0x6
  | nm => 0x7
  | df => 0x8
  | ts => 0xa
  | np => 0xb
  | gp => 0xd
  | mc => 0x12
  | pf => 0xe

def dbHandlerVector : BitVec 64 :=
  0x1

def apicTimerVector : BitVec 64 :=
  0x30

namespace KernelSymbols

variable (symbols : KernelSymbols)

/-- The calls of `set_interrupt_handler` in the order of the source. -/
def handlerCalls : List HandlerCall :=
  [Exception.de, .nmi, .of, .ud, .nm, .df, .ts, .np, .gp, .mc, .pf].map (fun exception =>
    { vector := exception.vector, handler := symbols.handler exception }) ++
  [
    { vector := dbHandlerVector, handler := symbols.dbHandler },
    { vector := apicTimerVector, handler := symbols.apicTimerHandler }
  ]

/-- The table of segments where the kernel has it. -/
def gdt : DescriptorTable where
  gdtPointer := symbols.gdtPointer
  limit := gdtLimit
  base := systemData64Base + BitVec.ofNat 64 globalDescriptorTableAt
  room := by decide
  apart := by
    apply apart_of_toNat_le
    · have scratch := symbols.gdtScratch
      have base : (systemData64Base + BitVec.ofNat 64 globalDescriptorTableAt).toNat =
          0xfffffff800000000 := rfl
      omega
    · decide

/-- The interrupt gates where the kernel has them. -/
def idt : InterruptTable where
  idtPointer := symbols.idtPointer
  limit := idtLimit
  base := systemData64Base + BitVec.ofNat 64 interruptDescriptorTableAt
  apart := by
    apply apart_of_toNat_le
    · have scratch := symbols.idtScratch
      have base : (systemData64Base + BitVec.ofNat 64 interruptDescriptorTableAt).toNat =
          0xfffffff800000100 := rfl
      omega
    · decide

end KernelSymbols

/-- There is memory behind the windows that the page tables map, apart from those of the screen and
the doorbell. -/
def WindowsMapped (ram : Address → Bool) : Prop :=
  ∀ window ∈ windows, window.virtual ≠ 0xb8000 → window.virtual ≠ 0x8000000 →
    ∀ address : Address, window.virtual ≤ address.toNat →
      address.toNat < window.virtual + window.size → ram address = true

end VirtLearn.Guest
