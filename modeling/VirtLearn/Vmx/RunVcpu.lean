import VirtLearn.LastWrite
import VirtLearn.Machine.Assembly
import VirtLearn.Machine.Regions

/-!
# Running a virtual processor

The `asm` statement of `__vmx_run_vcpu`: it records the stack pointer for the exit, loads the
registers of the guest, enters it, and stores its registers after the exit.

The stack is in memory here, below `rsp`, and the guest comes back to the stack pointer that the
VMCS holds as `HOST_RSP`. The registers that the compiler chooses for the operands are arguments
(`Operands`); so is what the guest does to the registers, which it takes over whole (`Outcome`).
-/

namespace VirtLearn.Vmx

open Register

/-- `x86_reg`, for the registers that are exchanged one by one. -/
def vcpuRegs : Register → ℕ
  | rax => 0
  | rcx => 1
  | rdx => 2
  | rbx => 3
  | rbp => 5
  | rsi => 6
  | rdi => 7
  | r8 => 8
  | r9 => 9
  | r10 => 10
  | r11 => 11
  | r12 => 12
  | r13 => 13
  | r14 => 14
  | r15 => 15

def vcpuRegsRsp : ℕ :=
  4

/-- `VCPU_REGS_RIP`, the last index. -/
def vcpuRegsRip : ℕ :=
  16

def nrRegs : ℕ :=
  17

def regsOffset (index : ℕ) : Address :=
  BitVec.ofNat 64 (8 * index)

/-- The registers between the pushes and pops, in the order they are loaded and stored in. -/
def exchanged : List Register :=
  [rcx, rdx, rbx, rsi, rdi, rbp, r8, r9, r10, r11, r12, r13, r14, r15]

inductive EntryInstruction where
  | vmlaunch
  | vmresume
deriving DecidableEq

/-- An attempt to enter the guest, with the registers at that moment. -/
structure Entry where
  instruction : EntryInstruction
  registers : Register → BitVec 64

/-- What comes of an attempt to enter the guest. -/
inductive Outcome where
  | exit (registers : Register → BitVec 64)
  | failInvalid
  | failValid

/-- The processor; `vmcs` is the current VMCS, by the encoding of its fields. -/
structure Processor where
  registers : Register → BitVec 64
  rsp : Address
  zf : Bool := false
  cf : Bool := false
  memory : Memory
  vmcs : BitVec 64 → BitVec 64
  entries : List Entry := []

/--
The operands of the statement: the registers that hold `vmx`, `regs` and `launched`, the offset of
`host_rsp`, the address of `fail` and the encoding of the field `HOST_RSP`.
-/
structure Operands where
  vmx : Register
  regs : Register
  launched : Register
  hostRsp : Address
  fail : Address
  hostRspField : BitVec 64

namespace Processor

variable (processor : Processor)

def store (source base : Register) (displacement : Address) : Processor :=
  { processor with
    memory := processor.memory.write (processor.registers base + displacement)
      (processor.registers source) }

def load (base : Register) (displacement : Address) (destination : Register) : Processor :=
  { processor with
    registers := Function.update processor.registers destination
      (processor.memory.read 64 (processor.registers base + displacement)) }

def push (source : Register) : Processor :=
  { processor with
    rsp := processor.rsp - 8
    memory := processor.memory.write (processor.rsp - 8) (processor.registers source) }

def pop (destination : Register) : Processor :=
  { processor with
    rsp := processor.rsp + 8
    registers := Function.update processor.registers destination
      (processor.memory.read 64 processor.rsp) }

def popTo (base : Register) (displacement : Address) : Processor :=
  { processor with
    rsp := processor.rsp + 8
    memory := processor.memory.write (processor.registers base + displacement)
      (processor.memory.read 64 processor.rsp) }

def cmpRsp (displacement : Address) (base : Register) : Processor :=
  let held := processor.memory.read 64 (processor.registers base + displacement)
  { processor with zf := held == processor.rsp, cf := decide (held < processor.rsp) }

def storeRsp (displacement : Address) (base : Register) : Processor :=
  { processor with
    memory := processor.memory.write (processor.registers base + displacement) processor.rsp }

/-- `vmwrite` of `rsp` to the field that a register holds the encoding of. -/
def vmwriteRsp (field : Register) : Processor :=
  { processor with
    vmcs := Function.update processor.vmcs (processor.registers field) processor.rsp
    zf := false
    cf := false }

def loadTop (destination : Register) : Processor :=
  { processor with
    registers := Function.update processor.registers destination
      (processor.memory.read 64 processor.rsp) }

def storeStack (source : Register) (displacement : Address) : Processor :=
  { processor with
    memory := processor.memory.write (processor.rsp + displacement)
      (processor.registers source) }

/-- Compare the low byte of a register, which holds a `bool`, with 0. -/
def cmpZero (register : Register) : Processor :=
  { processor with zf := (processor.registers register).setWidth 8 == (0 : BitVec 8), cf := false }

/-- `setbe`: whether one of the two flags is set. -/
def setbe (address : Address) : Processor :=
  { processor with
    memory := processor.memory.write address
      (if processor.cf || processor.zf then (1 : BitVec 8) else 0) }

variable (operands : Operands)

/-- The statement up to label `1`: what is pushed, and the stack pointer for the exit. -/
def saveHost : Processor :=
  let processor := processor.push operands.vmx
  let processor := processor.push operands.regs
  let processor := processor.push operands.regs
  let processor := processor.cmpRsp operands.hostRsp operands.vmx
  if processor.zf then processor
  else (processor.storeRsp operands.hostRsp operands.vmx).vmwriteRsp rdx

/-- From label `1` up to the jump; the moves leave the flags of the comparison alone. -/
def loadGuest : Processor :=
  let processor := processor.loadTop rax
  let processor := processor.cmpZero operands.launched
  let processor := exchanged.foldl
    (fun processor register => processor.load rax (regsOffset (vcpuRegs register)) register)
    processor
  processor.load rax (regsOffset (vcpuRegs rax)) rax

/--
The jump, and `vmlaunch` or `vmresume`. An exit comes back with the stack pointer from the VMCS and
the flags cleared; an instruction that fails leaves all but the flags alone.
-/
def enter (outcome : Outcome) : Processor :=
  let entry : Entry :=
    { instruction := if processor.zf then .vmlaunch else .vmresume
      registers := processor.registers }
  let processor := { processor with entries := processor.entries ++ [entry] }
  match outcome with
  | .exit registers =>
      { processor with
        registers
        rsp := processor.vmcs operands.hostRspField
        zf := false
        cf := false }
  | .failInvalid => { processor with zf := false, cf := true }
  | .failValid => { processor with zf := true, cf := false }

/-- The statement from `.Lkvm_vmx_return` on. -/
def saveGuest : Processor :=
  let processor := processor.storeStack rax 8
  let processor := processor.pop rax
  let processor := processor.popTo rax (regsOffset (vcpuRegs rax))
  let processor := exchanged.foldl
    (fun processor register => processor.store register rax (regsOffset (vcpuRegs register)))
    processor
  let processor := processor.setbe operands.fail
  processor.pop operands.vmx

/-- `__vmx_run_vcpu` up to its `return`. -/
def vmxRunVcpu (outcome : Outcome) : Processor :=
  let processor :=
    { processor with memory := processor.memory.write operands.fail (0 : BitVec 32) }
  (((processor.saveHost operands).loadGuest operands).enter operands outcome).saveGuest operands

def fail : BitVec 32 :=
  processor.memory.read 32 operands.fail

end Processor

end VirtLearn.Vmx
