import VirtLearn.Kvm.Cpuid
import VirtLearn.Machine.Memory

/-!
# The MMIO exits of the guest

From `main` of `vm.c`: the two memory slots the guest is given, and the branch of the run loop for
`KVM_EXIT_MMIO`. A store to video memory is printed, one to 0x8000000 is answered with an
interrupt, and any other ends the program.
-/

namespace VirtLearn.Kvm

/-- The guest-physical addresses that `region1` and `region2` give memory to. -/
def inSlots (address : Address) : Bool :=
  decide (0x7000 ≤ address.toNat ∧ address.toNat < 0x7000 + 0x80000 ∨
    0x100000 ≤ address.toNat ∧ address.toNat < 0x100000 + 0x4000000)

structure MmioExit where
  physAddr : Address
  data : List Byte
  len : BitVec 32
  isWrite : BitVec 8

/-- What the system calls of the branch give: the result of `write`, `strerror(errno)` and the
registers that `KVM_GET_REGS` reads. -/
structure Replies where
  written : ℤ := 8
  strerror : String := ""
  rip : BitVec 64 := 0
  rflags : BitVec 64 := 0

/-- The program: its output, what it wrote to `irqefd`, and the status it ended with. -/
structure Vmm where
  stdout : List Byte := []
  irqefd : List (BitVec 64) := []
  exited : Option ℤ := none

namespace Vmm

def printf (vmm : Vmm) (text : String) : Vmm :=
  { vmm with stdout := vmm.stdout ++ text.toList.map fun char => BitVec.ofNat 8 char.toNat }

def putchar (vmm : Vmm) (char : Byte) : Vmm :=
  { vmm with stdout := vmm.stdout ++ [char] }

def mmio (replies : Replies) (exit : MmioExit) (vmm : Vmm) : Vmm :=
  if 0xb8000 ≤ exit.physAddr ∧ exit.physAddr ≤ 0xba000 then
    let vmm := if (exit.physAddr - 0xb8000) % (2 * 80) = 0 then vmm.printf "\n" else vmm
    vmm.putchar (exit.data.headD 0)
  else if exit.physAddr = 0x8000000 then
    let value := BitVec.ofNat 64 (valueOf (exit.data.take 8))
    let vmm := vmm.printf
      ("\nPage fault mmio address:0x" ++ hex exit.physAddr ++ " value:0x" ++ hex value ++ "\n")
    let vmm := { vmm with irqefd := vmm.irqefd ++ [1] }
    if replies.written ≠ 8 then vmm.printf ("write data failed:" ++ replies.strerror ++ "\n")
    else vmm
  else
    let vmm := vmm.printf
      ("KVM: mmoi exit\nphys_addr:0x" ++ hex exit.physAddr ++ " len:0x" ++ hex exit.len ++
        " is_write:" ++ toString exit.isWrite.toNat ++ "\n")
    let vmm := vmm.printf
      ("rip:0x" ++ hex replies.rip ++ " rflags:" ++ hex replies.rflags ++ "\n")
    { vmm with exited := some (-1) }

/-- The run loop over some MMIO exits: it stops with the program. -/
def serve (replies : Replies) (vmm : Vmm) (exits : List MmioExit) : Vmm :=
  exits.foldl (fun vmm exit => if vmm.exited.isSome then vmm else vmm.mmio replies exit) vmm

variable {replies : Replies} {vmm : Vmm}

theorem serve_append (first second : List MmioExit) :
    vmm.serve replies (first ++ second) = (vmm.serve replies first).serve replies second :=
  List.foldl_append

theorem serve_singleton (running : vmm.exited = none) (exit : MmioExit) :
    vmm.serve replies [exit] = vmm.mmio replies exit := by
  simp [serve, running]

/-- A store to video memory prints its low byte, in a new line if the cell starts a row. -/
theorem mmio_of_video {exit : MmioExit}
    (video : 0xb8000 ≤ exit.physAddr ∧ exit.physAddr ≤ 0xba000) :
    vmm.mmio replies exit =
      { vmm with
        stdout := vmm.stdout ++
          (if (exit.physAddr - 0xb8000) % 160 = 0 then [10] else []) ++ [exit.data.headD 0] } := by
  rw [mmio, if_pos video]
  split
  case isTrue first =>
      rw [if_pos (by exact first), printf, putchar]
      rfl
  case isFalse other =>
      rw [if_neg (by exact other), putchar, List.append_nil]

end Vmm

end VirtLearn.Kvm
