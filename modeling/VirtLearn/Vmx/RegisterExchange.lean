import VirtLearn.LastWrite
import VirtLearn.Vmx.RunVcpu

/-!
# The exchange of registers with the guest

What `__vmx_run_vcpu` does to the guest's array, to its own stack and to the host's registers. The
objects it uses in memory are a `Frame`, and its words are cells: every store of the statement goes
to one cell, so that what a cell holds is told by the last store to it.
-/

namespace VirtLearn.Vmx

open Register

/-! ### The objects of a call -/

/-- The objects in memory that the statement uses: the array, three words of stack, two fields. -/
structure Frame where
  regs : Address
  rsp : Address
  hostRsp : Address
  fail : Address
  regs_stack : Apart regs (8 * nrRegs) (rsp - 24) 24
  regs_hostRsp : Apart regs (8 * nrRegs) hostRsp 8
  regs_fail : Apart regs (8 * nrRegs) fail 4
  stack_hostRsp : Apart (rsp - 24) 24 hostRsp 8
  stack_fail : Apart (rsp - 24) 24 fail 4
  hostRsp_fail : Apart hostRsp 8 fail 4

/-- A word of one of the objects; `pushed` counts from the word pushed last. -/
inductive Cell where
  | slot (index : Fin nrRegs)
  | pushed (index : Fin 3)
  | hostRsp
deriving DecidableEq

namespace Frame

variable (frame : Frame)

def address : Cell → Address
  | .slot index => frame.regs + BitVec.ofNat 64 (8 * index)
  | .pushed index => frame.rsp - 24 + BitVec.ofNat 64 (8 * index)
  | .hostRsp => frame.hostRsp

def value (memory : Memory) (cell : Cell) : BitVec 64 :=
  memory.read 64 (frame.address cell)

theorem slot_part {second : Address} {size : ℕ} (apart : Apart frame.regs (8 * nrRegs) second size)
    (index : Fin nrRegs) : Apart (frame.address (.slot index)) 8 second size := by
  have bound := index.isLt
  exact apart.part (by omega) (by decide)

theorem pushed_part {second : Address} {size : ℕ} (apart : Apart (frame.rsp - 24) 24 second size)
    (index : Fin 3) : Apart (frame.address (.pushed index)) 8 second size := by
  have bound := index.isLt
  exact apart.part (by omega) (by decide)

theorem apart_cells {cell other : Cell} (different : cell ≠ other) :
    Apart (frame.address cell) 8 (frame.address other) 8 := by
  have slot_pushed : ∀ index pushed,
      Apart (frame.address (.slot index)) 8 (frame.address (.pushed pushed)) 8 :=
    fun index pushed =>
      (frame.pushed_part (frame.slot_part frame.regs_stack index).symm pushed).symm
  have slot_hostRsp := frame.slot_part frame.regs_hostRsp
  have pushed_hostRsp := frame.pushed_part frame.stack_hostRsp
  cases cell with
  | slot index =>
      cases other with
      | slot otherIndex =>
          have bound := index.isLt
          have otherBound := otherIndex.isLt
          simp only [nrRegs] at bound otherBound
          have distinct : (index : ℕ) ≠ otherIndex := fun same => different (by rw [Fin.ext same])
          exact apart_of_offsets frame.regs (by omega) (by omega) (by omega)
      | pushed pushed => exact slot_pushed index pushed
      | hostRsp => exact slot_hostRsp index
  | pushed index =>
      cases other with
      | slot otherIndex => exact (slot_pushed otherIndex index).symm
      | pushed otherIndex =>
          have distinct : (index : ℕ) ≠ otherIndex := fun same => different (by rw [Fin.ext same])
          exact apart_of_offsets (frame.rsp - 24) (by omega) (by omega) (by omega)
      | hostRsp => exact pushed_hostRsp index
  | hostRsp =>
      cases other with
      | slot otherIndex => exact (slot_hostRsp otherIndex).symm
      | pushed otherIndex => exact (pushed_hostRsp otherIndex).symm
      | hostRsp => exact absurd rfl different

theorem apart_fail (cell : Cell) : Apart (frame.address cell) 8 frame.fail 4 := by
  cases cell with
  | slot index => exact frame.slot_part frame.regs_fail index
  | pushed index => exact frame.pushed_part frame.stack_fail index
  | hostRsp => exact frame.hostRsp_fail

theorem value_write (memory : Memory) (cell other : Cell) (word : BitVec 64) :
    frame.value (memory.write (frame.address cell) word) other =
      if other = cell then word else frame.value memory other := by
  by_cases same : other = cell
  · rw [if_pos same, value, same, Memory.read_write (by decide) (by decide)]
  · rw [if_neg same, value,
      Memory.read_write_of_apart memory word (frame.apart_cells same) (by decide) (by decide),
      value]

theorem value_write_fail {width : ℕ} (memory : Memory) (cell : Cell) (word : BitVec width)
    (fits : width / 8 ≤ 4) :
    frame.value (memory.write frame.fail word) cell = frame.value memory cell := by
  apply Memory.read_write_of_apart _ _ _ (by decide) (by omega)
  intro place inCell inFail
  exact frame.apart_fail cell place inCell (Nat.lt_of_lt_of_le inFail fits)

theorem fail_write (memory : Memory) (cell : Cell) (word : BitVec 64) {place : Address}
    (inFail : Within place frame.fail 4) :
    memory.write (frame.address cell) word place = memory place := by
  apply Memory.write_of_not_within (by decide)
  exact fun inCell => frame.apart_fail cell place inCell inFail

end Frame

def slotOf (register : Register) : Fin nrRegs :=
  ⟨vcpuRegs register, by cases register <;> decide⟩

theorem mem_exchanged {register : Register} : register ∈ exchanged ↔ register ≠ rax := by
  cases register <;> decide

/-! ### Loading and storing the registers one by one -/

namespace Processor

variable (processor : Processor)

theorem foldl_load {registers : List Register} (absent : rax ∉ registers) :
    registers.foldl (fun processor register =>
        processor.load rax (regsOffset (vcpuRegs register)) register) processor =
      { processor with
        registers := fun register =>
          if register ∈ registers then
            processor.memory.read 64 (processor.registers rax + regsOffset (vcpuRegs register))
          else processor.registers register } := by
  induction registers using List.reverseRecOn with
  | nil => simp
  | append_singleton registers last ih =>
      simp only [List.mem_append, List.mem_singleton, not_or] at absent
      rw [List.foldl_append, ih absent.1]
      simp only [List.foldl_cons, List.foldl_nil, load, absent.1, if_false]
      congr 1
      funext register
      by_cases same : register = last
      · simp [same]
      · simp [same]

theorem foldl_store (registers : List Register) :
    registers.foldl (fun processor register =>
        processor.store register rax (regsOffset (vcpuRegs register))) processor =
      { processor with
        memory := registers.foldl (fun memory register =>
          memory.write (processor.registers rax + regsOffset (vcpuRegs register))
            (processor.registers register)) processor.memory } := by
  induction registers using List.reverseRecOn with
  | nil => rfl
  | append_singleton registers last ih =>
      rw [List.foldl_append, ih, List.foldl_append]
      rfl

end Processor

namespace Frame

variable (frame : Frame)

/-- The memory after the registers of the list are stored in their slots. -/
def stored (registers : Register → BitVec 64) (list : List Register) (memory : Memory) : Memory :=
  list.foldl (fun memory register =>
    memory.write (frame.regs + regsOffset (vcpuRegs register)) (registers register)) memory

/-- Each slot holds its register, if that is stored, and all other cells are as before. -/
theorem value_stored (registers : Register → BitVec 64) (list : List Register) (memory : Memory)
    (cell : Cell) :
    frame.value (frame.stored registers list memory) cell =
      ((list.filter fun register => cell = .slot (slotOf register)).getLast?.map registers).getD
        (frame.value memory cell) := by
  have step : ∀ memory register,
      frame.value (memory.write (frame.regs + regsOffset (vcpuRegs register))
        (registers register)) cell =
      (if cell = .slot (slotOf register) then some (registers register) else none).getD
        (frame.value memory cell) := by
    intro memory register
    apply (frame.value_write memory (.slot (slotOf register)) cell (registers register)).trans
    split <;> rfl
  have stores : frame.value (frame.stored registers list memory) cell = _ :=
    @observe_foldl_of_steps Memory Register (BitVec 64) (frame.value · cell) _ _ step memory list
  rw [stores, lastWrite_of_ite fun _ _ => rfl]

theorem fail_stored (registers : Register → BitVec 64) (list : List Register) (memory : Memory)
    {place : Address} (inFail : Within place frame.fail 4) :
    frame.stored registers list memory place = memory place := by
  induction list generalizing memory with
  | nil => rfl
  | cons register rest ih =>
      rw [stored, List.foldl_cons, ← stored, ih]
      exact frame.fail_write memory (.slot (slotOf register)) _ inFail

theorem value_stored_exchanged (registers : Register → BitVec 64) (memory : Memory)
    (register : Register) :
    frame.value (frame.stored registers exchanged memory) (.slot (slotOf register)) =
      if register = rax then frame.value memory (.slot (slotOf rax)) else registers register := by
  rw [value_stored]
  cases register <;> rfl

theorem value_stored_of_no_slot (registers : Register → BitVec 64) (memory : Memory) {cell : Cell}
    (noSlot : ∀ register, cell ≠ .slot (slotOf register)) :
    frame.value (frame.stored registers exchanged memory) cell = frame.value memory cell := by
  rw [value_stored, List.filter_eq_nil_iff.mpr]
  · rfl
  · intro register _
    simpa using noSlot register

end Frame

/-! ### The parts of the statement -/

/-- The statement begins with its operands in place, over the objects of the frame. -/
structure Called (operands : Operands) (frame : Frame) (launched : Bool) (processor : Processor) :
    Prop where
  regs : processor.registers operands.regs = frame.regs
  rsp : processor.rsp = frame.rsp
  hostRsp : processor.registers operands.vmx + operands.hostRsp = frame.hostRsp
  fail : operands.fail = frame.fail
  launched : (processor.registers operands.launched).setWidth 8 =
    if launched then (1 : BitVec 8) else 0
  field : processor.registers rdx = operands.hostRspField
  recorded : frame.value processor.memory .hostRsp = processor.vmcs operands.hostRspField

def Frame.pushed (frame : Frame) (vmx : BitVec 64) (memory : Memory) : Memory :=
  ((memory.write (frame.address (.pushed 2)) vmx).write (frame.address (.pushed 1))
    frame.regs).write (frame.address (.pushed 0)) frame.regs

theorem Frame.value_pushed (frame : Frame) (vmx : BitVec 64) (memory : Memory) (cell : Cell) :
    frame.value (frame.pushed vmx memory) cell =
      match cell with
      | .slot index => frame.value memory (.slot index)
      | .pushed index => if index = 2 then vmx else frame.regs
      | .hostRsp => frame.value memory .hostRsp := by
  rw [pushed, value_write, value_write, value_write]
  cases cell with
  | slot index => simp
  | pushed index =>
      rcases index with ⟨_ | _ | _ | more, bound⟩
      · rfl
      · rfl
      · rfl
      · omega
  | hostRsp => simp

theorem Frame.fail_pushed (frame : Frame) (vmx : BitVec 64) (memory : Memory) {place : Address}
    (inFail : Within place frame.fail 4) : frame.pushed vmx memory place = memory place := by
  rw [pushed, frame.fail_write _ _ _ inFail, frame.fail_write _ _ _ inFail,
    frame.fail_write _ _ _ inFail]

/-- What the slots hold for the registers. -/
def Frame.loaded (frame : Frame) (memory : Memory) (register : Register) : BitVec 64 :=
  frame.value memory (.slot (slotOf register))

/-- What the processor and the cells are like once the host has saved what it needs. -/
structure Saved (operands : Operands) (frame : Frame) (before after : Processor) : Prop where
  registers : after.registers = before.registers
  rsp : after.rsp = frame.rsp - 24
  vmcs : after.vmcs operands.hostRspField = frame.rsp - 24
  entries : after.entries = before.entries
  slots : ∀ index, frame.value after.memory (.slot index) = frame.value before.memory (.slot index)
  regs : ∀ index, index ≠ 2 → frame.value after.memory (.pushed index) = frame.regs
  vmx : frame.value after.memory (.pushed 2) = before.registers operands.vmx
  fail : ∀ place, Within place frame.fail 4 → after.memory place = before.memory place

namespace Called

variable {operands : Operands} {frame : Frame} {launched : Bool} {processor : Processor}

theorem pushes (called : Called operands frame launched processor) :
    ((processor.push operands.vmx).push operands.regs).push operands.regs =
      { processor with
        rsp := frame.rsp - 24
        memory := frame.pushed (processor.registers operands.vmx) processor.memory } := by
  have second : frame.rsp - 8 = frame.address (.pushed 2) := by
    simp only [Frame.address]
    bv_omega
  have first : frame.address (.pushed 2) - 8 = frame.address (.pushed 1) := by
    simp only [Frame.address]
    bv_omega
  have top : frame.address (.pushed 1) - 8 = frame.address (.pushed 0) := by
    simp only [Frame.address]
    bv_omega
  have rsp : frame.address (.pushed 0) = frame.rsp - 24 := by
    simp only [Frame.address]
    bv_omega
  simp only [Processor.push, called.rsp, second, first, top, called.regs, Frame.pushed, rsp]

/-- The stack pointer is recorded for the exit, unless it is recorded already. -/
theorem saveHost (called : Called operands frame launched processor) :
    Saved operands frame processor (processor.saveHost operands) := by
  have held : (frame.pushed (processor.registers operands.vmx) processor.memory).read 64
      frame.hostRsp = processor.vmcs operands.hostRspField := by
    rw [← called.recorded]
    exact frame.value_pushed _ _ .hostRsp
  rw [Processor.saveHost, called.pushes]
  simp only [Processor.cmpRsp, called.hostRsp, held]
  by_cases same : processor.vmcs operands.hostRspField = frame.rsp - 24
  · simp only [same, beq_self_eq_true, if_true]
    refine ⟨rfl, rfl, same, rfl, ?_, ?_, ?_, ?_⟩
    · exact fun index => frame.value_pushed _ _ (.slot index)
    · intro index below
      exact (frame.value_pushed _ _ (.pushed index)).trans (if_neg below)
    · exact frame.value_pushed _ _ (.pushed 2)
    · exact fun place inFail => frame.fail_pushed _ _ inFail
  · have moved : (processor.vmcs operands.hostRspField == frame.rsp - 24) = false := by
      simpa using same
    have written := frame.value_write
      (frame.pushed (processor.registers operands.vmx) processor.memory) .hostRsp
    simp only [moved, Processor.storeRsp, Processor.vmwriteRsp, called.hostRsp, called.field]
    refine ⟨rfl, rfl, Function.update_self .., rfl, ?_, ?_, ?_, ?_⟩
    · intro index
      exact (written (.slot index) _).trans (frame.value_pushed _ _ (.slot index))
    · intro index below
      apply (written (.pushed index) _).trans
      exact (frame.value_pushed _ _ (.pushed index)).trans (if_neg below)
    · exact (written (.pushed 2) _).trans (frame.value_pushed _ _ (.pushed 2))
    · intro place inFail
      apply (frame.fail_write _ .hostRsp _ inFail).trans
      exact frame.fail_pushed _ _ inFail

/--
The guest's registers are loaded while the flag of the comparison waits for the jump. `launched` is
read when `rax` has been overwritten, so the comparison is right if it is elsewhere.
-/
theorem loadGuest (called : Called operands frame launched processor) {saved : Processor}
    (begins : Saved operands frame processor saved) :
    ∃ flag : Bool, (operands.launched ≠ rax → flag = launched) ∧
      saved.loadGuest operands =
        { saved with
          registers := frame.loaded processor.memory
          zf := !flag
          cf := false } := by
  have top : saved.memory.read 64 saved.rsp = frame.regs := by
    rw [begins.rsp, ← begins.regs 0 (by decide), Frame.value, Frame.address]
    simp
  have compared (kept : operands.launched ≠ rax) :
      (Function.update saved.registers rax frame.regs operands.launched).setWidth 8 =
        if launched then (1 : BitVec 8) else 0 := by
    rw [Function.update_of_ne kept, begins.registers, called.launched]
  have slots : ∀ register, saved.memory.read 64 (frame.regs + regsOffset (vcpuRegs register)) =
      frame.loaded processor.memory register :=
    fun register => begins.slots (slotOf register)
  have last : rax ∉ exchanged := by decide
  have loaded : Function.update (fun register =>
        if register ∈ exchanged then frame.loaded processor.memory register
        else Function.update saved.registers rax frame.regs register) rax
          (frame.loaded processor.memory rax) = frame.loaded processor.memory := by
    funext register
    by_cases first : register = rax
    · rw [first, Function.update_self]
    · rw [Function.update_of_ne first, if_pos (mem_exchanged.mpr first)]
  have flag : ((if launched then (1 : BitVec 8) else 0) == 0) = !launched := by
    cases launched <;> rfl
  refine ⟨!((Function.update saved.registers rax frame.regs operands.launched).setWidth 8 ==
    (0 : BitVec 8)), ?_, ?_⟩
  · intro kept
    rw [compared kept, flag, Bool.not_not]
  · rw [Processor.loadGuest, Processor.foldl_load _ last]
    simp only [Processor.loadTop, Processor.cmpZero, Processor.load, top, Function.update_self,
      slots, if_neg last, loaded, Bool.not_not]

end Called

def Outcome.failed : Outcome → Bool
  | .exit _ => false
  | .failInvalid | .failValid => true

/-- The registers at `.Lkvm_vmx_return`, of the guest or as they were loaded. -/
def Outcome.registersAt (outcome : Outcome) (loaded : Register → BitVec 64) :
    Register → BitVec 64 :=
  match outcome with
  | .exit registers => registers
  | .failInvalid | .failValid => loaded

theorem enter_eq {operands : Operands} {processor : Processor} (outcome : Outcome)
    (recorded : processor.vmcs operands.hostRspField = processor.rsp) :
    ∃ zf cf, (cf || zf) = outcome.failed ∧ processor.enter operands outcome =
      { processor with
        registers := outcome.registersAt processor.registers
        zf
        cf
        entries := processor.entries ++
          [⟨if processor.zf then .vmlaunch else .vmresume, processor.registers⟩] } := by
  cases outcome with
  | exit registers =>
      refine ⟨false, false, rfl, ?_⟩
      simp only [Processor.enter, recorded, Outcome.registersAt]
  | failInvalid => exact ⟨false, true, rfl, rfl⟩
  | failValid => exact ⟨true, false, rfl, rfl⟩

/-- The memory with the guest's registers stored and `fail` set. -/
def Frame.exchangedMemory (frame : Frame) (registers : Register → BitVec 64) (failed : Bool)
    (memory : Memory) : Memory :=
  (frame.stored registers exchanged
    ((memory.write (frame.address (.pushed 1)) (registers rax)).write
      (frame.address (.slot (slotOf rax))) (registers rax))).write frame.fail
        (if failed then (1 : BitVec 8) else 0)

namespace Frame

variable (frame : Frame) (registers : Register → BitVec 64) (failed : Bool) (memory : Memory)

theorem value_exchangedMemory_slot (register : Register) :
    frame.value (frame.exchangedMemory registers failed memory) (.slot (slotOf register)) =
      registers register := by
  rw [exchangedMemory, frame.value_write_fail _ _ _ (by decide), value_stored_exchanged]
  by_cases first : register = rax
  · rw [if_pos first, value_write, if_pos rfl, first]
  · rw [if_neg first]

theorem value_exchangedMemory_of_no_slot {cell : Cell}
    (noSlot : ∀ register, cell ≠ .slot (slotOf register)) (notScratch : cell ≠ .pushed 1) :
    frame.value (frame.exchangedMemory registers failed memory) cell = frame.value memory cell := by
  rw [exchangedMemory, frame.value_write_fail _ _ _ (by decide), frame.value_stored_of_no_slot _ _
    noSlot, value_write, if_neg (noSlot rax), value_write, if_neg notScratch]

theorem fail_exchangedMemory {place : Address} (inFail : Within place frame.fail 4) :
    frame.exchangedMemory registers failed memory place =
      if place = frame.fail then (if failed then 1 else 0) else memory place := by
  have stores : frame.stored registers exchanged ((memory.write (frame.address (.pushed 1))
      (registers rax)).write (frame.address (.slot (slotOf rax))) (registers rax)) place =
        memory place := by
    rw [frame.fail_stored _ _ _ inFail, frame.fail_write _ _ _ inFail,
      frame.fail_write _ _ _ inFail]
  rw [exchangedMemory]
  by_cases first : place = frame.fail
  · rw [if_pos first, first]
    exact (Memory.read_eight _ _).symm.trans (Memory.read_write (by decide) (by decide) _ _ _)
  · rw [if_neg first, Memory.write_of_not_within (by decide), stores]
    intro inByte
    simp only [Within] at inByte
    exact first (by bv_omega)

/-- Only the low byte of `fail` is set, and the others are still 0. -/
theorem read_fail_exchangedMemory
    (zero : ∀ place, Within place frame.fail 4 → memory place = 0) :
    (frame.exchangedMemory registers failed memory).read 32 frame.fail =
      if failed then 1 else 0 := by
  have byte : ∀ offset < 4,
      frame.exchangedMemory registers failed memory (frame.fail + BitVec.ofNat 64 offset) =
        ([if failed then 1 else 0, 0, 0, 0] : List Byte).getD offset 0 := by
    intro offset below
    have inFail : Within (frame.fail + BitVec.ofNat 64 offset) frame.fail 4 := by
      simp only [Within]
      bv_omega
    rw [fail_exchangedMemory _ _ _ _ inFail, zero _ inFail]
    rcases offset with _ | _ | _ | _ | more
    · simp
    · simp
    · simp
    · simp
    · omega
  have loaded : (frame.exchangedMemory registers failed memory).load frame.fail 4 =
      [if failed then 1 else 0, 0, 0, 0] :=
    @Memory.load_eq_of_bytes _ _ [if failed then 1 else 0, 0, 0, 0] byte
  rw [Memory.read, loaded]
  cases failed <;> rfl

/-- The array pointer that is stored through is none of the registers that are stored. -/
theorem stored_update (word : BitVec 64) :
    frame.stored (Function.update registers rax word) exchanged memory =
      frame.stored registers exchanged memory := by
  simp [stored, exchanged]

end Frame

/-- The guest's `rax` goes through the stack to its slot, and `rax` points to the array. -/
theorem save_rax {frame : Frame} {processor : Processor} (rsp : processor.rsp = frame.rsp - 24)
    (regs : frame.value processor.memory (.pushed 0) = frame.regs) :
    ((processor.storeStack rax 8).pop rax).popTo rax (regsOffset (vcpuRegs rax)) =
      { processor with
        registers := Function.update processor.registers rax frame.regs
        rsp := frame.address (.pushed 2)
        memory := (processor.memory.write (frame.address (.pushed 1))
          (processor.registers rax)).write (frame.address (.slot (slotOf rax)))
            (processor.registers rax) } := by
  have written := frame.value_write processor.memory (.pushed 1)
  have bottom : (processor.memory.write (frame.address (.pushed 1)) (processor.registers rax)).read
      64 (frame.address (.pushed 0)) = frame.regs := (written (.pushed 0) _).trans regs
  have middle : (processor.memory.write (frame.address (.pushed 1)) (processor.registers rax)).read
      64 (frame.address (.pushed 1)) = processor.registers rax := written (.pushed 1) _
  have first : frame.rsp - 24 = frame.address (.pushed 0) := by
    simp [Frame.address]
  have second : frame.address (.pushed 0) + 8 = frame.address (.pushed 1) := by
    simp [Frame.address]
  have third : frame.address (.pushed 1) + 8 = frame.address (.pushed 2) := by
    simp only [Frame.address]
    bv_omega
  have slot : frame.regs + regsOffset (vcpuRegs rax) = frame.address (.slot (slotOf rax)) := rfl
  simp only [Processor.storeStack, Processor.pop, Processor.popTo, rsp, first, second, third,
    bottom, middle, Function.update_self, slot]

theorem saveGuest_eq {operands : Operands} {frame : Frame} {processor : Processor}
    (fail : operands.fail = frame.fail) (rsp : processor.rsp = frame.rsp - 24)
    (regs : frame.value processor.memory (.pushed 0) = frame.regs) :
    processor.saveGuest operands =
      { processor with
        registers := Function.update (Function.update processor.registers rax frame.regs)
          operands.vmx (frame.value processor.memory (.pushed 2))
        rsp := frame.rsp
        memory := frame.exchangedMemory processor.registers (processor.cf || processor.zf)
          processor.memory } := by
  have kept : ∀ registers failed,
      frame.value (frame.exchangedMemory registers failed processor.memory) (.pushed 2) =
        frame.value processor.memory (.pushed 2) :=
    fun registers failed =>
      frame.value_exchangedMemory_of_no_slot registers failed _ (by simp) (by simp)
  have restored : frame.address (.pushed 2) + 8 = frame.rsp := by
    simp only [Frame.address]
    bv_omega
  rw [Processor.saveGuest, save_rax rsp regs, Processor.foldl_store]
  simp only [Processor.setbe, Processor.pop, Function.update_self, fail, restored]
  rw [← Frame.stored, Frame.stored_update, ← Frame.exchangedMemory, ← Frame.value, kept]

/-! ### The whole statement -/

section Statement

variable {operands : Operands} {frame : Frame} {launched : Bool} {processor : Processor}

theorem Called.writeFail (called : Called operands frame launched processor) :
    Called operands frame launched
      { processor with memory := processor.memory.write operands.fail (0 : BitVec 32) } where
  regs := called.regs
  rsp := called.rsp
  hostRsp := called.hostRsp
  fail := called.fail
  launched := called.launched
  field := called.field
  recorded := by
    rw [called.fail, frame.value_write_fail _ _ _ (by decide)]
    exact called.recorded

/-- The statement from label `1` on. -/
theorem Called.exchange (called : Called operands frame launched processor) {saved : Processor}
    (begins : Saved operands frame processor saved) (outcome : Outcome) :
    ∃ zf cf, ∃ flag : Bool, (operands.launched ≠ rax → flag = launched) ∧
      ((saved.loadGuest operands).enter operands outcome).saveGuest operands =
        { registers := Function.update
            (Function.update (outcome.registersAt (frame.loaded processor.memory)) rax frame.regs)
            operands.vmx (processor.registers operands.vmx)
          rsp := frame.rsp
          zf
          cf
          memory := frame.exchangedMemory
            (outcome.registersAt (frame.loaded processor.memory)) outcome.failed saved.memory
          vmcs := saved.vmcs
          entries := processor.entries ++
            [⟨if flag then .vmresume else .vmlaunch, frame.loaded processor.memory⟩] } := by
  rcases called.loadGuest begins with ⟨flag, compared, loads⟩
  have recorded : (saved.loadGuest operands).vmcs operands.hostRspField =
      (saved.loadGuest operands).rsp := by
    rw [loads, begins.vmcs, begins.rsp]
  rcases enter_eq outcome recorded with ⟨zf, cf, flags, entered⟩
  refine ⟨zf, cf, flag, compared, ?_⟩
  rw [entered, loads, saveGuest_eq called.fail]
  · simp only [flags, begins.entries, begins.vmx]
    cases flag <;> rfl
  · exact begins.rsp
  · exact begins.regs 0 (by decide)

theorem Called.value_saved (called : Called operands frame launched processor)
    {saved : Processor}
    (begins : Saved operands frame
      { processor with memory := processor.memory.write operands.fail (0 : BitVec 32) } saved) :
    (∀ index, frame.value saved.memory (.slot index) = frame.value processor.memory (.slot index)) ∧
      ∀ place, Within place frame.fail 4 → saved.memory place = 0 := by
  constructor
  · intro index
    rw [begins.slots, called.fail, frame.value_write_fail _ _ _ (by decide)]
  · intro place inFail
    rw [begins.fail place inFail, called.fail]
    apply (Memory.store_apply processor.memory frame.fail (by simp) place).trans
    have zeros : bytesOf (32 / 8) (0 : BitVec 32).toNat = List.replicate 4 0 := rfl
    simp only [Within] at inFail
    rw [zeros, List.getD_replicate _ inFail]

/-- The whole statement, by what it does to the registers, the stack pointer and the array. -/
theorem Called.vmxRunVcpu (called : Called operands frame launched processor) (outcome : Outcome) :
    ∃ memory, (processor.vmxRunVcpu operands outcome).memory =
        frame.exchangedMemory (outcome.registersAt (frame.loaded processor.memory)) outcome.failed
          memory ∧
      (∀ index, frame.value memory (.slot index) = frame.value processor.memory (.slot index)) ∧
      (∀ place, Within place frame.fail 4 → memory place = 0) ∧
      (processor.vmxRunVcpu operands outcome).registers = Function.update
        (Function.update (outcome.registersAt (frame.loaded processor.memory)) rax frame.regs)
        operands.vmx (processor.registers operands.vmx) ∧
      (processor.vmxRunVcpu operands outcome).rsp = frame.rsp ∧
      ∃ flag : Bool, (operands.launched ≠ rax → flag = launched) ∧
        (processor.vmxRunVcpu operands outcome).entries = processor.entries ++
          [⟨if flag then .vmresume else .vmlaunch, frame.loaded processor.memory⟩] := by
  have begun := called.writeFail
  have begins := begun.saveHost
  have loaded : frame.loaded (processor.memory.write operands.fail (0 : BitVec 32)) =
      frame.loaded processor.memory := by
    funext register
    rw [Frame.loaded, called.fail, frame.value_write_fail _ _ _ (by decide), Frame.loaded]
  rcases called.value_saved begins with ⟨slots, zero⟩
  rcases begun.exchange begins outcome with ⟨zf, cf, flag, compared, exchanged⟩
  rw [loaded] at exchanged
  refine ⟨_, ?_, slots, zero, ?_, ?_, flag, compared, ?_⟩ <;>
    rw [Processor.vmxRunVcpu, exchanged]

/--
For every content of the array, both values of `launched` and every guest: the guest is entered with
its registers by the right instruction, and its registers come back to their slots. The slots of RSP
and RIP and the stack pointer are as before, and the result tells whether the instruction failed.
The operand `launched` must not be in `rax`, which is overwritten before it is read.
-/
theorem vmxRunVcpu_exchanges (called : Called operands frame launched processor)
    (kept : operands.launched ≠ rax) (outcome : Outcome) :
    (processor.vmxRunVcpu operands outcome).entries = processor.entries ++
        [⟨if launched then .vmresume else .vmlaunch, frame.loaded processor.memory⟩] ∧
      (∀ register, frame.loaded (processor.vmxRunVcpu operands outcome).memory register =
        outcome.registersAt (frame.loaded processor.memory) register) ∧
      (∀ index : Fin nrRegs, index = vcpuRegsRsp ∨ index = vcpuRegsRip →
        frame.value (processor.vmxRunVcpu operands outcome).memory (.slot index) =
          frame.value processor.memory (.slot index)) ∧
      (processor.vmxRunVcpu operands outcome).rsp = processor.rsp ∧
      (processor.vmxRunVcpu operands outcome).fail operands = if outcome.failed then 1 else 0 := by
  rcases called.vmxRunVcpu outcome with
    ⟨memory, after, slots, zero, _, rsp, flag, compared, entries⟩
  rw [compared kept] at entries
  refine ⟨entries, ?_, ?_, rsp.trans called.rsp.symm, ?_⟩
  · intro register
    rw [after]
    exact frame.value_exchangedMemory_slot _ _ _ register
  · intro index named
    have noSlot : ∀ register, Cell.slot index ≠ .slot (slotOf register) := by
      intro register same
      have index_eq : index = slotOf register := Cell.slot.inj same
      subst index_eq
      revert named
      cases register <;> decide
    rw [after, frame.value_exchangedMemory_of_no_slot _ _ _ noSlot (by simp), slots]
  · rw [Processor.fail, called.fail, after]
    exact frame.read_fail_exchangedMemory _ _ _ zero

/-- Every general-purpose register is as it was before the statement. -/
def HostKept (before after : Processor) : Prop :=
  after.rsp = before.rsp ∧ ∀ register, after.registers register = before.registers register

/--
The host's registers survive if and only if `rax` held the pointer to the array, or the operand
`vmx`, and all registers but these two come back from the guest with the host's values.
-/
theorem hostKept_vmxRunVcpu_iff (called : Called operands frame launched processor)
    (outcome : Outcome) :
    HostKept processor (processor.vmxRunVcpu operands outcome) ↔
      (operands.vmx = rax ∨ processor.registers rax = frame.regs) ∧
        ∀ register, register ≠ rax → register ≠ operands.vmx →
          outcome.registersAt (frame.loaded processor.memory) register =
            processor.registers register := by
  rcases called.vmxRunVcpu outcome with ⟨_, _, _, _, registers, rsp, _⟩
  rw [HostKept, registers]
  constructor
  · rintro ⟨_, kept⟩
    refine ⟨?_, ?_⟩
    · by_cases isVmx : operands.vmx = rax
      · exact Or.inl isVmx
      · have first := kept rax
        rw [Function.update_of_ne (Ne.symm isVmx), Function.update_self] at first
        exact Or.inr first.symm
    · intro register notFirst notVmx
      have same := kept register
      rwa [Function.update_of_ne notVmx, Function.update_of_ne notFirst] at same
  · rintro ⟨first, others⟩
    refine ⟨rsp.trans called.rsp.symm, ?_⟩
    intro register
    by_cases isVmx : register = operands.vmx
    · rw [isVmx, Function.update_self]
    · rw [Function.update_of_ne isVmx]
      by_cases isFirst : register = rax
      · rcases first with same | pointer
        · exact absurd (isFirst.trans same.symm) isVmx
        · rw [isFirst, Function.update_self, pointer]
      · rw [Function.update_of_ne isFirst, others register isFirst isVmx]

end Statement

/-! ### A call -/

def sampleFrame : Frame where
  regs := 0x1000
  rsp := 0x8000
  hostRsp := 0x2000
  fail := 0x3000
  regs_stack := apart_of_toNat_le (by decide) (by decide)
  regs_hostRsp := apart_of_toNat_le (by decide) (by decide)
  regs_fail := apart_of_toNat_le (by decide) (by decide)
  stack_hostRsp := (apart_of_toNat_le (by decide) (by decide)).symm
  stack_fail := (apart_of_toNat_le (by decide) (by decide)).symm
  hostRsp_fail := apart_of_toNat_le (by decide) (by decide)

def sampleOperands : Operands where
  vmx := rcx
  regs := rax
  launched := rsi
  hostRsp := 0x100
  fail := 0x3000
  hostRspField := 0x6c14

def sampleProcessor : Processor where
  registers := fun register =>
    match register with
    | rcx => 0x1f00
    | rax => 0x1000
    | rsi => 1
    | rdx => 0x6c14
    | _ => 0
  rsp := 0x8000
  memory := fun _ => 0
  vmcs := fun _ => 0

theorem called_sample : Called sampleOperands sampleFrame true sampleProcessor where
  regs := rfl
  rsp := rfl
  hostRsp := rfl
  fail := rfl
  launched := rfl
  field := rfl
  recorded := rfl

/-- The guest exits with a value in each of its registers. -/
theorem vmxRunVcpu_exchanges_sample :
    sampleFrame.loaded
        (sampleProcessor.vmxRunVcpu sampleOperands (.exit fun _ => 5)).memory r15 = 5 ∧
      (sampleProcessor.vmxRunVcpu sampleOperands (.exit fun _ => 5)).fail sampleOperands = 0 := by
  have exchanges := vmxRunVcpu_exchanges called_sample (by decide) (.exit fun _ => 5)
  exact ⟨exchanges.2.1 r15, exchanges.2.2.2.2⟩

/-- The guest gives back what the host had in its registers. -/
theorem hostKept_sample :
    HostKept sampleProcessor
      (sampleProcessor.vmxRunVcpu sampleOperands (.exit sampleProcessor.registers)) :=
  (hostKept_vmxRunVcpu_iff called_sample _).mpr ⟨Or.inr rfl, fun _ _ _ => rfl⟩

/-- The guest exits with another value in RBX. -/
theorem hostKept_lost : ¬∀ operands frame launched processor outcome,
    Called operands frame launched processor →
      HostKept processor (processor.vmxRunVcpu operands outcome) := by
  intro claimed
  have kept := (claimed _ _ _ _ (.exit fun _ => 5) called_sample).2 rbx
  rcases called_sample.vmxRunVcpu (.exit fun _ => 5) with ⟨_, _, _, _, registers, _⟩
  rw [registers] at kept
  revert kept
  decide

end VirtLearn.Vmx
