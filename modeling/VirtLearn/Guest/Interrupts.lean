import VirtLearn.LastWrite
import VirtLearn.Machine.Logic

/-!
# Installing interrupt handlers

`__set_interrupt_handler` and `__set_user_interrupt_handler` of `libs64.S`, which build one gate of
the interrupt descriptor table from a handler address.
-/

namespace VirtLearn.Guest

open Assembly Register

def kernelCode64Sel : BitVec 16 :=
  0x28

def interruptGate64 : BitVec 8 :=
  0xe

/-- The number of gates of `__interrupt_descriptor_table`. -/
def interruptVectors : ℕ :=
  0x50

/--
Where the table is, as `sidt` tells it, and where the routines have it told: the `idt_pointer` of
`libs64.S` is no part of the table.
-/
structure InterruptTable where
  idtPointer : Address
  limit : BitVec 16
  base : Address
  apart : ∀ place, Within place idtPointer 10 → ¬Within place base (16 * interruptVectors)

variable (table : InterruptTable)

/-- What the two routines have in common; they differ in the attributes of the gate. -/
def setGate (attributes : BitVec 8) : Routine Unit := do
  sidt table.limit table.base table.idtPointer
  mov 64 (.symbol (table.idtPointer + 2)) (.reg rax)
  shl 64 4 (.reg rsi)
  mov 64 (.reg rdi) (.mem 0 (some rax) (some rsi))
  mov 64 (.reg rdi) (.mem 4 (some rax) (some rsi))
  mov 16 (.imm kernelCode64Sel) (.mem 2 (some rax) (some rsi))
  mov 16 (.imm 0) (.mem 4 (some rax) (some rsi))
  mov 8 (.imm attributes) (.mem 5 (some rax) (some rsi))

def setInterruptHandler : Routine Unit :=
  setGate table (0x80 ||| interruptGate64)

def setUserInterruptHandler : Routine Unit :=
  setGate table (0xe0 ||| interruptGate64)

/-- A call of one of the two routines, with its arguments. -/
structure HandlerCall where
  user : Bool := false
  vector : BitVec 64
  handler : BitVec 64
deriving DecidableEq

def install (request : HandlerCall) : Routine Unit := do
  mov 64 (.imm request.vector) (.reg rsi)
  mov 64 (.imm request.handler) (.reg rdi)
  if request.user then call (setUserInterruptHandler table)
  else call (setInterruptHandler table)

def installAll : List HandlerCall → Routine Unit
  | [] => pure ()
  | request :: rest => do
      install table request
      installAll rest

/-! ### One gate -/

/-- What the processor reads from the 16 bytes of a gate. -/
structure Gate where
  offset : BitVec 64
  selector : BitVec 16
  ist : BitVec 3
  type : BitVec 4
  dpl : BitVec 2
  present : Bool
deriving DecidableEq

/-- The handler is spread over three places of a gate. -/
def decodeGate (bytes : List Byte) : Gate where
  offset := BitVec.ofNat 64 (valueOf (bytes.take 2 ++ (bytes.drop 6).take 6))
  selector := BitVec.ofNat 16 (valueOf ((bytes.drop 2).take 2))
  ist := (bytes.getD 4 0).extractLsb' 0 3
  type := (bytes.getD 5 0).extractLsb' 0 4
  dpl := (bytes.getD 5 0).extractLsb' 5 2
  present := (bytes.getD 5 0).getLsbD 7

def gateAt (memory : Memory) (address : Address) : Gate :=
  decodeGate (memory.load address 16)

def HandlerCall.attributes (request : HandlerCall) : BitVec 8 :=
  if request.user then 0xee else 0x8e

def HandlerCall.gate (request : HandlerCall) : Gate where
  offset := request.handler
  selector := 0x28
  ist := 0
  type := 0xe
  dpl := if request.user then 3 else 0
  present := true

def InterruptTable.gateAddress (vector : BitVec 64) : Address :=
  table.base + vector <<< 4

/-- The bytes of a gate that are written for a handler. -/
def gateBytes (handler : BitVec 64) (attributes : BitVec 8) : List Byte :=
  (bytesOf 8 handler.toNat).take 2 ++ [0x28, 0, 0, attributes] ++
    (bytesOf 8 handler.toNat).drop 2

def InterruptTable.scratch : List Byte :=
  bytesOf 2 table.limit.toNat ++ bytesOf 8 table.base.toNat

def InterruptTable.installed (memory : Memory) (vector handler : BitVec 64)
    (attributes : BitVec 8) : Memory :=
  (memory.store table.idtPointer table.scratch).store (table.gateAddress vector)
    (gateBytes handler attributes)

/-- What a call leaves in a byte of memory, if it writes it. -/
def InterruptTable.writes (request : HandlerCall) (place : Address) : Option Byte :=
  (gateBytes request.handler request.attributes)[
      (place - table.gateAddress request.vector).toNat]?.or
    table.scratch[(place - table.idtPointer).toNat]?

def lastFor (requests : List HandlerCall) (vector : BitVec 64) : Option HandlerCall :=
  (requests.filter (·.vector = vector)).getLast?

def InterruptTable.InRam (machine : Machine) : Prop :=
  ∀ place, Within place table.idtPointer 10 ∨ Within place table.base (16 * interruptVectors) →
    machine.ram place = true

variable {table}

theorem write_pointer (memory : Memory) :
    (memory.write table.idtPointer table.limit).write (table.idtPointer + 2) table.base =
      memory.store table.idtPointer table.scratch :=
  Memory.store_store memory table.idtPointer (Nat.le_refl 2) (by simp)

/-- The narrow stores go into the gap that the two copies of the handler leave. -/
theorem write_gate (memory : Memory) (address : Address) (handler : BitVec 64)
    (attributes : BitVec 8) :
    (((((memory.write address handler).write (address + 4) handler).write
      (address + 2) kernelCode64Sel).write (address + 4) (0 : BitVec 16)).write
        (address + 5) attributes) = memory.store address (gateBytes handler attributes) := by
  have second : address + 2 = address + BitVec.ofNat 64 2 := rfl
  have fourth : address + 4 = address + BitVec.ofNat 64 4 := rfl
  have fifth : address + 5 = address + BitVec.ofNat 64 5 := rfl
  simp only [Memory.write, second, fourth, fifth]
  rw [Memory.store_store _ _ (by simp) (by simp), Memory.store_store _ _ (by simp) (by simp),
    Memory.store_store _ _ (by simp) (by simp), Memory.store_store _ _ (by simp) (by simp)]
  simp [bytesOf, gateBytes, kernelCode64Sel]

theorem within_gateAddress {vector : BitVec 64} (inside : vector.toNat < interruptVectors)
    {offset : ℕ} (below : offset < 16) :
    Within (table.gateAddress vector + BitVec.ofNat 64 offset) table.base
      (16 * interruptVectors) := by
  simp only [Within, InterruptTable.gateAddress, interruptVectors] at inside ⊢
  have shifted : (vector <<< 4).toNat = vector.toNat * 16 := by
    rw [BitVec.toNat_shiftLeft, Nat.shiftLeft_eq]
    omega
  have cancelled : table.base + vector <<< 4 + BitVec.ofNat 64 offset - table.base =
      vector <<< 4 + BitVec.ofNat 64 offset := by
    rw [BitVec.add_assoc, BitVec.add_comm, BitVec.add_sub_cancel]
  rw [cancelled, BitVec.toNat_add, shifted, BitVec.toNat_ofNat]
  omega

theorem wp_setGate {machine : Machine} {attributes : BitVec 8}
    (inside : (machine.registers rsi).toNat < interruptVectors) (inRam : table.InRam machine) :
    wp (setGate table attributes) (fun _ after => after.stack = machine.stack ∧
      after.ram = machine.ram ∧ after.memory =
        table.installed machine.memory (machine.registers rsi) (machine.registers rdi) attributes)
      machine := by
  have pointer : machine.ram table.idtPointer = true := by
    apply inRam
    simp [Within]
  have pointerBase : machine.ram (table.idtPointer + 2#64) = true := by
    apply inRam
    left
    simp [Within]
  have address : ∀ offset : Address, offset + table.base + machine.registers rsi <<< 4 =
      table.gateAddress (machine.registers rsi) + offset := by
    intro offset
    rw [BitVec.add_assoc, BitVec.add_comm]
    rfl
  have gate : ∀ offset < 16, machine.ram
      (BitVec.ofNat 64 offset + table.base + machine.registers rsi <<< 4) = true := by
    intro offset below
    rw [address]
    exact inRam _ (Or.inr (within_gateAddress inside below))
  have gate0 : machine.ram (table.base + machine.registers rsi <<< 4) = true := by
    simpa using gate 0 (by decide)
  have gate2 := gate 2 (by decide)
  have gate4 := gate 4 (by decide)
  have gate5 := gate 5 (by decide)
  simp [setGate, Operand.symbol, Machine.effective, pointerBase, Machine.memory_poke, pointer,
    Memory.read_write, gate0, gate2, gate4, gate5]
  rw [InterruptTable.installed, ← write_pointer, ← write_gate, address, address, address]
  rfl

theorem install_eq (request : HandlerCall) :
    install table request = (do
      mov 64 (.imm request.vector) (.reg rsi)
      mov 64 (.imm request.handler) (.reg rdi)
      call (setGate table request.attributes)) := by
  rcases request with ⟨_ | _, vector, handler⟩
  · rfl
  · rfl

theorem wp_install {machine : Machine} {request : HandlerCall}
    (inside : request.vector.toNat < interruptVectors) (inRam : table.InRam machine) :
    wp (install table request) (fun _ after => after.stack = machine.stack ∧
      after.ram = machine.ram ∧ after.memory =
        table.installed machine.memory request.vector request.handler request.attributes)
      machine := by
  rw [install_eq]
  simp only [wp_bind, mov, wp_fetch_imm, wp_assign_reg]
  apply wp_call
  apply (wp_setGate (by simpa using inside) (by simpa [InterruptTable.InRam] using inRam)).mono
  rintro _ after ⟨stack, ram, memory⟩
  exact ⟨stack, rfl, ram, by simpa using memory⟩

/-- A sequence of calls is the sequence of their stores. -/
theorem wp_installAll {requests : List HandlerCall} {machine : Machine}
    (inside : ∀ request ∈ requests, request.vector.toNat < interruptVectors)
    (inRam : table.InRam machine) :
    wp (installAll table requests) (fun _ after => after.stack = machine.stack ∧
      after.memory = requests.foldl (fun memory request =>
        table.installed memory request.vector request.handler request.attributes)
          machine.memory) machine := by
  induction requests generalizing machine with
  | nil => simp [installAll]
  | cons request rest ih =>
      rw [installAll, wp_bind]
      apply (wp_install (inside request (List.mem_cons_self ..)) inRam).mono
      rintro _ between ⟨stack, ram, memory⟩
      have laterInside : ∀ later ∈ rest, later.vector.toNat < interruptVectors :=
        fun later later_mem => inside later (List.mem_cons_of_mem _ later_mem)
      have laterInRam : table.InRam between := by simpa [InterruptTable.InRam, ram] using inRam
      apply (ih laterInside laterInRam).mono
      rintro _ after ⟨laterStack, laterMemory⟩
      rw [laterStack, laterMemory, stack, memory]
      exact ⟨rfl, rfl⟩

/-! ### Which bytes a call writes -/

@[simp]
theorem length_gateBytes (handler : BitVec 64) (attributes : BitVec 8) :
    (gateBytes handler attributes).length = 12 := by
  simp [gateBytes]

theorem InterruptTable.length_scratch (table : InterruptTable) : table.scratch.length = 10 := by
  simp [InterruptTable.scratch]

theorem installed_apply (memory : Memory) (request : HandlerCall) (place : Address) :
    table.installed memory request.vector request.handler request.attributes place =
      (table.writes request place).getD (memory place) := by
  rw [InterruptTable.installed, Memory.store_apply _ _ (by simp),
    Memory.store_apply _ _ (by simp [table.length_scratch]), InterruptTable.writes,
    List.getD_eq_getElem?_getD, List.getD_eq_getElem?_getD]
  cases (gateBytes request.handler request.attributes)[
    (place - table.gateAddress request.vector).toNat]? <;> rfl

theorem toNat_shiftLeft_vector {vector : BitVec 64} (inside : vector.toNat < interruptVectors) :
    (vector <<< 4).toNat = 16 * vector.toNat := by
  simp only [interruptVectors] at inside
  rw [BitVec.toNat_shiftLeft, Nat.shiftLeft_eq]
  omega

theorem gateAddress_sub {vector other : BitVec 64} (inside : vector.toNat < interruptVectors)
    (otherInside : other.toNat < interruptVectors) {offset : ℕ} :
    (table.gateAddress vector + BitVec.ofNat 64 offset - table.gateAddress other).toNat =
      (16 * vector.toNat + offset + (2 ^ 64 - 16 * other.toNat)) % 2 ^ 64 := by
  have moved : table.gateAddress vector + BitVec.ofNat 64 offset - table.gateAddress other =
      vector <<< 4 + BitVec.ofNat 64 offset - other <<< 4 := by
    rw [InterruptTable.gateAddress, InterruptTable.gateAddress, BitVec.add_assoc,
      add_sub_add_left_eq_sub]
  simp only [interruptVectors] at inside otherInside
  rw [moved, BitVec.toNat_sub, BitVec.toNat_add, toNat_shiftLeft_vector inside,
    toNat_shiftLeft_vector otherInside, BitVec.toNat_ofNat]
  omega

theorem eq_of_within_gate {vector other : BitVec 64} (inside : vector.toNat < interruptVectors)
    (otherInside : other.toNat < interruptVectors) {offset : ℕ} (below : offset < 16)
    (within : Within (table.gateAddress vector + BitVec.ofNat 64 offset)
      (table.gateAddress other) 16) : other = vector := by
  rw [Within, gateAddress_sub inside otherInside] at within
  simp only [interruptVectors] at inside otherInside
  apply BitVec.eq_of_toNat_eq
  omega

/-- A call writes no byte outside the scratch and its gate. -/
theorem writes_eq_none {request : HandlerCall} {place : Address}
    (noScratch : ¬Within place table.idtPointer 10)
    (noGate : ¬Within place (table.gateAddress request.vector) 16) :
    table.writes request place = none := by
  simp only [Within, Nat.not_lt] at noScratch noGate
  rw [InterruptTable.writes, List.getElem?_eq_none, List.getElem?_eq_none]
  · rfl
  · rw [table.length_scratch]
    exact noScratch
  · rw [length_gateBytes]
    omega

/-- Of the bytes of a gate a call writes all but the last four, and none if it is for another. -/
theorem writes_gateAddress {request : HandlerCall} {vector : BitVec 64}
    (inside : vector.toNat < interruptVectors)
    (requestInside : request.vector.toNat < interruptVectors) {offset : ℕ} (below : offset < 12) :
    table.writes request (table.gateAddress vector + BitVec.ofNat 64 offset) =
      if request.vector = vector then
        some ((gateBytes request.handler request.attributes).getD offset 0)
      else none := by
  have inEntry : offset < 16 := Nat.lt_trans below (by decide)
  have outside : ¬Within (table.gateAddress vector + BitVec.ofNat 64 offset) table.idtPointer 10 :=
    fun inScratch => table.apart _ inScratch (within_gateAddress inside inEntry)
  by_cases same : request.vector = vector
  · subst same
    have index : (table.gateAddress request.vector + BitVec.ofNat 64 offset -
        table.gateAddress request.vector).toNat = offset := by
      rw [gateAddress_sub inside inside]
      simp only [interruptVectors] at inside
      omega
    have noScratch := List.getElem?_eq_none (table.length_scratch.trans_le (Nat.not_lt.mp outside))
    rw [if_pos rfl, InterruptTable.writes, noScratch, Option.or_none, index,
      List.getD_eq_getElem _ _ (by simpa using below),
      List.getElem?_eq_getElem (by simpa using below)]
  · rw [if_neg same, writes_eq_none outside]
    intro inGate
    exact same (eq_of_within_gate inside requestInside inEntry inGate)

/-- The bytes of a call decode to the gate it asks for, whatever the last four are. -/
theorem decodeGate_gateBytes (request : HandlerCall) (rest : List Byte) :
    decodeGate (gateBytes request.handler request.attributes ++ rest) = request.gate := by
  rcases request with ⟨user, vector, handler⟩
  have whole : valueOf (bytesOf 8 handler.toNat) = handler.toNat := by
    rw [valueOf_bytesOf]
    exact Nat.mod_eq_of_lt handler.isLt
  simp [bytesOf] at whole
  cases user with
  | false =>
      simp [decodeGate, gateBytes, bytesOf, HandlerCall.gate, HandlerCall.attributes, whole]
      rfl
  | true =>
      simp [decodeGate, gateBytes, bytesOf, HandlerCall.gate, HandlerCall.attributes, whole]
      rfl

theorem gateAt_of_gateBytes {memory : Memory} {address : Address} {request : HandlerCall}
    (bytes : ∀ offset < 12, memory (address + BitVec.ofNat 64 offset) =
      (gateBytes request.handler request.attributes).getD offset 0) :
    gateAt memory address = request.gate := by
  have loaded : memory.load address (gateBytes request.handler request.attributes).length = _ :=
    Memory.load_eq_of_bytes (by simpa using bytes)
  rw [length_gateBytes] at loaded
  rw [gateAt, Memory.load_add memory address 12 4, loaded, decodeGate_gateBytes]

theorem foldl_installed (memory : Memory) (requests : List HandlerCall) (place : Address) :
    requests.foldl (fun memory request =>
        table.installed memory request.vector request.handler request.attributes) memory place =
      (lastWrite (table.writes · place) requests).getD (memory place) :=
  @observe_foldl_of_steps Memory HandlerCall Byte (· place) _ _
    (fun memory request => installed_apply memory request place) memory requests

/--
For every sequence of calls for vectors of the table: the gate of each vector is the one its last
call asks for, and no byte outside the scratch and the gates of these vectors has changed.
-/
theorem wp_installAll_gates {requests : List HandlerCall} {machine : Machine}
    (inside : ∀ request ∈ requests, request.vector.toNat < interruptVectors)
    (inRam : table.InRam machine) :
    wp (installAll table requests) (fun _ after =>
      (∀ vector : BitVec 64, vector.toNat < interruptVectors →
        (∀ request, lastFor requests vector = some request →
          gateAt after.memory (table.gateAddress vector) = request.gate) ∧
        (lastFor requests vector = none → ∀ offset < 16,
          after.memory (table.gateAddress vector + BitVec.ofNat 64 offset) =
            machine.memory (table.gateAddress vector + BitVec.ofNat 64 offset))) ∧
      (∀ place, ¬Within place table.idtPointer 10 →
        (∀ request ∈ requests, ¬Within place (table.gateAddress request.vector) 16) →
        after.memory place = machine.memory place) ∧
      after.stack = machine.stack) machine := by
  apply (wp_installAll inside inRam).mono
  rintro _ after ⟨stack, memory⟩
  have elsewhere : ∀ place, ¬Within place table.idtPointer 10 →
      (∀ request ∈ requests, ¬Within place (table.gateAddress request.vector) 16) →
      after.memory place = machine.memory place := by
    intro place noScratch noGate
    rw [memory, foldl_installed, lastWrite_eq_none_iff.mpr]
    · rfl
    · intro request request_mem
      exact writes_eq_none noScratch (noGate request request_mem)
  refine ⟨?_, elsewhere, stack⟩
  intro vector vectorInside
  constructor
  · intro request last
    apply gateAt_of_gateBytes
    intro offset below
    rw [memory, foldl_installed, lastWrite_of_ite fun earlier earlier_mem =>
      writes_gateAddress vectorInside (inside earlier earlier_mem) below]
    rw [lastFor] at last
    rw [last]
    rfl
  · intro unnamed offset below
    apply elsewhere
    · exact fun inScratch => table.apart _ inScratch (within_gateAddress vectorInside below)
    · intro request request_mem inGate
      have named := eq_of_within_gate vectorInside (inside request request_mem) below inGate
      rw [lastFor, List.getLast?_eq_none_iff, List.filter_eq_nil_iff] at unnamed
      exact unnamed request request_mem (by simpa using named)

/-- A handler for users is replaced by one that is not, with the next gate left alone. -/
theorem wp_installAll_gates_twice : ∃ table : InterruptTable,
    wp (installAll table [⟨true, 3, 0xfffffff810001234⟩, ⟨false, 3, 0xfffffff810005678⟩])
      (fun _ after =>
        gateAt after.memory (table.gateAddress 3) = ⟨0xfffffff810005678, 0x28, 0, 0xe, 0, true⟩ ∧
          after.memory (table.gateAddress 4) = 7)
      { registers := fun _ => 0, ram := fun _ => true, memory := fun _ => 7 } := by
  refine ⟨⟨0x12340, 0x4ff, 0xfffffff800000000, ?_⟩, ?_⟩
  · intro place inScratch inTable
    simp only [Within, interruptVectors] at inScratch inTable
    bv_omega
  · apply (wp_installAll_gates (by decide) (fun _ _ => rfl)).mono
    rintro _ after ⟨gates, _, _⟩
    refine ⟨(gates 3 (by decide)).1 _ rfl, ?_⟩
    simpa using (gates 4 (by decide)).2 rfl 0 (by decide)

end VirtLearn.Guest
