import VirtLearn.Guest.Interrupts
import VirtLearn.Guest.SystemDescriptor
import VirtLearn.Machine.Paging

/-!
# The processor in 64-bit mode

The instructions of the guest's kernel that routines of a `Machine` leave out: those on segment
registers, on the registers that tell where the tables of the processor are, and the far return to
a less privileged level. Each checks what the processor checks, and has no result where it faults.

The memory of the machine is the one behind the page tables, and its stack begins below `stackTop`.
That these instructions mark the descriptors that they load as accessed is left out: no check
depends on this bit (`SegmentDescriptor.accessed`), but what is said of the bytes of the tables
until user mode begins is said of them without the marks. What comes then is up to the marks
(`Marked`).
-/

namespace VirtLearn.Guest

open Assembly Register

/-- `GDTR` or `IDTR`. -/
structure TableRegister where
  limit : BitVec 16
  base : Address
deriving DecidableEq

/-- `TR`, with what the processor keeps of the descriptor. -/
structure TaskRegister where
  selector : BitVec 16
  base : Address
  limit : ℕ

inductive Segment where
  | cs | ds | es | ss
deriving DecidableEq

structure Processor where
  machine : Machine
  gdtr : TableRegister
  idtr : TableRegister
  tr : Option TaskRegister := none
  selectors : Segment → BitVec 16
  stackTop : Address
  interruptFlag : Bool := false
  msrs : BitVec 32 → BitVec 64

/-- Instructions that take the processor from one state to another, or fault. -/
abbrev Privileged :=
  StateT Processor Option

/-- What the processor reads from the 8 bytes of a descriptor of code or data. -/
structure SegmentDescriptor where
  type : BitVec 4
  segment : Bool
  dpl : BitVec 2
  present : Bool
  long : Bool
  big : Bool
deriving DecidableEq

namespace SegmentDescriptor

def ofBits (bits : BitVec 64) : SegmentDescriptor where
  type := bits.extractLsb' 40 4
  segment := bits.getLsbD 44
  dpl := bits.extractLsb' 45 2
  present := bits.getLsbD 47
  long := bits.getLsbD 53
  big := bits.getLsbD 54

/-- The descriptor with the mark that the processor sets when it loads it. -/
def accessed (descriptor : SegmentDescriptor) : SegmentDescriptor :=
  { descriptor with type := descriptor.type ||| 1 }

theorem accessed_ofBits (bits : BitVec 64) :
    (ofBits bits).accessed = ofBits (bits ||| 0x10000000000#64) := by
  have others : ∀ bit : ℕ, (0x10000000000#64).getLsbD bit = false →
      (bits ||| 0x10000000000#64).getLsbD bit = bits.getLsbD bit := by
    intro bit unset
    rw [BitVec.getLsbD_or, unset, Bool.or_false]
  have level : (0x10000000000#64).extractLsb' 45 2 = 0#2 := by decide
  have type : (0x10000000000#64).extractLsb' 40 4 = 1#4 := by decide
  rw [accessed, ofBits, ofBits, others 44 (by decide), others 47 (by decide),
    others 53 (by decide), others 54 (by decide), BitVec.extractLsb'_or, BitVec.extractLsb'_or,
    level, type, BitVec.or_zero]
  rfl

def code (descriptor : SegmentDescriptor) : Bool :=
  descriptor.segment && descriptor.type.getLsbD 3

def conforming (descriptor : SegmentDescriptor) : Bool :=
  descriptor.code && descriptor.type.getLsbD 2

/-- Bit 1 of the type says of data whether it may be written, and of code whether it may be read. -/
def readable (descriptor : SegmentDescriptor) : Bool :=
  descriptor.segment && (!descriptor.type.getLsbD 3 || descriptor.type.getLsbD 1)

def writable (descriptor : SegmentDescriptor) : Bool :=
  descriptor.segment && !descriptor.type.getLsbD 3 && descriptor.type.getLsbD 1

end SegmentDescriptor

/-- The selector names no descriptor. -/
def IsNull (selector : BitVec 16) : Prop :=
  selector &&& 0xfffc = 0

instance (selector : BitVec 16) : Decidable (IsNull selector) :=
  inferInstanceAs (Decidable (_ = _))

def rpl (selector : BitVec 16) : BitVec 2 :=
  selector.setWidth 2

namespace TableRegister

/-- The descriptor that a selector names: there is no local table, and none behind the limit. -/
def descriptor (gdtr : TableRegister) (memory : Memory) (selector : BitVec 16) :
    Option SegmentDescriptor :=
  if selector.getLsbD 2 ∨ gdtr.limit.toNat < (selector &&& 0xfff8).toNat + 7 then none
  else
    some (.ofBits (memory.read 64 (gdtr.base + (selector &&& 0xfff8).setWidth 64)))

end TableRegister

namespace Processor

def cpl (processor : Processor) : BitVec 2 :=
  rpl (processor.selectors .cs)

def select (processor : Processor) (segment : Segment) (selector : BitVec 16) : Processor :=
  { processor with selectors := Function.update processor.selectors segment selector }

end Processor

/-- `bts`: the bit goes to the carry flag, and is set. -/
def bts (width bit : ℕ) (destination : Operand width) : Routine Unit := do
  let value ← fetch destination
  let machine ← get
  assign destination (value ||| BitVec.twoPow width bit)
  setFlags machine.zf (value.getLsbD bit)

/-- A routine of the machine. -/
def onMachine {α : Type} (routine : Routine α) : Privileged α := fun processor =>
  (routine processor.machine).map fun (value, machine) => (value, { processor with machine })

section Instructions

/-- `mov %ax` to a segment register for data. -/
def loadData (segment : Segment) : Privileged Unit := do
  let processor ← get
  let selector := processor.machine.get 16 rax
  if IsNull selector then set (processor.select segment selector)
  else
    match processor.gdtr.descriptor processor.machine.memory selector with
    | none => failure
    | some descriptor =>
        if descriptor.readable ∧ descriptor.present ∧
            (descriptor.conforming ∨
              rpl selector ≤ descriptor.dpl ∧ processor.cpl ≤ descriptor.dpl) then
          set (processor.select segment selector)
        else failure

/-- `mov %ax,%ss`. -/
def loadStack : Privileged Unit := do
  let processor ← get
  let selector := processor.machine.get 16 rax
  if IsNull selector then
    if processor.cpl = 3 ∨ rpl selector ≠ processor.cpl then failure
    else set (processor.select .ss selector)
  else
    match processor.gdtr.descriptor processor.machine.memory selector with
    | none => failure
    | some descriptor =>
        if descriptor.writable ∧ descriptor.present ∧ rpl selector = processor.cpl ∧
            descriptor.dpl = processor.cpl then
          set (processor.select .ss selector)
        else failure

/-- `mov` of a constant to `rsp`: another stack, of which nothing is known. -/
def movRsp (top : Address) : Privileged Unit :=
  modify fun processor =>
    { processor with machine := processor.machine.withStack [], stackTop := top }

/-- `lgdt` and `lidt` read the limit and the base behind it. -/
def readTable (address : Address) : Privileged TableRegister := do
  let limit : BitVec 16 ← onMachine (fetch (.symbol address))
  let base : BitVec 64 ← onMachine (fetch (.symbol (address + 2)))
  if Paging.Canonical base then return { limit, base } else failure

def lgdt (pointer : Register) : Privileged Unit := do
  let gdtr ← readTable ((← get).machine.registers pointer)
  modify fun processor => { processor with gdtr }

def lidt (pointer : Register) : Privileged Unit := do
  let idtr ← readTable ((← get).machine.registers pointer)
  modify fun processor => { processor with idtr }

def cli : Privileged Unit :=
  modify fun processor => { processor with interruptFlag := false }

def sti : Privileged Unit :=
  modify fun processor => { processor with interruptFlag := true }

/-- `ltr %ax` marks the descriptor of an available task state segment as busy. -/
def ltr : Privileged Unit := do
  let processor ← get
  let memory := processor.machine.memory
  let selector := processor.machine.get 16 rax
  let address := processor.gdtr.base + (selector &&& 0xfff8).setWidth 64
  let descriptor := descriptorAt memory address
  if IsNull selector ∨ selector.getLsbD 2 ∨
      processor.gdtr.limit.toNat < (selector &&& 0xfff8).toNat + 15 then failure
  else if !descriptor.system ∨ descriptor.type ≠ 0x9 ∨ (memory (address + 13)).setWidth 5 ≠ 0#5 ∨
      !descriptor.present ∨ ¬Paging.Canonical descriptor.base then failure
  else
    set { processor with
      machine := processor.machine.poke (address + 5) (memory (address + 5) ||| 0x2)
      tr := some { selector, base := descriptor.base, limit := descriptor.limit } }

/-- `wrmsr`; which values the registers take is not checked. -/
def wrmsr : Privileged Unit := do
  let processor ← get
  let value : BitVec 64 := processor.machine.get 32 rdx ++ processor.machine.get 32 rax
  set { processor with
    msrs := Function.update processor.msrs (processor.machine.get 32 rcx) value }

def readMsr : Privileged Unit := do
  onMachine (rdmsr (← get).msrs)

/-- Call instructions that are not all of the machine. -/
def callPrivileged (code : Privileged Unit) : Privileged Unit := do
  onMachine (modify fun machine => machine.withStack (.returnAddress :: machine.stack))
  code
  let processor ← get
  match processor.machine.stack with
  | .returnAddress :: rest =>
      set { processor with machine := processor.machine.withStack rest }
  | _ => failure

/-- `push` of a constant, which is extended with its sign. -/
def pushImm (value : BitVec 32) : Routine Unit :=
  modify fun machine => machine.withStack (.word (value.signExtend 64) :: machine.stack)

/-- Where `retfq` to a less privileged level goes. -/
structure Entry where
  rip : Address
  cs : BitVec 16
  rsp : Address
  ss : BitVec 16
deriving DecidableEq

/-- `retfq` to 64-bit code of a less privileged level. Data segments that this level may not use
are given up. -/
def retfqOuter : Privileged Entry := do
  let processor ← get
  match processor.machine.stack with
  | .word rip :: .word cs :: .word rsp :: .word ss :: _ =>
      let entry : Entry := { rip, cs := cs.setWidth 16, rsp, ss := ss.setWidth 16 }
      let table := processor.gdtr.descriptor processor.machine.memory
      match table entry.cs, table entry.ss with
      | some code, some stack =>
          let level := rpl entry.cs
          let given := fun segment =>
            let selector := processor.selectors segment
            if segment = .cs then entry.cs
            else if segment = .ss then entry.ss
            else if (table selector).any fun data => !data.conforming && data.dpl < level then 0
            else selector
          if IsNull entry.cs ∨ IsNull entry.ss ∨ level ≤ processor.cpl then failure
          else if !code.code ∨ !code.present ∨ !code.long ∨ code.big ∨
              (if code.conforming then level < code.dpl else code.dpl ≠ level) then failure
          else if !stack.writable ∨ !stack.present ∨ rpl entry.ss ≠ level ∨
              stack.dpl ≠ level then failure
          else if ¬Paging.Canonical rip then failure
          else
            set { processor with
              machine := processor.machine.withStack []
              selectors := given
              stackTop := rsp }
            return entry
      | _, _ => failure
  | _ => failure

end Instructions

/-! ### Rules -/

/-- The instructions end in a state that meets the postcondition. -/
def wpPrivileged {α : Type} (code : Privileged α) (post : α → Processor → Prop)
    (processor : Processor) : Prop :=
  ∃ value after, code processor = some (value, after) ∧ post value after

section Rules

variable {α : Type} {β : Type} {processor : Processor} {post : Unit → Processor → Prop}

theorem wpPrivileged_iff_of_ends {code : Privileged α} {post : α → Processor → Prop} {value : α}
    {after : Processor} (ends : code processor = some (value, after)) :
    wpPrivileged code post processor ↔ post value after := by
  rw [wpPrivileged, ends]
  constructor
  · rintro ⟨_, _, same, met⟩
    cases same
    exact met
  · intro met
    exact ⟨value, after, rfl, met⟩

theorem wpPrivileged.mono {code : Privileged α} {post weaker : α → Processor → Prop}
    (holds : wpPrivileged code post processor)
    (weakens : ∀ value after, post value after → weaker value after) :
    wpPrivileged code weaker processor := by
  rcases holds with ⟨value, after, ends, met⟩
  exact ⟨value, after, ends, weakens value after met⟩

@[simp]
theorem wpPrivileged_pure (value : α) (post : α → Processor → Prop) :
    wpPrivileged (pure value) post processor ↔ post value processor :=
  wpPrivileged_iff_of_ends rfl

@[simp]
theorem wpPrivileged_bind (first : Privileged α) (second : α → Privileged β)
    (post : β → Processor → Prop) :
    wpPrivileged (first >>= second) post processor ↔
      wpPrivileged first (fun value after => wpPrivileged (second value) post after)
        processor := by
  simp only [wpPrivileged, bind, StateT.bind, Option.bind_eq_some_iff]
  constructor
  · rintro ⟨value, after, ⟨⟨middle, between⟩, begins, ends⟩, met⟩
    exact ⟨middle, between, begins, value, after, ends, met⟩
  · rintro ⟨middle, between, begins, value, after, ends, met⟩
    exact ⟨value, after, ⟨⟨middle, between⟩, begins, ends⟩, met⟩

@[simp]
theorem wpPrivileged_get (post : Processor → Processor → Prop) :
    wpPrivileged get post processor ↔ post processor processor :=
  wpPrivileged_iff_of_ends rfl

@[simp]
theorem wpPrivileged_set (next : Processor) (post : PUnit → Processor → Prop) :
    wpPrivileged (set next) post processor ↔ post ⟨⟩ next :=
  wpPrivileged_iff_of_ends rfl

@[simp]
theorem wpPrivileged_modify (change : Processor → Processor) (post : PUnit → Processor → Prop) :
    wpPrivileged (modify change) post processor ↔ post ⟨⟩ (change processor) :=
  wpPrivileged_iff_of_ends rfl

@[simp]
theorem wpPrivileged_onMachine (routine : Routine α) (post : α → Processor → Prop) :
    wpPrivileged (onMachine routine) post processor ↔
      wp routine (fun value machine => post value { processor with machine })
        processor.machine := by
  simp only [wpPrivileged, onMachine, wp, Option.map_eq_some_iff]
  constructor
  · rintro ⟨_, _, ⟨⟨value, machine⟩, ends, same⟩, met⟩
    cases same
    exact ⟨value, machine, ends, met⟩
  · rintro ⟨value, machine, ends, met⟩
    exact ⟨value, { processor with machine }, ⟨(value, machine), ends, rfl⟩, met⟩

end Rules

end VirtLearn.Guest
