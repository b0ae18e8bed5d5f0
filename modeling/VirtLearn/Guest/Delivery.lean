import VirtLearn.Guest.Handlers
import VirtLearn.Guest.Processor
import VirtLearn.Machine.Faults

/-!
# How the processor enters a handler

What the processor does with an event in 64-bit mode: it reads the gate, the descriptor of its code
segment and, for a more privileged level, the stack of that level in the task state segment, and
pushes the frame. Each check has its fault, and faults are delivered in turn.

Once the tables are in place, every event ends in a handler (`deliver_of_ready`): in its own, in the
one of `#GP` where the gate is empty or behind the table, or in the one of `#DF`.
-/

namespace VirtLearn.Guest

open Assembly Register Paging

/-- The state in which a handler begins. -/
structure Entered where
  rip : Address
  cs : BitVec 16
  ss : BitVec 16
  rflags : BitVec 64
  rsp : Address
  frame : List (BitVec 64)

/-- Bit 0 of the error codes: the event came from outside the program. -/
def ext (event : Event) : BitVec 32 :=
  if event.source = .software then 0 else 1

def protection (error : BitVec 32) : Event :=
  .exception 0xd error

def pageFault (error : BitVec 32) : Event :=
  .exception 0xe error

def gateError (event : Event) : BitVec 32 :=
  event.vector.setWidth 32 * 8 + 2 + ext event

def selectorError (selector : BitVec 16) (event : Event) : BitVec 32 :=
  (selector &&& 0xfffc).setWidth 32 + ext event

/-- `IF` is cleared by an interrupt gate, and `TF`, `NT`, `RF` and `VM` by each gate. -/
def enteredFlags (gate : Gate) (rflags : BitVec 64) : BitVec 64 :=
  if gate.type = 0xe then rflags &&& ~~~0x34300 else rflags &&& ~~~0x34100

/-- The words that a handler finds, from the top of its stack on. -/
def pushed (context : Interrupted) (event : Event) : List (BitVec 64) :=
  event.error.toList.map (·.setWidth 64) ++
    [context.rip, context.cs, context.rflags, context.rsp, context.ss]

namespace Processor

variable (processor : Processor) (context : Interrupted) (event : Event)

def mapped (base : Address) (count : ℕ) : Bool :=
  (List.range count).all fun offset => processor.machine.ram (base + BitVec.ofNat 64 offset)

def gatePlace (vector : ℕ) : Address :=
  processor.idtr.base + BitVec.ofNat 64 (16 * vector)

def readGate : Except Event Gate :=
  let address := processor.gatePlace event.vector.toNat
  let memory := processor.machine.memory
  let gate := gateAt memory address
  if processor.idtr.limit.toNat < 16 * event.vector.toNat + 15 then
    .error (protection (gateError event))
  else if !processor.mapped address 16 then .error (pageFault 0)
  else if (memory (address + 5)).getLsbD 4 ∨ gate.type ≠ 0xe ∧ gate.type ≠ 0xf then
    .error (protection (gateError event))
  else if event.source = .software ∧ gate.dpl < context.cs.setWidth 2 then
    .error (protection (gateError event))
  else if !gate.present then .error (.exception 0xb (gateError event))
  else .ok gate

/-- A more privileged level has its stack pointer in the task state segment. -/
def handlerStack (gate : Gate) (level : BitVec 2) (inner : Bool) : Except Event Address :=
  if inner ∨ gate.ist ≠ 0 then
    let offset := if gate.ist = 0 then 4 + 8 * level.toNat else 28 + 8 * gate.ist.toNat
    match processor.tr with
    | none => .error (.exception 0xa (selectorError 0 event))
    | some task =>
        let place := task.base + BitVec.ofNat 64 offset
        if task.limit < offset + 7 then
          .error (.exception 0xa (selectorError task.selector event))
        else if !processor.mapped place 8 then .error (pageFault 0)
        else .ok (processor.machine.memory.read 64 place)
  else .ok context.rsp

/-- The frame goes on the stack, and the handler begins. -/
def enter (gate : Gate) (level : BitVec 2) (inner : Bool) (stack : Address) :
    Except Event Entered :=
  let frame := pushed context event
  let rsp := (stack &&& ~~~0xf) - BitVec.ofNat 64 (8 * frame.length)
  if ¬Canonical stack then .error (.exception 0xc (ext event))
  else if !processor.mapped rsp (8 * frame.length) then .error (pageFault 0x2)
  else if ¬Canonical gate.offset then .error (protection (ext event))
  else
    .ok
      { rip := gate.offset
        cs := (gate.selector &&& 0xfffc) ||| level.setWidth 16
        ss := if inner then level.setWidth 16 else context.ss.setWidth 16
        rflags := enteredFlags gate context.rflags
        rsp
        frame }

/-- One attempt to deliver an event. -/
def attempt : Except Event Entered :=
  match processor.readGate context event with
  | .error fault => .error fault
  | .ok gate =>
      let cpl : BitVec 2 := context.cs.setWidth 2
      let place := processor.gdtr.base + (gate.selector &&& 0xfff8).setWidth 64
      if IsNull gate.selector then .error (protection (ext event))
      else
        match processor.gdtr.descriptor processor.machine.memory gate.selector with
        | none => .error (protection (selectorError gate.selector event))
        | some code =>
            let inner := !code.conforming && code.dpl < cpl
            let level := if inner then code.dpl else cpl
            if !processor.mapped place 8 then .error (pageFault 0)
            else if !code.code ∨ !code.long ∨ code.big ∨ cpl < code.dpl then
              .error (protection (selectorError gate.selector event))
            else if !code.present then .error (.exception 0xb (selectorError gate.selector event))
            else
              match processor.handlerStack context event gate level inner with
              | .error fault => .error fault
              | .ok stack => processor.enter context event gate level inner stack

end Processor

/-! ### Faults -/

section Faults

variable {processor : Processor} {context : Interrupted} {event fault : Event}

/-- The exceptions that the checks of a delivery raise. -/
def deliveryFaults : List (BitVec 8) :=
  [0xa, 0xb, 0xc, 0xd, 0xe]

theorem fromDelivery_exception {vector : BitVec 8} {error : BitVec 32}
    (raised : vector ∈ deliveryFaults) : (Event.exception vector error).FromDelivery := by
  simp only [deliveryFaults, List.mem_cons, List.not_mem_nil, or_false] at raised
  rcases raised with rfl | rfl | rfl | rfl | rfl
  · exact Or.inl rfl
  · exact Or.inl rfl
  · exact Or.inl rfl
  · exact Or.inl rfl
  · exact Or.inr rfl

/-- A check that raises its fault, in front of others. -/
theorem fromDelivery_ite {α : Type} {condition : Prop} [Decidable condition] {first : Event}
    {rest : Except Event α} (checked : first.FromDelivery)
    (others : rest = .error fault → fault.FromDelivery)
    (raised : (if condition then .error first else rest) = .error fault) : fault.FromDelivery := by
  split at raised
  case isTrue =>
    cases raised
    exact checked
  case isFalse => exact others raised

theorem fromDelivery_readGate (raised : processor.readGate context event = .error fault) :
    fault.FromDelivery := by
  refine fromDelivery_ite (fromDelivery_exception (by decide)) ?_ raised
  refine fromDelivery_ite (fromDelivery_exception (by decide)) ?_
  refine fromDelivery_ite (fromDelivery_exception (by decide)) ?_
  refine fromDelivery_ite (fromDelivery_exception (by decide)) ?_
  refine fromDelivery_ite (fromDelivery_exception (by decide)) ?_
  intro ended
  cases ended

theorem fromDelivery_handlerStack {gate : Gate} {level : BitVec 2} {inner : Bool}
    (raised : processor.handlerStack context event gate level inner = .error fault) :
    fault.FromDelivery := by
  rw [Processor.handlerStack] at raised
  split at raised
  case isFalse => cases raised
  case isTrue =>
    cases loaded : processor.tr with
    | none =>
        rw [loaded] at raised
        cases raised
        exact fromDelivery_exception (by decide)
    | some task =>
        rw [loaded] at raised
        refine fromDelivery_ite (fromDelivery_exception (by decide)) ?_ raised
        refine fromDelivery_ite (fromDelivery_exception (by decide)) ?_
        intro ended
        cases ended

theorem fromDelivery_enter {gate : Gate} {level : BitVec 2} {inner : Bool} {stack : Address}
    (raised : processor.enter context event gate level inner stack = .error fault) :
    fault.FromDelivery := by
  refine fromDelivery_ite (fromDelivery_exception (by decide)) ?_ raised
  refine fromDelivery_ite (fromDelivery_exception (by decide)) ?_
  refine fromDelivery_ite (fromDelivery_exception (by decide)) ?_
  intro ended
  cases ended

theorem fromDelivery_attempt (event fault : Event)
    (raised : processor.attempt context event = .error fault) : fault.FromDelivery := by
  rw [Processor.attempt] at raised
  cases found : processor.readGate context event with
  | error early =>
      rw [found] at raised
      cases raised
      exact fromDelivery_readGate found
  | ok gate =>
      rw [found] at raised
      refine fromDelivery_ite (fromDelivery_exception (by decide)) ?_ raised
      intro raised
      split at raised
      case h_1 =>
        cases raised
        exact fromDelivery_exception (by decide)
      case h_2 =>
        refine fromDelivery_ite (fromDelivery_exception (by decide)) ?_ raised
        refine fromDelivery_ite (fromDelivery_exception (by decide)) ?_
        refine fromDelivery_ite (fromDelivery_exception (by decide)) ?_
        intro raised
        split at raised
        case h_1 found =>
          cases raised
          exact fromDelivery_handlerStack found
        case h_2 => exact fromDelivery_enter raised

end Faults

/-! ### With the tables in place -/

/-- The descriptor of the kernel's 64-bit code. -/
def kernelCode : SegmentDescriptor where
  type := 0x8
  segment := true
  dpl := 0
  present := true
  long := true
  big := false

/-- A frame fits on the stack. -/
def Room (processor : Processor) (stack : Address) : Prop :=
  Canonical stack ∧ ∀ depth : ℕ, 0 < depth → depth ≤ 48 →
    processor.machine.ram ((stack &&& ~~~0xf) - BitVec.ofNat 64 depth) = true

/-- The descriptor says what the kernel's code says, whether it has been loaded or not. -/
theorem kernelCode_of_accessed {code : SegmentDescriptor}
    (same : code.accessed = kernelCode.accessed) :
    code = kernelCode ∨ code = kernelCode.accessed := by
  rcases code with ⟨type, segment, dpl, present, long, big⟩
  simp only [SegmentDescriptor.accessed, kernelCode, SegmentDescriptor.mk.injEq] at same ⊢
  rcases same with ⟨marked, rfl, rfl, rfl, rfl, rfl⟩
  have either : type = 0x8 ∨ type = 0x8 ||| 1 := by
    revert type
    decide
  simpa using either

/--
The gates are those that some calls have installed, the kernel's code is in the table of segments,
and the task state segment has a stack for it.
-/
structure TablesServing (processor : Processor) (calls : List HandlerCall) (rsp0 : Address) :
    Prop where
  limit : processor.idtr.limit.toNat = 16 * interruptVectors - 1
  gatesMapped : ∀ vector < interruptVectors,
    processor.mapped (processor.gatePlace vector) 16 = true
  inside : ∀ call ∈ calls, call.vector.toNat < interruptVectors
  installed : ∀ (vector : BitVec 8) (call : HandlerCall),
    lastFor calls (vector.setWidth 64) = some call →
      gateAt processor.machine.memory (processor.gatePlace vector.toNat) =
          call.gate ∧
        (processor.machine.memory (processor.gatePlace vector.toNat + 5)).getLsbD 4 = false
  empty : ∀ vector : BitVec 8, vector.toNat < interruptVectors →
    lastFor calls (vector.setWidth 64) = none →
      (gateAt processor.machine.memory (processor.gatePlace vector.toNat)).type = 0
  canonical : ∀ call ∈ calls, Canonical call.handler
  segment : ∃ code, processor.gdtr.descriptor processor.machine.memory 0x28 = some code ∧
    code.accessed = kernelCode.accessed
  codeMapped : processor.mapped (processor.gdtr.base + 0x28) 8 = true
  task : ∃ task, processor.tr = some task ∧ 11 ≤ task.limit ∧
    processor.mapped (task.base + 4) 8 = true ∧
      processor.machine.memory.read 64 (task.base + 4) = rsp0
  room : Room processor rsp0

/-- As the kernel makes them, before the processor loads the kernel's code from there. -/
structure TablesReady (processor : Processor) (calls : List HandlerCall) (rsp0 : Address) : Prop
    extends TablesServing processor calls rsp0 where
  code : processor.gdtr.descriptor processor.machine.memory 0x28 = some kernelCode

/-- The event comes from user mode, or from the kernel with room on its stack. -/
def MayInterrupt (processor : Processor) (context : Interrupted) : Prop :=
  context.cs.setWidth 2 = (3 : BitVec 2) ∨
    context.cs.setWidth 2 = (0 : BitVec 2) ∧ Room processor context.rsp

/-- The call whose gate an event may use: `INT n` is subject to the level of the gate. -/
def handledBy (calls : List HandlerCall) (context : Interrupted) (event : Event) :
    Option HandlerCall :=
  (lastFor calls (event.vector.setWidth 64)).filter fun call =>
    !(decide (event.source = .software) && decide (call.gate.dpl < context.cs.setWidth 2))

/-- The state in which the handler of a call begins. -/
def enteredBy (rsp0 : Address) (context : Interrupted) (event : Event) (call : HandlerCall) :
    Entered :=
  let user := context.cs.setWidth 2 = (3 : BitVec 2)
  let stack := if user then rsp0 else context.rsp
  { rip := call.handler
    cs := 0x28
    ss := if user then 0 else context.ss.setWidth 16
    rflags := context.rflags &&& ~~~0x34300
    rsp := (stack &&& ~~~0xf) - BitVec.ofNat 64 (8 * (pushed context event).length)
    frame := pushed context event }

section Ready

variable {processor : Processor} {context : Interrupted} {event : Event} {calls : List HandlerCall}
  {rsp0 : Address} {call : HandlerCall}

theorem length_pushed_le (context : Interrupted) (event : Event) :
    (pushed context event).length ≤ 6 := by
  cases event.error <;> simp [pushed]

theorem mem_of_lastFor {vector : BitVec 64} (last : lastFor calls vector = some call) :
    call ∈ calls ∧ call.vector = vector := by
  have mem := List.mem_of_getLast? last
  rw [List.mem_filter] at mem
  exact ⟨mem.1, by simpa using mem.2⟩

theorem Room.mapped {stack : Address} (room : Room processor stack) {count : ℕ}
    (fits : count ≤ 48) :
    processor.mapped ((stack &&& ~~~0xf) - BitVec.ofNat 64 count) count = true := by
  rw [Processor.mapped, List.all_eq_true]
  intro offset listed
  rw [List.mem_range] at listed
  have place : (stack &&& ~~~0xf) - BitVec.ofNat 64 count + BitVec.ofNat 64 offset =
      (stack &&& ~~~0xf) - BitVec.ofNat 64 (count - offset) := by
    generalize stack &&& ~~~0xf = top
    bv_omega
  rw [place]
  exact room.2 _ (by omega) (by omega)

theorem gate_dpl (call : HandlerCall) : call.gate.type = 0xe ∧ call.gate.present = true ∧
    call.gate.ist = 0 ∧ call.gate.selector = 0x28 ∧ call.gate.offset = call.handler :=
  ⟨rfl, rfl, rfl, rfl, rfl⟩

theorem readGate_of_handled (ready : TablesServing processor calls rsp0)
    (handled : handledBy calls context event = some call) :
    processor.readGate context event = .ok call.gate := by
  rcases Option.filter_eq_some_iff.mp handled with ⟨last, admitted⟩
  rcases mem_of_lastFor last with ⟨mem, vector⟩
  have inside := ready.inside call mem
  have bound := event.vector.isLt
  rw [vector, BitVec.toNat_setWidth, Nat.mod_eq_of_lt (by omega)] at inside
  have within : ¬processor.idtr.limit.toNat < 16 * event.vector.toNat + 15 := by
    rw [ready.limit]
    omega
  rcases ready.installed event.vector call last with ⟨gate, system⟩
  have gateMapped := ready.gatesMapped event.vector.toNat inside
  simp only [Bool.not_eq_true', Bool.and_eq_false_iff, decide_eq_false_iff_not] at admitted
  have allowed : ¬(event.source = .software ∧ call.gate.dpl < context.cs.setWidth 2) := by
    rintro ⟨software, below⟩
    rcases admitted with other | other
    · exact other software
    · exact other below
  simp only [Processor.readGate, within, gateMapped, gate, system, allowed, gate_dpl, if_false,
    Bool.not_true, Bool.false_eq_true, ne_eq, not_true_eq_false, false_and, or_self]

theorem readGate_of_unhandled (ready : TablesServing processor calls rsp0)
    (unhandled : handledBy calls context event = none) :
    processor.readGate context event = .error (protection (gateError event)) := by
  by_cases inside : event.vector.toNat < interruptVectors
  · have within : ¬processor.idtr.limit.toNat < 16 * event.vector.toNat + 15 := by
      rw [ready.limit]
      omega
    have gateMapped := ready.gatesMapped event.vector.toNat inside
    cases last : lastFor calls (event.vector.setWidth 64) with
    | none =>
        have type := ready.empty event.vector inside last
        have refused : (processor.machine.memory
              (processor.gatePlace event.vector.toNat + 5)).getLsbD 4 = true ∨
            (0 : BitVec 4) ≠ 0xe ∧ (0 : BitVec 4) ≠ 0xf := Or.inr (by decide)
        simp only [Processor.readGate, within, gateMapped, type, refused, if_true, if_false,
          Bool.not_true, Bool.false_eq_true]
    | some call =>
        rcases ready.installed event.vector call last with ⟨gate, system⟩
        have refused : event.source = .software ∧ call.gate.dpl < context.cs.setWidth 2 := by
          simpa [handledBy, last] using unhandled
        simp only [Processor.readGate, within, gateMapped, gate, system, refused, gate_dpl,
          if_false, if_true, Bool.not_true, Bool.false_eq_true, ne_eq, not_true_eq_false,
          false_and, or_self, and_self]
  · have behind : processor.idtr.limit.toNat < 16 * event.vector.toNat + 15 := by
      rw [ready.limit]
      simp only [interruptVectors] at inside ⊢
      omega
    simp only [Processor.readGate, behind, if_true]

/-- On a stack with room the handler of a gate begins. -/
theorem enter_of_room {stack : Address} (room : Room processor stack)
    (canonical : Canonical call.handler) (inner : Bool) :
    processor.enter context event call.gate 0 inner stack =
      .ok
        { rip := call.handler
          cs := 0x28
          ss := if inner then 0 else context.ss.setWidth 16
          rflags := context.rflags &&& ~~~0x34300
          rsp := (stack &&& ~~~0xf) - BitVec.ofNat 64 (8 * (pushed context event).length)
          frame := pushed context event } := by
  have sixth := length_pushed_le context event
  have mapped := room.mapped (show 8 * (pushed context event).length ≤ 48 by omega)
  simp only [Processor.enter, room.1, canonical, mapped, gate_dpl call, not_true_eq_false,
    Bool.not_true, Bool.false_eq_true, if_false, enteredFlags, if_true]
  rfl

/-- The code segment of the handlers is right; what is left is the stack. -/
theorem attempt_of_gate (ready : TablesServing processor calls rsp0)
    (found : processor.readGate context event = .ok call.gate) {user : Bool}
    (level : context.cs.setWidth 2 = if user then (3 : BitVec 2) else 0) :
    processor.attempt context event =
      match processor.handlerStack context event call.gate 0 user with
      | .error fault => .error fault
      | .ok stack => processor.enter context event call.gate 0 user stack := by
  have notNull : ¬IsNull 0x28 := by decide
  have place : ((0x28 : BitVec 16) &&& 0xfff8).setWidth 64 = (0x28 : Address) := rfl
  rcases ready.segment with ⟨code, isCode, same⟩
  have inner : (!code.conforming && decide (code.dpl < context.cs.setWidth 2)) = user := by
    rw [level]
    rcases kernelCode_of_accessed same with rfl | rfl <;> cases user <;> decide
  have checked : ¬((!code.code) = true ∨ (!code.long) = true ∨ code.big = true ∨
      context.cs.setWidth 2 < code.dpl) := by
    rw [level]
    rcases kernelCode_of_accessed same with rfl | rfl <;> cases user <;> decide
  have present : ¬(!code.present) = true := by
    rcases kernelCode_of_accessed same with rfl | rfl <;> decide
  have inside : (if user then code.dpl else context.cs.setWidth 2) = 0 := by
    rw [level]
    rcases kernelCode_of_accessed same with rfl | rfl <;> cases user <;> rfl
  rw [Processor.attempt, found]
  simp only [gate_dpl call, notNull, if_false, isCode, place, ready.codeMapped, Bool.not_true,
    Bool.false_eq_true, checked, present, inner, inside]

/-- An event with a gate that it may use begins its handler. -/
theorem attempt_of_handled (ready : TablesServing processor calls rsp0)
    (may : MayInterrupt processor context)
    (handled : handledBy calls context event = some call) :
    processor.attempt context event = .ok (enteredBy rsp0 context event call) := by
  have last := (Option.filter_eq_some_iff.mp handled).1
  have canonical := ready.canonical call (mem_of_lastFor last).1
  have found := readGate_of_handled ready handled
  rcases may with user | ⟨kernel, room⟩
  · rcases ready.task with ⟨task, loaded, limit, mapped, stack⟩
    have reaches : ¬task.limit < 4 + 8 * (0 : BitVec 2).toNat + 7 := by
      change ¬task.limit < 4 + 8 * 0 + 7
      omega
    have pointer : task.base + BitVec.ofNat 64 (4 + 8 * (0 : BitVec 2).toNat) = task.base + 4 :=
      rfl
    have own : processor.handlerStack context event call.gate 0 true = .ok rsp0 := by
      simp only [Processor.handlerStack, gate_dpl call, loaded, true_or, if_true, reaches, if_false,
        pointer, mapped, Bool.not_true, Bool.false_eq_true, stack]
    rw [@attempt_of_gate _ _ _ _ _ _ ready found true user, own]
    have entered := @enter_of_room _ context event call rsp0 ready.room canonical true
    simpa only [enteredBy, user, if_true] using entered
  · have same : processor.handlerStack context event call.gate 0 false = .ok context.rsp := by
      simp only [Processor.handlerStack, gate_dpl call, Bool.false_eq_true, ne_eq,
        not_true_eq_false, or_self, if_false]
    have notUser : ¬context.cs.setWidth 2 = (3 : BitVec 2) := by
      rw [kernel]
      decide
    rw [@attempt_of_gate _ _ _ _ _ _ ready found false kernel, same]
    have entered := @enter_of_room _ context event call context.rsp room canonical false
    simpa only [enteredBy, notUser, if_false, Bool.false_eq_true] using entered

theorem attempt_of_unhandled (ready : TablesServing processor calls rsp0)
    (unhandled : handledBy calls context event = none) :
    processor.attempt context event = .error (protection (gateError event)) := by
  rw [Processor.attempt, readGate_of_unhandled ready unhandled]

/-- Only `INT n` looks at the level of the gate. -/
theorem handledBy_of_exception (raised : event.source = .exception) :
    handledBy calls context event = lastFor calls (event.vector.setWidth 64) := by
  cases last : lastFor calls (event.vector.setWidth 64) <;> simp [handledBy, last, raised]

/-- Where `#GP` and `#DF` have handlers, every event ends in a handler. -/
theorem deliver_of_ready (ready : TablesServing processor calls rsp0)
    (may : MayInterrupt processor context) {gp df : HandlerCall}
    (gpInstalled : lastFor calls 0xd = some gp) (dfInstalled : lastFor calls 0x8 = some df) :
    deliver (processor.attempt context) event = some (
      match handledBy calls context event with
      | some call => (event, enteredBy rsp0 context event call)
      | none =>
          if event.severity = .benign then
            (protection (gateError event),
              enteredBy rsp0 context (protection (gateError event)) gp)
          else (.doubleFault, enteredBy rsp0 context .doubleFault df)) := by
  cases handled : handledBy calls context event with
  | some call => exact deliver_of_ok (attempt_of_handled ready may handled)
  | none =>
      have tried := attempt_of_unhandled ready handled
      have onGp : handledBy calls context (protection (gateError event)) = some gp :=
        (handledBy_of_exception rfl).trans gpInstalled
      have onDf : handledBy calls context .doubleFault = some df :=
        (handledBy_of_exception rfl).trans dfInstalled
      have contributory : (protection (gateError event)).severity = .contributory := rfl
      cases severe : event.severity with
      | benign =>
          have next : event.escalate (protection (gateError event)) =
              some (protection (gateError event)) := by
            rw [Event.escalate, severe, contributory]
          rw [deliver_of_error fromDelivery_attempt tried next,
            deliver_of_ok (attempt_of_handled ready may onGp)]
          rfl
      | contributory =>
          have next : event.escalate (protection (gateError event)) = some .doubleFault := by
            rw [Event.escalate, severe, contributory]
          rw [deliver_of_error fromDelivery_attempt tried next,
            deliver_of_ok (attempt_of_handled ready may onDf)]
          rfl
      | pageFault =>
          have next : event.escalate (protection (gateError event)) = some .doubleFault := by
            rw [Event.escalate, severe, contributory]
          rw [deliver_of_error fromDelivery_attempt tried next,
            deliver_of_ok (attempt_of_handled ready may onDf)]
          rfl
      | doubleFault =>
          -- a double fault has its gate
          have double := Event.eq_doubleFault_of_severity severe
          rw [handledBy_of_exception double.1, double.2] at handled
          rw [show (8 : BitVec 8).setWidth 64 = 0x8 from rfl, dfInstalled] at handled
          cases handled

end Ready

end VirtLearn.Guest
