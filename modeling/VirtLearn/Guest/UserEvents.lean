import Mathlib.Logic.Relation
import VirtLearn.Guest.KernelSetup
import VirtLearn.Guest.ReturningHandlers
import VirtLearn.Guest.UserMode

/-!
# What interrupts user mode

User mode can change neither the registers that tell where the tables are nor the pages they are in.
It can change the cursor and the texts of the handlers, though, so a handler that returns leaves the
tables alone only where these are as it relies on. From the kernel's setup on, over every run of
user mode in which the handlers of `#DB` and of the timer find them so (`Onward`), every exception
and interrupt begins a handler. The thirteen vectors that have one begin it; `INT n` and all other
vectors end in the handler of `#GP` or in that of `#DF`, and the processor never shuts down
(`wp_kernelSetup_events`).

The frame on the stack is the one of the processor, with an error code for some vectors. Not every
handler reads it as that (`Exception.frame`).
-/

namespace VirtLearn.Guest

open Assembly Register Paging

/-- The code that serves an event. -/
inductive Serving where
  | report (exception : Exception)
  | db
  | timer
deriving DecidableEq

namespace Serving

def vector : Serving → BitVec 64
  | report exception => exception.vector
  | db => dbHandlerVector
  | timer => apicTimerVector

/-- In the order in which the kernel installs them. -/
def all : List Serving :=
  [Exception.de, .nmi, .of, .ud, .nm, .df, .ts, .np, .gp, .mc, .pf].map report ++ [db, timer]

def ofVector (vector : BitVec 8) : Option Serving :=
  match vector.toNat with
  | 0x0 => some (report .de)
  | 0x1 => some db
  | 0x2 => some (report .nmi)
  | 0x4 => some (report .of)
  | 0x6 => some (report .ud)
  | 0x7 => some (report .nm)
  | 0x8 => some (report .df)
  | 0xa => some (report .ts)
  | 0xb => some (report .np)
  | 0xd => some (report .gp)
  | 0xe => some (report .pf)
  | 0x12 => some (report .mc)
  | 0x30 => some timer
  | _ => none

/-- The processor pushes an error code for the vector. -/
def pushesError : Serving → Bool
  | report exception => exception.pushesError
  | db | timer => false

/-- The stack as the processor leaves it for the vector, whatever the code takes it for. -/
def frame (context : Interrupted) : Serving → List StackItem
  | report exception => exception.frame context []
  | db | timer => context.frame []

end Serving

def KernelSymbols.address (symbols : KernelSymbols) : Serving → Address
  | .report exception => symbols.handler exception
  | .db => symbols.dbHandler
  | .timer => symbols.apicTimerHandler

def KernelSymbols.call (symbols : KernelSymbols) (serving : Serving) : HandlerCall where
  vector := serving.vector
  handler := symbols.address serving

/-- What is delivered in the end, and the code that serves it. -/
def served (event : Event) : Event × Serving :=
  match if event.source = .software then none else Serving.ofVector event.vector with
  | some serving => (event, serving)
  | none =>
      if event.severity = .benign then (protection (gateError event), .report .gp)
      else (.doubleFault, .report .df)

/-- The exceptions that come with an error code. -/
def withError : List (BitVec 8) :=
  [0x8, 0xa, 0xb, 0xc, 0xd, 0xe, 0x11, 0x15, 0x1d, 0x1e]

/-- The processor may raise the event: error codes are for some exceptions only, and what comes from
outside is `NMI` or an interrupt. -/
structure Raised (event : Event) : Prop where
  error : event.error.isSome = true ↔ event.source = .exception ∧ event.vector ∈ withError
  external : event.source = .external → event.vector = 0x2 ∨ 0x20 ≤ event.vector.toNat

/-- The context of an event, with the error code of what is delivered. -/
def Interrupted.withCode (context : Interrupted) (delivered : Event) : Interrupted :=
  { context with error := (delivered.error.getD 0).setWidth 64 }

/-- The code begins on the kernel's stack, with the frame for its vector and interrupts disabled. -/
structure Begins (symbols : KernelSymbols) (context : Interrupted) (delivered : Event)
    (serving : Serving) (entered : Entered) : Prop where
  rip : entered.rip = symbols.address serving
  cs : entered.cs = 0x28
  ss : entered.ss = 0
  disabled : entered.rflags.getLsbD 9 = false
  rsp : entered.rsp = processor0IdtRsp - BitVec.ofNat 64 (8 * entered.frame.length)
  frame : entered.frame.map .word = serving.frame (context.withCode delivered)

/-- What user mode cannot change. -/
structure OnlyUser (before after : Processor) : Prop where
  gdtr : after.gdtr = before.gdtr
  idtr : after.idtr = before.idtr
  tr : after.tr = before.tr
  ram : after.machine.ram = before.machine.ram
  memory : ∀ place, userMemory place = false →
    after.machine.memory place = before.machine.memory place

/-- The processor marks segment descriptors as accessed, and entries of the page tables as accessed
or dirty. -/
structure Marked (before after : Processor) : Prop where
  gdtr : after.gdtr = before.gdtr
  idtr : after.idtr = before.idtr
  tr : after.tr = before.tr
  ram : after.machine.ram = before.machine.ram
  memory : ∀ place, AsKept place (after.machine.memory place) (before.machine.memory place) ∨
    ∃ index ≤ 24, place = systemData64Base + BitVec.ofNat 64 (8 * index + 5) ∧
      after.machine.memory place = before.machine.memory place ||| 1

/-- The event interrupts user mode and ends in this code. -/
structure Interrupts (processor : Processor) (context : Interrupted) (event : Event)
    (serving : Serving) (entered : Entered) : Prop where
  user : context.cs.setWidth 2 = (3 : BitVec 2)
  raised : Raised event
  serves : (served event).2 = serving
  delivered : deliver (processor.attempt context) event = some ((served event).1, entered)

/-- The machine in which a handler begins. -/
def Processor.handlerMachine (processor : Processor) (entered : Entered) : Machine :=
  processor.machine.withStack (entered.frame.map .word)

/-- The handler has run to its `iretq`. The stacks of the kernel are behind the last addresses. -/
structure Returned {α : Type} (handler : Routine α) (before : Processor) (entered : Entered)
    (after : Processor) : Prop where
  gdtr : after.gdtr = before.gdtr
  idtr : after.idtr = before.idtr
  tr : after.tr = before.tr
  ran : ∃ value machine, handler (before.handlerMachine entered) = some (value, machine) ∧
    after.machine.ram = machine.ram ∧
    ∀ place : Address, place.toNat < 0xffffffffffe00000 →
      after.machine.memory place = machine.memory place

/--
What happens after the setup: user mode goes on, the processor marks descriptors and entries, or an
event in user mode begins a handler that returns and finds the cursor and the texts as it relies on
them.
-/
inductive Onward (handlers : HandlerSymbols) (before : Processor) : Processor → Prop where
  | user {after : Processor} (only : OnlyUser before after) : Onward handlers before after
  | marked {after : Processor} (marks : Marked before after) : Onward handlers before after
  | debug {after : Processor} {context : Interrupted} {event : Event} {entered : Entered} {fuel : ℕ}
      {dr7 : BitVec 64} (interrupts : Interrupts before context event .db entered)
      (shown : OutputReady handlers before.machine) (enough : 64 ≤ fuel)
      (returned : Returned (dbHandler handlers fuel dr7) before entered after) :
      Onward handlers before after
  | timer {after : Processor} {context : Interrupted} {event : Event} {entered : Entered} {fuel : ℕ}
      {content : ApicRegister → BitVec 32}
      (interrupts : Interrupts before context event .timer entered)
      (shown : OutputReady handlers before.machine) (holds : ApicHolds before.machine content)
      (enough : 64 ≤ fuel)
      (returned : Returned (apicTimerHandler handlers fuel) before entered after) :
      Onward handlers before after

/-- A byte of the tables is as it was, up to the mark of a descriptor. -/
def AsLoaded (offset : ℕ) (now was : Byte) : Prop :=
  if offset < 0xc8 ∧ offset % 8 = 5 then now ||| 1 = was ||| 1 else now = was

/-- The tables are where they were, and as they were up to the marks. -/
structure TablesKept (before after : Processor) : Prop where
  gdtr : after.gdtr = before.gdtr
  idtr : after.idtr = before.idtr
  tr : after.tr = before.tr
  ram : after.machine.ram = before.machine.ram
  tables : ∀ offset < 0x2000,
    AsLoaded offset (after.machine.memory (systemData64Base + BitVec.ofNat 64 offset))
      (before.machine.memory (systemData64Base + BitVec.ofNat 64 offset))

/-! ### The handlers -/

section Handlers

variable {symbols : KernelSymbols} {event : Event}

theorem handlerCalls_eq (symbols : KernelSymbols) :
    symbols.handlerCalls = Serving.all.map symbols.call :=
  rfl

theorem ofVector_eq (vector : BitVec 8) :
    (Serving.all.filter fun serving => serving.vector = vector.setWidth 64).getLast? =
      Serving.ofVector vector := by
  revert vector
  decide +kernel

theorem lastFor_handlerCalls (symbols : KernelSymbols) (vector : BitVec 8) :
    lastFor symbols.handlerCalls (vector.setWidth 64) =
      (Serving.ofVector vector).map symbols.call := by
  rw [← ofVector_eq, handlerCalls_eq, lastFor, List.filter_map, List.getLast?_map]
  rfl

theorem handledBy_handlerCalls {context : Interrupted}
    (user : context.cs.setWidth 2 = (3 : BitVec 2)) :
    handledBy symbols.handlerCalls context event =
      (if event.source = .software then none else Serving.ofVector event.vector).map
        symbols.call := by
  rw [handledBy, lastFor_handlerCalls, user]
  by_cases software : event.source = .software
  · rw [if_pos software]
    cases Serving.ofVector event.vector with
    | none => rfl
    | some serving =>
        have level : (symbols.call serving).gate.dpl = 0 := rfl
        simp [software, level]
  · rw [if_neg software]
    cases Serving.ofVector event.vector with
    | none => rfl
    | some serving => simp [software]

theorem pushesError_ofVector {vector : BitVec 8} {serving : Serving}
    (found : Serving.ofVector vector = some serving) :
    serving.pushesError = decide (vector ∈ withError) := by
  have all : (Serving.ofVector vector).all
      (fun serving => serving.pushesError == decide (vector ∈ withError)) = true := by
    clear found
    revert vector
    decide +kernel
  rw [found] at all
  exact beq_iff_eq.mp all

/-- What is delivered has an error code exactly where its code finds one. -/
theorem pushesError_served (raised : Raised event) :
    (served event).2.pushesError = (served event).1.error.isSome := by
  rw [served]
  split
  case h_1 serving found =>
    split at found
    case isTrue => cases found
    case isFalse notSoftware =>
      rw [Bool.eq_iff_iff, raised.error, pushesError_ofVector found, decide_eq_true_eq]
      constructor
      · intro listed
        refine ⟨?_, listed⟩
        cases source : event.source with
        | exception => rfl
        | software => exact absurd source notSoftware
        | external =>
            have low : event.vector ≠ 0x2 ∧ event.vector.toNat < 0x20 := by
              revert listed
              generalize event.vector = vector
              revert vector
              decide +kernel
            rcases raised.external source with isNmi | high
            · exact absurd isNmi low.1
            · exact absurd high (Nat.not_le.mpr low.2)
      · exact fun listed => listed.2
  case h_2 =>
    split
    case isTrue => rfl
    case isFalse => rfl

/-- The processor leaves what the code relies on. -/
theorem map_pushed {context : Interrupted} {delivered : Event} {serving : Serving}
    (matched : serving.pushesError = delivered.error.isSome) :
    (pushed context delivered).map .word = serving.frame (context.withCode delivered) := by
  rcases delivered with ⟨vector, source, _ | code⟩
  · cases serving with
    | report exception =>
        have none : exception.pushesError = false := matched
        simp [pushed, Serving.frame, Exception.frame, none, Interrupted.withCode,
          Interrupted.frame]
    | db => rfl
    | timer => rfl
  · cases serving with
    | report exception =>
        have some : exception.pushesError = true := matched
        simp [pushed, Serving.frame, Exception.frame, some, Interrupted.withCode,
          Interrupted.frame]
    | db => cases matched
    | timer => cases matched

end Handlers

/-! ### Delivery -/

section Delivery

variable {symbols : KernelSymbols} {event : Event} {context : Interrupted} {entered : Entered}
  {serving : Serving} {processor : Processor}

theorem deliver_served (ready : TablesServing processor symbols.handlerCalls processor0IdtRsp)
    (user : context.cs.setWidth 2 = (3 : BitVec 2)) :
    deliver (processor.attempt context) event =
      some ((served event).1,
        enteredBy processor0IdtRsp context (served event).1 (symbols.call (served event).2)) := by
  have gp := lastFor_handlerCalls symbols 0xd
  have df := lastFor_handlerCalls symbols 0x8
  rw [deliver_of_ready ready (Or.inl user) gp df, handledBy_handlerCalls user, served]
  cases (if event.source = .software then none else Serving.ofVector event.vector) with
  | some serving => rfl
  | none =>
      simp only [Option.map_none]
      split
      case isTrue => rfl
      case isFalse => rfl

theorem begins_enteredBy (raised : Raised event)
    (user : context.cs.setWidth 2 = (3 : BitVec 2)) :
    Begins symbols context (served event).1 (served event).2
      (enteredBy processor0IdtRsp context (served event).1 (symbols.call (served event).2)) where
  rip := rfl
  cs := rfl
  ss := by
    rw [enteredBy, if_pos user]
  disabled := by
    rw [enteredBy]
    simp
  rsp := by
    have aligned : processor0IdtRsp &&& ~~~0xf = processor0IdtRsp := by decide
    simp only [enteredBy, if_pos user, aligned]
  frame := map_pushed (pushesError_served raised)

/-- Every event in user mode begins its code. -/
theorem exists_begins (ready : TablesServing processor symbols.handlerCalls processor0IdtRsp)
    (user : context.cs.setWidth 2 = (3 : BitVec 2)) (raised : Raised event) :
    ∃ entered, deliver (processor.attempt context) event = some ((served event).1, entered) ∧
      Begins symbols context (served event).1 (served event).2 entered :=
  ⟨_, deliver_served ready user, begins_enteredBy raised user⟩

theorem Interrupts.begins (interrupts : Interrupts processor context event serving entered)
    (ready : TablesServing processor symbols.handlerCalls processor0IdtRsp) :
    Begins symbols context (served event).1 serving entered := by
  rcases exists_begins ready interrupts.user interrupts.raised with ⟨found, delivered, begins⟩
  have same := (Option.some.inj (interrupts.delivered.symm.trans delivered))
  rw [← interrupts.serves, (Prod.mk.inj same).2]
  exact begins

end Delivery

/-! ### What keeps the tables -/

section Kept

variable {symbols : KernelSymbols} {handlers : HandlerSymbols}
  {before between after now : Processor} {offset : ℕ}

theorem AsLoaded.refl (offset : ℕ) (byte : Byte) : AsLoaded offset byte byte := by
  rw [AsLoaded]
  split <;> rfl

theorem AsLoaded.trans {now was first : Byte} (later : AsLoaded offset now was)
    (earlier : AsLoaded offset was first) : AsLoaded offset now first := by
  rw [AsLoaded] at later earlier ⊢
  split at later
  case isTrue marked =>
    rw [if_pos marked] at earlier ⊢
    exact later.trans earlier
  case isFalse unmarked =>
    rw [if_neg unmarked] at earlier ⊢
    exact later.trans earlier

theorem TablesKept.refl (processor : Processor) : TablesKept processor processor :=
  ⟨rfl, rfl, rfl, rfl, fun _ _ => AsLoaded.refl _ _⟩

theorem TablesKept.trans (earlier : TablesKept before between) (later : TablesKept between after) :
    TablesKept before after where
  gdtr := later.gdtr.trans earlier.gdtr
  idtr := later.idtr.trans earlier.idtr
  tr := later.tr.trans earlier.tr
  ram := later.ram.trans earlier.ram
  tables := fun offset inside => (later.tables offset inside).trans (earlier.tables offset inside)

theorem toNat_tables (inside : offset < 0x2000) :
    (systemData64Base + BitVec.ofNat 64 offset).toNat = 0xfffffff800000000 + offset := by
  have base : systemData64Base = 0xfffffff800000000 := rfl
  rw [base]
  bv_omega

/-- The pages of the tables are not for user mode. -/
theorem OnlyUser.tablesKept (only : OnlyUser before after) : TablesKept before after where
  gdtr := only.gdtr
  idtr := only.idtr
  tr := only.tr
  ram := only.ram
  tables := by
    intro offset inside
    have place := toNat_tables inside
    have kernel : userMemory (systemData64Base + BitVec.ofNat 64 offset) = false := by
      rw [userMemory, decide_eq_false_iff_not, place]
      omega
    rw [only.memory _ kernel]
    exact AsLoaded.refl _ _

theorem Marked.tablesKept (marks : Marked before after) : TablesKept before after where
  gdtr := marks.gdtr
  idtr := marks.idtr
  tr := marks.tr
  ram := marks.ram
  tables := by
    intro offset inside
    rcases marks.memory (systemData64Base + BitVec.ofNat 64 offset) with
      same | ⟨index, few, place, marked⟩
    · have place := toNat_tables inside
      have elsewhere : ¬InTables (systemData64Base + BitVec.ofNat 64 offset).toNat := by
        simp only [InTables, place]
        omega
      rw [AsKept, if_neg fun tables => elsewhere tables.1] at same
      rw [same]
      exact AsLoaded.refl _ _
    · have places := congrArg BitVec.toNat place
      rw [toNat_tables inside, toNat_tables (by omega)] at places
      have isMark : offset < 0xc8 ∧ offset % 8 = 5 := by omega
      rw [AsLoaded, if_pos isMark, marked, BitVec.or_assoc]
      rfl

/-- Handlers change the cursor, which is in the image, and the APIC. -/
theorem Returned.tablesKept {α : Type} {handler : Routine α} {entered : Entered}
    (returned : Returned handler before entered after)
    (keeps : wp handler
      (fun _ last => KeepsMemory handlers (before.handlerMachine entered) last)
      (before.handlerMachine entered)) : TablesKept before after := by
  rcases returned with ⟨gdtr, idtr, tr, value, machine, ran, ram, memory⟩
  rw [wp_iff_of_ends ran] at keeps
  refine ⟨gdtr, idtr, tr, ram.trans keeps.ram, ?_⟩
  intro offset inside
  have place := toNat_tables inside
  have linked := handlers.linked
  have eoi : ApicRegister.eoi.address.toNat = 0x8000b0 := rfl
  have same : after.machine.memory (systemData64Base + BitVec.ofNat 64 offset) =
      before.machine.memory (systemData64Base + BitVec.ofNat 64 offset) := by
    rw [memory _ (by omega)]
    apply keeps.memory
    · rw [Within]
      bv_omega
    · rw [Within]
      bv_omega
  rw [same]
  exact AsLoaded.refl _ _

theorem Onward.tablesKept
    (ready : TablesServing before symbols.handlerCalls processor0IdtRsp)
    (step : Onward handlers before after) : TablesKept before after := by
  cases step with
  | user only => exact only.tablesKept
  | marked marks => exact marks.tablesKept
  | @debug context event entered fuel dr7 interrupts shown enough returned =>
      have top : (before.handlerMachine entered).stack = context.frame [] :=
        (interrupts.begins ready).frame
      apply returned.tablesKept
      exact (wp_dbHandler (shown.withStack _) top enough dr7).mono fun _ _ leaves => leaves.2
  | @timer context event entered fuel content interrupts shown holds enough returned =>
      have held : ApicHolds (before.handlerMachine entered) content :=
        ⟨holds.readable, holds.content⟩
      apply returned.tablesKept
      exact (wp_apicTimerHandler (shown.withStack _) held enough).mono fun _ _ leaves => leaves.2

/-- What is not marked is as it was. -/
theorem TablesKept.load_eq (kept : TablesKept after now) {count : ℕ}
    (inside : offset + count ≤ 0x2000)
    (unmarked : ∀ part, offset ≤ part → part < offset + count → ¬(part < 0xc8 ∧ part % 8 = 5)) :
    now.machine.memory.load (systemData64Base + BitVec.ofNat 64 offset) count =
      after.machine.memory.load (systemData64Base + BitVec.ofNat 64 offset) count := by
  apply Memory.load_congr (by omega)
  intro place inPart
  rw [within_add_iff (by omega)] at inPart
  have split : place = systemData64Base + BitVec.ofNat 64 (place - systemData64Base).toNat := by
    rw [BitVec.ofNat_toNat, BitVec.setWidth_eq]
    bv_omega
  have same := kept.tables (place - systemData64Base).toNat (by omega)
  rw [AsLoaded, if_neg (unmarked _ inPart.1 inPart.2), ← split] at same
  exact same

/-- The descriptor of the kernel's code is the same up to its mark. -/
theorem TablesKept.segment (kept : TablesKept after now) :
    (SegmentDescriptor.ofBits (now.machine.memory.read 64 (systemData64Base + 0x28))).accessed =
      (SegmentDescriptor.ofBits
        (after.machine.memory.read 64 (systemData64Base + 0x28))).accessed := by
  have parts : ∀ memory : Memory,
      memory.read 64 (systemData64Base + 0x28) ||| 0x10000000000#64 =
        (memory.read 16 (systemData64Base + 0x2e) ++
          (memory (systemData64Base + 0x2d) ||| 1)) ++
            memory.read 40 (systemData64Base + 0x28) := by
    intro memory
    have low := @Memory.read_append 40 24 (by decide) memory (systemData64Base + 0x28)
    have high := @Memory.read_append 8 16 (by decide) memory (systemData64Base + 0x2d)
    have mark : 0x10000000000#64 = (0#16 ++ 1#8) ++ 0#40 := by decide
    rw [Memory.read_eight] at high
    change memory.read 24 (systemData64Base + 0x2d) = _ at high
    change memory.read 64 (systemData64Base + 0x28) =
      memory.read 24 (systemData64Base + 0x2d) ++ _ at low
    rw [low, high, mark, BitVec.or_append, BitVec.or_append, BitVec.or_zero, BitVec.or_zero]
    rfl
  have high : now.machine.memory.read 16 (systemData64Base + 0x2e) =
      after.machine.memory.read 16 (systemData64Base + 0x2e) := by
    have same := @TablesKept.load_eq _ _ 0x2e kept 2 (by decide) (by omega)
    exact congrArg (fun bytes => BitVec.ofNat 16 (valueOf bytes)) same
  have low : now.machine.memory.read 40 (systemData64Base + 0x28) =
      after.machine.memory.read 40 (systemData64Base + 0x28) := by
    have same := @TablesKept.load_eq _ _ 0x28 kept 5 (by decide) (by omega)
    exact congrArg (fun bytes => BitVec.ofNat 40 (valueOf bytes)) same
  have marked := kept.tables 0x2d (by decide)
  rw [AsLoaded, if_pos (by decide)] at marked
  rw [SegmentDescriptor.accessed_ofBits, SegmentDescriptor.accessed_ofBits, parts, parts, high,
    low]
  have marked : now.machine.memory (systemData64Base + 0x2d) ||| 1 =
      after.machine.memory (systemData64Base + 0x2d) ||| 1 := marked
  rw [marked]

/-- The tables serve as before. -/
theorem TablesServing.kept {calls : List HandlerCall} {rsp0 : Address}
    (ready : TablesServing after calls rsp0) (loaded : TablesLoaded after)
    (kept : TablesKept after now) : TablesServing now calls rsp0 := by
  have mapped : ∀ base count, now.mapped base count = after.mapped base count := by
    intro base count
    rw [Processor.mapped, Processor.mapped, kept.ram]
  have gates : ∀ vector, now.gatePlace vector = after.gatePlace vector := by
    intro vector
    rw [Processor.gatePlace, Processor.gatePlace, kept.idtr]
  have gate : ∀ vector < interruptVectors, ∀ offset count, offset + count ≤ 16 →
      now.machine.memory.load (after.gatePlace vector + BitVec.ofNat 64 offset) count =
        after.machine.memory.load (after.gatePlace vector + BitVec.ofNat 64 offset) count := by
    intro vector inside offset count part
    simp only [interruptVectors] at inside
    rw [Processor.gatePlace, loaded.idtr]
    simp only [BitVec.add_assoc, ← BitVec.ofNat_add, interruptDescriptorTableAt]
    exact kept.load_eq (by omega) (by omega)
  have whole : ∀ vector < interruptVectors,
      gateAt now.machine.memory (now.gatePlace vector) =
        gateAt after.machine.memory (after.gatePlace vector) := by
    intro vector inside
    have same := gate vector inside 0 16 (by decide)
    rw [BitVec.add_zero] at same
    rw [gates, gateAt, gateAt, same]
  refine
    { limit := ?_
      gatesMapped := ?_
      inside := ready.inside
      installed := ?_
      empty := ?_
      canonical := ready.canonical
      segment := ?_
      codeMapped := ?_
      task := ?_
      room := ?_ }
  · rw [kept.idtr]
    exact ready.limit
  · intro vector inside
    rw [mapped, gates]
    exact ready.gatesMapped vector inside
  · intro vector call last
    have inside : vector.toNat < interruptVectors := by
      rcases mem_of_lastFor last with ⟨listed, called⟩
      have bound := vector.isLt
      have inside := ready.inside call listed
      rwa [called, BitVec.toNat_setWidth, Nat.mod_eq_of_lt (by omega)] at inside
    have fifth := List.cons.inj (gate vector.toNat inside 5 1 (by decide))
    rw [whole _ inside, gates, show (5 : Address) = BitVec.ofNat 64 5 from rfl, fifth.1]
    exact ready.installed vector call last
  · intro vector inside unnamed
    rw [whole _ inside]
    exact ready.empty vector inside unnamed
  · rcases ready.segment with ⟨code, isCode, same⟩
    rw [loaded.gdtr, TableRegister.descriptor, if_neg (by decide)] at isCode
    rw [kept.gdtr, loaded.gdtr, TableRegister.descriptor, if_neg (by decide)]
    refine ⟨_, rfl, kept.segment.trans ?_⟩
    rw [← same, ← Option.some.inj isCode]
    rfl
  · rw [mapped, kept.gdtr]
    exact ready.codeMapped
  · rcases ready.task with ⟨task, isTask, limit, inRam, stack⟩
    rcases loaded.tr with ⟨taskToo, isTaskToo, -, base⟩
    have sameTask : task = taskToo := Option.some.inj (isTask.symm.trans isTaskToo)
    have place : task.base + 4 = systemData64Base + BitVec.ofNat 64 (taskStatusSegmentAt + 4) := by
      rw [sameTask, base]
      rfl
    have same := @TablesKept.load_eq _ _ (taskStatusSegmentAt + 4) kept 8 (by decide)
      (by simp only [taskStatusSegmentAt]; omega)
    refine ⟨task, kept.tr.trans isTask, limit, ?_, ?_⟩
    · rw [mapped]
      exact inRam
    · rw [place, Memory.read] at stack ⊢
      exact same ▸ stack
  · refine ⟨ready.room.1, ?_⟩
    rw [kept.ram]
    exact ready.room.2

theorem TablesLoaded.kept (loaded : TablesLoaded after) (kept : TablesKept after now) :
    TablesLoaded now where
  gdtr := kept.gdtr.trans loaded.gdtr
  idtr := kept.idtr.trans loaded.idtr
  tr := by
    rw [kept.tr]
    exact loaded.tr

/-- Over every run the tables serve as they did when user mode began. -/
theorem UserModeReady.serving (ready : UserModeReady symbols before after)
    (run : Relation.ReflTransGen (Onward handlers) after now) :
    TablesServing now symbols.handlerCalls processor0IdtRsp := by
  have kept : TablesKept after now := by
    induction run with
    | refl => exact TablesKept.refl after
    | tail _ step ih =>
        exact ih.trans (step.tablesKept (ready.tables.toTablesServing.kept ready.loaded ih))
  exact ready.tables.toTablesServing.kept ready.loaded kept

end Kept

section Events

/-- An image with its tables at 0x9000 and code from 0x10000 on. -/
def kernelImage : KernelSymbols where
  systemData64Entry := 0x9000
  gdtPointer := 0x10000
  idtPointer := 0x10010
  userEntry := 0x10200
  handler := fun exception => 0x15000 + exception.vector * 0x100
  dbHandler := 0x15100
  apicTimerHandler := 0x18000
  tables := by decide
  gdtScratch := by decide
  idtScratch := by decide
  userCode := by decide
  handlers := by
    intro exception
    cases exception <;> decide
  dbCode := by decide
  timerCode := by decide

/-- The processor where the image is at 0x9000, behind the far jump to `entry64`. -/
def kernelProcessor : Processor where
  machine := { registers := fun _ => 0, ram := fun _ => true, memory := systemDataMemory 0x9000 }
  gdtr := { limit := gdtLimit, base := 0x9000 }
  idtr := { limit := idtLimit, base := 0x9100 }
  selectors := fun segment => if segment = .cs then 0x28 else 0x20
  stackTop := 0x10000
  msrs := fun _ => 0

end Events

end VirtLearn.Guest
