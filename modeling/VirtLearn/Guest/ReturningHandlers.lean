import VirtLearn.Guest.Apic
import VirtLearn.Guest.Handlers

/-!
# Handlers that return

`DB_handler` and `apic_timer_handler` of `handler64.S`, up to their `iretq`. Neither saves a
register. What printing leaves in the registers is what the interrupted code goes on with.
-/

namespace VirtLearn.Guest

open Assembly Register

section Routines

variable (symbols : HandlerSymbols) (fuel : ℕ)

/-- Takes `dr7` and returns what is written to it. -/
def dbHandler (dr7 : BitVec 64) : Routine (BitVec 64) := do
  (Output.puts .dbMsg1).routine symbols fuel
  mov 64 (.imm dr7) (.reg rax)
  btr 0 rax
  let written ← fetch (.reg rax)
  btslStack 16 2
  (Output.puts .dbMsg2).routine symbols fuel
  pure written

def apicTimerHandler : Routine Unit := do
  outputs symbols fuel [.puts .atMsg1, .println]
  call (dumpApic symbols fuel)
  outputs symbols fuel [.println, .puts .atMsg2]
  Output.println.routine symbols fuel
  mov 32 (.imm 0) (.symbol ApicRegister.eoi.address)

end Routines

/-- `RF` is set in the saved flags. -/
def Interrupted.resuming (context : Interrupted) : Interrupted :=
  { context with rflags := context.rflags ||| 0x10000 }

/-- The handler ends with every register as it was when it was entered, and on this stack. -/
def Transparent {α : Type} (handler : Routine α) (stack : List StackItem) (machine : Machine) :
    Prop :=
  wp handler (fun _ after => after.registers = machine.registers ∧ after.stack = stack) machine

/-- Only these registers are changed, and to these values. -/
structure Leaves (changed : List Register) (left : Register → BitVec 64) (stack : List StackItem)
    (before after : Machine) : Prop where
  kept : ∀ register, register ∉ changed → after.registers register = before.registers register
  left_eq : ∀ register ∈ changed, after.registers register = left register
  stack_eq : after.stack = stack

/-- No memory is changed but the cursor and a register of the APIC. -/
structure KeepsMemory (symbols : HandlerSymbols) (before after : Machine) : Prop where
  ram : after.ram = before.ram
  memory : ∀ place, ¬Within place symbols.videoCurrent 8 →
    ¬Within place ApicRegister.eoi.address 4 → after.memory place = before.memory place

theorem Shows.keepsMemory {symbols : HandlerSymbols} {machine after : Machine} {text : List Byte}
    (shown : Shows symbols machine text after) (ready : OutputReady symbols machine) :
    KeepsMemory symbols machine after :=
  ⟨shown.ram, fun _ apart _ => shown.memory ready apart⟩

/-- `EOI` is written. -/
theorem KeepsMemory.poke {symbols : HandlerSymbols} {before after : Machine}
    (keeps : KeepsMemory symbols before after) (value : BitVec 32) :
    KeepsMemory symbols before (after.poke ApicRegister.eoi.address value) where
  ram := by
    rw [Machine.ram_poke]
    exact keeps.ram
  memory := by
    intro place cursor apart
    rw [Machine.memory_poke]
    split
    · rw [Memory.write_of_not_within (by decide) apart]
      exact keeps.memory place cursor apart
    · exact keeps.memory place cursor apart

/-- A store changes no register and nothing on the stack. -/
theorem Leaves.poke {changed : List Register} {left : Register → BitVec 64}
    {stack : List StackItem} {before after : Machine}
    (leaves : Leaves changed left stack before after) (address : Address) {width : ℕ}
    (value : BitVec width) : Leaves changed left stack before (after.poke address value) where
  kept := by
    rw [Machine.registers_poke]
    exact leaves.kept
  left_eq := by
    rw [Machine.registers_poke]
    exact leaves.left_eq
  stack_eq := by
    rw [Machine.stack_poke]
    exact leaves.stack_eq

theorem registers_eq_iff {changed : List Register} {before after : Machine}
    (kept : ∀ register, register ∉ changed →
      after.registers register = before.registers register) :
    after.registers = before.registers ↔
      ∀ register ∈ changed, after.registers register = before.registers register := by
  constructor
  · intro same register _
    rw [same]
  · intro same
    funext register
    by_cases listed : register ∈ changed
    · exact same register listed
    · exact kept register listed

/-- Whether a handler is transparent is read off what it leaves in the registers. -/
theorem transparent_iff {α : Type} {handler : Routine α} {stack : List StackItem}
    {machine : Machine} {changed : List Register} {left : Register → BitVec 64}
    (leaves : wp handler (fun _ after => Leaves changed left stack machine after) machine) :
    Transparent handler stack machine ↔
      ∀ register ∈ changed, machine.registers register = left register := by
  rcases leaves with ⟨value, after, ends, leaves⟩
  rw [Transparent, wp_iff_of_ends ends, registers_eq_iff leaves.kept]
  constructor
  · rintro ⟨restored, -⟩ register listed
    rw [← leaves.left_eq register listed, restored register listed]
  · intro restored
    refine ⟨?_, leaves.stack_eq⟩
    intro register listed
    rw [leaves.left_eq register listed, restored register listed]

section

variable {symbols : HandlerSymbols} {machine : Machine} {context : Interrupted}
  {rest : List StackItem} {fuel : ℕ}

/-- What `DB_handler` leaves. -/
def dbLeft (dr7 : BitVec 64) (register : Register) : BitVec 64 :=
  if register = rax then dr7 &&& ~~~1 else 0xf08

theorem wp_dbHandler (ready : OutputReady symbols machine)
    (top : machine.stack = context.frame rest) (enough : 64 ≤ fuel) (dr7 : BitVec 64) :
    wp (dbHandler symbols fuel dr7)
      (fun _ after =>
        Leaves [rax, rsi] (dbLeft dr7) (context.resuming.frame rest) machine after ∧
          KeepsMemory symbols machine after)
      machine := by
  rw [dbHandler, wp_bind]
  apply (wp_putsShown ready (Shows.refl symbols machine) .dbMsg1 enough (by simp)).mono
  rintro _ greeted ⟨shown, kept, -⟩
  have stack : greeted.stack = context.frame rest := shown.stack.trans top
  -- the message on the way out, from any state that `dr7` and the flags are dealt with in
  have onward : ∀ resumed,
      Shows symbols (machine.withStack (context.resuming.frame rest)) Label.dbMsg1.chars resumed →
      resumed.registers rax = dr7 &&& ~~~1 →
      (∀ register, register ≠ rax → resumed.registers register = greeted.registers register) →
      wp ((Output.puts .dbMsg2).routine symbols fuel)
        (fun _ after =>
          Leaves [rax, rsi] (dbLeft dr7) (context.resuming.frame rest) machine after ∧
            KeepsMemory symbols machine after)
        resumed := by
    intro resumed shown disarmed keptToo
    have short := length_chars_le .dbMsg1
    apply (wp_putsShown (ready.withStack _) shown .dbMsg2 enough (by omega)).mono
    rintro _ after ⟨shown, keptLast, last⟩
    have keeps := shown.keepsMemory (ready.withStack _)
    refine ⟨⟨?_, ?_, shown.stack⟩, keeps.ram, keeps.memory⟩
    · intro register other
      simp only [List.mem_cons, List.not_mem_nil, or_false, not_or] at other
      rw [keptLast register other.2, keptToo register other.1, kept register other.2]
    · intro register listed
      rcases List.mem_pair.mp listed with rfl | rfl
      · rw [keptLast rax (by decide), disarmed]
        rfl
      · rw [last]
        rfl
  have saved : ∀ (first second : BitVec 64) (zf cf : Bool),
      (((greeted.put rax first).put rax second).withFlags zf cf).stack = context.frame rest :=
    fun _ _ _ _ => stack
  have flags : ∀ (first second : BitVec 64) (zf cf : Bool),
      (((greeted.put rax first).put rax second).withFlags zf cf).stack[2]? =
        some (.word context.rflags) := by
    intro first second zf cf
    rw [saved]
    rfl
  have resumed :
      (context.frame rest).set 2 (.word (context.rflags ||| BitVec.twoPow 64 (16 % 32))) =
        context.resuming.frame rest := rfl
  have listed : rax ∈ [rax, rcx, rsi, rdi] := by decide
  simp only [mov, wp_bind, wp_fetch_imm, wp_assign_reg, wp_btr, wp_fetch_reg, wp_pure,
    wp_btslStack (flags _ _ _ _), saved, resumed]
  apply onward
  · exact ((((shown.put listed _).put listed _).withFlags _ _).withStack _).withFlags _ _
  · simp
    rfl
  · intro register other
    simp [other]

/-- What the handler prints of these contents of the APIC. -/
def timerText (content : ApicRegister → BitVec 32) : List Byte :=
  Label.atMsg1.chars ++ [10] ++ dumpedText content ++ [10] ++ Label.atMsg2.chars ++ [10]

/-- What `apic_timer_handler` leaves. -/
def timerLeft (symbols : HandlerSymbols) (machine : Machine)
    (content : ApicRegister → BitVec 32) : Register → BitVec 64
  | rax => (timerText content).foldl nextCursor (cursor symbols.toSymbols machine)
  | rcx => upperBytes (machine.registers rcx)
  | rsi => 0xf0a
  | _ => (content .icr1).setWidth 64

theorem wp_apicTimerHandler {content : ApicRegister → BitVec 32}
    (ready : OutputReady symbols machine) (holds : ApicHolds machine content)
    (enough : 64 ≤ fuel) :
    wp (apicTimerHandler symbols fuel)
      (fun _ after =>
        Leaves [rax, rcx, rsi, rdi] (timerLeft symbols machine content) machine.stack machine
            after ∧
          KeepsMemory symbols machine after)
      machine := by
  rw [apicTimerHandler, wp_bind]
  apply (wp_outputs ready (Shows.refl symbols machine) (by simp [Output.Fine]) enough
    (by simp)).mono
  rintro _ greeted ⟨shown, counted, -⟩
  rw [wp_bind]
  have short := length_chars_le .atMsg1
  apply (wp_call_dumpApic ready shown holds enough
    (by simp [textOfOutputs, Output.text]; omega)).mono
  rintro _ dumped ⟨shown, countedDump, destination⟩
  rw [wp_bind]
  have dump := length_dumpedText_le content
  apply (wp_outputs ready shown (by simp [Output.Fine]) enough
    (by simp [textOfOutputs, Output.text]; omega)).mono
  rintro _ exiting ⟨shown, countedExit, destinationExit⟩
  rw [wp_bind, Output.routine]
  apply (wp_call_println_exact (shown.inRam ready)).mono
  intro _ printed done
  have short := length_chars_le .atMsg2
  have located := shown.cursor_eq ready
  rcases shown.char done (by simp [textOfOutputs, Output.text]; omega) with
    ⟨shown, countedLast, destinationLast⟩
  have text : [] ++ textOfOutputs machine [.puts .atMsg1, .println] ++ dumpedText content ++
      textOfOutputs machine [.println, .puts .atMsg2] ++ [10] = timerText content := by
    simp [textOfOutputs, Output.text, timerText]
  have cursorLeft : printed.registers rax = timerLeft symbols machine content rax := by
    rw [timerLeft, ← text, List.foldl_append, done.rax_eq, located]
    rfl
  have countLeft : printed.registers rcx = upperBytes (machine.registers rcx) := by
    rw [countedLast, countedExit, countedDump, counted]
    simp [rcxAfter, Output.rcx]
  have destinationLeft : printed.registers rdi = (content .icr1).setWidth 64 := by
    rw [destinationLast, destinationExit, destination]
  simp only [mov, Operand.symbol, wp_bind, wp_fetch_imm, wp_assign_mem]
  refine ⟨?_, (shown.keepsMemory ready).poke _⟩
  apply Leaves.poke
  refine ⟨?_, ?_, shown.stack⟩
  · intro register other
    rw [shown.only.registers register other, registers_printedText]
  · intro register listed
    simp only [List.mem_cons, List.not_mem_nil, or_false] at listed
    rcases listed with rfl | rfl | rfl | rfl
    · exact cursorLeft
    · exact countLeft
    · exact done.rsi_eq
    · exact destinationLeft

/-- Each of the two is transparent exactly if the interrupted code has what it leaves in the
registers already. -/
theorem returning_transparent_iff {content : ApicRegister → BitVec 32}
    (ready : OutputReady symbols machine) (holds : ApicHolds machine content)
    (top : machine.stack = context.frame rest) (enough : 64 ≤ fuel) (dr7 : BitVec 64) :
    (Transparent (dbHandler symbols fuel dr7) (context.resuming.frame rest) machine ↔
      machine.registers rax = dr7 &&& ~~~1 ∧ machine.registers rsi = 0xf08) ∧
    (Transparent (apicTimerHandler symbols fuel) (context.frame rest) machine ↔
      machine.registers rax =
          (timerText content).foldl nextCursor (cursor symbols.toSymbols machine) ∧
        machine.registers rcx = upperBytes (machine.registers rcx) ∧
        machine.registers rsi = 0xf0a ∧
        machine.registers rdi = (content .icr1).setWidth 64) := by
  have debug := transparent_iff
    ((wp_dbHandler ready top enough dr7).mono fun _ _ leaves => leaves.1)
  have timer := transparent_iff
    ((wp_apicTimerHandler ready holds enough).mono fun _ _ leaves => leaves.1)
  rw [← top, timer]
  rw [debug]
  constructor
  · simp [dbLeft]
  · simp [timerLeft]

end

/-- The machine of the image, interrupted with these registers. -/
def interruptedMachine (registers : Register → BitVec 64) : Machine :=
  { handlerMachine blank with
    registers
    stack := Interrupted.frame ⟨0x100234, 0x28, 0x246, 0x7fe00, 0x30, 0⟩ [] }

theorem outputReady_interruptedMachine (registers : Register → BitVec 64) :
    OutputReady handlerImage (interruptedMachine registers) :=
  (outputReady_handlerMachine blank).congr rfl rfl

theorem apicHolds_interruptedMachine (registers : Register → BitVec 64) :
    ApicHolds (interruptedMachine registers) (apicRegister (handlerMachine blank).memory) :=
  ⟨(apicHolds_handlerMachine blank).readable, fun _ => rfl⟩

theorem dbHandler_transparent_by_chance :
    Transparent (dbHandler handlerImage 64 0x401)
      (Interrupted.frame ⟨0x100234, 0x28, 0x10246, 0x7fe00, 0x30, 0⟩ [])
      (interruptedMachine fun register => if register = rax then 0x400 else 0xf08) :=
  (returning_transparent_iff (outputReady_interruptedMachine _) (apicHolds_interruptedMachine _)
    rfl (le_refl 64) 0x401).1.mpr (by decide)

/-- Code that is interrupted with zeros goes on with the cursor and a line feed. -/
theorem not_returning_transparent :
    ¬Transparent (dbHandler handlerImage 64 0x401)
      (Interrupted.frame ⟨0x100234, 0x28, 0x10246, 0x7fe00, 0x30, 0⟩ [])
      (interruptedMachine fun _ => 0) ∧
    ¬Transparent (apicTimerHandler handlerImage 64)
      (Interrupted.frame ⟨0x100234, 0x28, 0x246, 0x7fe00, 0x30, 0⟩ [])
      (interruptedMachine fun _ => 0) := by
  have ready := outputReady_interruptedMachine fun _ => 0
  constructor
  · intro transparent
    have leaves := (wp_dbHandler ready rfl (le_refl 64) 0x401).mono fun _ _ leaves => leaves.1
    have left := (transparent_iff leaves).mp transparent rsi (by decide)
    exact absurd left (by decide)
  · intro transparent
    have leaves := (wp_apicTimerHandler ready (apicHolds_interruptedMachine _)
      (le_refl 64)).mono fun _ _ leaves => leaves.1
    have left := (transparent_iff leaves).mp transparent rsi (by decide)
    exact absurd left (by decide)

end VirtLearn.Guest
