import VirtLearn.Guest.Hex
import VirtLearn.Machine.Stack

/-!
# Routines that print

The handlers of `handler64.S` and the dumps of `apic64.S` print strings of the image and numbers
one after the other, each with a pair of instructions. `Output` has these pairs, `outputs` a
sequence of them. What a sequence prints are the texts of its parts, with the numbers as they were
when it began: printing changes nothing in memory but the cursor.
-/

namespace VirtLearn.Guest

open Assembly Register

/-- The strings of `handler64.S` and `apic64.S`. -/
inductive Label where
  | demsg1 | demsg2 | demsg3 | nmimsg1 | nmimsg2 | nmimsg3 | ofmsg1 | ofmsg2 | ofmsg3
  | udmsg1 | udmsg2 | udmsg3 | nmmsg1 | nmmsg2 | nmmsg3 | dfmsg1 | tsmsg1 | tsmsg2 | tsmsg3
  | npmsg1 | npmsg2 | npmsg3 | gmsg1 | gmsg2 | gmsg3 | mcmsg1 | mcmsg2 | mcmsg3
  | pfMsg1 | pfMsg2 | pfMsg3 | dbMsg1 | dbMsg2 | atMsg1 | atMsg2
  | apicid | apicver | tpr | apr | ppr | eoi | rrd | ldr | dfr | svr | inr | tmr | irr | esr | icr
  | lvtMsg | lvtCmci | lvtTimer | lvtThermal | lvtPerfmon | lvtLint0 | lvtLint1 | lvtError
  | initCount | currentCount | dcr
deriving DecidableEq

def Label.text : Label → String
  | demsg1 => "---> Now, enter #DE handler, occur at: 0x"
  | demsg2 => "error code = 0x"
  | demsg3 => "rsp = 0x"
  | nmimsg1 => "---> Now, enter #NMI handler, occur at: 0x"
  | nmimsg2 => "error code = 0x"
  | nmimsg3 => "rsp = 0x"
  | ofmsg1 => "---> Now, enter #OF handler, occur at: 0x"
  | ofmsg2 => "error code = 0x"
  | ofmsg3 => "rsp = 0x"
  | udmsg1 => "---> Now, enter #UD handler, occur at: 0x"
  | udmsg2 => "error code = 0x"
  | udmsg3 => "rsp = 0x"
  | nmmsg1 => "---> Now, enter #NM handler, occur at: 0x"
  | nmmsg2 => "error code = 0x"
  | nmmsg3 => "rsp = 0x"
  | dfmsg1 => "---> now, enter #DF handler, occur at: 0x"
  | tsmsg1 => "---> Now, enter #TS handler, occur at: 0x"
  | tsmsg2 => "error code = 0x"
  | tsmsg3 => "rsp = 0x"
  | npmsg1 => "---> Now, enter #NP handler, occur at: 0x"
  | npmsg2 => "error code = 0x"
  | npmsg3 => "rsp = 0x"
  | gmsg1 => "---> Now, enter #GP handler, occur at: 0x"
  | gmsg2 => "error code = 0x"
  | gmsg3 => "rsp = 0x"
  | mcmsg1 => "---> Now, enter #MC handler, occur at: 0x"
  | mcmsg2 => "error code = 0x"
  | mcmsg3 => "rsp = 0x"
  | pfMsg1 => ">>> Now, enter #PF handler"
  | pfMsg2 => ">>>>>>> occur at: 0x"
  | pfMsg3 => ">>>>>>> page fault address: 0x"
  | dbMsg1 => ">>> now, enter #DB handler"
  -- the source has `\10`, which is octal
  | dbMsg2 => "now, exit #DB handler <<<\x08"
  | atMsg1 => ">>>>>>> now: enter APIC timer handler"
  | atMsg2 => "exit the APIC timer handler"
  | apicid => "apic ID: 0x"
  | apicver => "    apic version: 0x"
  | tpr => "TPR: 0x"
  | apr => "  APR: 0x"
  | ppr => "  PPR: 0x"
  | eoi => "EOI: 0x"
  | rrd => "  RRD: 0x"
  | ldr => "  LDR: 0x"
  | dfr => "DFR: 0x"
  | svr => "  SVR: 0x"
  | inr => "ISR(7-0) : 0x"
  | tmr => "TMR: 0x"
  | irr => "IRR: 0x"
  | esr => "ESR: 0x"
  | icr => "  ICR: 0x"
  | lvtMsg => "---------------------- Local Vector Table -----------------"
  | lvtCmci => "CMCI: 0x"
  | lvtTimer => "  TIMER: 0x"
  | lvtThermal => "  THERMAL: 0x"
  | lvtPerfmon => "PERFMON: 0x"
  | lvtLint0 => "  LINT0: 0x"
  | lvtLint1 => "  LINT1: 0x"
  | lvtError => "ERROR: 0x"
  | initCount => "timer_ICR: 0x"
  | currentCount => "  timer_CCR: 0x"
  | dcr => "  timer_DCR: 0x"

/-- The characters of a string, in ASCII. -/
def Label.chars (label : Label) : List Byte :=
  label.text.toList.map fun char => BitVec.ofNat 8 char.toNat

/-- Where the strings are in the image. -/
structure HandlerSymbols extends HexSymbols where
  address : Label → Address

def apicBase : Address :=
  0x800000

/-- The registers of the local APIC in `apic.h`. The wide ones have eight words. -/
inductive ApicRegister where
  | apicId | apicVer | tpr | apr | ppr | eoi | rrd | ldr | dfr | svr
  | isr (word : Fin 8) | tmr (word : Fin 8) | irr (word : Fin 8)
  | esr | lvtCmci | icr0 | icr1 | lvtTimer | lvtThermal | lvtPerfmon | lvtLint0 | lvtLint1
  | lvtError | timerIcr | timerCcr | timerDcr
deriving DecidableEq

def ApicRegister.offset : ApicRegister → Address
  | apicId => 0x20
  | apicVer => 0x30
  | tpr => 0x80
  | apr => 0x90
  | ppr => 0xa0
  | eoi => 0xb0
  | rrd => 0xc0
  | ldr => 0xd0
  | dfr => 0xe0
  | svr => 0xf0
  | isr word => 0x100 + 0x10 * BitVec.ofNat 64 word
  | tmr word => 0x180 + 0x10 * BitVec.ofNat 64 word
  | irr word => 0x200 + 0x10 * BitVec.ofNat 64 word
  | esr => 0x280
  | lvtCmci => 0x2f0
  | icr0 => 0x300
  | icr1 => 0x310
  | lvtTimer => 0x320
  | lvtThermal => 0x330
  | lvtPerfmon => 0x340
  | lvtLint0 => 0x350
  | lvtLint1 => 0x360
  | lvtError => 0x370
  | timerIcr => 0x380
  | timerCcr => 0x390
  | timerDcr => 0x3e0

def ApicRegister.address (register : ApicRegister) : Address :=
  apicBase + register.offset

/-- What is read from a register. -/
def apicRegister (memory : Memory) (register : ApicRegister) : BitVec 32 :=
  memory.read 32 register.address

/-- The pairs of instructions that print something. -/
inductive Output where
  /-- `mov $label, %rsi` and `call puts` -/
  | puts (label : Label)
  /-- `mov $char, %rsi`, or to `%esi`, and `call putc` -/
  | putc (width : ℕ) (char : Byte)
  /-- `call println` -/
  | println
  /-- `mov $0, %rsi`, or to `%esi` -/
  | clear (width : ℕ)
  /-- `mov (APIC_BASE + register), %esi` and `call print_dword_value` -/
  | dword (register : ApicRegister)
  /-- `mov offset(%rsp), %rsi` and `call print_qword_value` -/
  | qword (offset : ℕ)
deriving DecidableEq

section Routines

variable (symbols : HandlerSymbols) (fuel : ℕ)

def printDword : Routine Unit :=
  call (printDwordValue symbols.numberCharacter (putc symbols.toSymbols) fuel)

def printQword : Routine Unit :=
  call (printQwordValue symbols.numberCharacter (putc symbols.toSymbols) fuel)

def Output.routine : Output → Routine Unit
  | puts label => do
      mov 64 (.imm (symbols.address label)) (.reg rsi)
      call (Guest.puts symbols.toSymbols fuel)
  | putc width char => do
      mov width (.imm (char.setWidth width)) (.reg rsi)
      call (Guest.putc symbols.toSymbols)
  | println => call (Guest.println symbols.toSymbols)
  | clear width => mov width (.imm 0) (.reg rsi)
  | dword register => do
      mov 32 (.symbol register.address) (.reg rsi)
      printDword symbols fuel
  | qword offset => do
      movFromStack offset rsi
      printQword symbols fuel

def outputs : List Output → Routine Unit
  | [] => pure ()
  | output :: rest => do
      output.routine symbols fuel
      outputs rest

end Routines

/-- The digits of 64 bits. -/
def qwordText (value : BitVec 64) : List Byte :=
  hexText 16 value.toNat

def dwordText (value : BitVec 32) : List Byte :=
  hexText 8 value.toNat

@[simp]
theorem length_qwordText (value : BitVec 64) : (qwordText value).length = 16 :=
  length_hexText 16 _

@[simp]
theorem length_dwordText (value : BitVec 32) : (dwordText value).length = 8 :=
  length_hexText 8 _

namespace Output

/-- What is printed in a state. -/
def text (machine : Machine) : Output → List Byte
  | puts label => label.chars
  | putc _ char => [char]
  | println => [10]
  | clear _ => []
  | dword register => dwordText (apicRegister machine.memory register)
  | qword offset => qwordText ((stackQword machine.stack offset).getD 0)

/-- What is to be printed can be read, and registers are written in their whole width. -/
def Fine (machine : Machine) : Output → Prop
  | puts _ | println => True
  | putc width _ | clear width => width = 32 ∨ width = 64
  | dword register => machine.ram register.address = true
  | qword offset => (stackQword machine.stack offset).isSome = true

/-- What becomes of `rcx`: the numbers clear its lowest byte. -/
def rcx : Output → BitVec 64 → BitVec 64
  | puts _ | putc _ _ | println | clear _ => id
  | dword _ | qword _ => upperBytes

end Output

/-- Memory is as the handlers rely on: the strings and the table of digits are there, and the cursor
has been moved by fewer than 2^49 characters. -/
structure OutputReady (symbols : HandlerSymbols) (machine : Machine) : Prop where
  hex : HexReady symbols.toHexSymbols machine.ram machine.memory
  advanced : Advanced (2 ^ 49) (cursor symbols.toSymbols machine)
  strings : ∀ label, StringAt symbols.toSymbols machine label.chars (symbols.address label)
  placed : ∀ label, symbols.address label ≠ 0#64

/-- `after` differs from `machine` in the text that was printed, and in the registers that the
handlers use. -/
structure Shows (symbols : HandlerSymbols) (machine : Machine) (text : List Byte)
    (after : Machine) : Prop where
  only : OnlyRegisters [rax, rcx, rsi, rdi] (printedText symbols.toSymbols machine text) after
  few : text.length ≤ 2 ^ 48

section

variable {symbols : HandlerSymbols} {machine before after : Machine} {text more : List Byte}
  {fuel : ℕ}

theorem printedText_append (symbols : Symbols) (machine : Machine) (first second : List Byte) :
    printedText symbols machine (first ++ second) =
      printedText symbols (printedText symbols machine first) second :=
  List.foldl_append

/-- Printing changes nothing in memory but the cursor. -/
theorem memory_printedText {symbols : Symbols}
    (inRam : machine.ram symbols.videoCurrent = true)
    (off : EveryCharAt (OffRam machine) (cursor symbols machine) text) {place : Address}
    (apart : ¬Within place symbols.videoCurrent 8) :
    (printedText symbols machine text).memory place = machine.memory place := by
  induction text generalizing machine with
  | nil => rfl
  | cons char rest ih =>
      have first : (printed symbols machine char).memory place = machine.memory place := by
        rw [memory_printed inRam off.1]
        exact Memory.write_of_not_within (by decide) apart
      rw [← first]
      apply ih
      · rw [ram_printed, inRam]
      · rw [cursor_printed inRam, offRam_congr (ram_printed machine char)]
        exact off.2

theorem offset_le (register : ApicRegister) : register.offset.toNat ≤ 0x3e0 := by
  cases register with
  | isr word | tmr word | irr word =>
      have small := word.isLt
      simp only [ApicRegister.offset]
      bv_omega
  | _ => decide

/-- The APIC is apart from the cursor. -/
theorem not_within_of_apic (symbols : Symbols) (register : ApicRegister) {place : Address}
    (within : Within place register.address 4) : ¬Within place symbols.videoCurrent 8 := by
  have linked := symbols.linked
  have small := offset_le register
  simp only [Within, ApicRegister.address, apicBase] at within ⊢
  bv_omega

namespace OutputReady

theorem screen (ready : OutputReady symbols machine) : HasScreen symbols.toSymbols machine :=
  ⟨ready.hex.inRam, ready.hex.video⟩

theorem off (ready : OutputReady symbols machine) (few : text.length ≤ 2 ^ 49) :
    EveryCharAt (OffRam machine) (cursor symbols.toSymbols machine) text :=
  ready.screen.offRam (ready.advanced.everyCharAt (by omega))

end OutputReady

namespace Shows

theorem refl (symbols : HandlerSymbols) (machine : Machine) : Shows symbols machine [] machine :=
  ⟨OnlyRegisters.refl _ _, Nat.zero_le _⟩

/-- One text behind the other. -/
theorem trans (shows_ : Shows symbols machine text before) {changed : List Register}
    (covered : changed ⊆ [rax, rcx, rsi, rdi])
    (later : OnlyRegisters changed (printedText symbols.toSymbols before more) after)
    (few : text.length + more.length ≤ 2 ^ 48) : Shows symbols machine (text ++ more) after where
  only := by
    rw [printedText_append]
    exact (only_printedText more shows_.only).trans (later.mono covered)
  few := by
    rw [List.length_append]
    exact few

theorem put (shows_ : Shows symbols machine text before) {register : Register} {width : ℕ}
    (listed : register ∈ [rax, rcx, rsi, rdi]) (value : BitVec width) :
    Shows symbols machine text (before.put register value) :=
  ⟨shows_.only.put listed value, shows_.few⟩

theorem withFlags (shows_ : Shows symbols machine text before) (zf cf : Bool) :
    Shows symbols machine text (before.withFlags zf cf) :=
  ⟨shows_.only.withFlags zf cf, shows_.few⟩

theorem stack (shows_ : Shows symbols machine text before) : before.stack = machine.stack :=
  shows_.only.stack.trans (stack_printedText machine text)

theorem ram (shows_ : Shows symbols machine text before) : before.ram = machine.ram :=
  shows_.only.ram.trans (ram_printedText machine text)

theorem memory (shows_ : Shows symbols machine text before) (ready : OutputReady symbols machine)
    {place : Address} (apart : ¬Within place symbols.videoCurrent 8) :
    before.memory place = machine.memory place := by
  have few := shows_.few
  rw [shows_.only.memory]
  exact memory_printedText ready.hex.inRam (ready.off (by omega)) apart

theorem cursor_eq (shows_ : Shows symbols machine text before)
    (ready : OutputReady symbols machine) :
    cursor symbols.toSymbols before =
      text.foldl nextCursor (cursor symbols.toSymbols machine) := by
  rw [← cursor_printedText ready.hex.inRam, cursor, shows_.only.memory, cursor]

theorem advanced (shows_ : Shows symbols machine text before)
    (ready : OutputReady symbols machine) :
    Advanced (2 ^ 49 + 2 ^ 48) (cursor symbols.toSymbols before) := by
  have few := shows_.few
  have moved := ready.advanced.foldl (by omega : 2 ^ 49 + text.length ≤ 2 ^ 50)
  rw [shows_.cursor_eq ready]
  exact ⟨moved.even, moved.above, moved.bounded.trans (by omega)⟩

theorem off (shows_ : Shows symbols machine text before) (ready : OutputReady symbols machine)
    (few : more.length ≤ 2 ^ 48) :
    EveryCharAt (OffRam before) (cursor symbols.toSymbols before) more :=
  (ready.screen.congr shows_.ram).offRam ((shows_.advanced ready).everyCharAt (by omega))

theorem inRam (shows_ : Shows symbols machine text before) (ready : OutputReady symbols machine) :
    before.ram symbols.videoCurrent = true := by
  rw [shows_.ram]
  exact ready.hex.inRam

theorem hex (shows_ : Shows symbols machine text before) (ready : OutputReady symbols machine) :
    HexReady symbols.toHexSymbols before.ram before.memory where
  inRam := shows_.inRam ready
  video := by
    rw [shows_.ram]
    exact ready.hex.video
  table := by
    refine ⟨?_, ?_⟩
    · intro digit small
      rw [shows_.memory ready (symbols.apart digit small)]
      exact ready.hex.table.loaded digit small
    · rw [shows_.ram]
      exact ready.hex.table.inRam
  above := (shows_.advanced ready).above

theorem string (shows_ : Shows symbols machine text before) (ready : OutputReady symbols machine)
    (label : Label) :
    StringAt symbols.toSymbols before label.chars (symbols.address label) :=
  (ready.strings label).congr shows_.ram fun _ apart => shows_.memory ready apart

/-- The registers of the APIC are read as they were. -/
theorem apicRegister_eq (shows_ : Shows symbols machine text before)
    (ready : OutputReady symbols machine) (register : ApicRegister) :
    apicRegister before.memory register = apicRegister machine.memory register := by
  apply Memory.read_congr (by decide)
  intro place within
  apply shows_.memory ready
  exact not_within_of_apic symbols.toSymbols register within

end Shows

/-! ### One output -/

/-- The characters, without the way that a string keeps them. -/
theorem Label.chars_of_text {label : Label} {list : List Char}
    (spelled : label.text = String.ofList list) :
    label.chars = list.map fun char => BitVec.ofNat 8 char.toNat := by
  rw [chars, spelled, String.toList_ofList]

theorem length_chars_le (label : Label) : label.chars.length < 64 := by
  cases label <;> rw [Label.chars_of_text rfl] <;> decide

theorem wp_printValueShown (ready : OutputReady symbols machine)
    (shows_ : Shows symbols machine text before) {behind : ℕ} (small : behind < 16)
    (enough : 16 ≤ fuel) (few : text.length + 16 ≤ 2 ^ 48) :
    wp (call (printValue symbols.numberCharacter (putc symbols.toSymbols)
        (BitVec.ofNat 64 (behind + 1)) fuel))
      (fun _ after =>
        Shows symbols machine
          (text ++ hexText (behind + 1) (before.registers rsi).toNat) after ∧
        after.registers rcx = upperBytes (before.registers rcx) ∧
        after.registers rdi = before.registers rdi)
      before := by
  apply (wp_call_printValue (prints_putc symbols.toHexSymbols) (shows_.hex ready) small
    (by omega : behind < fuel)).mono
  rintro _ after ⟨only, counter⟩
  refine ⟨shows_.trans (by simp) only (by simp; omega), counter, ?_⟩
  rw [only.registers rdi (by decide)]
  exact congrFun (registers_printedText _ _) rdi

theorem wp_printQwordShown (ready : OutputReady symbols machine)
    (shows_ : Shows symbols machine text before) {value : BitVec 64}
    (passed : before.registers rsi = value) (enough : 64 ≤ fuel)
    (few : text.length + 16 ≤ 2 ^ 48) :
    wp (printQword symbols fuel)
      (fun _ after => Shows symbols machine (text ++ qwordText value) after ∧
        after.registers rcx = upperBytes (before.registers rcx) ∧
        after.registers rdi = before.registers rdi)
      before := by
  rw [← passed]
  exact wp_printValueShown ready shows_ (by decide : 15 < 16) (by omega) few

/-- A string is printed, with its last character left in `rsi` and all other registers kept. -/
theorem wp_putsShown (ready : OutputReady symbols machine)
    (shows_ : Shows symbols machine text before) (label : Label) (enough : 64 ≤ fuel)
    (few : text.length + 64 ≤ 2 ^ 48) :
    wp ((Output.puts label).routine symbols fuel)
      (fun _ after => Shows symbols machine (text ++ label.chars) after ∧
        (∀ register, register ≠ rsi → after.registers register = before.registers register) ∧
        after.registers rsi = lastCell (symbols.address label) label.chars)
      before := by
  have short := length_chars_le label
  have passed := shows_.put (by decide : rsi ∈ [rax, rcx, rsi, rdi]) (symbols.address label)
  have address : (before.put rsi (symbols.address label)).registers rsi =
      symbols.address label := by
    simp
  simp only [Output.routine, mov, wp_bind, wp_fetch_imm, wp_assign_reg]
  have string : StringAt symbols.toSymbols (before.put rsi (symbols.address label)) label.chars
      ((before.put rsi (symbols.address label)).registers rsi) := by
    rw [address]
    exact passed.string ready label
  apply (wp_call_puts_exact (passed.inRam ready) string (by rw [address]; exact ready.placed label)
    (passed.off ready (by omega)) (by omega)).mono
  rintro _ after ⟨only, last⟩
  refine ⟨passed.trans (by simp) only (by omega), ?_, by rw [last, address]⟩
  intro register other
  rw [only.registers register (by simpa using other), registers_printedText]
  simp [other]

/-- A character is printed, with `rax` left at the cursor and `rsi` at what was stored. -/
theorem Shows.char {char : Byte} (shows_ : Shows symbols machine text before)
    (done : CharPrinted symbols.toSymbols before char after)
    (few : text.length + 64 ≤ 2 ^ 48) :
    Shows symbols machine (text ++ [char]) after ∧
      after.registers rcx = before.registers rcx ∧ after.registers rdi = before.registers rdi := by
  refine ⟨shows_.trans (by simp) done.only (by simp; omega), ?_, ?_⟩
  · rw [done.only.registers rcx (by decide), registers_printed]
  · rw [done.only.registers rdi (by decide), registers_printed]

/-- Each output prints its text. -/
theorem wp_output {output : Output} (ready : OutputReady symbols machine)
    (shows_ : Shows symbols machine text before) (fine : output.Fine machine) (enough : 64 ≤ fuel)
    (few : text.length + 64 ≤ 2 ^ 48) :
    wp (output.routine symbols fuel)
      (fun _ after => Shows symbols machine (text ++ output.text machine) after ∧
        after.registers rcx = output.rcx (before.registers rcx) ∧
        after.registers rdi = before.registers rdi)
      before := by
  have listed : rsi ∈ [rax, rcx, rsi, rdi] := by decide
  cases output with
  | puts label =>
      apply (wp_putsShown ready shows_ label enough few).mono
      rintro _ after ⟨shown, kept, _⟩
      exact ⟨shown, kept rcx (by decide), kept rdi (by decide)⟩
  | putc width char =>
      have passed := shows_.put listed (char.setWidth width)
      have low : (before.put rsi (char.setWidth width)).get 8 rsi = char := by
        rcases fine with rfl | rfl <;>
          simp [Machine.get, Machine.setWidth_merge]
      simp only [Output.routine, mov, wp_bind, wp_fetch_imm, wp_assign_reg]
      apply (wp_call_putc_exact (passed.inRam ready) low).mono
      intro _ after done
      rcases passed.char done few with ⟨shown, counter, destination⟩
      refine ⟨shown, ?_, ?_⟩
      · simpa [Output.rcx] using counter
      · simpa using destination
  | println =>
      apply (wp_call_println_exact (shows_.inRam ready)).mono
      intro _ after done
      exact shows_.char done few
  | clear width =>
      simp only [Output.routine, mov, wp_bind, wp_fetch_imm, wp_assign_reg]
      refine ⟨?_, by simp [Output.rcx], by simp⟩
      rw [Output.text, List.append_nil]
      exact shows_.put listed _
  | dword register =>
      have value := shows_.apicRegister_eq ready register
      have address : before.effective register.address none none = register.address := by
        simp [Machine.effective]
      have readable : before.ram register.address = true := by
        rw [shows_.ram]
        exact fine
      simp only [Output.routine, mov, Operand.symbol, wp_bind, wp_fetch_mem, wp_assign_reg, address]
      refine ⟨readable, ?_⟩
      have passed := shows_.put listed (before.memory.read 32 register.address)
      apply (wp_printValueShown ready passed (by decide : 7 < 16) (by omega) (by omega)).mono
      rintro _ after ⟨shown, counter, destination⟩
      have read : ((before.put rsi (before.memory.read 32 register.address)).registers
          rsi).toNat = (apicRegister machine.memory register).toNat := by
        have bound := (apicRegister before.memory register).isLt
        have whole : (before.put rsi (before.memory.read 32 register.address)).registers rsi =
            (apicRegister before.memory register).setWidth 64 := by
          rw [Machine.registers_put, if_pos rfl, merge, if_pos rfl, apicRegister]
        rw [whole, ← value, BitVec.toNat_setWidth, Nat.mod_eq_of_lt (by omega)]
      rw [read] at shown
      exact ⟨shown, by simpa [Output.rcx] using counter, by simpa using destination⟩
  | qword offset =>
      rcases Option.isSome_iff_exists.mp fine with ⟨value, found⟩
      have foundHere := found
      rw [← shows_.stack] at foundHere
      simp only [Output.routine, wp_bind, wp_movFromStack foundHere]
      have passed := shows_.put listed value
      have read : (before.put rsi value).registers rsi = value := by simp
      apply (wp_printQwordShown ready passed read enough (by omega)).mono
      rintro _ after ⟨shown, counter, destination⟩
      refine ⟨?_, by simpa [Output.rcx] using counter, by simpa using destination⟩
      rw [Output.text, found]
      exact shown

/-! ### A sequence of outputs -/

theorem length_text_le (machine : Machine) (output : Output) :
    (output.text machine).length ≤ 64 := by
  cases output with
  | puts label => exact Nat.le_of_lt (length_chars_le label)
  | _ => simp [Output.text]

def textOfOutputs (machine : Machine) (list : List Output) : List Byte :=
  list.flatMap (Output.text machine)

theorem length_textOfOutputs_le (machine : Machine) (list : List Output) :
    (textOfOutputs machine list).length ≤ 64 * list.length := by
  induction list with
  | nil => exact le_refl _
  | cons output list ih =>
      have short := length_text_le machine output
      rw [textOfOutputs] at ih
      rw [textOfOutputs, List.flatMap_cons, List.length_append, List.length_cons]
      omega

def rcxAfter (list : List Output) (old : BitVec 64) : BitVec 64 :=
  list.foldl (fun rcx output => output.rcx rcx) old

/-- A sequence prints the texts of its outputs. -/
theorem wp_outputs {list : List Output} (ready : OutputReady symbols machine)
    (shows_ : Shows symbols machine text before) (fine : ∀ output ∈ list, output.Fine machine)
    (enough : 64 ≤ fuel) (few : text.length + 64 * list.length ≤ 2 ^ 48) :
    wp (outputs symbols fuel list)
      (fun _ after => Shows symbols machine (text ++ textOfOutputs machine list) after ∧
        after.registers rcx = rcxAfter list (before.registers rcx) ∧
        after.registers rdi = before.registers rdi)
      before := by
  induction list generalizing text before with
  | nil =>
      simp only [outputs, wp_pure, textOfOutputs, List.flatMap_nil, List.append_nil]
      refine ⟨shows_, ?_, trivial⟩
      rfl
  | cons output list ih =>
      rw [List.length_cons] at few
      simp only [outputs, wp_bind]
      apply (wp_output ready shows_ (fine output (by simp)) enough (by omega)).mono
      rintro _ between ⟨shown, counter, destination⟩
      have short := length_text_le machine output
      apply (ih shown (fun later mem => fine later (List.mem_cons_of_mem _ mem))
        (by rw [List.length_append]; omega)).mono
      rintro _ after ⟨shownAll, counterAfter, destinationAfter⟩
      refine ⟨?_, ?_, destinationAfter.trans destination⟩
      · rwa [textOfOutputs, List.flatMap_cons, ← List.append_assoc]
      · rw [counterAfter, counter]
        rfl

theorem OutputReady.congr (ready : OutputReady symbols machine) (ram : after.ram = machine.ram)
    (memory : after.memory = machine.memory) : OutputReady symbols after where
  hex := by
    rw [ram, memory]
    exact ready.hex
  advanced := by
    rw [cursor, memory]
    exact ready.advanced
  strings := fun label => (ready.strings label).congr ram fun _ _ => congrFun memory _
  placed := ready.placed

theorem OutputReady.withStack (ready : OutputReady symbols machine) (stack : List StackItem) :
    OutputReady symbols (machine.withStack stack) :=
  ready.congr rfl rfl

theorem Shows.withStack (shows_ : Shows symbols machine text before) (stack : List StackItem) :
    Shows symbols (machine.withStack stack) text (before.withStack stack) where
  only := by
    rw [printedText_withStack]
    exact ⟨shows_.only.registers, rfl, shows_.only.ram, shows_.only.memory, shows_.only.writes⟩
  few := shows_.few

theorem Output.fine_withStack {output : Output} (offStack : ∀ offset, output ≠ .qword offset)
    (stack : List StackItem) : output.Fine (machine.withStack stack) = output.Fine machine := by
  cases output with
  | qword offset => exact absurd rfl (offStack offset)
  | _ => rfl

theorem textOfOutputs_withStack {list : List Output}
    (offStack : ∀ output ∈ list, ∀ offset, output ≠ .qword offset) (stack : List StackItem) :
    textOfOutputs (machine.withStack stack) list = textOfOutputs machine list := by
  rw [textOfOutputs, textOfOutputs]
  apply List.flatMap_congr
  intro output mem
  cases output with
  | qword offset => exact absurd rfl (offStack _ mem offset)
  | _ => rfl

/-- What is printed behind a return address is printed by the call. -/
theorem wp_call_of_shows {routine : Routine Unit} {left : (Register → BitVec 64) → Prop}
    (shows_ : Shows symbols machine text before)
    (prints : wp routine
      (fun _ after =>
        Shows symbols (machine.withStack (.returnAddress :: machine.stack)) more after ∧
          left after.registers)
      (before.withStack (.returnAddress :: machine.stack))) :
    wp (call routine)
      (fun _ after => Shows symbols machine more after ∧ left after.registers) before := by
  apply wp_call
  rw [shows_.stack]
  apply prints.mono
  rintro _ after ⟨shown, leaves⟩
  exact ⟨shown.stack, shown.withStack machine.stack, leaves⟩

/-- A sequence that does not look at the stack may be called. -/
theorem wp_call_outputs {list : List Output} (ready : OutputReady symbols machine)
    (shows_ : Shows symbols machine text before) (fine : ∀ output ∈ list, output.Fine machine)
    (offStack : ∀ output ∈ list, ∀ offset, output ≠ .qword offset)
    (enough : 64 ≤ fuel) (few : text.length + 64 * list.length ≤ 2 ^ 48) :
    wp (call (outputs symbols fuel list))
      (fun _ after => Shows symbols machine (text ++ textOfOutputs machine list) after ∧
        after.registers rcx = rcxAfter list (before.registers rcx) ∧
        after.registers rdi = before.registers rdi)
      before := by
  have fineHere : ∀ output ∈ list,
      output.Fine (machine.withStack (.returnAddress :: machine.stack)) := by
    intro output mem
    rw [Output.fine_withStack (offStack output mem)]
    exact fine output mem
  apply @wp_call_of_shows _ _ _ _ _ _
    (fun registers => registers rcx = rcxAfter list (before.registers rcx) ∧
      registers rdi = before.registers rdi) shows_
  rw [← textOfOutputs_withStack offStack (.returnAddress :: machine.stack)]
  exact wp_outputs (ready.withStack _) (shows_.withStack _) fineHere enough few

end

/-! ### What is seen of a text -/

/-- The text is on the screen: nothing else was stored but the cursor. -/
def Displays (symbols : HandlerSymbols) (machine : Machine) (text : List Byte) (after : Machine) :
    Prop :=
  after.memory = (printedText symbols.toSymbols machine text).memory ∧
    after.writes = (printedText symbols.toSymbols machine text).writes

/-- Where a text has its line feeds. -/
def lineFeeds (text : List Byte) : List Bool :=
  text.map fun char => char == 10

theorem count_eq_of_lineFeeds {first second : List Byte}
    (alike : lineFeeds first = lineFeeds second) : first.count 10 = second.count 10 := by
  have counts := congrArg (List.countP id) alike
  simpa [lineFeeds, List.countP_map, List.count] using counts

theorem length_eq_of_lineFeeds {first second : List Byte}
    (alike : lineFeeds first = lineFeeds second) : first.length = second.length := by
  simpa [lineFeeds] using congrArg List.length alike

theorem nextCursor_congr (cursor : Address) {first second : Byte}
    (same : (first == 10) = (second == 10)) :
    nextCursor cursor first = nextCursor cursor second := by
  have both : first = 10 ↔ second = 10 := by
    rw [← beq_iff_eq, same, beq_iff_eq]
  simp only [nextCursor, both]

/-- While all characters are on the screen, the stores tell the text. -/
theorem eq_of_stores_eq {cursor : Address} {first second : List Byte}
    (alike : lineFeeds first = lineFeeds second)
    (visible : EveryCharAt (fun place => place ≤ 0xb9ff0) cursor first)
    (same : stores cursor first = stores cursor second) : first = second := by
  induction first generalizing second cursor with
  | nil => exact (List.map_eq_nil_iff.mp alike.symm).symm
  | cons char rest ih =>
      rcases second with _ | ⟨other, others⟩
      · cases alike
      rw [lineFeeds, lineFeeds, List.map_cons, List.map_cons] at alike
      rcases List.cons.inj alike with ⟨sameFeed, alikeRest⟩
      rcases visible with ⟨here, onward⟩
      have both : char = 10 ↔ other = 10 := by
        rw [← beq_iff_eq, sameFeed, beq_iff_eq]
      rw [stores, stores, nextCursor_congr cursor sameFeed] at same
      rw [nextCursor_congr cursor sameFeed] at onward
      by_cases newline : char = 10
      · have otherNewline := both.mp newline
        simp only [newline, otherNewline, ne_eq, not_true_eq_false, false_and, if_false,
          List.nil_append] at same onward
        rw [newline, otherNewline, ih alikeRest onward same]
      · have otherShown := mt both.mpr newline
        rw [if_pos ⟨newline, here newline⟩, if_pos ⟨otherShown, here newline⟩] at same
        rcases List.cons.inj same with ⟨stored, later⟩
        have chars := (BusWrite.mk.inj stored).2
        rw [(List.cons.inj chars).1, ih alikeRest onward later]

/-- A text is on the screen if there is room for its lines and characters. -/
theorem visible_of_room {cursor : Address} {text : List Byte} (above : 0xb8000 ≤ cursor.toNat)
    (room : cursor.toNat + 160 * text.count 10 + 2 * text.length ≤ 0xb9ff0) :
    EveryCharAt (fun place => place ≤ 0xb9ff0) cursor text := by
  induction text generalizing cursor with
  | nil => trivial
  | cons char rest ih =>
      rw [List.length_cons, List.count_cons] at room
      refine ⟨?_, ?_⟩
      · intro _
        rw [BitVec.le_def]
        simp
        omega
      · by_cases newline : char = 10
        · have next := toNat_nextCursor_newline above (by omega)
          rw [← newline] at next
          simp only [newline, beq_self_eq_true, if_true] at room next ⊢
          apply ih <;> omega
        · have next := @toNat_nextCursor_of_ne cursor char newline
          simp only [beq_iff_eq, newline, if_false] at room
          rw [if_pos (by omega)] at next
          apply ih <;> omega

section

variable {symbols : HandlerSymbols} {machine : Machine}

/-- The machine with the cursor at the start of video memory, and with another stack. -/
def atHome (symbols : HandlerSymbols) (machine : Machine) (stack : List StackItem) : Machine :=
  { machine with
    memory := machine.memory.write symbols.videoCurrent (0xb8000 : BitVec 64)
    stack }

theorem cursor_atHome (stack : List StackItem) :
    cursor symbols.toSymbols (atHome symbols machine stack) = 0xb8000 :=
  Memory.read_write (by decide) (by decide) _ _ _

theorem OutputReady.atHome (ready : OutputReady symbols machine) (stack : List StackItem) :
    OutputReady symbols (atHome symbols machine stack) := by
  have kept : ∀ place, ¬Within place symbols.videoCurrent 8 →
      (Guest.atHome symbols machine stack).memory place = machine.memory place := by
    intro place apart
    exact Memory.write_of_not_within (by decide) apart
  have home : (Guest.atHome symbols machine stack).memory.read 64 symbols.videoCurrent =
      0xb8000#64 := cursor_atHome stack
  refine ⟨⟨ready.hex.inRam, ready.hex.video, ⟨?_, ready.hex.table.inRam⟩, ?_⟩, ?_, ?_,
    ready.placed⟩
  · intro digit small
    rw [kept _ (symbols.apart digit small)]
    exact ready.hex.table.loaded digit small
  · rw [home]
    decide
  · rw [cursor_atHome]
    exact ⟨by decide, by decide, by decide⟩
  · intro label
    exact (ready.strings label).congr rfl kept

/-- A routine displays one text only, where there is room for it. -/
theorem eq_of_displays {routine : Routine Unit} {first second : List Byte}
    (ready : OutputReady symbols machine) (home : cursor symbols.toSymbols machine = 0xb8000)
    (alike : lineFeeds first = lineFeeds second)
    (room : 160 * first.count 10 + 2 * first.length ≤ 0x1ff0)
    (displays : wp routine (fun _ after => Displays symbols machine first after) machine)
    (displaysToo : wp routine (fun _ after => Displays symbols machine second after) machine) :
    first = second := by
  have length := length_eq_of_lineFeeds alike
  rcases displays with ⟨_, after, ends, _, writes⟩
  have writesToo := ((wp_iff_of_ends ends).mp displaysToo).2
  rw [writes, writes_printedText ready.hex.inRam (ready.off (by omega)),
    writes_printedText ready.hex.inRam (ready.off (by omega))] at writesToo
  have visible : EveryCharAt (fun place => place ≤ 0xb9ff0) (cursor symbols.toSymbols machine)
      first := by
    rw [home]
    have start : (0xb8000 : Address).toNat = 0xb8000 := rfl
    apply visible_of_room <;> rw [start]
    omega
  exact eq_of_stores_eq alike visible (List.append_cancel_left writesToo)

theorem lineFeeds_append (first second : List Byte) :
    lineFeeds (first ++ second) = lineFeeds first ++ lineFeeds second :=
  List.map_append

theorem lineFeeds_hexText (count value : ℕ) :
    lineFeeds (hexText count value) = List.replicate count false := by
  apply List.eq_replicate_iff.mpr
  refine ⟨by simp [lineFeeds], ?_⟩
  intro feed mem
  rcases List.mem_map.mp mem with ⟨char, listed, rfl⟩
  exact beq_eq_false_iff_ne.mpr (ne_newline_of_mem char (mem_hexText char listed))

theorem count_hexText (count value : ℕ) : (hexText count value).count 10 = 0 := by
  apply List.count_eq_zero.mpr
  intro listed
  exact ne_newline_of_mem 10 (mem_hexText 10 listed) rfl

@[simp]
theorem count_chars (label : Label) : label.chars.count 10#8 = 0 := by
  cases label <;> rw [Label.chars_of_text rfl] <;> decide

theorem qwordText_injective {first second : BitVec 64} (same : qwordText first = qwordText second) :
    first = second := by
  have read := congrArg readHex same
  rw [qwordText, qwordText, readHex_hexText, readHex_hexText] at read
  have bound := first.isLt
  have otherBound := second.isLt
  apply BitVec.eq_of_toNat_eq
  omega

theorem qwordText_append_inj {first second : BitVec 64} {rest more : List Byte}
    (same : qwordText first ++ rest = qwordText second ++ more) : first = second ∧ rest = more := by
  rcases List.append_inj same (by simp) with ⟨sameText, sameRest⟩
  exact ⟨qwordText_injective sameText, sameRest⟩

@[simp]
theorem lineFeeds_qwordText (value : BitVec 64) :
    lineFeeds (qwordText value) = List.replicate 16 false :=
  lineFeeds_hexText 16 _

@[simp]
theorem count_qwordText (value : BitVec 64) : (qwordText value).count 10#8 = 0 :=
  count_hexText 16 _

/-- What is shown is displayed. -/
theorem Shows.displays {text : List Byte} {after : Machine}
    (shows_ : Shows symbols machine text after) : Displays symbols machine text after :=
  ⟨shows_.only.memory, shows_.only.writes⟩

end

/-! ### An image -/

def labels : List Label :=
  [.demsg1, .demsg2, .demsg3, .nmimsg1, .nmimsg2, .nmimsg3, .ofmsg1, .ofmsg2, .ofmsg3, .udmsg1,
    .udmsg2, .udmsg3, .nmmsg1, .nmmsg2, .nmmsg3, .dfmsg1, .tsmsg1, .tsmsg2, .tsmsg3, .npmsg1,
    .npmsg2, .npmsg3, .gmsg1, .gmsg2, .gmsg3, .mcmsg1, .mcmsg2, .mcmsg3, .pfMsg1, .pfMsg2, .pfMsg3,
    .dbMsg1, .dbMsg2, .atMsg1, .atMsg2, .apicid, .apicver, .tpr, .apr, .ppr, .eoi, .rrd, .ldr, .dfr,
    .svr, .inr, .tmr, .irr, .esr, .icr, .lvtMsg, .lvtCmci, .lvtTimer, .lvtThermal, .lvtPerfmon,
    .lvtLint0, .lvtLint1, .lvtError, .initCount, .currentCount, .dcr]

/-- The image of the printing routines, with the strings 64 bytes apart. -/
def handlerImage : HandlerSymbols where
  toHexSymbols := hexImage
  address label := BitVec.ofNat 64 (0x11000 + 64 * labels.idxOf label)

/-- A machine with that image, a cursor at the start of video memory, and these bytes from
`APIC_BASE` on. -/
def handlerMachine (apic : Memory) : Machine where
  registers _ := 0
  ram := Kvm.inSlots
  memory place :=
    if 0x11000 ≤ place.toNat ∧ place.toNat < 0x12000 then
      (labels[(place.toNat - 0x11000) / 64]?.elim [] Label.chars).getD
        ((place.toNat - 0x11000) % 64) 0
    else if 0x800000 ≤ place.toNat then apic place
    else hexMachine.memory place

theorem getElem?_idxOf_labels (label : Label) : labels[labels.idxOf label]? = some label := by
  cases label <;> rfl

theorem idxOf_labels_lt (label : Label) : labels.idxOf label < 64 := by
  cases label <;> decide

theorem zero_notMem_chars (label : Label) : 0 ∉ label.chars := by
  cases label <;> rw [Label.chars_of_text rfl] <;> decide

theorem memory_handlerMachine {offset : ℕ} (apic : Memory) (label : Label) (small : offset < 64) :
    (handlerMachine apic).memory (handlerImage.address label + BitVec.ofNat 64 offset) =
      label.chars.getD offset 0 := by
  have few := idxOf_labels_lt label
  have place : (handlerImage.address label + BitVec.ofNat 64 offset).toNat =
      0x11000 + 64 * labels.idxOf label + offset := by
    simp [handlerImage]
    omega
  have quotient : (0x11000 + 64 * labels.idxOf label + offset - 0x11000) / 64 =
      labels.idxOf label := by
    omega
  have remainder : (0x11000 + 64 * labels.idxOf label + offset - 0x11000) % 64 = offset := by
    omega
  simp only [handlerMachine, place, quotient, remainder, getElem?_idxOf_labels]
  rw [if_pos (by omega)]
  rfl

theorem memory_handlerMachine_below {place : Address} (apic : Memory)
    (below : place.toNat < 0x11000) :
    (handlerMachine apic).memory place = hexMachine.memory place := by
  simp only [handlerMachine]
  rw [if_neg (by omega), if_neg (by omega)]

theorem cursor_handlerMachine (apic : Memory) :
    cursor handlerImage.toSymbols (handlerMachine apic) = 0xb8000 := by
  have same : cursor handlerImage.toSymbols (handlerMachine apic) =
      cursor hexImage.toSymbols hexMachine := by
    apply Memory.read_congr (by decide)
    intro place within
    apply memory_handlerMachine_below
    simp only [Within, handlerImage, hexImage, image] at within
    bv_omega
  rw [same]
  decide

theorem hexReady_handlerMachine (apic : Memory) :
    HexReady handlerImage.toHexSymbols (handlerMachine apic).ram (handlerMachine apic).memory where
  inRam := hexReady_hexMachine.inRam
  video := hexReady_hexMachine.video
  table := by
    refine ⟨?_, hexReady_hexMachine.table.inRam⟩
    intro digit small
    rw [memory_handlerMachine_below apic]
    · exact hexReady_hexMachine.table.loaded digit small
    · simp only [handlerImage, hexImage]
      bv_omega
  above := by
    have home := cursor_handlerMachine apic
    rw [cursor] at home
    rw [home]
    decide

theorem stringAt_handlerMachine (apic : Memory) (label : Label) :
    StringAt handlerImage.toSymbols (handlerMachine apic) label.chars
      (handlerImage.address label) := by
  have short := length_chars_le label
  have few := idxOf_labels_lt label
  have start : (handlerImage.address label).toNat = 0x11000 + 64 * labels.idxOf label := by
    simp [handlerImage]
    omega
  refine ⟨?_, zero_notMem_chars label, ?_, ?_, by omega⟩
  · have loaded := @Memory.load_eq_of_bytes (handlerMachine apic).memory
      (handlerImage.address label) (label.chars ++ [0]) ?_
    · rwa [List.length_append] at loaded
    · intro offset below
      rw [List.length_append, List.length_singleton] at below
      rw [memory_handlerMachine apic label (by omega)]
      by_cases inside : offset < label.chars.length
      · rw [List.getD_append _ _ _ _ inside]
      · rw [List.getD_append_right _ _ _ _ (by omega), List.getD_eq_default _ _ (by omega)]
        simp [show offset - label.chars.length = 0 by omega]
  · intro place within
    simp only [handlerMachine, Kvm.inSlots, decide_eq_true_eq, Within] at within ⊢
    bv_omega
  · intro place within
    have video : (handlerImage.videoCurrent).toNat = 0x10040 := rfl
    simp only [Within] at within ⊢
    bv_omega

theorem outputReady_handlerMachine (apic : Memory) :
    OutputReady handlerImage (handlerMachine apic) where
  hex := hexReady_handlerMachine apic
  advanced := by
    rw [cursor_handlerMachine]
    exact ⟨by decide, by decide, by decide⟩
  strings := stringAt_handlerMachine apic
  placed label := by
    have few := idxOf_labels_lt label
    intro zero
    have start := congrArg BitVec.toNat zero
    simp [handlerImage] at start
    omega

end VirtLearn.Guest
