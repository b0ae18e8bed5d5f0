import VirtLearn.Guest.Libs

/-!
# What the text routines do

`printed` is the effect of one character on memory and on the bus; `__putc`, `__println` and
`__puts` have it, for one character, a line feed and each character of the string, and clobber
nothing but `rsi` and, save for `__puts`, `rax`.
-/

namespace VirtLearn.Guest

open Assembly Register

variable {symbols : Symbols}

theorem wp_getCurrentColumn {machine : Machine}
    (inRam : machine.ram symbols.videoCurrent = true) :
    wp (getCurrentColumn symbols)
      (fun _ after => OnlyRegisters [rax] machine after ∧
        after.registers rax = (machine.memory.read 64 symbols.videoCurrent - 0xb8000) % 160)
      machine := by
  simp [getCurrentColumn, Operand.symbol, Machine.effective, inRam, wp_div]
  constructor <;> simp
  intro register other
  split
  · simp_all
  · split
    · simp_all
    · simp_all

/-- A character as it lies in video memory: white on black. -/
def cell (char : Byte) : BitVec 16 :=
  0x0f00 ||| char.setWidth 16

def nextCursor (cursor : Address) (char : Byte) : Address :=
  if char = 10 then cursor + (160 - (cursor - 0xb8000) % 160)
  else if cursor ≤ 0xb9ff0 then cursor + 2
  else cursor

/-- `video_current` -/
def cursor (symbols : Symbols) (machine : Machine) : Address :=
  machine.memory.read 64 symbols.videoCurrent

def printed (symbols : Symbols) (machine : Machine) (char : Byte) : Machine :=
  (if char ≠ 10 ∧ cursor symbols machine ≤ 0xb9ff0 then
      machine.poke (cursor symbols machine) (cell char)
    else machine).poke
      symbols.videoCurrent (nextCursor (cursor symbols machine) char)

@[simp]
theorem registers_printed (machine : Machine) (char : Byte) :
    (printed symbols machine char).registers = machine.registers := by
  rw [printed]
  split <;> simp

@[simp]
theorem stack_printed (machine : Machine) (char : Byte) :
    (printed symbols machine char).stack = machine.stack := by
  rw [printed]
  split <;> simp

@[simp]
theorem ram_printed (machine : Machine) (char : Byte) :
    (printed symbols machine char).ram = machine.ram := by
  rw [printed]
  split <;> simp

theorem only_printed {changed : List Register} {before after : Machine} (char : Byte)
    (only : OnlyRegisters changed before after) :
    OnlyRegisters changed (printed symbols before char) (printed symbols after char) := by
  have same : cursor symbols after = cursor symbols before := by rw [cursor, only.memory, cursor]
  rw [printed, printed, same]
  split
  · exact (only.poke _ _).poke _ _
  · exact only.poke _ _

theorem printed_withStack (machine : Machine) (stack : List StackItem) (char : Byte) :
    printed symbols (machine.withStack stack) char =
      (printed symbols machine char).withStack stack := by
  have same : cursor symbols (machine.withStack stack) = cursor symbols machine := rfl
  rw [printed, printed, same]
  split
  · simp only [Machine.poke_withStack]
  · simp only [Machine.poke_withStack]

theorem cell_eq_newline_iff (char : Byte) : cell char = 0xf0a ↔ char = 10 := by
  revert char
  decide

section

variable {machine : Machine} {char : Byte}

theorem attributed (argument : machine.registers rsi = char.setWidth 64) :
    machine.get 16 rsi ||| 3840#16 = cell char := by
  rw [Machine.get, argument, cell, BitVec.or_comm]
  simp

theorem merge_cell (char : Byte) :
    merge (char.setWidth 64) (cell char) = (cell char).setWidth 64 := by
  revert char
  decide

/-- Up to the comparison of the cell with that of a line feed. -/
theorem wp_writeChar_start {post : Unit → Machine → Prop} {onward : Bool → Routine Unit}
    (argument : machine.registers rsi = char.setWidth 64)
    (remaining : ∀ between,
      OnlyRegisters [rbx, rax, rsi]
        (machine.withStack (.word (machine.registers rbx) :: machine.stack)) between →
      between.registers rbx = symbols.videoCurrent →
      between.registers rsi = (cell char).setWidth 64 →
      wp (onward (!decide (char = 10))) post between) :
    wp (do
      push rbx
      mov 64 (.imm symbols.videoCurrent) (.reg rbx)
      or_ 16 (.imm 0x0f00) (.reg rsi)
      cmp 16 (.imm 0xf0a) (.reg rsi)
      onward (← jnz)) post machine := by
  have compared : (cell char == 3850#16) = decide (char = 10) := by
    rw [beq_eq_decide, decide_eq_decide]
    exact cell_eq_newline_iff char
  simp [attributed argument, compared]
  apply remaining
  · refine ((((OnlyRegisters.refl _ _).put ?_ _).put ?_ _).withFlags _ _).withFlags _ _
      <;> simp
  · simp
  · simp [argument, merge_cell]

/-- After a line feed the cursor is to be at the start of the next row. -/
theorem wp_writeChar_newline {post : Unit → Machine → Prop} {rest : Routine Unit}
    (inRam : machine.ram symbols.videoCurrent = true)
    (base : machine.registers rbx = symbols.videoCurrent)
    (remaining : ∀ after, OnlyRegisters [rax] machine after →
      after.registers rax = nextCursor (cursor symbols machine) 10 → wp rest post after) :
    wp (do
      call (getCurrentColumn symbols)
      neg 64 (.reg rax)
      add 64 (.imm (80 * 2)) (.reg rax)
      add 64 (.behind rbx) (.reg rax)
      rest) post machine := by
  rw [wp_bind]
  apply wp_call
  apply (wp_getCurrentColumn (by simpa using inRam)).mono
  rintro _ after ⟨only, column⟩
  have behind : after.registers rbx = symbols.videoCurrent :=
    (only.registers rbx (by decide)).trans base
  have ram : after.ram symbols.videoCurrent = true := by
    rw [only.ram]
    exact inRam
  have memory : after.memory = machine.memory := only.memory
  have next : -after.registers rax + 160#64 + machine.memory.read 64 symbols.videoCurrent =
      nextCursor (cursor symbols machine) 10 := by
    rw [nextCursor, if_pos rfl, column, cursor]
    simp only [Machine.withStack_memory]
    generalize machine.memory.read 64 symbols.videoCurrent = place
    generalize (place - 0xb8000) % 160 = column
    bv_omega
  refine ⟨only.stack, ?_⟩
  simp [Operand.behind, Machine.effective, behind, ram, memory, next]
  apply remaining
  · refine (((((⟨only.registers, rfl, only.ram, only.memory, only.writes⟩ :
      OnlyRegisters [rax] machine (after.withStack machine.stack)).put ?_ _).withFlags _ _).put ?_ _
        |>.withFlags _ _).put ?_ _).withFlags _ _
      <;> simp
  · simp

/-- Any other character is stored and the cursor moved on, up to the end of the screen. -/
theorem wp_writeChar_shown {post : Unit → Machine → Prop} {rest : Routine Unit}
    (inRam : machine.ram symbols.videoCurrent = true)
    (base : machine.registers rbx = symbols.videoCurrent)
    (passed : machine.registers rsi = (cell char).setWidth 64)
    (remaining : ∀ after,
      OnlyRegisters [rax] (if cursor symbols machine ≤ 0xb9ff0 then
        machine.poke (cursor symbols machine) (cell char) else machine) after →
      after.registers rax = (if cursor symbols machine ≤ 0xb9ff0 then cursor symbols machine + 2
        else cursor symbols machine) → wp rest post after) :
    wp (do
      mov 64 (.behind rbx) (.reg rax)
      Assembly.cmp 64 (.imm 0xb9ff0) (.reg rax)
      if ← ja then rest
      else do
        mov 16 (.reg rsi) (.behind rax)
        add 64 (.imm 2) (.reg rax)
        rest) post machine := by
  have shown : machine.get 16 rsi = cell char := by
    rw [Machine.get, passed, BitVec.setWidth_setWidth_of_le _ (by decide), BitVec.setWidth_eq]
  by_cases room : cursor symbols machine ≤ 0xb9ff0
  · have stays : ¬(761840#64 ≤ machine.memory.read 64 symbols.videoCurrent ∧
        ¬machine.memory.read 64 symbols.videoCurrent = 761840#64) := by
      rintro ⟨beyond, other⟩
      exact other (BitVec.le_antisymm room beyond)
    rw [if_pos room, if_pos room] at remaining
    simp [Operand.behind, Machine.effective, base, inRam, shown, stays]
    apply remaining
    · refine ((OnlyRegisters.poke ?_ _ _).put ?_ _).withFlags _ _
      · exact ((OnlyRegisters.refl _ machine).put (by simp) _).withFlags _ _
      · simp
    · simp [cursor]
  · have jumps : 761840#64 ≤ machine.memory.read 64 symbols.videoCurrent ∧
        ¬machine.memory.read 64 symbols.videoCurrent = 761840#64 := by
      have below := BitVec.not_le.mp room
      refine ⟨BitVec.le_of_lt below, ?_⟩
      intro same
      rw [cursor, same] at below
      exact BitVec.lt_irrefl _ below
    rw [if_neg room, if_neg room] at remaining
    simp [Operand.behind, Machine.effective, base, inRam, jumps]
    apply remaining
    · exact ((OnlyRegisters.refl _ machine).put (by simp) _).withFlags _ _
    · simp [cursor]

/-- The cursor is stored, and what was pushed is popped. -/
theorem wp_writeChar_end {effect between : Machine} {place : Address}
    (only : OnlyRegisters [rbx, rax, rsi]
      (effect.withStack (.word (effect.registers rbx) :: effect.stack)) between)
    (base : between.registers rbx = symbols.videoCurrent)
    (moved : between.registers rax = place) :
    wp (do
      mov 64 (.reg rax) (.behind rbx)
      pop rbx)
      (fun _ after => OnlyRegisters [rax, rsi] (effect.poke symbols.videoCurrent place) after ∧
        after.registers rax = place ∧ after.registers rsi = between.registers rsi)
      between := by
  have stack := only.stack
  simp [Operand.behind, Machine.effective, base, moved, stack]
  have stored := only.poke symbols.videoCurrent place
  rw [Machine.poke_withStack] at stored
  have restored := @OnlyRegisters.restored _ _ _ _ _ effect.stack stored
  rw [← Machine.poke_withStack, Machine.registers_poke] at restored
  exact restored

/-- A character is printed, with `rax` left at the cursor and `rsi` at what was stored. -/
structure CharPrinted (symbols : Symbols) (machine : Machine) (char : Byte) (after : Machine) :
    Prop where
  only : OnlyRegisters [rax, rsi] (printed symbols machine char) after
  rax_eq : after.registers rax = nextCursor (cursor symbols machine) char
  rsi_eq : after.registers rsi = (cell char).setWidth 64

theorem wp_writeChar (inRam : machine.ram symbols.videoCurrent = true)
    (argument : machine.registers rsi = char.setWidth 64) :
    wp (writeChar symbols) (fun _ after => CharPrinted symbols machine char after) machine := by
  apply wp_writeChar_start argument
  intro between only base passed
  have ram : between.ram symbols.videoCurrent = true := by
    rw [only.ram]
    exact inRam
  have same : cursor symbols between = cursor symbols machine := by
    rw [cursor, only.memory, cursor, Machine.withStack_memory]
  by_cases newline : char = 10
  · subst newline
    simp only [decide_true, Bool.not_true, Bool.false_eq_true, if_false]
    apply wp_writeChar_newline ram base
    intro after later moved
    have base := (later.registers rbx (by decide)).trans base
    rw [same] at moved
    have ends := wp_writeChar_end (only.trans (later.mono (by simp))) base moved
    apply ends.mono
    rintro _ last ⟨stored, rax_eq, rsi_eq⟩
    rw [later.registers rsi (by decide), passed] at rsi_eq
    refine ⟨?_, rax_eq, rsi_eq⟩
    rwa [printed, if_neg (by simp)]
  · simp only [newline, decide_false, Bool.not_false, if_true]
    apply wp_writeChar_shown ram base passed
    rw [same]
    intro after later moved
    have next : after.registers rax = nextCursor (cursor symbols machine) char := by
      rw [moved, nextCursor, if_neg newline]
    by_cases room : cursor symbols machine ≤ 0xb9ff0
    · rw [if_pos room] at later
      have base : after.registers rbx = symbols.videoCurrent := by
        rw [later.registers rbx (by decide), Machine.registers_poke]
        exact base
      have shown := only.poke (cursor symbols machine) (cell char)
      rw [Machine.poke_withStack, ← Machine.registers_poke (cursor symbols machine) (cell char),
        ← Machine.stack_poke (cursor symbols machine) (cell char)] at shown
      apply (wp_writeChar_end (shown.trans (later.mono (by simp))) base next).mono
      rintro _ last ⟨stored, rax_eq, rsi_eq⟩
      rw [later.registers rsi (by decide), Machine.registers_poke, passed] at rsi_eq
      refine ⟨?_, rax_eq, rsi_eq⟩
      rwa [printed, if_pos ⟨newline, room⟩]
    · rw [if_neg room] at later
      have base := (later.registers rbx (by decide)).trans base
      apply (wp_writeChar_end (only.trans (later.mono (by simp))) base next).mono
      rintro _ last ⟨stored, rax_eq, rsi_eq⟩
      rw [later.registers rsi (by decide), passed] at rsi_eq
      refine ⟨?_, rax_eq, rsi_eq⟩
      rwa [printed, if_neg fun both => room both.2]

/-- Calling a routine that prints a character. -/
theorem wp_call_of_charPrinted {routine : Routine Unit}
    (prints : wp routine
      (fun _ after =>
        CharPrinted symbols (machine.withStack (.returnAddress :: machine.stack)) char after)
      (machine.withStack (.returnAddress :: machine.stack))) :
    wp (call routine) (fun _ after => CharPrinted symbols machine char after) machine := by
  apply wp_call
  apply prints.mono
  intro _ after done
  have only := done.only
  rw [printed_withStack] at only
  exact ⟨only.stack, ⟨only.registers, (stack_printed machine char).symm, only.ram, only.memory,
    only.writes⟩, done.rax_eq, done.rsi_eq⟩

theorem wp_putc (inRam : machine.ram symbols.videoCurrent = true)
    (argument : machine.get 8 rsi = char) :
    wp (putc symbols) (fun _ after => CharPrinted symbols machine char after) machine := by
  have low : machine.registers rsi &&& 255#64 = char.setWidth 64 := by
    rw [← argument, Machine.get]
    apply BitVec.eq_of_toNat_eq
    have masked := Nat.and_two_pow_sub_one_eq_mod (machine.registers rsi).toNat 8
    have small : (machine.registers rsi).toNat % 2 ^ 8 < 2 ^ 64 := by omega
    rw [BitVec.toNat_and, BitVec.toNat_setWidth, BitVec.toNat_setWidth, Nat.mod_eq_of_lt small]
    exact masked
  simp [putc, low]
  have only : OnlyRegisters [rax, rsi] machine
      ((machine.put rsi (char.setWidth 64)).withFlags (char.setWidth 64 == 0#64) false) :=
    ((OnlyRegisters.refl _ machine).put (by simp) _).withFlags _ _
  apply (wp_call_of_charPrinted (@wp_writeChar _ _ char (by simpa using inRam) (by simp))).mono
  intro _ after done
  exact ⟨(only_printed char only).trans done.only, done.rax_eq, done.rsi_eq⟩

theorem wp_call_putc_exact (inRam : machine.ram symbols.videoCurrent = true)
    (argument : machine.get 8 rsi = char) :
    wp (call (putc symbols)) (fun _ after => CharPrinted symbols machine char after) machine := by
  apply wp_call_of_charPrinted
  exact wp_putc (by simpa using inRam) (by simpa using argument)

theorem wp_call_putc (inRam : machine.ram symbols.videoCurrent = true)
    (argument : machine.get 8 rsi = char) :
    wp (call (putc symbols))
      (fun _ after => OnlyRegisters [rax, rsi] (printed symbols machine char) after) machine := by
  apply (wp_call_putc_exact inRam argument).mono
  intro _ after done
  exact done.only

theorem wp_println (inRam : machine.ram symbols.videoCurrent = true) :
    wp (println symbols) (fun _ after => CharPrinted symbols machine 10 after) machine := by
  simp [println]
  have only : OnlyRegisters [rax, rsi] machine (machine.put rsi 10#16) :=
    (OnlyRegisters.refl _ machine).put (by simp) _
  have low : (machine.put rsi 10#16).get 8 rsi = 10 := by
    simp [Machine.get, Machine.setWidth_merge]
  apply (wp_call_putc_exact (by simpa using inRam) low).mono
  intro _ after done
  exact ⟨(only_printed 10 only).trans done.only, done.rax_eq, done.rsi_eq⟩

theorem wp_call_println_exact (inRam : machine.ram symbols.videoCurrent = true) :
    wp (call (println symbols)) (fun _ after => CharPrinted symbols machine 10 after) machine := by
  apply wp_call_of_charPrinted
  exact wp_println (by simpa using inRam)

/-- What the characters of a text do, one after the other. -/
def printedText (symbols : Symbols) (machine : Machine) (text : List Byte) : Machine :=
  text.foldl (printed symbols) machine

/-- The text at an address: in memory, ended by a zero, and away from the cursor. -/
structure StringAt (symbols : Symbols) (machine : Machine) (text : List Byte) (address : Address) :
    Prop where
  terminated : machine.memory.load address (text.length + 1) = text ++ [0]
  nulFree : 0 ∉ text
  inRam : ∀ place, Within place address (text.length + 1) → machine.ram place = true
  apart : ∀ place, Within place address (text.length + 1) → ¬Within place symbols.videoCurrent 8
  short : text.length < 2 ^ 64

/-- What printing a text leaves in `rsi`: the cell of its last character. -/
def lastCell (old : BitVec 64) (text : List Byte) : BitVec 64 :=
  text.foldl (fun _ char => (cell char).setWidth 64) old

/-- Every character but the line feeds finds the cursor where `allowed` says. -/
def EveryCharAt (allowed : Address → Prop) : Address → List Byte → Prop
  | _, [] => True
  | cursor, char :: rest =>
      (char ≠ 10 → allowed cursor) ∧ EveryCharAt allowed (nextCursor cursor char) rest

theorem EveryCharAt.mono {allowed weaker : Address → Prop} {cursor : Address} {text : List Byte}
    (every : EveryCharAt allowed cursor text) (weakens : ∀ place, allowed place → weaker place) :
    EveryCharAt weaker cursor text := by
  induction text generalizing cursor with
  | nil => trivial
  | cons char rest ih =>
      exact ⟨fun shown => weakens cursor (every.1 shown), ih every.2⟩

theorem everyCharAt_append {allowed : Address → Prop} {cursor : Address}
    {first second : List Byte} :
    EveryCharAt allowed cursor (first ++ second) ↔
      EveryCharAt allowed cursor first ∧
        EveryCharAt allowed (first.foldl nextCursor cursor) second := by
  induction first generalizing cursor with
  | nil => simp [EveryCharAt]
  | cons char rest ih => simp [EveryCharAt, ih, and_assoc]

def stores : Address → List Byte → List BusWrite
  | _, [] => []
  | cursor, char :: rest =>
      (if char ≠ 10 ∧ cursor ≤ 0xb9ff0 then [⟨cursor, [char, 0x0f]⟩] else []) ++
        stores (nextCursor cursor char) rest

/-- A character shown at the cursor is not stored to memory. -/
def OffRam (machine : Machine) (cursor : Address) : Prop :=
  cursor ≤ 0xb9ff0 → machine.ram cursor = false

/-- The cursor is always stored, and reads back. -/
theorem cursor_printed (inRam : machine.ram symbols.videoCurrent = true) (char : Byte) :
    cursor symbols (printed symbols machine char) =
      nextCursor (cursor symbols machine) char := by
  have ram : (if char ≠ 10 ∧ cursor symbols machine ≤ 0xb9ff0 then
      machine.poke (cursor symbols machine) (cell char) else machine).ram = machine.ram := by
    split <;> simp
  rw [cursor, printed, Machine.memory_poke, ram, if_pos inRam,
    Memory.read_write (by decide) (by decide)]

theorem offRam_congr {other : Machine} (ram : other.ram = machine.ram) :
    OffRam other = OffRam machine := by
  funext cursor
  rw [OffRam, OffRam, ram]

theorem memory_printed (inRam : machine.ram symbols.videoCurrent = true)
    (off : char ≠ 10 → OffRam machine (cursor symbols machine)) :
    (printed symbols machine char).memory =
      machine.memory.write symbols.videoCurrent (nextCursor (cursor symbols machine) char) := by
  rw [printed]
  split
  case isTrue shown => simp [Machine.memory_poke, inRam, off shown.1 shown.2]
  case isFalse => simp [Machine.memory_poke, inRam]

theorem writes_printed (inRam : machine.ram symbols.videoCurrent = true)
    (off : char ≠ 10 → OffRam machine (cursor symbols machine)) :
    (printed symbols machine char).writes =
      machine.writes ++
        if char ≠ 10 ∧ cursor symbols machine ≤ 0xb9ff0 then
          [⟨cursor symbols machine, [char, 0x0f]⟩]
        else [] := by
  have bytes : bytesOf 2 (cell char).toNat = [char, 0x0f] := by
    clear off
    revert char
    decide
  rw [printed]
  split
  case isTrue shown => simp [Machine.writes_poke, inRam, off shown.1 shown.2, bytes]
  case isFalse => simp [Machine.writes_poke, inRam]

namespace StringAt

variable {text : List Byte} {address : Address}

theorem congr {other : Machine} (string : StringAt symbols machine text address)
    (ram : other.ram = machine.ram)
    (memory : ∀ place, ¬Within place symbols.videoCurrent 8 →
      other.memory place = machine.memory place) : StringAt symbols other text address where
  terminated := by
    rw [← string.terminated]
    apply Memory.load_congr (Nat.succ_le_of_lt string.short)
    intro place within
    exact memory place (string.apart place within)
  nulFree := string.nulFree
  inRam := by
    rw [ram]
    exact string.inRam
  apart := string.apart
  short := string.short

theorem head (string : StringAt symbols machine (char :: text) address) :
    machine.memory address = char ∧ machine.ram address = true ∧ char ≠ 0#8 := by
  refine ⟨(List.cons.inj string.terminated).1, ?_, ?_⟩
  · exact string.inRam address (within_self address (Nat.succ_pos _))
  · rintro rfl
    exact string.nulFree (by simp)

theorem tail (string : StringAt symbols machine (char :: text) address) :
    StringAt symbols machine text (address + 1) where
  terminated := (List.cons.inj string.terminated).2
  nulFree := fun found => string.nulFree (List.mem_cons_of_mem _ found)
  inRam := by
    intro place within
    exact string.inRam place (within.succ string.short).1
  apart := by
    intro place within
    exact string.apart place (within.succ string.short).1
  short := Nat.lt_of_succ_lt string.short

theorem stop (string : StringAt symbols machine [] address) :
    machine.memory address = 0 ∧ machine.ram address = true := by
  refine ⟨(List.cons.inj string.terminated).1, ?_⟩
  exact string.inRam address (within_self address (Nat.succ_pos _))

end StringAt

theorem wp_doPutsLoop_cons {text : List Byte} (inRam : machine.ram symbols.videoCurrent = true)
    (string : StringAt symbols machine (char :: text) (machine.registers rbx)) :
    wp (doPutsLoop symbols)
      (fun again after => again = true ∧
        OnlyRegisters [rax, rbx, rsi] (printed symbols machine char) after ∧
          after.registers rbx = machine.registers rbx + 1 ∧
          after.registers rsi = (cell char).setWidth 64)
      machine := by
  rcases string.head with ⟨first, readable, nonzero⟩
  simp [doPutsLoop, Machine.effective, Operand.behind, readable, Memory.read_eight, first, nonzero]
  have low : (((machine.put rax char).withFlags (char == 0#8) false).put rsi
      (merge (machine.registers rax) char)).get 8 rsi = char := by
    simp [Machine.get, Machine.setWidth_merge]
  have only : OnlyRegisters [rax, rbx, rsi] machine
      (((machine.put rax char).withFlags (char == 0#8) false).put rsi
        (merge (machine.registers rax) char)) :=
    ((((OnlyRegisters.refl _ machine).put (by simp) char).withFlags _ _).put (by simp) _)
  apply (wp_call_putc_exact (by simpa using inRam) low).mono
  intro _ after done
  refine ⟨?_, ?_, ?_⟩
  · have both := (only_printed char only).trans (done.only.mono (by simp))
    exact (both.put (by simp) _).withFlags _ _
  · simp [done.only.registers]
  · simp [done.rsi_eq]

theorem wp_doPutsLoop_nil (string : StringAt symbols machine [] (machine.registers rbx)) :
    wp (doPutsLoop symbols)
      (fun again after => again = false ∧ OnlyRegisters [rax, rbx, rsi] machine after ∧
        after.registers rsi = machine.registers rsi) machine := by
  rcases string.stop with ⟨zero, readable⟩
  simp [doPutsLoop, Machine.effective, Operand.behind, readable, Memory.read_eight, zero]
  exact ((OnlyRegisters.refl _ machine).put (by simp) _).withFlags _ _

theorem ram_printedText (machine : Machine) (text : List Byte) :
    (printedText symbols machine text).ram = machine.ram := by
  induction text generalizing machine with
  | nil => rfl
  | cons char rest ih => exact (ih _).trans (ram_printed machine char)

theorem only_printedText {changed : List Register} {before after : Machine} (text : List Byte)
    (only : OnlyRegisters changed before after) :
    OnlyRegisters changed (printedText symbols before text) (printedText symbols after text) := by
  induction text generalizing before after with
  | nil => exact only
  | cons char rest ih => exact ih (only_printed char only)

theorem cursor_printedText (inRam : machine.ram symbols.videoCurrent = true) (text : List Byte) :
    cursor symbols (printedText symbols machine text) =
      text.foldl nextCursor (cursor symbols machine) := by
  induction text generalizing machine with
  | nil => rfl
  | cons char rest ih =>
      rw [List.foldl_cons, ← cursor_printed inRam]
      exact ih (by rw [ram_printed, inRam])

theorem writes_printedText {text : List Byte} (inRam : machine.ram symbols.videoCurrent = true)
    (off : EveryCharAt (OffRam machine) (cursor symbols machine) text) :
    (printedText symbols machine text).writes =
      machine.writes ++ stores (cursor symbols machine) text := by
  induction text generalizing machine with
  | nil => simp [printedText, stores]
  | cons char rest ih =>
      have later := @ih (printed symbols machine char) (by rw [ram_printed, inRam])
        (by rw [cursor_printed inRam, offRam_congr (ram_printed machine char)]; exact off.2)
      rw [writes_printed inRam off.1, cursor_printed inRam, List.append_assoc] at later
      exact later

theorem wp_loop_doPutsLoop {text : List Byte} {fuel : ℕ}
    (inRam : machine.ram symbols.videoCurrent = true)
    (string : StringAt symbols machine text (machine.registers rbx))
    (off : EveryCharAt (OffRam machine) (cursor symbols machine) text)
    (enough : text.length < fuel) :
    wp (loop (doPutsLoop symbols) fuel)
      (fun _ after => OnlyRegisters [rax, rbx, rsi] (printedText symbols machine text) after ∧
        after.registers rsi = lastCell (machine.registers rsi) text)
      machine := by
  apply wp_loop (fun left before => ∃ rest, rest.length = left ∧
    before.ram symbols.videoCurrent = true ∧
    StringAt symbols before rest (before.registers rbx) ∧
    EveryCharAt (OffRam before) (cursor symbols before) rest ∧
    lastCell (before.registers rsi) rest = lastCell (machine.registers rsi) text ∧
    ∀ after, OnlyRegisters [rax, rbx, rsi] (printedText symbols before rest) after →
      OnlyRegisters [rax, rbx, rsi] (printedText symbols machine text) after)
  · rintro left before ⟨rest, rfl, inRam, string, off, last, shown⟩
    cases rest with
    | nil =>
        apply (wp_doPutsLoop_nil string).mono
        rintro again after ⟨rfl, only, kept⟩
        exact ⟨shown after only, kept.trans last⟩
    | cons char rest =>
        apply (wp_doPutsLoop_cons inRam string).mono
        rintro again after ⟨rfl, only, next, passed⟩
        have ram : after.ram = before.ram := by rw [only.ram, ram_printed]
        have place : cursor symbols after = nextCursor (cursor symbols before) char := by
          rw [← cursor_printed inRam char, cursor, only.memory, cursor]
        refine ⟨rest.length, Nat.lt_succ_self _, rest, rfl, ?_, ?_, ?_, ?_, ?_⟩
        · rw [ram, inRam]
        · rw [next]
          apply string.tail.congr
          · exact ram
          · intro place apart
            rw [only.memory, memory_printed inRam off.1]
            exact Memory.write_of_not_within (by decide) apart
        · rw [offRam_congr ram, place]
          exact off.2
        · rw [passed, ← last]
          rfl
        · intro last later
          exact shown last ((only_printedText rest only).trans later)
  · exact ⟨text, rfl, inRam, string, off, rfl, fun _ only => only⟩
  · exact enough

theorem printedText_withStack (machine : Machine) (stack : List StackItem) (text : List Byte) :
    printedText symbols (machine.withStack stack) text =
      (printedText symbols machine text).withStack stack := by
  induction text generalizing machine with
  | nil => rfl
  | cons char rest ih =>
      rw [printedText, List.foldl_cons, printed_withStack]
      exact ih (printed symbols machine char)

theorem registers_printedText (machine : Machine) (text : List Byte) :
    (printedText symbols machine text).registers = machine.registers := by
  induction text generalizing machine with
  | nil => rfl
  | cons char rest ih => exact (ih _).trans (registers_printed machine char)

theorem stack_printedText (machine : Machine) (text : List Byte) :
    (printedText symbols machine text).stack = machine.stack := by
  induction text generalizing machine with
  | nil => rfl
  | cons char rest ih => exact (ih _).trans (stack_printed machine char)

/-- The string at `rsi` is printed; all registers but `rsi` are as they were. -/
theorem wp_puts {text : List Byte} {fuel : ℕ} (inRam : machine.ram symbols.videoCurrent = true)
    (string : StringAt symbols machine text (machine.registers rsi))
    (nonzero : machine.registers rsi ≠ 0#64)
    (off : EveryCharAt (OffRam machine) (cursor symbols machine) text)
    (enough : text.length < fuel) :
    wp (puts symbols fuel)
      (fun _ after => OnlyRegisters [rsi] (printedText symbols machine text) after ∧
        after.registers rsi = lastCell (machine.registers rsi) text) machine := by
  simp [puts, nonzero]
  have saved : OnlyRegisters [rax, rbx, rsi]
      (machine.withStack (.word (machine.registers rax) :: .word (machine.registers rbx) ::
        machine.stack))
      ((((machine.withStack (.word (machine.registers rbx) :: machine.stack)).withStack
        (.word (machine.registers rax) :: .word (machine.registers rbx) :: machine.stack)).put
          rbx (machine.registers rsi)).withFlags (machine.registers rsi == 0#64) false) :=
    ((OnlyRegisters.refl _ _).put (by simp) _).withFlags _ _
  apply (wp_loop_doPutsLoop (by simpa using inRam) ?_ ?_ enough).mono
  · rintro _ after ⟨later, last⟩
    have both := (only_printedText text saved).trans later
    rw [printedText_withStack] at both
    have first := @OnlyRegisters.restored _ _ _ _ _
      (.word (machine.registers rbx) :: machine.stack) both
    have second := @OnlyRegisters.restored _ _ _ _ _ machine.stack first
    rw [registers_printedText, ← printedText_withStack] at second
    exact ⟨_, _, _, both.stack, second, by simpa using last⟩
  · have string : StringAt symbols machine text (machine.registers rsi) := string
    simpa using string.congr (by simp) (by simp)
  · exact off

theorem wp_call_puts_exact {text : List Byte} {fuel : ℕ}
    (inRam : machine.ram symbols.videoCurrent = true)
    (string : StringAt symbols machine text (machine.registers rsi))
    (nonzero : machine.registers rsi ≠ 0#64)
    (off : EveryCharAt (OffRam machine) (cursor symbols machine) text)
    (enough : text.length < fuel) :
    wp (call (puts symbols fuel))
      (fun _ after => OnlyRegisters [rsi] (printedText symbols machine text) after ∧
        after.registers rsi = lastCell (machine.registers rsi) text) machine := by
  apply wp_call
  have string : StringAt symbols (machine.withStack (.returnAddress :: machine.stack)) text
      (machine.registers rsi) := string.congr rfl fun _ _ => rfl
  apply (@wp_puts symbols (machine.withStack (.returnAddress :: machine.stack)) text fuel inRam
    string nonzero off enough).mono
  rintro _ after ⟨only, last⟩
  rw [printedText_withStack] at only
  exact ⟨only.stack, ⟨only.registers, (stack_printedText machine text).symm, only.ram, only.memory,
    only.writes⟩, last⟩

theorem wp_call_puts {text : List Byte} {fuel : ℕ}
    (inRam : machine.ram symbols.videoCurrent = true)
    (string : StringAt symbols machine text (machine.registers rsi))
    (nonzero : machine.registers rsi ≠ 0#64)
    (off : EveryCharAt (OffRam machine) (cursor symbols machine) text)
    (enough : text.length < fuel) :
    wp (call (puts symbols fuel))
      (fun _ after => OnlyRegisters [rsi] (printedText symbols machine text) after) machine := by
  apply (wp_call_puts_exact inRam string nonzero off enough).mono
  rintro _ after ⟨only, _⟩
  exact only

theorem wp_call_println (inRam : machine.ram symbols.videoCurrent = true) :
    wp (call (println symbols))
      (fun _ after => OnlyRegisters [rax, rsi] (printedText symbols machine [10]) after)
      machine := by
  apply (wp_call_println_exact inRam).mono
  intro _ after done
  exact done.only

end

end VirtLearn.Guest
