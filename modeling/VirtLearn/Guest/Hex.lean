import VirtLearn.Guest.VideoCursor

/-!
# Printing hexadecimal numbers

`__hex_to_char`, `__print_hex_by_byte` and the four routines of `libs64.S` that print a byte, a
word, a double word and a quad word. The digits are handed to `__putc` one by one, and which they
are is to be told apart from what becomes of them on the screen. So the routine that is called for
each digit is an argument, `Prints` says what they rely on of it, and `__putc` is one such routine
(`prints_putc`).
-/

namespace VirtLearn.Guest

open Assembly Register

/-- The characters of `number_character`. -/
def hexDigits : List Byte :=
  [0x30, 0x31, 0x32, 0x33, 0x34, 0x35, 0x36, 0x37, 0x38, 0x39, 0x41, 0x42, 0x43, 0x44, 0x45, 0x46]

section Routines

variable (numberCharacter : Address)

def hexToChar : Routine Unit := do
  push rsi
  push rbx
  and_ 64 (.imm 0x0f) (.reg rsi)
  mov 64 (.imm numberCharacter) (.reg rbx)
  movzx 8 64 (.mem 0 (some rbx) (some rsi)) (.reg rax)
  pop rbx
  pop rsi

variable (putc : Routine Unit)

/-- One round of `hex_loop`: whether it jumps back. -/
def hexLoop : Routine Bool := do
  dec 64 (.reg rdx)
  mov 64 (.reg rbx) (.reg rsi)
  mov 8 (.reg rdx) (.reg rcx)
  shl 8 2 (.reg rcx)
  shrCl (.reg rsi)
  call (hexToChar numberCharacter)
  mov 64 (.reg rax) (.reg rsi)
  call putc
  test 64 (.reg rdx) (.reg rdx)
  jnz

/-- `__print_hex_by_byte`, within a number of rounds of its loop. -/
def printHexByByte (fuel : ℕ) : Routine Unit := do
  push rbx
  push rsi
  mov 64 (.reg rsi) (.reg rbx)
  loop (hexLoop numberCharacter putc) fuel
  pop rsi
  pop rbx

/-- What the four routines below have in common; they differ in the number of digits. -/
def printValue (count : BitVec 64) (fuel : ℕ) : Routine Unit := do
  push rdx
  mov 64 (.imm count) (.reg rdx)
  call (printHexByByte numberCharacter putc fuel)
  pop rdx

def printByteValue : ℕ → Routine Unit :=
  printValue numberCharacter putc 2

def printWordValue : ℕ → Routine Unit :=
  printValue numberCharacter putc 4

def printDwordValue : ℕ → Routine Unit :=
  printValue numberCharacter putc 8

def printQwordValue : ℕ → Routine Unit :=
  printValue numberCharacter putc 16

/-- The four routines, each with the number of digits it prints. -/
def printRoutines : List (ℕ × (Routine Unit → ℕ → Routine Unit)) :=
  [(2, printByteValue numberCharacter), (4, printWordValue numberCharacter),
    (8, printDwordValue numberCharacter), (16, printQwordValue numberCharacter)]

end Routines

/-! ### Hexadecimal text -/

/-- The digit of a value with this number of digits behind it. -/
def hexDigit (behind value : ℕ) : Byte :=
  hexDigits.getD (value / 16 ^ behind % 16) 0

/-- The last `count` hexadecimal digits of a value, the most significant first. -/
def hexText : ℕ → ℕ → List Byte
  | 0, _ => []
  | count + 1, value => hexDigit count value :: hexText count value

def digitValue (char : Byte) : ℕ :=
  if char.toNat < 0x41 then char.toNat - 0x30 else char.toNat - 0x41 + 10

/-- The number that a text denotes in base 16. -/
def readHex (text : List Byte) : ℕ :=
  text.foldl (fun number char => 16 * number + digitValue char) 0

@[simp]
theorem length_hexText (count value : ℕ) : (hexText count value).length = count := by
  induction count with
  | zero => rfl
  | succ count ih => rw [hexText, List.length_cons, ih]

theorem hexDigit_mem (behind value : ℕ) : hexDigit behind value ∈ hexDigits := by
  have below : value / 16 ^ behind % 16 < hexDigits.length := Nat.mod_lt _ (by decide)
  rw [hexDigit, List.getD_eq_getElem _ _ below]
  exact List.getElem_mem below

theorem mem_hexText {count value : ℕ} : ∀ char ∈ hexText count value, char ∈ hexDigits := by
  induction count with
  | zero => simp [hexText]
  | succ count ih =>
      intro char listed
      rcases List.mem_cons.mp listed with rfl | later
      · exact hexDigit_mem count value
      · exact ih char later

theorem ne_newline_of_mem : ∀ char ∈ hexDigits, char ≠ 10 := by
  have all : hexDigits.all (fun char => char != 10) = true := by decide
  intro char listed
  exact bne_iff_ne.mp (List.all_eq_true.mp all char listed)

/-- Each of the sixteen digits reads back as its own value. -/
theorem digitValue_hexDigit (behind value : ℕ) :
    digitValue (hexDigit behind value) = value / 16 ^ behind % 16 := by
  have all : ∀ digit < 16, digitValue (hexDigits.getD digit 0) = digit := by decide
  exact all _ (Nat.mod_lt _ (by decide))

theorem readHex_concat (text : List Byte) (char : Byte) :
    readHex (text ++ [char]) = 16 * readHex text + digitValue char := by
  rw [readHex, List.foldl_append]
  rfl

/-- The last digit of a text is that of the value, and those before are of the rest of it. -/
theorem hexText_concat (count value : ℕ) :
    hexText (count + 1) value = hexText count (value / 16) ++ [hexDigit 0 value] := by
  induction count with
  | zero => rfl
  | succ count ih =>
      have first : hexDigit (count + 1) value = hexDigit count (value / 16) := by
        rw [hexDigit, hexDigit, Nat.pow_succ', Nat.div_div_eq_div_mul]
      rw [hexText, ih, first, hexText, List.cons_append]

/-- What is printed reads back as the value, as far as it has digits. -/
theorem readHex_hexText (count value : ℕ) : readHex (hexText count value) = value % 16 ^ count := by
  induction count generalizing value with
  | zero => simp [hexText, readHex, Nat.mod_one]
  | succ count ih =>
      rw [hexText_concat, readHex_concat, ih, digitValue_hexDigit, Nat.pow_zero, Nat.div_one,
        Nat.pow_succ', Nat.mod_mul]
      omega

/-- More digits are those of the upper part, and then those of the lower. -/
theorem hexText_add (upper lower value : ℕ) :
    hexText (upper + lower) value = hexText upper (value / 16 ^ lower) ++ hexText lower value := by
  induction upper with
  | zero => rw [Nat.zero_add]; rfl
  | succ upper ih =>
      have first : hexDigit (upper + lower) value = hexDigit upper (value / 16 ^ lower) := by
        rw [hexDigit, hexDigit, Nat.div_div_eq_div_mul, ← Nat.pow_add, Nat.add_comm lower]
      rw [Nat.succ_add, hexText, ih, first, hexText, List.cons_append]

/-! ### The routines -/

/-- The table of digits lies in memory. -/
structure TableAt (numberCharacter : Address) (ram : Address → Bool) (memory : Memory) : Prop where
  loaded : ∀ digit < 16,
    memory (numberCharacter + BitVec.ofNat 64 digit) = hexDigits.getD digit 0
  inRam : ∀ digit < 16, ram (numberCharacter + BitVec.ofNat 64 digit) = true

/--
What is relied on of a routine that prints the character in `sil`: where memory is `ready` it has
some effect on the machine, apart from `rax` and `rsi`, that leaves memory ready and all registers
alone.
-/
structure Prints (numberCharacter : Address) (putc : Routine Unit)
    (ready : (Address → Bool) → Memory → Prop) (effect : Machine → Byte → Machine) : Prop where
  table : ∀ ram memory, ready ram memory → TableAt numberCharacter ram memory
  prints : ∀ machine char, ready machine.ram machine.memory → char ∈ hexDigits →
    machine.get 8 rsi = char →
      wp (call putc) (fun _ after => OnlyRegisters [rax, rsi] (effect machine char) after) machine
  keeps : ∀ machine char, ready machine.ram machine.memory → char ∈ hexDigits →
    ready (effect machine char).ram (effect machine char).memory
  registers : ∀ machine char, (effect machine char).registers = machine.registers
  only : ∀ changed before after char, OnlyRegisters changed before after →
    OnlyRegisters changed (effect before char) (effect after char)
  withStack : ∀ machine stack char,
    effect (machine.withStack stack) char = (effect machine char).withStack stack

section

variable {numberCharacter : Address} {machine : Machine}

theorem wp_hexToChar (table : TableAt numberCharacter machine.ram machine.memory) :
    wp (hexToChar numberCharacter)
      (fun _ after => OnlyRegisters [rax] machine after ∧
        after.registers rax = BitVec.setWidth 64 (hexDigit 0 (machine.registers rsi).toNat))
      machine := by
  have nibble : machine.registers rsi &&& 15#64 =
      BitVec.ofNat 64 ((machine.registers rsi).toNat % 16) := by
    apply BitVec.eq_of_toNat_eq
    have masked := Nat.and_two_pow_sub_one_eq_mod (machine.registers rsi).toNat 4
    have fits : (BitVec.ofNat 64 ((machine.registers rsi).toNat % 16)).toNat =
        (machine.registers rsi).toNat % 16 := by
      rw [BitVec.toNat_ofNat, Nat.mod_eq_of_lt (by omega)]
    rw [BitVec.toNat_and, fits]
    exact masked
  have small : (machine.registers rsi).toNat % 16 < 16 := Nat.mod_lt _ (by decide)
  have found := table.loaded _ small
  have readable := table.inRam _ small
  simp [hexToChar, Machine.effective, nibble, readable, Memory.read_eight, found, hexDigit]
  constructor <;> simp
  intro register other
  split
  · simp_all
  · split
    · simp_all
    · simp_all

theorem wp_call_hexToChar (table : TableAt numberCharacter machine.ram machine.memory) :
    wp (call (hexToChar numberCharacter))
      (fun _ after => OnlyRegisters [rax] machine after ∧
        after.registers rax = BitVec.setWidth 64 (hexDigit 0 (machine.registers rsi).toNat))
      machine := by
  apply wp_call
  apply (wp_hexToChar (by simpa using table)).mono
  rintro _ after ⟨only, digit⟩
  exact ⟨only.stack, ⟨only.registers, rfl, only.ram, only.memory, only.writes⟩, digit⟩

/-- The count of a shift by whole digits, as it is computed in `cl`. -/
theorem shift_count {behind : ℕ} (small : behind < 16) :
    (BitVec.setWidth 8 (BitVec.ofNat 64 behind) <<< 2).toNat % 64 = 4 * behind := by
  have all : ∀ behind < 16,
      (BitVec.setWidth 8 (BitVec.ofNat 64 behind) <<< 2).toNat % 64 = 4 * behind := by decide
  exact all behind small

theorem hexDigit_shift (behind : ℕ) (value : BitVec 64) :
    hexDigit 0 (value >>> (4 * behind)).toNat = hexDigit behind value.toNat := by
  rw [hexDigit, hexDigit, BitVec.toNat_ushiftRight, Nat.shiftRight_eq_div_pow, Nat.pow_mul,
    Nat.pow_zero, Nat.div_one]

section

variable {putc : Routine Unit} {ready : (Address → Bool) → Memory → Prop}
  {effect : Machine → Byte → Machine}

/-- A register with its lowest byte cleared. -/
def upperBytes (value : BitVec 64) : BitVec 64 :=
  value &&& ~~~255#64

@[simp]
theorem upperBytes_upperBytes (value : BitVec 64) :
    upperBytes (upperBytes value) = upperBytes value := by
  rw [upperBytes, upperBytes, BitVec.and_assoc, BitVec.and_self]

theorem merge_byte (old : BitVec 64) (value : BitVec 8) :
    merge old value = upperBytes old ||| value.setWidth 64 := by
  rw [merge, if_neg (by decide)]
  rfl

theorem upperBytes_merge (old : BitVec 64) (value : BitVec 8) :
    upperBytes (merge old value) = upperBytes old := by
  have byte : value.setWidth 64 &&& ~~~255#64 = 0#64 := by
    revert value
    decide
  rw [merge_byte, upperBytes, BitVec.and_or_distrib_right, byte, upperBytes, BitVec.and_assoc,
    BitVec.and_self, BitVec.or_zero]

/-- Of two bytes written to a register, the second stays. -/
theorem merge_merge (old : BitVec 64) (first second : BitVec 8) :
    merge (merge old first) second = merge old second := by
  rw [merge_byte (merge old first), upperBytes_merge, ← merge_byte]

/-- The count of a shift as it is left in `cl`. -/
theorem shifted_count {behind : ℕ} (small : behind < 16) :
    BitVec.ofNat 8 behind <<< 2 = BitVec.ofNat 8 (4 * behind) := by
  have all : ∀ behind < 16, BitVec.ofNat 8 behind <<< 2 = BitVec.ofNat 8 (4 * behind) := by decide
  exact all behind small

/-- The digit at the end of `rsi` is looked up and printed. -/
theorem wp_printDigit {before : Machine} (prints : Prints numberCharacter putc ready effect)
    (isReady : ready machine.ram machine.memory) (behind : ℕ) {post : Unit → Machine → Prop}
    (only : OnlyRegisters [rax, rcx, rdx, rsi] machine before)
    (shifted : before.registers rsi = machine.registers rbx >>> (4 * behind))
    (met : ∀ after, OnlyRegisters [rax, rcx, rdx, rsi]
        (effect machine (hexDigit behind (machine.registers rbx).toNat)) after →
      after.registers rdx = before.registers rdx →
      after.registers rcx = before.registers rcx → post () after) :
    wp (call (hexToChar numberCharacter))
      (fun _ after => wp (call putc) post (after.put rsi (after.registers rax))) before := by
  have table := prints.table _ _ isReady
  rw [← only.ram, ← only.memory] at table isReady
  apply (wp_call_hexToChar table).mono
  rintro _ after ⟨onlyRax, found⟩
  rw [shifted, hexDigit_shift] at found
  have argument : (after.put rsi (after.registers rax)).get 8 rsi =
      hexDigit behind (machine.registers rbx).toNat := by
    simp [Machine.get, found]
  have stillReady : ready (after.put rsi (after.registers rax)).ram
      (after.put rsi (after.registers rax)).memory := by
    rw [Machine.put_ram, Machine.put_memory, onlyRax.ram, onlyRax.memory]
    exact isReady
  have lookedUp : OnlyRegisters [rax, rcx, rdx, rsi] machine
      (after.put rsi (after.registers rax)) :=
    (only.trans (onlyRax.mono (by simp))).put (by simp) _
  apply (prints.prints _ _ stillReady (hexDigit_mem _ _) argument).mono
  intro _ last printed
  apply met
  · exact (prints.only _ _ _ _ lookedUp).trans (printed.mono (by simp))
  · rw [printed.registers rdx (by simp), prints.registers]
    simp [onlyRax.registers]
  · rw [printed.registers rcx (by simp), prints.registers]
    simp [onlyRax.registers]

theorem wp_hexLoop (prints : Prints numberCharacter putc ready effect)
    (isReady : ready machine.ram machine.memory) {behind : ℕ} (small : behind < 16)
    (counted : machine.registers rdx = BitVec.ofNat 64 (behind + 1)) :
    wp (hexLoop numberCharacter putc)
      (fun again after => again = decide (behind ≠ 0) ∧
        OnlyRegisters [rax, rcx, rdx, rsi]
          (effect machine (hexDigit behind (machine.registers rbx).toNat)) after ∧
        after.registers rdx = BitVec.ofNat 64 behind ∧
        after.registers rcx = merge (machine.registers rcx) (BitVec.ofNat 8 (4 * behind)))
      machine := by
  have next : machine.registers rdx - 1#64 = BitVec.ofNat 64 behind := by
    rw [counted]
    bv_omega
  have shift : ((machine.put rdx (BitVec.ofNat 64 behind)).get 8 rdx).toNat <<< 2 % 64 =
      4 * behind := by
    simpa [Machine.get] using shift_count small
  have ended : (BitVec.ofNat 64 behind == 0#64) = decide (behind = 0) := by
    have all : ∀ behind < 16, (BitVec.ofNat 64 behind == 0#64) = decide (behind = 0) := by decide
    exact all behind small
  simp [hexLoop, next, shift]
  -- nothing looks at the flags, which depend on the count of the shift
  split
  all_goals
    apply wp_printDigit prints isReady behind
    · apply OnlyRegisters.withFlags
      apply OnlyRegisters.put _ (by simp)
      apply OnlyRegisters.withFlags
      apply OnlyRegisters.put _ (by simp)
      apply OnlyRegisters.put _ (by simp)
      apply OnlyRegisters.put _ (by simp)
      apply OnlyRegisters.withFlags
      exact (OnlyRegisters.refl _ machine).put (by simp) _
    · simp
    · intro after only kept keptCount
      have counted : after.registers rdx = BitVec.ofNat 64 behind := by simpa using kept
      have shifted := shifted_count small
      refine ⟨by rw [counted, ended], only.withFlags _ _, counted, ?_⟩
      simpa [Machine.get, merge_merge, shifted] using keptCount

theorem foldl_effect_only (prints : Prints numberCharacter putc ready effect)
    {changed : List Register} {before after : Machine} (text : List Byte)
    (only : OnlyRegisters changed before after) :
    OnlyRegisters changed (text.foldl effect before) (text.foldl effect after) := by
  induction text generalizing before after with
  | nil => exact only
  | cons char rest ih => exact ih (prints.only _ _ _ char only)

theorem foldl_effect_withStack (prints : Prints numberCharacter putc ready effect)
    (machine : Machine) (stack : List StackItem) (text : List Byte) :
    text.foldl effect (machine.withStack stack) = (text.foldl effect machine).withStack stack := by
  induction text generalizing machine with
  | nil => rfl
  | cons char rest ih =>
      rw [List.foldl_cons, prints.withStack]
      exact ih (effect machine char)

theorem registers_foldl_effect (prints : Prints numberCharacter putc ready effect)
    (machine : Machine) (text : List Byte) :
    (text.foldl effect machine).registers = machine.registers := by
  induction text generalizing machine with
  | nil => rfl
  | cons char rest ih => exact (ih _).trans (prints.registers machine char)

/-- The loop prints as many digits as `rdx` says, and counts it down to zero. -/
theorem wp_loop_hexLoop (prints : Prints numberCharacter putc ready effect)
    (isReady : ready machine.ram machine.memory) {behind fuel : ℕ} (small : behind < 16)
    (counted : machine.registers rdx = BitVec.ofNat 64 (behind + 1)) (enough : behind < fuel) :
    wp (loop (hexLoop numberCharacter putc) fuel)
      (fun _ after => OnlyRegisters [rax, rcx, rdx, rsi]
        ((hexText (behind + 1) (machine.registers rbx).toNat).foldl effect machine) after ∧
        after.registers rcx = upperBytes (machine.registers rcx))
      machine := by
  apply wp_loop (fun left before => left < 16 ∧ ready before.ram before.memory ∧
    before.registers rdx = BitVec.ofNat 64 (left + 1) ∧
    upperBytes (before.registers rcx) = upperBytes (machine.registers rcx) ∧
    ∀ after, OnlyRegisters [rax, rcx, rdx, rsi]
      ((hexText (left + 1) (before.registers rbx).toNat).foldl effect before) after →
        OnlyRegisters [rax, rcx, rdx, rsi]
          ((hexText (behind + 1) (machine.registers rbx).toNat).foldl effect machine) after)
  · rintro left before ⟨small, isReady, counted, upper, shown⟩
    apply (wp_hexLoop prints isReady small counted).mono
    rintro again after ⟨rfl, only, counted, shift⟩
    cases left with
    | zero =>
        refine ⟨shown after only, ?_⟩
        rw [shift, ← upper, merge_byte]
        exact BitVec.or_zero
    | succ left =>
        have value : after.registers rbx = before.registers rbx := by
          rw [only.registers rbx (by simp), prints.registers]
        refine ⟨left, Nat.lt_succ_self _, Nat.lt_of_succ_lt small, ?_, counted, ?_, ?_⟩
        · rw [only.ram, only.memory]
          exact prints.keeps _ _ isReady (hexDigit_mem _ _)
        · rw [shift, upperBytes_merge, upper]
        · intro last later
          rw [value] at later
          exact shown last ((foldl_effect_only prints _ only).trans later)
  · exact ⟨small, isReady, counted, rfl, fun _ only => only⟩
  · exact enough

/-- `rbx` and `rsi` are as they were, and `rdx` has been counted down. -/
theorem wp_printHexByByte (prints : Prints numberCharacter putc ready effect)
    (isReady : ready machine.ram machine.memory) {behind fuel : ℕ} (small : behind < 16)
    (counted : machine.registers rdx = BitVec.ofNat 64 (behind + 1)) (enough : behind < fuel) :
    wp (printHexByByte numberCharacter putc fuel)
      (fun _ after => OnlyRegisters [rax, rcx, rdx]
        ((hexText (behind + 1) (machine.registers rsi).toNat).foldl effect machine) after ∧
        after.registers rcx = upperBytes (machine.registers rcx))
      machine := by
  simp [printHexByByte]
  have saved : OnlyRegisters [rsi, rbx, rax, rcx, rdx]
      (machine.withStack (.word (machine.registers rsi) :: .word (machine.registers rbx) ::
        machine.stack))
      (((machine.withStack (.word (machine.registers rbx) :: machine.stack)).withStack
        (.word (machine.registers rsi) :: .word (machine.registers rbx) :: machine.stack)).put
          rbx (machine.registers rsi)) :=
    (OnlyRegisters.refl _ _).put (by simp) _
  apply (wp_loop_hexLoop prints (by simpa using isReady) small (by simpa using counted)
    enough).mono
  rintro _ after ⟨later, shift⟩
  have value : ((((machine.withStack (.word (machine.registers rbx) :: machine.stack)).withStack
      (.word (machine.registers rsi) :: .word (machine.registers rbx) :: machine.stack)).put
        rbx (machine.registers rsi)).registers rbx).toNat = (machine.registers rsi).toNat := by
    simp
  rw [value] at later
  have both := (foldl_effect_only prints _ saved).trans (later.mono (by simp))
  rw [foldl_effect_withStack prints] at both
  have first := @OnlyRegisters.restored _ _ _ _ _
    (.word (machine.registers rbx) :: machine.stack) both
  have second := @OnlyRegisters.restored _ _ _ _ _ machine.stack first
  rw [registers_foldl_effect prints, ← foldl_effect_withStack prints] at second
  exact ⟨_, _, _, both.stack, second, by simpa using shift⟩

theorem stack_foldl_effect (prints : Prints numberCharacter putc ready effect)
    (machine : Machine) (text : List Byte) :
    (text.foldl effect machine).stack = machine.stack := by
  have same : text.foldl effect machine = (text.foldl effect machine).withStack machine.stack :=
    foldl_effect_withStack prints machine machine.stack text
  rw [same]
  rfl

/-- Calling a routine that prints a text and leaves a value in `rcx`. -/
theorem wp_call_of_digits (prints : Prints numberCharacter putc ready effect)
    {changed : List Register} {routine : Routine Unit} {text : List Byte} {value : BitVec 64}
    (holds : wp routine
      (fun _ after =>
        OnlyRegisters changed
          (text.foldl effect (machine.withStack (.returnAddress :: machine.stack))) after ∧
        after.registers rcx = value)
      (machine.withStack (.returnAddress :: machine.stack))) :
    wp (call routine)
      (fun _ after => OnlyRegisters changed (text.foldl effect machine) after ∧
        after.registers rcx = value) machine := by
  apply wp_call
  apply holds.mono
  rintro _ after ⟨only, counter⟩
  rw [foldl_effect_withStack prints] at only
  exact ⟨only.stack, ⟨only.registers, (stack_foldl_effect prints machine _).symm, only.ram,
    only.memory, only.writes⟩, counter⟩

theorem wp_call_printHexByByte (prints : Prints numberCharacter putc ready effect)
    (isReady : ready machine.ram machine.memory) {behind fuel : ℕ} (small : behind < 16)
    (counted : machine.registers rdx = BitVec.ofNat 64 (behind + 1)) (enough : behind < fuel) :
    wp (call (printHexByByte numberCharacter putc fuel))
      (fun _ after => OnlyRegisters [rax, rcx, rdx]
        ((hexText (behind + 1) (machine.registers rsi).toNat).foldl effect machine) after ∧
        after.registers rcx = upperBytes (machine.registers rcx))
      machine := by
  apply wp_call_of_digits prints
  exact @wp_printHexByByte numberCharacter (machine.withStack (.returnAddress :: machine.stack))
    putc ready effect prints isReady behind fuel small counted enough

/-- Of all registers, only `rax` and the lowest byte of `rcx` are left changed by the digits. -/
theorem wp_printValue (prints : Prints numberCharacter putc ready effect)
    (isReady : ready machine.ram machine.memory) {behind fuel : ℕ} (small : behind < 16)
    (enough : behind < fuel) :
    wp (printValue numberCharacter putc (BitVec.ofNat 64 (behind + 1)) fuel)
      (fun _ after => OnlyRegisters [rax, rcx]
        ((hexText (behind + 1) (machine.registers rsi).toNat).foldl effect machine) after ∧
        after.registers rcx = upperBytes (machine.registers rcx))
      machine := by
  simp [printValue]
  have saved : OnlyRegisters [rdx, rax, rcx]
      (machine.withStack (.word (machine.registers rdx) :: machine.stack))
      ((machine.withStack (.word (machine.registers rdx) :: machine.stack)).put rdx
        (BitVec.ofNat 64 (behind + 1))) :=
    (OnlyRegisters.refl _ _).put (by simp) _
  apply (wp_call_printHexByByte prints (by simpa using isReady) small (by simp) enough).mono
  rintro _ after ⟨later, shift⟩
  have value : ((machine.withStack (.word (machine.registers rdx) :: machine.stack)).put rdx
      (BitVec.ofNat 64 (behind + 1))).registers rsi = machine.registers rsi := by
    simp
  rw [value] at later
  have both := (foldl_effect_only prints _ saved).trans (later.mono (by simp))
  rw [foldl_effect_withStack prints] at both
  have restored := @OnlyRegisters.restored _ _ _ _ _ machine.stack both
  rw [registers_foldl_effect prints, ← foldl_effect_withStack prints] at restored
  exact ⟨_, _, both.stack, restored, by simpa using shift⟩

theorem wp_call_printValue (prints : Prints numberCharacter putc ready effect)
    (isReady : ready machine.ram machine.memory) {behind fuel : ℕ} (small : behind < 16)
    (enough : behind < fuel) :
    wp (call (printValue numberCharacter putc (BitVec.ofNat 64 (behind + 1)) fuel))
      (fun _ after => OnlyRegisters [rax, rcx]
        ((hexText (behind + 1) (machine.registers rsi).toNat).foldl effect machine) after ∧
        after.registers rcx = upperBytes (machine.registers rcx))
      machine := by
  apply wp_call_of_digits prints
  exact @wp_printValue numberCharacter (machine.withStack (.returnAddress :: machine.stack))
    putc ready effect prints isReady behind fuel small enough

end

/-! ### With the characters of the screen -/

/-- The symbols of the image, with the table of digits. -/
structure HexSymbols extends Symbols where
  numberCharacter : Address
  apart : ∀ digit < 16, ¬Within (numberCharacter + BitVec.ofNat 64 digit) videoCurrent 8

/-- Memory with the table of digits and a cursor that is not below video memory. -/
structure HexReady (symbols : HexSymbols) (ram : Address → Bool) (memory : Memory) : Prop where
  inRam : ram symbols.videoCurrent = true
  video : ∀ place : Address, 0xb8000 ≤ place.toNat → place.toNat < 0xba000 → ram place = false
  table : TableAt symbols.numberCharacter ram memory
  above : 0xb8000 ≤ (memory.read 64 symbols.videoCurrent).toNat

namespace HexReady

variable {symbols : HexSymbols} {char : Byte}

theorem offRam (isReady : HexReady symbols machine.ram machine.memory) :
    OffRam machine (cursor symbols.toSymbols machine) := by
  intro room
  have small : (cursor symbols.toSymbols machine).toNat ≤ 0xb9ff0 := by
    simpa using BitVec.le_def.mp room
  exact isReady.video _ isReady.above (by omega)

theorem printed (isReady : HexReady symbols machine.ram machine.memory) (shown : char ≠ 10) :
    HexReady symbols (printed symbols.toSymbols machine char).ram
      (printed symbols.toSymbols machine char).memory := by
  have moved := @cursor_printed symbols.toSymbols machine isReady.inRam char
  have next := @toNat_nextCursor_of_ne (cursor symbols.toSymbols machine) char shown
  have above : 0xb8000 ≤ (cursor symbols.toSymbols machine).toNat := isReady.above
  have memory := @memory_printed symbols.toSymbols machine char isReady.inRam
    fun _ => isReady.offRam
  rcases isReady with ⟨inRam, video, ⟨loaded, tableInRam⟩, _⟩
  rw [ram_printed]
  refine ⟨inRam, video, ⟨?_, tableInRam⟩, ?_⟩
  · intro digit small
    rw [memory, Memory.write_of_not_within (by decide) (symbols.apart digit small)]
    exact loaded digit small
  · rw [cursor] at moved
    rw [moved, next]
    split
    · omega
    · exact above

end HexReady

/-- `__putc` is a routine of the kind that is called for each digit. -/
theorem prints_putc (symbols : HexSymbols) :
    Prints symbols.numberCharacter (putc symbols.toSymbols) (HexReady symbols)
      (printed symbols.toSymbols) where
  table := fun _ _ isReady => isReady.table
  prints := fun _ _ isReady _ argument => wp_call_putc isReady.inRam argument
  keeps := fun _ char isReady listed => isReady.printed (ne_newline_of_mem char listed)
  registers := registers_printed
  only := fun _ _ _ char only => only_printed char only
  withStack := printed_withStack

/--
What a routine that prints the digits of a value does, whichever routine it calls for them: exactly
these characters are printed, in this order, and all registers but `rax` and `rcx` are kept.
-/
def PrintsDigits (numberCharacter : Address) (count : ℕ)
    (routine : Routine Unit → ℕ → Routine Unit) : Prop :=
  ∀ putc ready effect, Prints numberCharacter putc ready effect →
    ∀ (machine : Machine) (fuel : ℕ), ready machine.ram machine.memory → count ≤ fuel →
      wp (routine putc fuel) (fun _ after => OnlyRegisters [rax, rcx]
        ((hexText count (machine.registers rsi).toNat).foldl effect machine) after) machine

theorem printsDigits_printRoutines (numberCharacter : Address) {count : ℕ}
    {routine : Routine Unit → ℕ → Routine Unit}
    (listed : (count, routine) ∈ printRoutines numberCharacter) :
    PrintsDigits numberCharacter count routine := by
  intro putc ready effect prints machine fuel isReady enough
  simp only [printRoutines, List.mem_cons, Prod.mk.injEq, List.not_mem_nil, or_false] at listed
  rcases listed with ⟨rfl, rfl⟩ | ⟨rfl, rfl⟩ | ⟨rfl, rfl⟩ | ⟨rfl, rfl⟩
  all_goals
    apply (wp_printValue prints isReady (by decide) enough).mono
    exact fun _ _ done => done.1

end

/--
For every value in `rsi`, the routines print its last 2, 4, 8 and 16 hexadecimal digits, the most
significant first, with `rsi`, `rbx` and `rdx` kept; what is printed reads back as the value modulo
that many digits; and a quad word is printed as its upper double word and then its lower one. With
`__putc` the characters go to the screen.
-/
theorem hex_printing_exact (symbols : HexSymbols) :
    (∀ count routine, (count, routine) ∈ printRoutines symbols.numberCharacter →
      PrintsDigits symbols.numberCharacter count routine ∧
      ∀ (machine : Machine) (fuel : ℕ), HexReady symbols machine.ram machine.memory →
        count ≤ fuel →
        wp (routine (putc symbols.toSymbols) fuel) (fun _ after => OnlyRegisters [rax, rcx]
          (printedText symbols.toSymbols machine
            (hexText count (machine.registers rsi).toNat)) after) machine) ∧
    ∀ value count,
      (hexText count value).length = count ∧ (∀ char ∈ hexText count value, char ∈ hexDigits) ∧
      readHex (hexText count value) = value % 16 ^ count ∧
      hexText 16 value = hexText 8 (value / 16 ^ 8) ++ hexText 8 value := by
  refine ⟨?_, ?_⟩
  · intro count routine listed
    have digits := printsDigits_printRoutines symbols.numberCharacter listed
    refine ⟨digits, ?_⟩
    intro machine fuel isReady enough
    exact digits _ _ _ (prints_putc symbols) machine fuel isReady enough
  · intro value count
    exact ⟨length_hexText count value, mem_hexText, readHex_hexText count value,
      hexText_add 8 8 value⟩

def hexImage : HexSymbols where
  toSymbols := image
  numberCharacter := 0x10100
  apart := by decide

/-- A machine with the table of digits, a cursor at the start of video memory, and 0xaf in `rsi`. -/
def hexMachine : Machine where
  registers := fun register => if register = rsi then 0xaf else 0
  ram := Kvm.inSlots
  memory := (blank.write 0x10040 (0xb8000 : BitVec 64)).store 0x10100 hexDigits

theorem hexReady_hexMachine : HexReady hexImage hexMachine.ram hexMachine.memory where
  inRam := by decide
  video := by
    intro place above below
    simp only [hexMachine, Kvm.inSlots, decide_eq_false_iff_not]
    omega
  table := ⟨by decide, by decide⟩
  above := by decide

theorem hex_printing_exact_byte :
    wp (printByteValue hexImage.numberCharacter (putc hexImage.toSymbols) 2)
      (fun _ after => after.writes = [⟨0xb8000, [0x41, 0x0f]⟩, ⟨0xb8002, [0x46, 0x0f]⟩])
      hexMachine := by
  have listed : (2, printByteValue hexImage.numberCharacter) ∈
      printRoutines hexImage.numberCharacter := List.mem_cons_self
  apply (((hex_printing_exact hexImage).1 _ _ listed).2 hexMachine 2 hexReady_hexMachine
    (Nat.le_refl 2)).mono
  intro _ after only
  have home : cursor hexImage.toSymbols hexMachine = 0xb8000 := by decide
  have text : hexText 2 (hexMachine.registers rsi).toNat = [0x41, 0x46] := by decide
  have off : EveryCharAt (OffRam hexMachine) (cursor hexImage.toSymbols hexMachine)
      [0x41, 0x46] := by
    rw [home]
    exact ⟨fun _ _ => by decide, fun _ _ => by decide, trivial⟩
  rw [only.writes, text, writes_printedText hexReady_hexMachine.inRam off, home]
  decide

end VirtLearn.Guest
