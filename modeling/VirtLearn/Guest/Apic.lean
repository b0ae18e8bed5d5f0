import VirtLearn.Guest.Outputs

/-!
# The dump of the local APIC

`dump_apic` of `apic64.S` with the three routines for the wide registers. Every register is loaded
and printed with its name in front of it. Only the interrupt command register is put together from
two halves, and there the lower half is shifted out where the upper one was to be shifted in.
-/

namespace VirtLearn.Guest

open Assembly Register

section Routines

variable (symbols : HandlerSymbols) (fuel : ℕ)

/-- What the three routines for wide registers have in common; they differ in the widths of the
moves to `%rsi`. -/
def wordOutputs (name : Label) (register : Fin 8 → ApicRegister) (cleared : ℕ)
    (separator : Fin 8 → ℕ) : List Output :=
  [.puts name, .clear cleared, .dword (register 7),
    .putc (separator 6) 0x5f, .dword (register 6), .putc (separator 5) 0x5f, .dword (register 5),
    .putc (separator 4) 0x5f, .dword (register 4), .putc (separator 3) 0x5f, .dword (register 3),
    .putc (separator 2) 0x5f, .dword (register 2), .putc (separator 1) 0x5f, .dword (register 1),
    .putc (separator 0) 0x5f, .dword (register 0), .println]

def isrOutputs : List Output :=
  wordOutputs .inr .isr 64 fun word => if word = 1 then 32 else 64

def irrOutputs : List Output :=
  wordOutputs .irr .irr 64 fun word => if word = 4 ∨ word = 0 then 32 else 64

def tmrOutputs : List Output :=
  wordOutputs .tmr .tmr 32 fun word => if word = 6 ∨ word = 3 then 64 else 32

def dumpIsr : Routine Unit :=
  outputs symbols fuel isrOutputs

def dumpIrr : Routine Unit :=
  outputs symbols fuel irrOutputs

def dumpTmr : Routine Unit :=
  outputs symbols fuel tmrOutputs

/-- `dump_apic` up to the call of `dump_irr`. -/
def apicOutputs : List Output :=
  [.puts .apicid, .clear 32, .dword .apicId, .puts .apicver, .dword .apicVer, .println,
    .puts .tpr, .clear 64, .dword .tpr, .puts .apr, .dword .apr, .puts .ppr, .dword .ppr, .println,
    .puts .eoi, .dword .eoi, .puts .rrd, .dword .rrd, .puts .ldr, .dword .ldr, .println,
    .puts .dfr, .dword .dfr, .puts .svr, .dword .svr, .println]

/-- `dump_apic` behind the interrupt command register. -/
def lvtOutputs : List Output :=
  [.println, .puts .lvtMsg, .puts .lvtCmci, .clear 64, .dword .lvtCmci, .puts .lvtTimer,
    .dword .lvtTimer, .puts .lvtThermal, .dword .lvtThermal, .println,
    .puts .lvtPerfmon, .dword .lvtPerfmon, .puts .lvtLint0, .dword .lvtLint0, .puts .lvtLint1,
    .dword .lvtLint1, .println, .puts .lvtError, .dword .lvtError, .println,
    .puts .initCount, .dword .timerIcr, .puts .currentCount, .dword .timerCcr, .puts .dcr,
    .dword .timerDcr]

def dumpApic : Routine Unit := do
  outputs symbols fuel apicOutputs
  call (dumpIrr symbols fuel)
  call (dumpIsr symbols fuel)
  call (dumpTmr symbols fuel)
  outputs symbols fuel [.puts .esr, .dword .esr, .puts .icr]
  mov 32 (.symbol ApicRegister.icr0.address) (.reg rsi)
  mov 32 (.symbol ApicRegister.icr1.address) (.reg rdi)
  shr 64 32 (.reg rsi)
  mov 32 (.reg rdi) (.reg rsi)
  printQword symbols fuel
  outputs symbols fuel lvtOutputs

end Routines

/-! ### What the dump is to show -/

/-- The name of a register and its value. -/
def field (name : Label) (value : BitVec 32) : List Byte :=
  name.chars ++ dwordText value

/-- The eight words of a wide register, the most significant first. -/
def wideField (name : Label) (word : Fin 8 → BitVec 32) : List Byte :=
  name.chars ++ dwordText (word 7) ++
    ([6, 5, 4, 3, 2, 1, 0] : List (Fin 8)).flatMap (fun index => 0x5f :: dwordText (word index)) ++
      [10]

/-- The fields of the dump, with this value for the interrupt command register. -/
def dumpText (content : ApicRegister → BitVec 32) (icr : BitVec 64) : List Byte :=
  List.flatten
    [field .apicid (content .apicId), field .apicver (content .apicVer), [10],
      field .tpr (content .tpr), field .apr (content .apr), field .ppr (content .ppr), [10],
      field .eoi (content .eoi), field .rrd (content .rrd), field .ldr (content .ldr), [10],
      field .dfr (content .dfr), field .svr (content .svr), [10],
      wideField .irr fun word => content (.irr word),
      wideField .inr fun word => content (.isr word),
      wideField .tmr fun word => content (.tmr word),
      field .esr (content .esr), Label.icr.chars, qwordText icr, [10],
      Label.lvtMsg.chars, field .lvtCmci (content .lvtCmci), field .lvtTimer (content .lvtTimer),
      field .lvtThermal (content .lvtThermal), [10],
      field .lvtPerfmon (content .lvtPerfmon), field .lvtLint0 (content .lvtLint0),
      field .lvtLint1 (content .lvtLint1), [10],
      field .lvtError (content .lvtError), [10],
      field .initCount (content .timerIcr), field .currentCount (content .timerCcr),
      field .dcr (content .timerDcr)]

/-- The registers can be read, and this is what they hold. -/
structure ApicHolds (machine : Machine) (content : ApicRegister → BitVec 32) : Prop where
  readable : ∀ register : ApicRegister, machine.ram register.address = true
  content : ∀ register, apicRegister machine.memory register = content register

/-- The dump displays this text, for every image that is loaded and whatever is on the screen. -/
def Dumps (symbols : HandlerSymbols) (content : ApicRegister → BitVec 32) (text : List Byte) :
    Prop :=
  ∀ (machine : Machine) (fuel : ℕ), OutputReady symbols machine → ApicHolds machine content →
    64 ≤ fuel →
      wp (dumpApic symbols fuel) (fun _ after => Displays symbols machine text after) machine

/-- Every register in its field. -/
def losslessText (content : ApicRegister → BitVec 32) : List Byte :=
  dumpText content (content .icr1 ++ content .icr0)

/-- What the dump displays. -/
def dumpedText (content : ApicRegister → BitVec 32) : List Byte :=
  dumpText content ((content .icr1).setWidth 64)

/-! ### The fields tell the content -/

theorem dwordText_append_inj {first second : BitVec 32} {rest more : List Byte} :
    dwordText first ++ rest = dwordText second ++ more ↔ first = second ∧ rest = more := by
  constructor
  · intro same
    rcases List.append_inj same (by simp) with ⟨sameText, sameRest⟩
    have read := congrArg readHex sameText
    rw [dwordText, dwordText, readHex_hexText, readHex_hexText] at read
    have bound := first.isLt
    have otherBound := second.isLt
    refine ⟨BitVec.eq_of_toNat_eq ?_, sameRest⟩
    omega
  · rintro ⟨rfl, rfl⟩
    rfl

theorem field_append_inj {name : Label} {first second : BitVec 32} {rest more : List Byte} :
    field name first ++ rest = field name second ++ more ↔ first = second ∧ rest = more := by
  rw [field, field, List.append_assoc, List.append_assoc, List.append_cancel_left_eq,
    dwordText_append_inj]

theorem wideField_append_inj {name : Label} {first second : Fin 8 → BitVec 32}
    {rest more : List Byte} :
    wideField name first ++ rest = wideField name second ++ more ↔
      first = second ∧ rest = more := by
  simp only [wideField, List.flatMap_cons, List.flatMap_nil, List.append_assoc, List.cons_append,
    List.append_cancel_left_eq, dwordText_append_inj, List.cons.injEq, true_and, List.nil_append]
  constructor
  · rintro ⟨seven, six, five, four, three, two, one, zero, same⟩
    refine ⟨?_, same⟩
    funext word
    match word with
    | 0 => exact zero
    | 1 => exact one
    | 2 => exact two
    | 3 => exact three
    | 4 => exact four
    | 5 => exact five
    | 6 => exact six
    | 7 => exact seven
  · rintro ⟨rfl, rfl⟩
    simp

theorem qwordText_append_iff {first second : BitVec 64} {rest more : List Byte} :
    qwordText first ++ rest = qwordText second ++ more ↔ first = second ∧ rest = more := by
  constructor
  · exact qwordText_append_inj
  · rintro ⟨rfl, rfl⟩
    rfl

/-- The fields tell the value of each register. -/
theorem dumpText_inj {first second : ApicRegister → BitVec 32} {icr icrToo : BitVec 64} :
    dumpText first icr = dumpText second icrToo ↔
      icr = icrToo ∧
        ∀ register, register ≠ .icr0 → register ≠ .icr1 → first register = second register := by
  simp only [dumpText, List.flatten_cons, field_append_inj, wideField_append_inj,
    qwordText_append_iff, List.append_cancel_left_eq]
  constructor
  · rintro ⟨apicId, apicVer, tpr, apr, ppr, eoi, rrd, ldr, dfr, svr, irr, isr, tmr, esr, icr,
      lvtCmci, lvtTimer, lvtThermal, lvtPerfmon, lvtLint0, lvtLint1, lvtError, timerIcr, timerCcr,
      timerDcr, -⟩
    refine ⟨icr, ?_⟩
    intro register lower upper
    cases register with
    | icr0 => exact absurd rfl lower
    | icr1 => exact absurd rfl upper
    | isr word => exact congrFun isr word
    | tmr word => exact congrFun tmr word
    | irr word => exact congrFun irr word
    | _ => assumption
  · rintro ⟨rfl, same⟩
    simp [same]

/-! ### What the dump shows -/

section

variable {symbols : HandlerSymbols} {machine before : Machine} {text : List Byte}
  {content : ApicRegister → BitVec 32} {fuel : ℕ}

/-- The upper half of the interrupt command register takes the place of the lower one. -/
theorem wp_loadIcr {rest : Routine Unit} {post : Unit → Machine → Prop}
    (ready : OutputReady symbols machine) (shows_ : Shows symbols machine text before)
    (holds : ApicHolds machine content)
    (onward : ∀ after, Shows symbols machine text after →
      after.registers rsi = (content .icr1).setWidth 64 →
      after.registers rdi = (content .icr1).setWidth 64 →
      after.registers rcx = before.registers rcx → wp rest post after) :
    wp (do
        mov 32 (.symbol ApicRegister.icr0.address) (.reg rsi)
        mov 32 (.symbol ApicRegister.icr1.address) (.reg rdi)
        shr 64 32 (.reg rsi)
        mov 32 (.reg rdi) (.reg rsi)
        rest)
      post before := by
  have value := (shows_.apicRegister_eq ready .icr1).trans (holds.content .icr1)
  rw [apicRegister] at value
  have readable : before.ram ApicRegister.icr0.address = true := by
    rw [shows_.ram]
    exact holds.readable .icr0
  have readableToo : before.ram ApicRegister.icr1.address = true := by
    rw [shows_.ram]
    exact holds.readable .icr1
  have absolute : ∀ (other : Machine) (place : Address),
      other.effective place none none = place := by
    simp [Machine.effective]
  have listed : rsi ∈ [rax, rcx, rsi, rdi] := by decide
  have listedToo : rdi ∈ [rax, rcx, rsi, rdi] := by decide
  simp only [mov, shr, Operand.symbol, wp_bind, wp_fetch_mem, wp_fetch_reg, wp_assign_reg,
    wp_setFlags, absolute]
  refine ⟨readable, readableToo, ?_⟩
  apply onward
  · exact (((((shows_.put listed _).put listedToo _).put listed _).withFlags _ _).put listed _)
  · simp [Machine.get, merge, value]
  · simp [Machine.get, merge, value]
  · simp

theorem fine_apicOutputs (holds : ApicHolds machine content) :
    ∀ output ∈ apicOutputs, output.Fine machine := by
  simp [apicOutputs, Output.Fine, holds.readable]

theorem fine_lvtOutputs (holds : ApicHolds machine content) :
    ∀ output ∈ lvtOutputs, output.Fine machine := by
  simp [lvtOutputs, Output.Fine, holds.readable]

theorem fine_wordOutputs (holds : ApicHolds machine content) (name : Label)
    (register : Fin 8 → ApicRegister) {cleared : ℕ} {separator : Fin 8 → ℕ}
    (whole : cleared = 32 ∨ cleared = 64)
    (wholeToo : ∀ word, separator word = 32 ∨ separator word = 64) :
    ∀ output ∈ wordOutputs name register cleared separator, output.Fine machine := by
  simp [wordOutputs, Output.Fine, holds.readable, whole, wholeToo]

theorem textOfOutputs_wordOutputs (holds : ApicHolds machine content) (name : Label)
    (register : Fin 8 → ApicRegister) (cleared : ℕ) (separator : Fin 8 → ℕ) :
    textOfOutputs machine (wordOutputs name register cleared separator) =
      wideField name fun word => content (register word) := by
  simp [textOfOutputs, wordOutputs, Output.text, wideField, holds.content]

theorem offStack_wordOutputs (name : Label) (register : Fin 8 → ApicRegister) (cleared : ℕ)
    (separator : Fin 8 → ℕ) :
    ∀ output ∈ wordOutputs name register cleared separator, ∀ offset, output ≠ .qword offset := by
  simp [wordOutputs]

/-- The three routines for the wide registers. -/
theorem wp_call_wordOutputs {name : Label} {register : Fin 8 → ApicRegister} {cleared : ℕ}
    {separator : Fin 8 → ℕ} (ready : OutputReady symbols machine)
    (shows_ : Shows symbols machine text before) (holds : ApicHolds machine content)
    (whole : cleared = 32 ∨ cleared = 64)
    (wholeToo : ∀ word, separator word = 32 ∨ separator word = 64)
    (enough : 64 ≤ fuel) (few : text.length + 2048 ≤ 2 ^ 48) :
    wp (call (outputs symbols fuel (wordOutputs name register cleared separator)))
      (fun _ after =>
        Shows symbols machine (text ++ wideField name fun word => content (register word)) after ∧
        after.registers rcx = upperBytes (before.registers rcx))
      before := by
  apply (wp_call_outputs ready shows_ (fine_wordOutputs holds name register whole wholeToo)
    (offStack_wordOutputs name register cleared separator) enough
    (by simp [wordOutputs]; omega)).mono
  rintro _ after ⟨shown, counter, -⟩
  rw [textOfOutputs_wordOutputs holds] at shown
  refine ⟨shown, ?_⟩
  rw [counter]
  simp [rcxAfter, wordOutputs, Output.rcx]

theorem length_wideField_le (name : Label) (word : Fin 8 → BitVec 32) :
    (wideField name word).length ≤ 2048 := by
  have short := length_chars_le name
  simp [wideField]
  omega

/-- The parts of the dump in a row. -/
theorem dumpedText_eq (holds : ApicHolds machine content) :
    dumpedText content =
      textOfOutputs machine apicOutputs ++ wideField .irr (fun word => content (.irr word)) ++
      wideField .inr (fun word => content (.isr word)) ++
      wideField .tmr (fun word => content (.tmr word)) ++
      textOfOutputs machine [.puts .esr, .dword .esr, .puts .icr] ++
      qwordText ((content .icr1).setWidth 64) ++ textOfOutputs machine lvtOutputs := by
  simp [dumpedText, dumpText, textOfOutputs, apicOutputs, lvtOutputs, Output.text, field,
    holds.content]

/-- The dump shows its fields, but the interrupt command register without its lower half. -/
theorem wp_dumpApic (ready : OutputReady symbols machine)
    (shows_ : Shows symbols machine text before) (holds : ApicHolds machine content)
    (enough : 64 ≤ fuel) (few : text.length + 16384 ≤ 2 ^ 48) :
    wp (dumpApic symbols fuel)
      (fun _ after => Shows symbols machine (text ++ dumpedText content) after ∧
        after.registers rcx = upperBytes (before.registers rcx) ∧
        after.registers rdi = (content .icr1).setWidth 64)
      before := by
  have length := length_textOfOutputs_le machine
  have lengthWide := length_wideField_le
  have first : (textOfOutputs machine apicOutputs).length ≤ 2048 :=
    (length apicOutputs).trans (by decide)
  have middle : (textOfOutputs machine [.puts .esr, .dword .esr, .puts .icr]).length ≤ 2048 :=
    (length _).trans (by simp)
  rw [dumpApic, wp_bind]
  apply (wp_outputs ready shows_ (fine_apicOutputs holds) enough
    (by simp [apicOutputs]; omega)).mono
  rintro _ named ⟨shown, counted, -⟩
  rw [wp_bind]
  apply (wp_call_wordOutputs ready shown holds (by decide) (by decide) enough
    (by rw [List.length_append]; omega)).mono
  rintro _ requested ⟨shown, countedIrr⟩
  rw [wp_bind]
  have wide := lengthWide .irr fun word => content (.irr word)
  apply (wp_call_wordOutputs ready shown holds (by decide) (by decide) enough
    (by rw [List.length_append, List.length_append]; omega)).mono
  rintro _ served ⟨shown, countedIsr⟩
  rw [wp_bind]
  have wideToo := lengthWide .inr fun word => content (.isr word)
  apply (wp_call_wordOutputs ready shown holds (by decide) (by decide) enough
    (by simp only [List.length_append]; omega)).mono
  rintro _ triggered ⟨shown, countedTmr⟩
  rw [wp_bind]
  have wideLast := lengthWide .tmr fun word => content (.tmr word)
  apply (wp_outputs ready shown (by simp [Output.Fine, holds.readable]) enough
    (by simp only [List.length_append]; simp; omega)).mono
  rintro _ between ⟨shown, countedEsr, -⟩
  apply wp_loadIcr ready shown holds
  intro loaded shown passed destination kept
  rw [wp_bind]
  apply (wp_printQwordShown ready shown passed enough
    (by simp only [List.length_append]; omega)).mono
  rintro _ printed ⟨shown, countedIcr, destinationKept⟩
  apply (wp_outputs ready shown (fine_lvtOutputs holds) enough
    (by simp only [List.length_append]; simp [lvtOutputs]; omega)).mono
  rintro _ after ⟨shown, countedLast, destinationLast⟩
  refine ⟨?_, ?_, ?_⟩
  · rw [dumpedText_eq holds]
    simpa only [List.append_assoc] using shown
  · simp only [countedLast, countedIcr, kept, countedEsr, countedTmr, countedIsr, countedIrr,
      counted, rcxAfter, apicOutputs, lvtOutputs, Output.rcx, List.foldl_cons, List.foldl_nil, id,
      upperBytes_upperBytes]
  · rw [destinationLast, destinationKept, destination]

theorem ApicHolds.withStack (holds : ApicHolds machine content) (stack : List StackItem) :
    ApicHolds (machine.withStack stack) content :=
  ⟨holds.readable, holds.content⟩

theorem wp_call_dumpApic (ready : OutputReady symbols machine)
    (shows_ : Shows symbols machine text before) (holds : ApicHolds machine content)
    (enough : 64 ≤ fuel) (few : text.length + 16384 ≤ 2 ^ 48) :
    wp (call (dumpApic symbols fuel))
      (fun _ after => Shows symbols machine (text ++ dumpedText content) after ∧
        after.registers rcx = upperBytes (before.registers rcx) ∧
        after.registers rdi = (content .icr1).setWidth 64)
      before := by
  apply @wp_call_of_shows _ _ _ _ _ _
    (fun registers => registers rcx = upperBytes (before.registers rcx) ∧
      registers rdi = (content .icr1).setWidth 64) shows_
  exact wp_dumpApic (ready.withStack _) (shows_.withStack _) (holds.withStack _) enough few

theorem dumps_dumpedText (symbols : HandlerSymbols) (content : ApicRegister → BitVec 32) :
    Dumps symbols content (dumpedText content) := by
  intro machine fuel ready holds enough
  apply (wp_dumpApic ready (Shows.refl symbols machine) holds enough (by simp)).mono
  rintro _ after ⟨shown, -⟩
  rw [List.nil_append] at shown
  exact shown.displays

end

/-! ### What is lost -/

theorem lineFeeds_dwordText (value : BitVec 32) :
    lineFeeds (dwordText value) = List.replicate 8 false :=
  lineFeeds_hexText 8 _

theorem lineFeeds_field (name : Label) (first second : BitVec 32) :
    lineFeeds (field name first) = lineFeeds (field name second) := by
  rw [field, field, lineFeeds_append, lineFeeds_append, lineFeeds_dwordText, lineFeeds_dwordText]

theorem lineFeeds_wideField (name : Label) (first second : Fin 8 → BitVec 32) :
    lineFeeds (wideField name first) = lineFeeds (wideField name second) := by
  have word : ∀ value : BitVec 32,
      lineFeeds (0x5f :: dwordText value) = false :: List.replicate 8 false := by
    intro value
    rw [← lineFeeds_dwordText value]
    rfl
  simp only [wideField, List.flatMap_cons, List.flatMap_nil, lineFeeds_append, word,
    lineFeeds_dwordText]

theorem lineFeeds_dumpText (first second : ApicRegister → BitVec 32) (icr icrToo : BitVec 64) :
    lineFeeds (dumpText first icr) = lineFeeds (dumpText second icrToo) := by
  have fields := fun name register => lineFeeds_field name (first register) (second register)
  have wide := fun name (register : Fin 8 → ApicRegister) =>
    lineFeeds_wideField name (fun word => first (register word)) fun word => second (register word)
  simp only [dumpText, List.flatten_cons, lineFeeds_append, lineFeeds_qwordText, fields, wide]

theorem room_dumpText (content : ApicRegister → BitVec 32) (icr : BitVec 64) :
    160 * (dumpText content icr).count 10 + 2 * (dumpText content icr).length ≤ 0x1ff0 := by
  have alike := lineFeeds_dumpText content (fun _ => 0) icr 0
  rw [count_eq_of_lineFeeds alike, length_eq_of_lineFeeds alike]
  decide +kernel

theorem length_dumpedText_le (content : ApicRegister → BitVec 32) :
    (dumpedText content).length ≤ 0xff8 := by
  have room := room_dumpText content ((content .icr1).setWidth 64)
  rw [dumpedText]
  omega

theorem ApicHolds.atHome {symbols : HandlerSymbols} {machine : Machine}
    {content : ApicRegister → BitVec 32} (holds : ApicHolds machine content)
    (stack : List StackItem) : ApicHolds (atHome symbols machine stack) content where
  readable := holds.readable
  content register := by
    rw [← holds.content register]
    apply Memory.read_congr (by decide)
    intro place within
    exact Memory.write_of_not_within (by decide)
      (not_within_of_apic symbols.toSymbols register within)

/-- The upper half alone is the whole only where both are zero. -/
theorem setWidth_eq_append_iff {lower upper : BitVec 32} :
    upper.setWidth 64 = upper ++ lower ↔ lower = 0 ∧ upper = 0 := by
  constructor
  · intro same
    have values := congrArg BitVec.toNat same
    have bound := upper.isLt
    rw [BitVec.toNat_setWidth, BitVec.toNat_append, ← Nat.shiftLeft_add_eq_or_of_lt lower.isLt,
      Nat.shiftLeft_eq, Nat.mod_eq_of_lt (by omega)] at values
    have lowerZero : lower.toNat = 0 := by omega
    have upperZero : upper.toNat = 0 := by omega
    exact ⟨BitVec.eq_of_toNat_eq lowerZero, BitVec.eq_of_toNat_eq upperZero⟩
  · rintro ⟨rfl, rfl⟩
    rfl

theorem losslessText_inj {first second : ApicRegister → BitVec 32}
    (same : losslessText first = losslessText second) : first = second := by
  rcases dumpText_inj.mp same with ⟨command, others⟩
  have halves : first .icr1 = second .icr1 ∧ first .icr0 = second .icr0 := by
    have upper := congrArg (BitVec.extractLsb' 32 32) command
    have lower := congrArg (BitVec.setWidth 32) command
    rw [BitVec.extractLsb'_append_eq_left, BitVec.extractLsb'_append_eq_left] at upper
    rw [BitVec.setWidth_append, BitVec.setWidth_append] at lower
    simpa [upper] using lower
  funext register
  by_cases lower : register = .icr0
  · rw [lower, halves.2]
  by_cases upper : register = .icr1
  · rw [upper, halves.1]
  exact others register lower upper

/-- What is displayed tells every register but the lower half. -/
theorem dumpedText_eq_iff {first second : ApicRegister → BitVec 32} :
    dumpedText first = dumpedText second ↔
      ∀ register, register ≠ .icr0 → first register = second register := by
  rw [dumpedText, dumpedText, dumpText_inj]
  constructor
  · rintro ⟨command, others⟩ register lower
    by_cases upper : register = .icr1
    · have whole := congrArg (BitVec.setWidth 32) command
      rw [upper]
      simpa using whole
    · exact others register lower upper
  · intro others
    refine ⟨?_, fun register lower _ => others register lower⟩
    rw [others .icr1 (by decide)]

theorem icr_eq_zero_of_dumps {symbols : HandlerSymbols} {machine : Machine}
    {content : ApicRegister → BitVec 32} (ready : OutputReady symbols machine)
    (holds : ApicHolds machine content) (dumps : Dumps symbols content (losslessText content)) :
    content .icr0 = 0 ∧ content .icr1 = 0 := by
  have readyHome := ready.atHome machine.stack
  have holdsHome : ApicHolds (atHome symbols machine machine.stack) content := holds.atHome _
  have same : dumpedText content = losslessText content := by
    apply eq_of_displays readyHome (cursor_atHome _) (lineFeeds_dumpText content content _ _)
      (room_dumpText content _)
    · exact dumps_dumpedText symbols content _ 64 readyHome holdsHome (le_refl _)
    · exact dumps _ 64 readyHome holdsHome (le_refl _)
  exact setWidth_eq_append_iff.mp (dumpText_inj.mp same).1

/-- The dump shows every register in its field exactly if the interrupt command register is zero.
All fields together would tell the content. Those displayed leave `ICR0` open and nothing else. -/
theorem dumpApic_lossless_iff {symbols : HandlerSymbols} {machine : Machine}
    {content : ApicRegister → BitVec 32} (ready : OutputReady symbols machine)
    (holds : ApicHolds machine content) :
    (Dumps symbols content (losslessText content) ↔ content .icr0 = 0 ∧ content .icr1 = 0) ∧
      (∀ other, losslessText content = losslessText other → content = other) ∧
      Dumps symbols content (dumpedText content) ∧
      ∀ other, dumpedText content = dumpedText other ↔
        ∀ register, register ≠ .icr0 → content register = other register := by
  refine ⟨?_, fun other => losslessText_inj, dumps_dumpedText symbols content,
    fun other => dumpedText_eq_iff⟩
  constructor
  · exact icr_eq_zero_of_dumps ready holds
  · intro zero
    have same := setWidth_eq_append_iff.mpr zero
    rw [losslessText, ← same]
    exact dumps_dumpedText symbols content

theorem apicHolds_handlerMachine (apic : Memory) :
    ApicHolds (handlerMachine apic) (apicRegister (handlerMachine apic).memory) where
  readable register := by
    have small := offset_le register
    simp only [handlerMachine, Kvm.inSlots, ApicRegister.address, apicBase, decide_eq_true_eq]
    bv_omega
  content _ := rfl

theorem dumpApic_lossless_idle :
    Dumps handlerImage (apicRegister (handlerMachine blank).memory)
      (losslessText (apicRegister (handlerMachine blank).memory)) :=
  (dumpApic_lossless_iff (outputReady_handlerMachine blank) (apicHolds_handlerMachine blank)).1.mpr
    (by decide)

/-- After `INIT_IPI` was sent, the field shows zeros. -/
theorem not_dumpApic_lossless :
    ¬Dumps handlerImage
      (apicRegister (handlerMachine
        (blank.write ApicRegister.icr0.address (0xc4500 : BitVec 32))).memory)
      (losslessText (apicRegister (handlerMachine
        (blank.write ApicRegister.icr0.address (0xc4500 : BitVec 32))).memory)) := by
  intro dumps
  have zero := icr_eq_zero_of_dumps (outputReady_handlerMachine _) (apicHolds_handlerMachine _)
    dumps
  exact absurd zero.1 (by decide)

end VirtLearn.Guest
