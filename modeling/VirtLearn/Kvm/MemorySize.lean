import Mathlib.Algebra.Order.Ring.Int
import Mathlib.RingTheory.Coprime.Lemmas
import Mathlib.RingTheory.Int.Basic
import VirtLearn.Kvm.ParseArgv

/-!
# The memory size

What an accepted string leaves in `vm_memory_size`. Decimal numerals give their value times the unit
modulo 2^64. Among the hexadecimal digits `F` and `f` have no value of their own: they count as the
digit before them, whichever option that was in.
-/

namespace VirtLearn.Kvm

/-- The value of a hexadecimal digit. -/
def digitValue (char : Byte) : ℕ :=
  let index := hexadecimalDigits.idxOf char
  if index < 16 then index else index - 6

/-- The number that digits denote in their base. -/
def numeral (hex : Bool) (digits : List Byte) : ℕ :=
  horner (if hex then 16 else 10) (digits.map digitValue)

/-- The digit 15. -/
def IsF (char : Byte) : Prop :=
  char = ascii 'F' ∨ char = ascii 'f'

instance : DecidablePred IsF :=
  fun _ => inferInstanceAs (Decidable (_ ∨ _))

/-- The values that the ranges of the code give. -/
def knownDigit (char : Byte) : Option ℤ :=
  if ascii '0' ≤ char ∧ char ≤ ascii '9' then some (char.toNat - (ascii '0').toNat)
  else if ascii 'A' ≤ char ∧ char < ascii 'F' then some (char.toNat - (ascii 'A').toNat + 10)
  else if ascii 'a' ≤ char ∧ char < ascii 'f' then some (char.toNat - (ascii 'a').toNat + 10)
  else none

theorem digitVal_eq (val : ℤ) (char : Byte) : digitVal val char = (knownDigit char).getD val := by
  rw [digitVal, knownDigit]
  split
  · rfl
  split
  · rfl
  split
  · rfl
  · rfl

/-- The ranges have every hexadecimal digit, with its value, but the digit 15. -/
theorem knownDigit_spec :
    ∀ char ∈ hexadecimalDigits,
      knownDigit char = if IsF char then none else some (digitValue char : ℤ) := by
  have all : hexadecimalDigits.all fun char =>
      knownDigit char = if IsF char then none else some (digitValue char : ℤ) := by
    decide +kernel
  simpa only [List.all_eq_true, decide_eq_true_eq] using all

theorem digitValue_spec :
    ∀ char ∈ hexadecimalDigits,
      (IsF char → digitValue char = 15) ∧ (¬IsF char → digitValue char < 15) := by
  have all : hexadecimalDigits.all fun char =>
      (IsF char → digitValue char = 15) ∧ (¬IsF char → digitValue char < 15) := by
    decide +kernel
  simpa only [List.all_eq_true, decide_eq_true_eq] using all

section

variable {char : Byte} {digits : List Byte} {val : ℤ}

theorem digitVal_of_not_isF (digit : char ∈ hexadecimalDigits) (known : ¬IsF char) :
    digitVal val char = digitValue char := by
  rw [digitVal_eq, knownDigit_spec char digit, if_neg known]
  rfl

theorem digitVal_of_isF (unknown : IsF char) : digitVal val char = val := by
  rcases unknown with rfl | rfl <;> rfl

/-- Without the digit 15, what was in `val` before does not matter. -/
theorem digitVals_of_not_isF (listed : ∀ char ∈ digits, char ∈ hexadecimalDigits)
    (known : ∀ char ∈ digits, ¬IsF char) :
    digitVals val digits = digits.map fun char => (digitValue char : ℤ) := by
  induction digits generalizing val with
  | nil => rfl
  | cons char digits ih =>
      rw [digitVals, ih (fun later mem => listed later (List.mem_cons_of_mem _ mem))
        (fun later mem => known later (List.mem_cons_of_mem _ mem)), List.map_cons,
        digitVal_of_not_isF (listed char (by simp)) (known char (by simp))]

theorem digitVals_of_isF (unknown : ∀ char ∈ digits, IsF char) :
    digitVals val digits = List.replicate digits.length val ∧ lastVal val digits = val := by
  induction digits with
  | nil => exact ⟨rfl, rfl⟩
  | cons char digits ih =>
      have stays : digitVal val char = val := digitVal_of_isF (unknown char (by simp))
      rcases ih fun later mem => unknown later (List.mem_cons_of_mem _ mem) with ⟨vals, last⟩
      constructor
      · rw [digitVals, stays, vals, List.length_cons, List.replicate_succ]
      · rw [lastVal, List.foldl_cons, stays]
        exact last

/-- A first digit other than 15 decides the value of all that follow it. -/
theorem digitVals_of_head (listed : ∀ char ∈ digits, char ∈ hexadecimalDigits)
    (head : ∀ char ∈ digits.head?, ¬IsF char) (other : ℤ) :
    digitVals val digits = digitVals other digits := by
  cases digits with
  | nil => rfl
  | cons char digits =>
      have known : ¬IsF char := head char rfl
      rw [digitVals, digitVals, digitVal_of_not_isF (listed char (by simp)) known,
        digitVal_of_not_isF (listed char (by simp)) known]

/-- With less than 15 in `val`, digits count for no more than they should. -/
theorem digitVals_le (listed : ∀ char ∈ digits, char ∈ hexadecimalDigits) (small : val < 15) :
    List.Forall₂ (· ≤ ·) (digitVals val digits) (digits.map fun char => (digitValue char : ℤ)) := by
  induction digits generalizing val with
  | nil => exact .nil
  | cons char digits ih =>
      rcases digitValue_spec char (listed char (by simp)) with ⟨fifteen, less⟩
      have first : digitVal val char ≤ digitValue char ∧ digitVal val char < 15 := by
        by_cases isF : IsF char
        · rw [digitVal_of_isF isF, fifteen isF]
          exact ⟨small.le, small⟩
        · rw [digitVal_of_not_isF (listed char (by simp)) isF]
          exact ⟨le_refl _, by exact_mod_cast less isF⟩
      exact .cons first.1
        (ih (fun later mem => listed later (List.mem_cons_of_mem _ mem)) first.2)

theorem digitVals_ne (listed : ∀ char ∈ digits, char ∈ hexadecimalDigits) (small : val < 15)
    (unknown : ∃ char ∈ digits, IsF char) :
    digitVals val digits ≠ digits.map fun char => (digitValue char : ℤ) := by
  induction digits generalizing val with
  | nil => simp at unknown
  | cons char digits ih =>
      rcases digitValue_spec char (listed char (by simp)) with ⟨fifteen, less⟩
      intro same
      rw [digitVals, List.map_cons] at same
      rcases List.cons.inj same with ⟨first, later⟩
      by_cases isF : IsF char
      · rw [digitVal_of_isF isF, fifteen isF] at first
        exact absurd first small.ne
      · rcases unknown with ⟨found, mem, foundF⟩
        rcases List.mem_cons.mp mem with rfl | mem
        · exact isF foundF
        · refine ih (fun later mem => listed later (List.mem_cons_of_mem _ mem)) ?_
            ⟨found, mem, foundF⟩ later
          rw [first]
          exact_mod_cast less isF

theorem digitVals_nonneg (listed : ∀ char ∈ digits, char ∈ hexadecimalDigits) (old : 0 ≤ val) :
    ∀ digit ∈ digitVals val digits, 0 ≤ digit := by
  induction digits generalizing val with
  | nil => simp [digitVals]
  | cons char digits ih =>
      have first : 0 ≤ digitVal val char := by
        by_cases isF : IsF char
        · rwa [digitVal_of_isF isF]
        · rw [digitVal_of_not_isF (listed char (by simp)) isF]
          exact Int.natCast_nonneg _
      intro digit mem
      rcases List.mem_cons.mp mem with rfl | mem
      · exact first
      · exact ih (fun later mem => listed later (List.mem_cons_of_mem _ mem)) first digit mem

end

theorem horner_digitValue (hex : Bool) (digits : List Byte) :
    horner (numberBase hex) (digits.map fun char => (digitValue char : ℤ)) =
      (numeral hex digits : ℤ) := by
  have mapped := map_horner (Nat.castRingHom ℤ) (if hex then 16 else 10) (digits.map digitValue)
  rw [List.map_map] at mapped
  rw [numeral]
  cases hex <;> exact mapped.symm

theorem numberBase_pos (hex : Bool) : 0 < numberBase hex := by
  cases hex <;> decide

theorem ofInt_mul_ofNat (number unit : ℕ) :
    BitVec.ofInt 64 (number : ℤ) * BitVec.ofNat 64 unit = BitVec.ofNat 64 (number * unit) := by
  rw [BitVec.ofInt_natCast, BitVec.ofNat_mul]

theorem unit_pos {suffix : Byte} {unit : ℕ} (isUnit : unitOf suffix = some unit) : 0 < unit := by
  have all : ∀ suffix : Byte, ∀ unit ∈ unitOf suffix, 0 < unit := by decide
  exact all suffix unit isUnit

/-! ### Numerals -/

/-- The string has a numeral of this number, a suffix for this unit and something behind it. -/
structure Denotes (optarg : Argument) (hex : Bool) (digits : List Byte) (suffix : Byte)
    (tail : List Byte) (number unit : ℕ) : Prop where
  spelled : optarg.chars = numberPrefix hex ++ digits ++ suffix :: tail
  nonempty : digits ≠ []
  listed : ∀ char ∈ digits, char ∈ digitsOf hex
  value : numeral hex digits = number
  isUnit : unitOf suffix = some unit

section

variable {optarg : Argument} {hex : Bool} {digits tail : List Byte} {suffix : Byte}
  {number unit : ℕ}

theorem Denotes.hexadecimal (denotes : Denotes optarg hex digits suffix tail number unit) :
    ∀ char ∈ digits, char ∈ hexadecimalDigits :=
  fun char mem => digit_of_mem_digitsOf (denotes.listed char mem)

theorem Denotes.isSuffix (denotes : Denotes optarg hex digits suffix tail number unit) :
    suffix ∈ suffixes := by
  rw [← unitOf_isSome_iff, denotes.isUnit]
  rfl

theorem Denotes.splits (denotes : Denotes optarg hex digits suffix tail number unit) :
    Splits optarg hex digits (suffix :: tail) :=
  splits_of_chars denotes.spelled denotes.hexadecimal denotes.isSuffix

theorem Denotes.parseSize_eq (denotes : Denotes optarg hex digits suffix tail number unit)
    (last : isalpha (tail.getD 0 0) = false) (state : ParseState) :
    parseSize optarg state = .ok (state.sized optarg hex digits unit) :=
  denotes.splits.parseSize_of_suffix denotes.isUnit last state

/-- Without the digit 15, the size is the number times the unit modulo 2^64. -/
theorem Denotes.size_eq (denotes : Denotes optarg hex digits suffix tail number unit)
    (known : ∀ char ∈ digits, ¬IsF char) (state : ParseState) :
    (state.sized optarg hex digits unit).vmMemorySize = BitVec.ofNat 64 (number * unit) := by
  rw [ParseState.sized, digitVals_of_not_isF denotes.hexadecimal known, horner_digitValue,
    denotes.value, ofInt_mul_ofNat]

theorem not_isF_of_decimal (denotes : Denotes optarg false digits suffix tail number unit) :
    ∀ char ∈ digits, ¬IsF char := by
  have all : ∀ char ∈ decimalDigits, ¬IsF char := by decide +kernel
  exact fun char mem => all char (denotes.listed char mem)

/-- With the digit 15 behind less than 15 in `val`, the size is too small. -/
theorem Denotes.size_lt (denotes : Denotes optarg hex digits suffix tail number unit)
    (unknown : ∃ char ∈ digits, IsF char) (fits : number * unit < 2 ^ 64) (state : ParseState)
    (old : 0 ≤ state.val) (small : state.val < 15) :
    (state.sized optarg hex digits unit).vmMemorySize.toNat < number * unit := by
  have nonneg := horner_nonneg (numberBase_pos hex) (digitVals_nonneg denotes.hexadecimal old)
  rcases Int.eq_ofNat_of_zero_le nonneg with ⟨read, readValue⟩
  have less : read < number := by
    have below := horner_lt (numberBase_pos hex) (digitVals_le denotes.hexadecimal small)
      (digitVals_ne denotes.hexadecimal small unknown)
    rw [horner_digitValue, denotes.value, readValue] at below
    exact_mod_cast below
  have product : read * unit < number * unit :=
    Nat.mul_lt_mul_of_pos_right less (unit_pos denotes.isUnit)
  rw [ParseState.sized, readValue, ofInt_mul_ofNat, BitVec.toNat_ofNat,
    Nat.mod_eq_of_lt (product.trans fits)]
  exact product

/-- A decimal numeral with a suffix leaves the product modulo 2^64, whatever was there before. -/
theorem parseSize_decimal (denotes : Denotes optarg false digits suffix [] number unit)
    (state : ParseState) :
    ∃ after, parseSize optarg state = .ok after ∧
      after.vmMemorySize = BitVec.ofNat 64 (number * unit) :=
  ⟨_, denotes.parseSize_eq (by decide) state,
    denotes.size_eq (not_isF_of_decimal denotes) state⟩

theorem parseSize_sixteenK :
    ∃ after, parseSize ⟨"16K".toList.map ascii, by decide, by decide⟩ ⟨9, 9, 9, 9, 1, 9, none⟩ =
      .ok after ∧ after.vmMemorySize = BitVec.ofNat 64 (16 * 0x400) :=
  @parseSize_decimal _ ("16".toList.map ascii) (ascii 'K') 16 0x400
    ⟨rfl, by decide, by decide, rfl, rfl⟩ _

/-- A hexadecimal spelling leaves the size that the decimal one of its number leaves, and that of
the number, if and only if it does without `F` and `f`. -/
theorem spellings_agree_iff {fromHex fromDecimal : Argument} {decimal : List Byte}
    (hexSpelling : Denotes fromHex true digits suffix [] number unit)
    (decimalSpelling : Denotes fromDecimal false decimal suffix [] number unit)
    (fits : number * unit < 2 ^ 64) :
    (∀ state, ∃ first second, parseSize fromHex state = .ok first ∧
      parseSize fromDecimal state = .ok second ∧
      first.vmMemorySize = second.vmMemorySize ∧
      first.vmMemorySize = BitVec.ofNat 64 (number * unit)) ↔
        ∀ char ∈ digits, ¬IsF char := by
  constructor
  · intro agree char mem isF
    rcases agree ⟨0, 0, 0, 0, 1, 0, none⟩ with ⟨first, second, ends, _, _, size⟩
    rw [hexSpelling.parseSize_eq (by decide)] at ends
    cases ends
    have less := hexSpelling.size_lt ⟨char, mem, isF⟩ fits ⟨0, 0, 0, 0, 1, 0, none⟩ (le_refl 0)
      (by decide)
    rw [size, BitVec.toNat_ofNat, Nat.mod_eq_of_lt fits] at less
    exact Nat.lt_irrefl _ less
  · intro known state
    have decimalSize := decimalSpelling.size_eq (not_isF_of_decimal decimalSpelling) state
    have hexSize := hexSpelling.size_eq known state
    refine ⟨_, _, hexSpelling.parseSize_eq (by decide) state,
      decimalSpelling.parseSize_eq (by decide) state, ?_, hexSize⟩
    rw [hexSize, decimalSize]

theorem spellings_of_twenty_six :
    ∃ first second,
      parseSize ⟨"0x1ak".toList.map ascii, by decide, by decide⟩ ⟨9, 9, 9, 9, 1, 9, none⟩ =
        .ok first ∧
      parseSize ⟨"26k".toList.map ascii, by decide, by decide⟩ ⟨9, 9, 9, 9, 1, 9, none⟩ =
        .ok second ∧
      first.vmMemorySize = second.vmMemorySize ∧
      first.vmMemorySize = BitVec.ofNat 64 (26 * 0x400) :=
  (@spellings_agree_iff ("1a".toList.map ascii) (ascii 'k') 26 0x400 _ _ ("26".toList.map ascii)
    ⟨rfl, by decide, by decide, rfl, rfl⟩ ⟨rfl, by decide, by decide, rfl, rfl⟩
    (by decide)).mpr (by decide) _

/-- `0xFk` is taken for no memory at all where `15k` is 15 KiB. -/
theorem spellings_of_fifteen_differ :
    ¬∀ (fromHex fromDecimal : Argument) (digits decimal : List Byte) (suffix : Byte)
      (number unit : ℕ), Denotes fromHex true digits suffix [] number unit →
      Denotes fromDecimal false decimal suffix [] number unit → number * unit < 2 ^ 64 →
      ∀ state, ∃ first second, parseSize fromHex state = .ok first ∧
        parseSize fromDecimal state = .ok second ∧
        first.vmMemorySize = second.vmMemorySize ∧
        first.vmMemorySize = BitVec.ofNat 64 (number * unit) := by
  intro agree
  rcases agree ⟨"0xFk".toList.map ascii, by decide, by decide⟩
    ⟨"15k".toList.map ascii, by decide, by decide⟩ ("F".toList.map ascii) ("15".toList.map ascii)
    (ascii 'k') 15 0x400 ⟨rfl, by decide, by decide, rfl, rfl⟩
    ⟨rfl, by decide, by decide, rfl, rfl⟩ (by decide) ⟨0, 0, 0, 0, 1, 0, none⟩ with
    ⟨first, second, ends, _, _, size⟩
  have nothing : parseSize ⟨"0xFk".toList.map ascii, by decide, by decide⟩
      ⟨0, 0, 0, 0, 1, 0, none⟩ = .ok ⟨3, 4, 16, 0, 1, 0, none⟩ := by decide
  rw [nothing] at ends
  cases ends
  exact absurd size (by decide)

/-- The size is the exact product, and a product beyond 64 bits refused, if and only if the string
is refused for a second letter, or the product fits and no hexadecimal digit is 15. -/
theorem exact_size_iff (denotes : Denotes optarg hex digits suffix tail number unit) :
    ((∀ state after, parseSize optarg state = .ok after →
        after.vmMemorySize.toNat = number * unit) ∧
      (2 ^ 64 ≤ number * unit → ∀ state, ¬Accepted optarg state)) ↔
        isalpha (tail.getD 0 0) = true ∨
          number * unit < 2 ^ 64 ∧ (hex = true → ∀ char ∈ digits, ¬IsF char) := by
  cases last : isalpha (tail.getD 0 0) with
  | true =>
      have refused : ∀ state, ¬Accepted optarg state := by
        intro state accepted
        rcases (denotes.splits.accepted_iff state).mp accepted with ⟨_, _, same, _, noLetter⟩
        rw [(List.cons.inj same).2, noLetter] at last
        cases last
      simp only [true_or, iff_true]
      exact ⟨fun state after ends => absurd ⟨after, ends⟩ (refused state), fun _ => refused⟩
  | false =>
      simp only [Bool.false_eq_true, false_or]
      constructor
      · rintro ⟨exact_, _⟩
        have whole := exact_ ⟨0, 0, 0, 0, 1, 0, none⟩ _ (denotes.parseSize_eq last _)
        have fits : number * unit < 2 ^ 64 := by
          rw [← whole]
          exact BitVec.isLt _
        refine ⟨fits, ?_⟩
        intro _ char mem isF
        have less := denotes.size_lt ⟨char, mem, isF⟩ fits ⟨0, 0, 0, 0, 1, 0, none⟩ (le_refl 0)
          (by decide)
        exact absurd whole less.ne
      · rintro ⟨fits, known⟩
        refine ⟨?_, fun beyond => absurd fits (Nat.not_lt.mpr beyond)⟩
        intro state after ends
        rw [denotes.parseSize_eq last] at ends
        cases ends
        have everKnown : ∀ char ∈ digits, ¬IsF char := by
          cases hex with
          | true => exact known rfl
          | false => exact not_isF_of_decimal denotes
        rw [denotes.size_eq everKnown, BitVec.toNat_ofNat, Nat.mod_eq_of_lt fits]

theorem exact_size_of_two_gigabytes :
    (∀ state after,
      parseSize ⟨"0x2G".toList.map ascii, by decide, by decide⟩ state = .ok after →
        after.vmMemorySize.toNat = 2 * 0x40000000) ∧
      (2 ^ 64 ≤ 2 * 0x40000000 →
        ∀ state, ¬Accepted ⟨"0x2G".toList.map ascii, by decide, by decide⟩ state) :=
  (@exact_size_iff _ true ("2".toList.map ascii) [] (ascii 'G') 2 0x40000000
    ⟨rfl, by decide, by decide, rfl, rfl⟩).mpr (.inr ⟨by decide, by decide⟩)

/-- 2^54 KiB are taken for no memory at all. -/
theorem size_wraps :
    ¬∀ (optarg : Argument) (hex : Bool) (digits tail : List Byte) (suffix : Byte)
      (number unit : ℕ), Denotes optarg hex digits suffix tail number unit →
      (∀ state after, parseSize optarg state = .ok after →
        after.vmMemorySize.toNat = number * unit) ∧
      (2 ^ 64 ≤ number * unit → ∀ state, ¬Accepted optarg state) := by
  intro exact_
  have refused := (exact_ ⟨"18014398509481984k".toList.map ascii, by decide, by decide⟩ false
    ("18014398509481984".toList.map ascii) [] (ascii 'k') (2 ^ 54) 0x400
    ⟨rfl, by decide, by decide, rfl, rfl⟩).2 (by decide) ⟨0, 0, 0, 0, 1, 0, none⟩
  exact refused ⟨⟨17, 18, 10, 4, 1, 0, none⟩, by decide +kernel⟩

/-! ### What earlier options leave -/

/-- The statics are as the program begins; the local variables may have any value. -/
def Initial (state : ParseState) : Prop :=
  state.cpuNums = 1 ∧ state.vmMemorySize = 0x200000 ∧ state.filename = none

/-- The digits begin with the digit 15, and its value is not lost to the digits behind it and to the
unit. -/
def DependsOnVal (chars : List Byte) : Prop :=
  ∃ hex fifteens digits suffix tail unit,
    chars = numberPrefix hex ++ (fifteens ++ digits) ++ suffix :: tail ∧ fifteens ≠ [] ∧
      (∀ char ∈ fifteens, IsF char) ∧ (∀ char ∈ digits, char ∈ hexadecimalDigits) ∧
      (∀ char ∈ digits.head?, ¬IsF char) ∧ unitOf suffix = some unit ∧
      isalpha (tail.getD 0 0) = false ∧ ¬(2 ^ 64 : ℤ) ∣ numberBase hex ^ digits.length * unit

theorem parseArgv_append (state : ParseState) (first second : List GivenOption) :
    parseArgv state (first ++ second) = parseArgv state first >>= fun next =>
      parseArgv next second := by
  induction first generalizing state with
  | nil => rfl
  | cons option first ih =>
      rw [List.cons_append, parseArgv, parseArgv]
      cases parseOption state option with
      | error => rfl
      | ok next => exact ih next

theorem parseArgv_last {before after : ParseState} {earlier : List GivenOption}
    (ends : parseArgv before (earlier ++ [.m optarg]) = .ok after) :
    ∃ between, parseArgv before earlier = .ok between ∧ parseSize optarg between = .ok after := by
  rw [parseArgv_append] at ends
  cases ran : parseArgv before earlier with
  | error => rw [ran] at ends; cases ends
  | ok between =>
      refine ⟨between, rfl, ?_⟩
      rw [ran] at ends
      cases last : parseSize optarg between with
      | error text =>
          have failed : parseArgv between [.m optarg] = .error text := by
            rw [parseArgv, parseOption, last]
            rfl
          exact absurd (failed.symm.trans ends) (by simp)
      | ok final =>
          have done : parseArgv between [.m optarg] = .ok final := by
            rw [parseArgv, parseOption, last]
            rfl
          exact done.symm.trans ends

theorem ofInt_eq_iff (first second : ℤ) :
    BitVec.ofInt 64 first = BitVec.ofInt 64 second ↔ (2 ^ 64 : ℤ) ∣ first - second := by
  rw [← BitVec.toNat_inj, BitVec.toNat_ofInt, BitVec.toNat_ofInt]
  omega

/-- Digits that begin with some of value 15 read what was in `val` in their places. -/
theorem horner_digitVals {fifteens : List Byte} (all : ∀ char ∈ fifteens, IsF char)
    (listed : ∀ char ∈ digits, char ∈ hexadecimalDigits)
    (head : ∀ char ∈ digits.head?, ¬IsF char) (base val : ℤ) :
    horner base (digitVals val (fifteens ++ digits)) =
      val * horner base (List.replicate fifteens.length 1) * base ^ digits.length +
        horner base (digitVals 0 digits) := by
  rcases digitVals_of_isF all with ⟨vals, last⟩
  rw [digitVals_append, vals, last, horner_append, horner_replicate, length_digitVals,
    digitVals_of_head listed head 0]

/-- Two states give one size if what their `val` differ by is lost. -/
theorem sized_eq_iff {fifteens : List Byte} (all : ∀ char ∈ fifteens, IsF char)
    (listed : ∀ char ∈ digits, char ∈ hexadecimalDigits)
    (head : ∀ char ∈ digits.head?, ¬IsF char) (optarg : Argument) (hex : Bool) (unit : ℕ)
    (first second : ParseState) :
    (first.sized optarg hex (fifteens ++ digits) unit).vmMemorySize =
        (second.sized optarg hex (fifteens ++ digits) unit).vmMemorySize ↔
      (2 ^ 64 : ℤ) ∣ (first.val - second.val) *
        horner (numberBase hex) (List.replicate fifteens.length 1) *
          (numberBase hex ^ digits.length * unit) := by
  rw [ParseState.sized, ParseState.sized, horner_digitVals all listed head,
    horner_digitVals all listed head, ← BitVec.ofInt_natCast, ← BitVec.ofInt_mul,
    ← BitVec.ofInt_mul, ofInt_eq_iff]
  apply Eq.to_iff
  congr 1
  ring

/-- The leading digits of value 15 apart from the others. -/
theorem exists_fifteens (run : List Byte) :
    ∃ fifteens digits, run = fifteens ++ digits ∧ (∀ char ∈ fifteens, IsF char) ∧
      ∀ char ∈ digits.head?, ¬IsF char := by
  refine ⟨run.takeWhile IsF, run.dropWhile IsF, List.takeWhile_append_dropWhile.symm, ?_, ?_⟩
  · intro char mem
    simpa using List.mem_takeWhile_imp mem
  · intro char mem isF
    have stopped := List.head?_dropWhile_not (fun char => decide (IsF char)) run
    rw [Option.mem_def] at mem
    rw [mem] at stopped
    simp [isF] at stopped

theorem hexadecimal_of_isF : ∀ char, IsF char → char ∈ hexadecimalDigits := by
  rintro char (rfl | rfl) <;> decide

/-- A factor that is odd does not help to divide by a power of 2. -/
theorem dvd_of_dvd_odd_mul {odd rest : ℤ} (isOdd : Odd odd)
    (divides : (2 ^ 64 : ℤ) ∣ odd * rest) : (2 ^ 64 : ℤ) ∣ rest := by
  have coprime : IsCoprime (2 ^ 64 : ℤ) odd := (Int.isCoprime_two_left.mpr isOdd).pow_left
  exact coprime.dvd_of_dvd_mul_left divides

theorem even_numberBase (hex : Bool) : Even (numberBase hex) := by
  cases hex <;> decide

/-- Two sizes before the last one that leave 0 and 1 in `val`. -/
theorem sizes_differ (depends : DependsOnVal optarg.chars) :
    ∃ earlier otherEarlier first second,
      parseArgv ⟨0, 0, 0, 0, 1, 0x200000, none⟩ (earlier ++ [.m optarg]) = .ok first ∧
      parseArgv ⟨0, 0, 0, 0, 1, 0x200000, none⟩ (otherEarlier ++ [.m optarg]) = .ok second ∧
      first.vmMemorySize ≠ second.vmMemorySize := by
  rcases depends with ⟨hex, fifteens, digits, suffix, tail, unit, spelled, nonempty, all, listed,
    head, isUnit, last, remains⟩
  have isSuffix : suffix ∈ suffixes := by
    rw [← unitOf_isSome_iff, isUnit]
    rfl
  have allListed : ∀ char ∈ fifteens ++ digits, char ∈ hexadecimalDigits := by
    intro char mem
    rcases List.mem_append.mp mem with mem | mem
    · exact hexadecimal_of_isF char (all char mem)
    · exact listed char mem
  have splits := splits_of_chars spelled allListed isSuffix
  have ran : ∀ state earlier between, parseArgv state earlier = .ok between →
      parseArgv state (earlier ++ [.m optarg]) =
        .ok (between.sized optarg hex (fifteens ++ digits) unit) := by
    intro state earlier between begins
    rw [parseArgv_append, begins]
    change (parseSize optarg between >>= fun next => parseArgv next []) = _
    rw [splits.parseSize_of_suffix isUnit last]
    rfl
  have zero : parseArgv ⟨0, 0, 0, 0, 1, 0x200000, none⟩
      [.m ⟨"0k".toList.map ascii, by decide, by decide⟩] = .ok ⟨1, 2, 10, 0, 1, 0, none⟩ := by
    decide
  have one : parseArgv ⟨0, 0, 0, 0, 1, 0x200000, none⟩
      [.m ⟨"1k".toList.map ascii, by decide, by decide⟩] = .ok ⟨1, 2, 10, 1, 1, 0x400, none⟩ := by
    decide
  refine ⟨_, _, _, _, ran _ _ _ zero, ran _ _ _ one, ?_⟩
  rw [Ne, sized_eq_iff all listed head]
  intro divides
  rcases Nat.exists_eq_add_of_lt (List.length_pos_of_ne_nil nonempty) with ⟨more, counted⟩
  rw [Nat.zero_add] at counted
  rw [counted, Int.mul_assoc] at divides
  apply remains
  apply dvd_of_dvd_odd_mul (odd_horner_ones (even_numberBase hex) more)
  apply dvd_of_dvd_odd_mul _ divides
  decide

/-- The last option for the size decides alone what the size is, whatever the options before it and
the uninitialised locals, if and only if its string does not depend on `val`. -/
theorem last_size_wins_iff (optarg : Argument) :
    (∀ firstStart secondStart earlier otherEarlier first second, Initial firstStart →
      Initial secondStart → parseArgv firstStart (earlier ++ [.m optarg]) = .ok first →
      parseArgv secondStart (otherEarlier ++ [.m optarg]) = .ok second →
        first.vmMemorySize = second.vmMemorySize) ↔
      ¬DependsOnVal optarg.chars := by
  constructor
  · intro wins depends
    rcases sizes_differ depends with ⟨earlier, otherEarlier, first, second, ends, otherEnds, differ⟩
    exact differ (wins _ _ _ _ _ _ ⟨rfl, rfl, rfl⟩ ⟨rfl, rfl, rfl⟩ ends otherEnds)
  · intro independent firstStart secondStart earlier otherEarlier first second _ _ ends otherEnds
    rcases parseArgv_last ends with ⟨between, _, parsed⟩
    rcases parseArgv_last otherEnds with ⟨otherBetween, _, otherParsed⟩
    rcases exists_splits optarg with ⟨hex, run, rest, splits⟩
    rcases (splits.accepted_iff between).mp ⟨first, parsed⟩ with
      ⟨suffix, tail, rfl, isSuffix, last⟩
    rcases Option.isSome_iff_exists.mp ((unitOf_isSome_iff suffix).mpr isSuffix) with
      ⟨unit, isUnit⟩
    rcases exists_fifteens run with ⟨fifteens, digits, rfl, all, head⟩
    rw [splits.parseSize_of_suffix isUnit last] at parsed otherParsed
    cases parsed
    cases otherParsed
    have listed : ∀ char ∈ digits, char ∈ hexadecimalDigits := by
      intro char mem
      exact (isxdigit_iff char).mp (splits.digits char (List.mem_append_right _ mem))
    rw [sized_eq_iff all listed head]
    by_cases empty : fifteens = []
    · simp [empty]
    · by_cases lost : (2 ^ 64 : ℤ) ∣ numberBase hex ^ digits.length * unit
      · exact lost.mul_left _
      · exact absurd ⟨hex, fifteens, digits, suffix, tail, unit, splits.spelled, empty, all, listed,
          head, isUnit, last, lost⟩ independent

/-- `-m 0xFk` asks for no memory behind `-m 0k`, and for 1 KiB behind `-m 1k`. -/
theorem last_size_depends_on_earlier :
    ¬∀ (optarg : Argument) (firstStart secondStart : ParseState)
      (earlier otherEarlier : List GivenOption) (first second : ParseState),
      Initial firstStart → Initial secondStart →
      parseArgv firstStart (earlier ++ [.m optarg]) = .ok first →
      parseArgv secondStart (otherEarlier ++ [.m optarg]) = .ok second →
        first.vmMemorySize = second.vmMemorySize := by
  intro wins
  have behindZero : parseArgv ⟨0, 0, 0, 0, 1, 0x200000, none⟩
      ([.m ⟨"0k".toList.map ascii, by decide, by decide⟩] ++
        [.m ⟨"0xFk".toList.map ascii, by decide, by decide⟩]) =
          .ok ⟨3, 4, 16, 0, 1, 0, none⟩ := by decide
  have behindOne : parseArgv ⟨0, 0, 0, 0, 1, 0x200000, none⟩
      ([.m ⟨"1k".toList.map ascii, by decide, by decide⟩] ++
        [.m ⟨"0xFk".toList.map ascii, by decide, by decide⟩]) =
          .ok ⟨3, 4, 16, 1, 1, 0x400, none⟩ := by decide
  have same := wins _ _ _ _ _ _ _ ⟨rfl, rfl, rfl⟩ ⟨rfl, rfl, rfl⟩ behindZero behindOne
  exact absurd same (by decide)

end

end VirtLearn.Kvm
