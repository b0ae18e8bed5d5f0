import Mathlib.Data.List.TakeWhile
import VirtLearn.Horner
import VirtLearn.Machine.Memory

/-!
# The options of the program

`parse_argv` from `vm.c`, on the options as `getopt_long` hands them over. Its local variables are
not initialised and keep their values from one option to the next. What is printed is left out, save
for what explains a return of -1.

At the end stands which strings the option for the memory size accepts.
-/

namespace VirtLearn.Kvm

def ascii (char : Char) : Byte :=
  BitVec.ofNat 8 char.toNat

/-- A string that the program is given, without its terminating zero. The kernel passes none that
comes near 2 GiB. -/
structure Argument where
  chars : List Byte
  nulFree : 0 ∉ chars
  short : chars.length < 2 ^ 31
deriving DecidableEq

/-- `optarg[i]`, up to the terminating zero. -/
def Argument.char (optarg : Argument) (i : ℤ) : Byte :=
  optarg.chars.getD i.toNat 0

/-- `strlen`, converted to an `int`. -/
def Argument.len (optarg : Argument) : ℤ :=
  (optarg.chars.length : ℤ).bmod (2 ^ 32)

def between (low high : Char) (char : Byte) : Bool :=
  ascii low ≤ char && char ≤ ascii high

/-! `ctype.h`, in the C locale that the program does not leave -/

def isdigit : Byte → Bool :=
  between '0' '9'

def isalpha (char : Byte) : Bool :=
  between 'A' 'Z' char || between 'a' 'z' char

def isxdigit (char : Byte) : Bool :=
  isdigit char || between 'A' 'F' char || between 'a' 'f' char

def isspace (char : Byte) : Bool :=
  char == ascii ' ' || between '\t' '\r' char

/-- `atoi`: what `strtol` reads, between the bounds of a `long`, converted to an `int`. -/
def atoi (optarg : Argument) : ℤ :=
  let text := optarg.chars.dropWhile isspace
  let signed := text.head? == some (ascii '-') || text.head? == some (ascii '+')
  let digits := (if signed then text.tail else text).takeWhile isdigit
  let magnitude : ℤ := digits.foldl (fun number char => number * 10 + (char.toNat - 48)) 0
  let number := if text.head? = some (ascii '-') then -magnitude else magnitude
  (max (-2 ^ 63) (min number (2 ^ 63 - 1))).bmod (2 ^ 32)

/-- The local variables of `parse_argv`, and the statics that it sets. -/
structure ParseState where
  i : ℤ
  len : ℤ
  base : ℤ
  val : ℤ
  cpuNums : ℤ := 1
  vmMemorySize : BitVec 64 := 0x200000
  filename : Option Argument := none
deriving DecidableEq

/-- The value of a digit. No range has `F` or `f`, which leave what was there before. -/
def digitVal (val : ℤ) (char : Byte) : ℤ :=
  if ascii '0' ≤ char ∧ char ≤ ascii '9' then char.toNat - (ascii '0').toNat
  else if ascii 'A' ≤ char ∧ char < ascii 'F' then char.toNat - (ascii 'A').toNat + 10
  else if ascii 'a' ≤ char ∧ char < ascii 'f' then char.toNat - (ascii 'a').toNat + 10
  else val

/-- A round of the loop over the digits that finds one. -/
def ParseState.digit (state : ParseState) (optarg : Argument) : ParseState :=
  let val := digitVal state.val (optarg.char state.i)
  { state with
    val
    vmMemorySize := state.vmMemorySize * BitVec.ofInt 64 state.base + BitVec.ofInt 64 val
    i := state.i + 1 }

/-- The loop over the digits, with at most `left` rounds to go. -/
def scan (optarg : Argument) : ℕ → ParseState → ParseState
  | 0, state => state
  | left + 1, state =>
      if isxdigit (optarg.char state.i) then scan optarg left (state.digit optarg) else state

/-- What the letter behind the digits multiplies by. -/
def unitOf (char : Byte) : Option ℕ :=
  if char = ascii 'K' ∨ char = ascii 'k' then some 0x400
  else if char = ascii 'M' ∨ char = ascii 'm' then some 0x100000
  else if char = ascii 'g' ∨ char = ascii 'G' then some 0x40000000
  else none

/-- The option `m`: what explains the -1 that is returned, or the state in which it goes on. -/
def parseSize (optarg : Argument) (state : ParseState) : Except String ParseState :=
  let started : ParseState :=
    if optarg.char 0 = ascii '0' ∧ optarg.char 1 = ascii 'x' then
      { state with len := optarg.len, base := 0x10, i := 2 }
    else { state with len := optarg.len, base := 10, i := 0 }
  -- as many rounds are to go as `i` is below `len` (`scan_rounds`)
  let scanned :=
    scan optarg (started.len - started.i).toNat { started with vmMemorySize := 0 }
  if !isalpha (optarg.char scanned.i) || isalpha (optarg.char (scanned.i + 1)) then
    .error ("Invalid parameter " ++ toString scanned.i ++ "\n")
  else
    match unitOf (optarg.char scanned.i) with
    | some unit =>
        .ok { scanned with vmMemorySize := scanned.vmMemorySize * BitVec.ofNat 64 unit }
    | none => .error "Invalid parameter\n"

/-- What `getopt_long` returns, with `optarg`. -/
inductive GivenOption where
  | h
  | m (optarg : Argument)
  | n (optarg : Argument)
  | f (optarg : Argument)
  | other

def parseOption (state : ParseState) : GivenOption → Except String ParseState
  | .h => .ok state
  | .m optarg => parseSize optarg state
  | .n optarg => .ok { state with cpuNums := atoi optarg }
  | .f optarg => .ok { state with filename := some optarg }
  | .other => .ok state

/-- `parse_argv`: the state in which it returns 0, or what explains its -1. -/
def parseArgv : ParseState → List GivenOption → Except String ParseState
  | state, [] => .ok state
  | state, option :: rest => do
      let next ← parseOption state option
      parseArgv next rest

/-! ### What the loop reads -/

section

variable {optarg : Argument} {state : ParseState} {run rest : List Byte}

@[simp]
theorem Argument.len_eq (optarg : Argument) : optarg.len = optarg.chars.length := by
  have short := optarg.short
  apply Int.bmod_eq_of_le_mul_two <;> omega

/-- The values that the digits of a run get, one after the other. -/
def digitVals : ℤ → List Byte → List ℤ
  | _, [] => []
  | val, char :: rest => digitVal val char :: digitVals (digitVal val char) rest

/-- The value of `val` behind a run of digits. -/
def lastVal (val : ℤ) (run : List Byte) : ℤ :=
  run.foldl digitVal val

@[simp]
theorem length_digitVals (val : ℤ) (run : List Byte) : (digitVals val run).length = run.length := by
  induction run generalizing val with
  | nil => rfl
  | cons char run ih => rw [digitVals, List.length_cons, ih, List.length_cons]

theorem digitVals_append (val : ℤ) (first second : List Byte) :
    digitVals val (first ++ second) =
      digitVals val first ++ digitVals (lastVal val first) second := by
  induction first generalizing val with
  | nil => rfl
  | cons char first ih => rw [List.cons_append, digitVals, ih, digitVals, List.cons_append]; rfl

theorem Argument.char_of_drop {position : ℕ} (left : optarg.chars.drop position = rest)
    (offset : ℕ) : optarg.char (position + offset : ℕ) = rest.getD offset 0 := by
  rw [Argument.char, ← left, List.getD_eq_getElem?_getD, List.getD_eq_getElem?_getD,
    List.getElem?_drop]
  rfl

/-- With the rounds that `i` is below `len`, this is the `while` loop of the source. -/
theorem scan_rounds (optarg : Argument) (state : ParseState) :
    scan optarg (state.len - state.i).toNat state =
      if state.i < state.len then
        if isxdigit (optarg.char state.i) then
          scan optarg ((state.digit optarg).len - (state.digit optarg).i).toNat
            (state.digit optarg)
        else state
      else state := by
  by_cases more : state.i < state.len
  · have rounds : (state.len - state.i).toNat =
        ((state.digit optarg).len - (state.digit optarg).i).toNat + 1 := by
      simp only [ParseState.digit]
      omega
    rw [if_pos more, rounds, scan]
  · have none_left : (state.len - state.i).toNat = 0 := by omega
    rw [if_neg more, none_left, scan]

/-- The loop reads the run of digits at its position, and stops behind it. -/
theorem scan_eq {position left : ℕ} (here : optarg.chars.drop position = run ++ rest)
    (digits : ∀ char ∈ run, isxdigit char = true) (ended : isxdigit (rest.getD 0 0) = false)
    (counted : state.i = position) (rounds : run.length ≤ left) :
    scan optarg left state =
      { state with
        i := position + run.length
        val := lastVal state.val run
        vmMemorySize := (digitVals state.val run).foldl
          (fun size val => size * BitVec.ofInt 64 state.base + BitVec.ofInt 64 val)
          state.vmMemorySize } := by
  induction run generalizing position left state with
  | nil =>
      have stop : isxdigit (optarg.char state.i) = false := by
        rw [counted]
        exact (congrArg isxdigit (Argument.char_of_drop here 0)).trans ended
      have stays : scan optarg left state = state := by
        cases left with
        | zero => rfl
        | succ left => rw [scan, if_neg (by simp [stop])]
      rw [stays]
      cases state
      simpa [lastVal, digitVals] using counted
  | cons char run ih =>
      have first : optarg.char state.i = char := by
        rw [counted]
        exact Argument.char_of_drop here 0
      have onward : optarg.chars.drop (position + 1) = run ++ rest := by
        rw [← List.drop_drop, here]
        rfl
      rcases Nat.exists_eq_add_of_lt (Nat.lt_of_lt_of_le (Nat.succ_pos _) rounds) with ⟨left, rfl⟩
      rw [Nat.zero_add] at rounds ⊢
      rw [scan, first, if_pos (digits char (by simp)),
        ih onward (fun later mem => digits later (List.mem_cons_of_mem _ mem))
          (by simp [ParseState.digit, counted]) (Nat.le_of_succ_le_succ rounds)]
      simp only [ParseState.digit, first, lastVal, digitVals, List.foldl_cons, List.length_cons,
        Nat.cast_add, Nat.cast_one]
      rw [Int.add_assoc, Int.add_comm 1]

/-! ### The parts of a string -/

/-- What the string begins with if its digits are hexadecimal. -/
def numberPrefix (hex : Bool) : List Byte :=
  if hex then [ascii '0', ascii 'x'] else []

def numberBase (hex : Bool) : ℤ :=
  if hex then 0x10 else 10

/-- The string as the code takes it apart: what decides the base, a run of digits and the rest. -/
structure Splits (optarg : Argument) (hex : Bool) (run rest : List Byte) : Prop where
  spelled : optarg.chars = numberPrefix hex ++ run ++ rest
  based : hex = true ↔ optarg.char 0 = ascii '0' ∧ optarg.char 1 = ascii 'x'
  digits : ∀ char ∈ run, isxdigit char = true
  ended : isxdigit (rest.getD 0 0) = false

theorem chars_of_based (begins : optarg.char 0 = ascii '0' ∧ optarg.char 1 = ascii 'x') :
    ∃ behind, optarg.chars = ascii '0' :: ascii 'x' :: behind := by
  rcases begins with ⟨zero, x⟩
  rw [Argument.char] at zero x
  rcases chars : optarg.chars with _ | ⟨first, _ | ⟨second, behind⟩⟩
  · rw [chars] at zero
    exact absurd zero (by decide)
  · rw [chars] at x
    exact absurd x (by decide : ¬(0 : Byte) = ascii 'x')
  · rw [chars] at zero x
    exact ⟨behind, by rw [← zero, ← x]; rfl⟩

theorem getD_dropWhile_isxdigit (chars : List Byte) :
    isxdigit ((chars.dropWhile isxdigit).getD 0 0) = false := by
  induction chars with
  | nil => decide
  | cons char chars ih =>
      cases digit : isxdigit char with
      | true => rwa [List.dropWhile_cons_of_pos digit]
      | false =>
          rw [List.dropWhile_cons_of_neg (by simp [digit])]
          exact digit

/-- Every string can be taken apart. -/
theorem exists_splits (optarg : Argument) : ∃ hex run rest, Splits optarg hex run rest := by
  by_cases begins : optarg.char 0 = ascii '0' ∧ optarg.char 1 = ascii 'x'
  · rcases chars_of_based begins with ⟨behind, chars⟩
    refine ⟨true, behind.takeWhile isxdigit, behind.dropWhile isxdigit, ?_, ?_, ?_, ?_⟩
    · rw [List.append_assoc, List.takeWhile_append_dropWhile, chars]
      rfl
    · simpa using begins
    · intro char listed
      exact List.mem_takeWhile_imp listed
    · exact getD_dropWhile_isxdigit behind
  · refine ⟨false, optarg.chars.takeWhile isxdigit, optarg.chars.dropWhile isxdigit, ?_, ?_, ?_, ?_⟩
    · rw [List.append_assoc, List.takeWhile_append_dropWhile]
      rfl
    · simpa using begins
    · intro char listed
      exact List.mem_takeWhile_imp listed
    · exact getD_dropWhile_isxdigit optarg.chars

/-- The state in which the option is done, for the unit that the letter stands for. -/
def ParseState.sized (state : ParseState) (optarg : Argument) (hex : Bool) (run : List Byte)
    (unit : ℕ) : ParseState :=
  { state with
    i := ((numberPrefix hex).length : ℤ) + run.length
    len := optarg.len
    base := numberBase hex
    val := lastVal state.val run
    vmMemorySize :=
      BitVec.ofInt 64 (horner (numberBase hex) (digitVals state.val run)) * BitVec.ofNat 64 unit }

/-- What becomes of a string: a letter behind the digits without another is what it takes. -/
theorem Splits.parseSize_eq {hex : Bool} (splits : Splits optarg hex run rest)
    (state : ParseState) :
    parseSize optarg state =
      if !isalpha (rest.getD 0 0) || isalpha (rest.getD 1 0) then
        .error ("Invalid parameter " ++ toString (((numberPrefix hex).length : ℤ) + run.length) ++
          "\n")
      else
        match unitOf (rest.getD 0 0) with
        | some unit => .ok (state.sized optarg hex run unit)
        | none => .error "Invalid parameter\n" := by
  have run_digits : horner (BitVec.ofInt 64 (numberBase hex))
      ((digitVals state.val run).map (BitVec.ofInt 64)) =
        BitVec.ofInt 64 (horner (numberBase hex) (digitVals state.val run)) :=
    (map_horner (Int.castRingHom (BitVec 64)) _ _).symm
  have here : optarg.chars.drop (numberPrefix hex).length = run ++ rest := by
    rw [splits.spelled, List.append_assoc, List.drop_left]
  have rounds : run.length ≤ (optarg.len - ((numberPrefix hex).length : ℕ)).toNat := by
    rw [Argument.len_eq, splits.spelled]
    simp
    omega
  have scanned := @scan_eq optarg
    { state with
      len := optarg.len, base := numberBase hex, i := ((numberPrefix hex).length : ℕ)
      vmMemorySize := 0 }
    run rest _ _ here splits.digits splits.ended (by dsimp only) rounds
  dsimp only at scanned
  have startedHere : (if optarg.char 0 = ascii '0' ∧ optarg.char 1 = ascii 'x' then
        { state with len := optarg.len, base := 0x10, i := 2 }
      else { state with len := optarg.len, base := 10, i := 0 } : ParseState) =
      { state with
        len := optarg.len, base := numberBase hex, i := ((numberPrefix hex).length : ℕ) } := by
    cases hex with
    | true => exact if_pos (splits.based.mp rfl)
    | false => exact if_neg fun begins => Bool.false_ne_true (splits.based.mpr begins)
  have behind : optarg.chars.drop ((numberPrefix hex).length + run.length) = rest := by
    rw [splits.spelled, ← List.length_append, List.drop_left]
  have letter : optarg.char (((numberPrefix hex).length : ℤ) + run.length) = rest.getD 0 0 :=
    Argument.char_of_drop behind 0
  have next : optarg.char (((numberPrefix hex).length : ℤ) + run.length + 1) = rest.getD 1 0 :=
    Argument.char_of_drop behind 1
  have size : (digitVals state.val run).foldl
      (fun size val => size * BitVec.ofInt 64 (numberBase hex) + BitVec.ofInt 64 val) 0 =
        BitVec.ofInt 64 (horner (numberBase hex) (digitVals state.val run)) := by
    rw [← run_digits, horner, List.foldl_map]
  rw [size] at scanned
  simp only [parseSize, startedHere, scanned, letter, next]
  rfl

/-! ### Strings that are accepted -/

def decimalDigits : List Byte :=
  "0123456789".toList.map ascii

def hexadecimalDigits : List Byte :=
  "0123456789ABCDEFabcdef".toList.map ascii

def digitsOf (hex : Bool) : List Byte :=
  if hex then hexadecimalDigits else decimalDigits

def suffixes : List Byte :=
  "kKmMgG".toList.map ascii

/-- A numeral, decimal or behind `0x` hexadecimal, a suffix and nothing else. -/
def SizeNumeral (chars : List Byte) : Prop :=
  ∃ hex digits suffix, chars = numberPrefix hex ++ digits ++ [suffix] ∧ digits ≠ [] ∧
    (∀ char ∈ digits, char ∈ digitsOf hex) ∧ suffix ∈ suffixes

/-- A suffix behind hexadecimal digits and before no letter, where the digits are missing or include
letters without `0x` before them, or where something follows the suffix. -/
def Loose (chars : List Byte) : Prop :=
  ∃ hex run suffix tail, chars = numberPrefix hex ++ run ++ suffix :: tail ∧
    (∀ char ∈ run, char ∈ hexadecimalDigits) ∧ suffix ∈ suffixes ∧
    isalpha (tail.getD 0 0) = false ∧
    (run = [] ∨ hex = false ∧ (∃ char ∈ run, isalpha char = true) ∨ tail ≠ [])

/-- The option does not end the program. -/
def Accepted (optarg : Argument) (state : ParseState) : Prop :=
  ∃ after, parseSize optarg state = .ok after

theorem decimalDigits_eq : decimalDigits =
    [0x30, 0x31, 0x32, 0x33, 0x34, 0x35, 0x36, 0x37, 0x38, 0x39] := by
  decide +kernel

theorem hexadecimalDigits_eq : hexadecimalDigits =
    [0x30, 0x31, 0x32, 0x33, 0x34, 0x35, 0x36, 0x37, 0x38, 0x39, 0x41, 0x42, 0x43, 0x44, 0x45,
      0x46, 0x61, 0x62, 0x63, 0x64, 0x65, 0x66] := by
  decide +kernel

theorem between_iff (low high : Char) (char : Byte) :
    between low high char = true ↔
      (ascii low).toNat ≤ char.toNat ∧ char.toNat ≤ (ascii high).toNat := by
  simp only [between, Bool.and_eq_true, decide_eq_true_eq, BitVec.le_def]

theorem isxdigit_iff (char : Byte) : isxdigit char = true ↔ char ∈ hexadecimalDigits := by
  simp only [hexadecimalDigits_eq, List.mem_cons, List.not_mem_nil, or_false, ← BitVec.toNat_inj,
    isxdigit, isdigit, Bool.or_eq_true, between_iff]
  simp only [ascii, BitVec.ofNat_eq_ofNat, BitVec.toNat_ofNat, Char.reduceToNat, Nat.reducePow,
    Nat.reduceMod]
  omega

theorem mem_decimalDigits_iff (char : Byte) :
    char ∈ decimalDigits ↔ char ∈ hexadecimalDigits ∧ isalpha char = false := by
  simp only [decimalDigits_eq, hexadecimalDigits_eq, List.mem_cons, List.not_mem_nil, or_false,
    ← BitVec.toNat_inj, isalpha, ← Bool.not_eq_true, Bool.or_eq_true, between_iff]
  simp only [ascii, BitVec.ofNat_eq_ofNat, BitVec.toNat_ofNat, Char.reduceToNat, Nat.reducePow,
    Nat.reduceMod]
  omega

theorem unitOf_isSome_iff (char : Byte) : (unitOf char).isSome = true ↔ char ∈ suffixes := by
  revert char
  decide

theorem suffix_spec : ∀ char ∈ suffixes, isalpha char = true ∧ isxdigit char = false := by
  decide

theorem digit_of_mem_digitsOf {hex : Bool} {char : Byte} (listed : char ∈ digitsOf hex) :
    char ∈ hexadecimalDigits := by
  cases hex with
  | true => exact listed
  | false => exact ((mem_decimalDigits_iff char).mp listed).1

/-- The `x` of `0x` is neither a digit nor a suffix. -/
theorem splits_of_chars {hex : Bool} {suffix : Byte} {tail : List Byte}
    (spelled : optarg.chars = numberPrefix hex ++ run ++ suffix :: tail)
    (digits : ∀ char ∈ run, char ∈ hexadecimalDigits) (isSuffix : suffix ∈ suffixes) :
    Splits optarg hex run (suffix :: tail) where
  spelled := spelled
  based := by
    cases hex with
    | true => simp [Argument.char, spelled, numberPrefix]
    | false =>
        simp only [Bool.false_eq_true, false_iff]
        intro begins
        rcases chars_of_based begins with ⟨behind, chars⟩
        rw [spelled, numberPrefix, if_neg Bool.false_ne_true, List.nil_append] at chars
        rcases run with _ | ⟨first, _ | ⟨second, run⟩⟩
        · rw [(List.cons.inj chars).1] at isSuffix
          exact absurd isSuffix (by decide)
        · rw [(List.cons.inj (List.cons.inj chars).2).1] at isSuffix
          exact absurd isSuffix (by decide)
        · have x := digits second (by simp)
          rw [(List.cons.inj (List.cons.inj chars).2).1] at x
          exact absurd x (by decide)
  digits := fun char listed => (isxdigit_iff char).mpr (digits char listed)
  ended := (suffix_spec suffix isSuffix).2

/-- A string can be taken apart in one way. -/
theorem Splits.unique {hex otherHex : Bool} {otherRun otherRest : List Byte}
    (splits : Splits optarg hex run rest) (other : Splits optarg otherHex otherRun otherRest) :
    hex = otherHex ∧ run = otherRun ∧ rest = otherRest := by
  have same : hex = otherHex := Bool.eq_iff_iff.mpr (splits.based.trans other.based.symm)
  subst same
  have behind : run ++ rest = otherRun ++ otherRest := by
    have chars := splits.spelled.symm.trans other.spelled
    rw [List.append_assoc, List.append_assoc] at chars
    exact List.append_cancel_left chars
  have taken : ∀ {run rest : List Byte}, (∀ char ∈ run, isxdigit char = true) →
      isxdigit (rest.getD 0 0) = false → (run ++ rest).takeWhile isxdigit = run := by
    intro run rest digits ended
    rw [List.takeWhile_append_of_pos digits]
    cases rest with
    | nil => simp
    | cons char rest =>
        rw [List.takeWhile_cons_of_neg (by simpa using ended), List.append_nil]
  have runs : run = otherRun := by
    rw [← taken splits.digits splits.ended, behind, taken other.digits other.ended]
  subst runs
  exact ⟨rfl, rfl, List.append_cancel_left behind⟩

theorem Splits.parseSize_of_suffix {hex : Bool} {suffix : Byte} {tail : List Byte} {unit : ℕ}
    (splits : Splits optarg hex run (suffix :: tail)) (isUnit : unitOf suffix = some unit)
    (last : isalpha (tail.getD 0 0) = false) (state : ParseState) :
    parseSize optarg state = .ok (state.sized optarg hex run unit) := by
  have isSuffix : suffix ∈ suffixes := by
    rw [← unitOf_isSome_iff, isUnit]
    rfl
  have letter : isalpha ((suffix :: tail).getD 0 0) = true := (suffix_spec suffix isSuffix).1
  have next : isalpha ((suffix :: tail).getD 1 0) = false := last
  have unit_eq : unitOf ((suffix :: tail).getD 0 0) = some unit := isUnit
  rw [splits.parseSize_eq, letter, next, unit_eq]
  rfl

theorem Splits.accepted_iff {hex : Bool} (splits : Splits optarg hex run rest)
    (state : ParseState) :
    Accepted optarg state ↔
      ∃ suffix tail, rest = suffix :: tail ∧ suffix ∈ suffixes ∧
        isalpha (tail.getD 0 0) = false := by
  constructor
  · rintro ⟨after, accepted⟩
    rw [splits.parseSize_eq] at accepted
    split at accepted
    case isTrue => cases accepted
    case isFalse lettered =>
      simp only [Bool.or_eq_true, Bool.not_eq_true', not_or, Bool.not_eq_false,
        Bool.not_eq_true] at lettered
      cases rest with
      | nil => exact absurd lettered.1 (by decide)
      | cons suffix tail =>
          refine ⟨suffix, tail, rfl, ?_, lettered.2⟩
          rw [← unitOf_isSome_iff]
          rw [List.getD_cons_zero] at accepted
          cases isUnit : unitOf suffix with
          | some unit => rfl
          | none =>
              rw [isUnit] at accepted
              cases accepted
  · rintro ⟨suffix, tail, rfl, isSuffix, last⟩
    rcases Option.isSome_iff_exists.mp ((unitOf_isSome_iff suffix).mpr isSuffix) with
      ⟨unit, isUnit⟩
    exact ⟨_, splits.parseSize_of_suffix isUnit last state⟩

theorem accepted_of_sizeNumeral (numeral : SizeNumeral optarg.chars) (state : ParseState) :
    Accepted optarg state := by
  rcases numeral with ⟨hex, digits, suffix, spelled, _, listed, isSuffix⟩
  have splits := splits_of_chars spelled
    (fun char mem => digit_of_mem_digitsOf (listed char mem)) isSuffix
  rw [splits.accepted_iff]
  exact ⟨suffix, [], rfl, isSuffix, by decide⟩

/-- A string that is accepted is a numeral with a suffix, unless it is loose. -/
theorem sizeNumeral_or_loose (accepted : Accepted optarg state) :
    SizeNumeral optarg.chars ∨ Loose optarg.chars := by
  rcases exists_splits optarg with ⟨hex, run, rest, splits⟩
  rcases (splits.accepted_iff state).mp accepted with ⟨suffix, tail, rfl, isSuffix, last⟩
  have listed : ∀ char ∈ run, char ∈ hexadecimalDigits := by
    intro char mem
    exact (isxdigit_iff char).mp (splits.digits char mem)
  by_cases odd : run = [] ∨ hex = false ∧ (∃ char ∈ run, isalpha char = true) ∨ tail ≠ []
  · exact .inr ⟨hex, run, suffix, tail, splits.spelled, listed, isSuffix, last, odd⟩
  · simp only [not_or, not_and, not_exists, Bool.not_eq_true, ne_eq, not_not] at odd
    rcases odd with ⟨nonempty, letterFree, rfl⟩
    refine .inl ⟨hex, run, suffix, splits.spelled, nonempty, ?_, isSuffix⟩
    intro char mem
    cases hex with
    | true => exact listed char mem
    | false => exact (mem_decimalDigits_iff char).mpr ⟨listed char mem, letterFree rfl char mem⟩

theorem not_sizeNumeral_of_loose (loose : Loose optarg.chars) : ¬SizeNumeral optarg.chars := by
  rcases loose with ⟨hex, run, suffix, tail, spelled, listed, isSuffix, _, odd⟩
  rintro ⟨otherHex, digits, otherSuffix, otherSpelled, nonempty, otherListed, otherIsSuffix⟩
  have splits := splits_of_chars spelled listed isSuffix
  have other := splits_of_chars otherSpelled
    (fun char mem => digit_of_mem_digitsOf (otherListed char mem)) otherIsSuffix
  rcases splits.unique other with ⟨rfl, rfl, same⟩
  rcases odd with empty | ⟨rfl, char, mem, letter⟩ | more
  · exact nonempty empty
  · have digit := ((mem_decimalDigits_iff char).mp (otherListed char mem)).2
    rw [letter] at digit
    cases digit
  · exact more (List.cons.inj same).2

/-- What is accepted is a numeral with a suffix, for all strings but the loose ones. -/
theorem accepted_iff_sizeNumeral_iff (optarg : Argument) (state : ParseState) :
    (Accepted optarg state ↔ SizeNumeral optarg.chars) ↔ ¬Loose optarg.chars := by
  constructor
  · intro exact_ loose
    rcases loose with ⟨hex, run, suffix, tail, spelled, listed, isSuffix, last, odd⟩
    have accepted : Accepted optarg state := by
      rw [(splits_of_chars spelled listed isSuffix).accepted_iff]
      exact ⟨suffix, tail, rfl, isSuffix, last⟩
    exact not_sizeNumeral_of_loose
      ⟨hex, run, suffix, tail, spelled, listed, isSuffix, last, odd⟩ (exact_.mp accepted)
  · intro strict
    constructor
    · intro accepted
      exact (sizeNumeral_or_loose accepted).resolve_right strict
    · intro numeral
      exact accepted_of_sizeNumeral numeral state

/-- A suffix alone is accepted, without any digit. -/
theorem accepted_without_digits :
    ¬∀ (optarg : Argument) (state : ParseState),
      Accepted optarg state ↔ SizeNumeral optarg.chars := by
  intro holds
  have accepted : Accepted ⟨[ascii 'k'], by decide, by decide⟩ ⟨0, 0, 0, 0, 1, 0, none⟩ :=
    ⟨_, rfl⟩
  apply not_sizeNumeral_of_loose _ ((holds _ _).mp accepted)
  exact ⟨false, [], ascii 'k', [], rfl, by simp, by decide, by decide, .inl rfl⟩

end

end VirtLearn.Kvm
