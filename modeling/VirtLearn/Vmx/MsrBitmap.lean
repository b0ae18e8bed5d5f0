import Mathlib.Logic.Function.Basic
import VirtLearn.LastWrite

/-!
# The MSR permission map

`set_msr_interception` of `vmx.c` sets or clears the two intercept bits of one MSR. The map is an
array of 32-bit words, in which `svm_msrpm_offset` finds the word of an MSR, and the processor an
MSR's bits.

Every index used on the map is recorded (`accesses`), and so is the `BUG_ON`, which does not return.
-/

namespace VirtLearn.Vmx

/-- `MSR_INVALID`, a constant of the kernel. -/
def msrInvalid : BitVec 32 :=
  0xffffffff

def msrpmRanges : List (BitVec 32) :=
  [0, 0xc0000000, 0xc0010000]

def msrsRangeSize : ℕ :=
  2048

def msrsInRange : BitVec 32 :=
  BitVec.ofNat 32 (msrsRangeSize * 8 / 2)

/-- The loop of `svm_msrpm_offset` from range `i` on. -/
def svmMsrpmOffsetFrom (msr : BitVec 32) : ℕ → List (BitVec 32) → BitVec 32
  | _, [] => msrInvalid
  | i, range :: ranges =>
      if msr < range ∨ range + msrsInRange ≤ msr then svmMsrpmOffsetFrom msr (i + 1) ranges
      else
        let offset := (msr - range) / 4
        let offset := offset + BitVec.ofNat 32 (i * msrsRangeSize)
        offset / 4

/-- `svm_msrpm_offset`, the index of the word with the bits of an MSR. -/
def svmMsrpmOffset (msr : BitVec 32) : BitVec 32 :=
  svmMsrpmOffsetFrom msr 0 msrpmRanges

/-- `set_bit` in an `unsigned long`. -/
def setBit (nr : BitVec 8) (word : BitVec 64) : BitVec 64 :=
  word ||| 1#64 <<< nr.toNat

def clearBit (nr : BitVec 8) (word : BitVec 64) : BitVec 64 :=
  word &&& ~~~(1#64 <<< nr.toNat)

/-- The permission map, with the indices used on it and whether a `BUG_ON` fired. -/
structure Msrpm where
  words : ℕ → BitVec 32
  accesses : List ℕ := []
  bug : Bool := false

/-- Record that `msrpm[offset]` was read or written. -/
def Msrpm.access (msrpm : Msrpm) (offset : ℕ) : Msrpm :=
  { msrpm with accesses := msrpm.accesses ++ [offset] }

/-- The arguments of one call of `set_msr_interception`; `read` and `write` are of type `int`. -/
structure Interception where
  msr : BitVec 32
  read : BitVec 32
  write : BitVec 32
deriving DecidableEq

def setMsrInterception (msrpm : Msrpm) (call : Interception) : Msrpm :=
  let offset := svmMsrpmOffset call.msr
  let bitRead : BitVec 8 := (2 * (call.msr &&& 0x0f)).setWidth 8
  let bitWrite : BitVec 8 := (2 * (call.msr &&& 0x0f) + 1).setWidth 8
  let tmp : BitVec 64 := (msrpm.words offset.toNat).setWidth 64
  let msrpm := msrpm.access offset.toNat
  if offset = msrInvalid then { msrpm with bug := true }
  else
    let tmp := if call.read ≠ 0 then clearBit bitRead tmp else setBit bitRead tmp
    let tmp := if call.write ≠ 0 then clearBit bitWrite tmp else setBit bitWrite tmp
    { msrpm.access offset.toNat with
      words := Function.update msrpm.words offset.toNat (tmp.setWidth 32) }

/-- Calls one after the other, up to the first one that does not return. -/
def setMsrInterceptions (msrpm : Msrpm) (calls : List Interception) : Msrpm :=
  calls.foldl (fun msrpm call => if msrpm.bug then msrpm else setMsrInterception msrpm call) msrpm

/-! ### Where the processor finds the bits of an MSR -/

/-- The read-intercept bit of an MSR in one of the three ranges; the write-intercept bit is next. -/
def msrPosition (msr : BitVec 32) : Option ℕ :=
  if msr.toNat < 0x2000 then some (2 * msr.toNat)
  else if 0xc0000000 ≤ msr.toNat ∧ msr.toNat < 0xc0002000 then
    some (0x4000 + 2 * (msr.toNat - 0xc0000000))
  else if 0xc0010000 ≤ msr.toNat ∧ msr.toNat < 0xc0012000 then
    some (0x4000 * 2 + 2 * (msr.toNat - 0xc0010000))
  else none

def Msrpm.bit (msrpm : Msrpm) (position : ℕ) : Bool :=
  (msrpm.words (position / 32)).getLsbD (position % 32)

/-- What a call is to leave in a bit of the map, if it is one of its MSR. -/
def Interception.writes (call : Interception) (position : ℕ) : Option Bool :=
  if msrPosition call.msr = some position then some (call.read = 0)
  else if (msrPosition call.msr).map (· + 1) = some position then some (call.write = 0)
  else none

def lastNaming (calls : List Interception) (msr : BitVec 32) : Option Interception :=
  (calls.filter (·.msr = msr)).getLast?

section Position

variable {msr other : BitVec 32} {position : ℕ}

theorem even_position (located : msrPosition msr = some position) : position % 2 = 0 := by
  simp only [msrPosition] at located
  grind

theorem msrPosition_injective (located : msrPosition msr = some position)
    (also : msrPosition other = some position) : msr = other := by
  apply BitVec.eq_of_toNat_eq
  simp only [msrPosition] at located also
  grind

/-- The loop passes over the ranges before the one an MSR lies in. -/
theorem svmMsrpmOffset_cases (msr : BitVec 32) :
    (svmMsrpmOffset msr).toNat =
      if msr.toNat < 0x2000 then msr.toNat / 4 / 4
      else if 0xc0000000 ≤ msr.toNat ∧ msr.toNat < 0xc0002000 then
        ((msr.toNat - 0xc0000000) / 4 + 2048) / 4
      else if 0xc0010000 ≤ msr.toNat ∧ msr.toNat < 0xc0012000 then
        ((msr.toNat - 0xc0010000) / 4 + 2 * 2048) / 4
      else 0xffffffff := by
  have bound := msr.isLt
  simp only [svmMsrpmOffset, msrpmRanges, svmMsrpmOffsetFrom, BitVec.lt_def, BitVec.le_def]
  simp [msrsInRange, msrsRangeSize, msrInvalid]
  split_ifs <;> simp <;> omega

theorem toNat_svmMsrpmOffset (located : msrPosition msr = some position) :
    (svmMsrpmOffset msr).toNat = position / 32 := by
  rw [svmMsrpmOffset_cases]
  simp only [msrPosition] at located
  grind

theorem toNat_and_low (msr : BitVec 32) : (msr &&& 0x0f).toNat = msr.toNat % 16 :=
  Nat.and_two_pow_sub_one_eq_mod msr.toNat 4

theorem toNat_bitRead (located : msrPosition msr = some position) :
    ((2 * (msr &&& 0x0f)).setWidth 8 : BitVec 8).toNat = position % 32 := by
  simp only [BitVec.toNat_setWidth, BitVec.toNat_mul, toNat_and_low]
  simp only [msrPosition] at located
  grind

theorem toNat_bitWrite (located : msrPosition msr = some position) :
    ((2 * (msr &&& 0x0f) + 1).setWidth 8 : BitVec 8).toNat = position % 32 + 1 := by
  simp only [BitVec.toNat_setWidth, BitVec.toNat_add, BitVec.toNat_mul, toNat_and_low]
  simp only [msrPosition] at located
  grind

theorem position_lt (located : msrPosition msr = some position) : position < 1536 * 32 := by
  simp only [msrPosition] at located
  grind

end Position

section Calls

variable {msrpm : Msrpm} {call : Interception} {calls : List Interception} {msr : BitVec 32}
  {position : ℕ}

theorem getLsbD_bitAt (nr : BitVec 8) {k : ℕ} (inside : k < 64) :
    (1#64 <<< nr.toNat).getLsbD k = decide (k = nr.toNat) := by
  rw [BitVec.getLsbD_shiftLeft, BitVec.getLsbD_one]
  by_cases below : k < nr.toNat
  · simp [below, Nat.ne_of_lt below]
  · have here_iff : k - nr.toNat = 0 ↔ k = nr.toNat := by omega
    simp [inside, below, here_iff]

theorem getLsbD_setBit (nr : BitVec 8) (word : BitVec 64) {k : ℕ} (inside : k < 64) :
    (setBit nr word).getLsbD k = (decide (k = nr.toNat) || word.getLsbD k) := by
  rw [setBit, BitVec.getLsbD_or, getLsbD_bitAt nr inside, Bool.or_comm]

theorem getLsbD_clearBit (nr : BitVec 8) (word : BitVec 64) {k : ℕ} (inside : k < 64) :
    (clearBit nr word).getLsbD k = (!decide (k = nr.toNat) && word.getLsbD k) := by
  rw [clearBit, BitVec.getLsbD_and, BitVec.getLsbD_not, getLsbD_bitAt nr inside, Bool.and_comm]
  simp [inside]

/-- Either of the two bit operations sets one bit, to whether the access is to be intercepted. -/
theorem getLsbD_intercept (allowed : BitVec 32) (nr : BitVec 8) (word : BitVec 64) {k : ℕ}
    (inside : k < 64) :
    (if allowed ≠ 0 then clearBit nr word else setBit nr word).getLsbD k =
      if k = nr.toNat then decide (allowed = 0) else word.getLsbD k := by
  by_cases isZero : allowed = 0
  · rw [if_neg (not_not_intro isZero), getLsbD_setBit nr word inside]
    by_cases same : k = nr.toNat <;> simp [same, isZero]
  · rw [if_pos isZero, getLsbD_clearBit nr word inside]
    have refused : allowed ≠ 0#32 := isZero
    by_cases same : k = nr.toNat <;> simp [same, refused]

theorem setMsrInterception_of_located (located : msrPosition call.msr = some position) :
    svmMsrpmOffset call.msr ≠ msrInvalid := by
  intro invalid
  have bound := position_lt located
  have word := toNat_svmMsrpmOffset located
  rw [invalid] at word
  simp [msrInvalid] at word
  omega

/-- One call overwrites the two bits of its MSR. -/
theorem bit_setMsrInterception (located : msrPosition call.msr = some position) (other : ℕ) :
    (setMsrInterception msrpm call).bit other = (call.writes other).getD (msrpm.bit other) := by
  have even := even_position located
  have valid := setMsrInterception_of_located located
  simp only [setMsrInterception, valid, if_false, Msrpm.bit, toNat_svmMsrpmOffset located]
  by_cases sameWord : other / 32 = position / 32
  · rw [sameWord, Function.update_self, BitVec.getLsbD_setWidth, getLsbD_intercept _ _ _ (by omega),
      getLsbD_intercept _ _ _ (by omega), toNat_bitRead located, toNat_bitWrite located,
      BitVec.getLsbD_setWidth]
    have low : other % 32 < 32 := Nat.mod_lt _ (by decide)
    simp only [Interception.writes, located, Option.map_some, Option.some.injEq, low, decide_true,
      Bool.true_and]
    by_cases isRead : position = other
    · simp [← isRead]
    · by_cases isWrite : position + 1 = other
      · have here : other % 32 = position % 32 + 1 := by omega
        simp [isRead, isWrite, here]
      · have notRead : other % 32 ≠ position % 32 := by omega
        have notWrite : other % 32 ≠ position % 32 + 1 := by omega
        have fits : other % 32 < 64 := by omega
        simp [isRead, isWrite, notRead, notWrite, fits]
  · rw [Function.update_of_ne sameWord]
    have notRead : position ≠ other := by
      rintro rfl
      exact sameWord rfl
    have notWrite : position + 1 ≠ other := by omega
    simp [Interception.writes, located, notRead, notWrite, Msrpm.access]

theorem accesses_setMsrInterception (located : msrPosition call.msr = some position) :
    (setMsrInterception msrpm call).accesses =
      msrpm.accesses ++ [position / 32] ++ [position / 32] := by
  have valid := setMsrInterception_of_located located
  simp only [setMsrInterception, valid, if_false, toNat_svmMsrpmOffset located]
  rfl

theorem bug_setMsrInterception (located : msrPosition call.msr = some position) :
    (setMsrInterception msrpm call).bug = msrpm.bug := by
  have valid := setMsrInterception_of_located located
  simp only [setMsrInterception, valid, if_false]
  rfl

/-- The map is in use: no `BUG_ON` has fired and every index was one of the map. -/
structure Msrpm.Running (msrpm : Msrpm) : Prop where
  bug : msrpm.bug = false
  inside : ∀ index ∈ msrpm.accesses, index < 1536

theorem Msrpm.Running.setMsrInterception (running : msrpm.Running)
    (located : msrPosition call.msr = some position) : (setMsrInterception msrpm call).Running := by
  have bound := position_lt located
  refine ⟨?_, ?_⟩
  · rw [bug_setMsrInterception located, running.bug]
  · intro index accessed
    simp only [accesses_setMsrInterception located, List.mem_append, List.mem_singleton] at accessed
    rcases accessed with (earlier | rfl) | rfl
    · exact running.inside index earlier
    · omega
    · omega

/-- What is left in the bits of an MSR is decided by the last call naming it. -/
theorem lastWrite_writes (located : msrPosition msr = some position) :
    lastWrite (Interception.writes · position) calls =
        (lastNaming calls msr).map (fun call => decide (call.read = 0)) ∧
      lastWrite (Interception.writes · (position + 1)) calls =
        (lastNaming calls msr).map (fun call => decide (call.write = 0)) := by
  have even := even_position located
  have named : ∀ call : Interception, msrPosition call.msr = some position ↔ call.msr = msr := by
    intro call
    refine ⟨fun same => msrPosition_injective same located, ?_⟩
    rintro rfl
    exact located
  constructor
  · apply lastWrite_of_ite
    intro call _
    have notWrite : (msrPosition call.msr).map (· + 1) ≠ some position := by
      intro shifted
      rcases Option.map_eq_some_iff.mp shifted with ⟨before, found, next⟩
      have evenBefore := even_position found
      omega
    simp [Interception.writes, named, notWrite]
  · apply lastWrite_of_ite
    intro call _
    have notRead : msrPosition call.msr ≠ some (position + 1) := by
      intro found
      have evenNext := even_position found
      omega
    have shifted : (msrPosition call.msr).map (· + 1) = some (position + 1) ↔ call.msr = msr := by
      rw [← named, Option.map_eq_some_iff]
      simp
    simp [Interception.writes, notRead, shifted]

theorem writes_eq_none {call : Interception}
    (apart : ∀ named, msrPosition call.msr = some named → position ≠ named ∧ position ≠ named + 1) :
    call.writes position = none := by
  cases located : msrPosition call.msr with
  | none => simp [Interception.writes, located]
  | some named =>
      rcases apart named located with ⟨notRead, notWrite⟩
      simp [Interception.writes, located, notRead.symm, notWrite.symm]

/--
For every map and every sequence of calls for MSRs of the three ranges: the bits of each MSR are
those its last call asks for, or as they were, and no bit of an MSR without a call has changed.
-/
theorem bit_setMsrInterceptions (words : ℕ → BitVec 32) {calls : List Interception}
    (inRanges : ∀ call ∈ calls, (msrPosition call.msr).isSome) :
    (setMsrInterceptions { words } calls).Running ∧
    (∀ msr position, msrPosition msr = some position →
      (setMsrInterceptions { words } calls).bit position =
          ((lastNaming calls msr).map fun call => decide (call.read = 0)).getD
            (({ words } : Msrpm).bit position) ∧
        (setMsrInterceptions { words } calls).bit (position + 1) =
          ((lastNaming calls msr).map fun call => decide (call.write = 0)).getD
            (({ words } : Msrpm).bit (position + 1))) ∧
    ∀ position,
      (∀ call ∈ calls, ∀ named, msrPosition call.msr = some named →
        position ≠ named ∧ position ≠ named + 1) →
      (setMsrInterceptions { words } calls).bit position = ({ words } : Msrpm).bit position := by
  have start : ({ words } : Msrpm).Running := ⟨rfl, by simp⟩
  have ran : ∀ position, (setMsrInterceptions { words } calls).Running ∧
      (setMsrInterceptions { words } calls).bit position =
        (lastWrite (Interception.writes · position) calls).getD
          (({ words } : Msrpm).bit position) := by
    intro position
    refine @observe_foldl _ _ _ (Msrpm.bit · position) _ _ _ _ ?_ _ start _ inRanges
    intro msrpm call running located
    rcases Option.isSome_iff_exists.mp located with ⟨named, located⟩
    rw [running.bug]
    exact ⟨running.setMsrInterception located, bit_setMsrInterception located position⟩
  have running := (ran 0).1
  have bits := fun position => (ran position).2
  refine ⟨running, ?_, ?_⟩
  · intro msr position located
    rw [bits, bits, (lastWrite_writes located).1, (lastWrite_writes located).2]
    exact ⟨rfl, rfl⟩
  · intro position apart
    have unwritten : lastWrite (Interception.writes · position) calls = none :=
      lastWrite_eq_none_iff.mpr fun call call_mem => writes_eq_none (apart call call_mem)
    rw [bits, unwritten]
    rfl

/-- Reading an MSR of the second range is allowed, then intercepted again. -/
theorem bit_setMsrInterceptions_twice :
    ((setMsrInterceptions { words := fun _ => 0 }
      [⟨0xc0000081, 1, 0⟩, ⟨0xc0000081, 0, 1⟩]).bit 0x4102 = true) ∧
    (setMsrInterceptions { words := fun _ => 0 }
      [⟨0xc0000081, 1, 0⟩, ⟨0xc0000081, 0, 1⟩]).bit 0x4103 = false := by
  have after := (@bit_setMsrInterceptions (fun _ => 0)
    [⟨0xc0000081, 1, 0⟩, ⟨0xc0000081, 0, 1⟩] (by decide)).2.1 0xc0000081 0x4102 (by decide)
  rw [after.1, after.2]
  decide

end Calls

/-! ### MSRs in none of the ranges -/

section Rejected

variable {msr : BitVec 32}

/-- The MSR is one of the 8192 of a range. -/
def InRanges (msr : BitVec 32) : Prop :=
  ∃ range ∈ msrpmRanges, range ≤ msr ∧ msr.toNat < range.toNat + 8192

theorem inRanges_iff : InRanges msr ↔ (msrPosition msr).isSome := by
  simp only [InRanges, msrpmRanges, List.mem_cons, List.not_mem_nil, or_false, exists_eq_or_imp,
    exists_eq_left, BitVec.le_def, msrPosition]
  change 0 ≤ msr.toNat ∧ msr.toNat < 0 + 8192 ∨
    0xc0000000 ≤ msr.toNat ∧ msr.toNat < 0xc0000000 + 8192 ∨
      0xc0010000 ≤ msr.toNat ∧ msr.toNat < 0xc0010000 + 8192 ↔ _
  split_ifs <;> simp <;> omega

instance (msr : BitVec 32) : Decidable (InRanges msr) :=
  decidable_of_iff _ inRanges_iff.symm

theorem svmMsrpmOffset_of_not_inRanges (outside : ¬InRanges msr) :
    svmMsrpmOffset msr = msrInvalid := by
  rw [inRanges_iff, Option.not_isSome_iff_eq_none] at outside
  apply BitVec.eq_of_toNat_eq
  rw [svmMsrpmOffset_cases]
  simp only [msrPosition] at outside
  split_ifs at outside ⊢
  rfl

/-- The word is read before the offset is checked. -/
theorem setMsrInterception_of_not_inRanges {call : Interception} (outside : ¬InRanges call.msr)
    (msrpm : Msrpm) :
    setMsrInterception msrpm call = { msrpm.access 0xffffffff with bug := true } := by
  rw [setMsrInterception, svmMsrpmOffset_of_not_inRanges outside, if_pos rfl]
  rfl

/-- All accesses are in the map, and with an MSR of no range there is none before the check. -/
structure Guarded (words : ℕ → BitVec 32) (call : Interception) : Prop where
  inside : ∀ index ∈ (setMsrInterception { words } call).accesses, index < 1536
  rejected : ¬InRanges call.msr → svmMsrpmOffset call.msr = msrInvalid ∧
    (setMsrInterception { words } call).bug = true ∧
    (setMsrInterception { words } call).accesses = []

/--
For every map and every call: the accesses are in the map and checked before they are made if and
only if the MSR is in one of the ranges. For any other MSR the offset is `MSR_INVALID` and the
`BUG_ON` fires, behind a read of the word with that index.
-/
theorem guarded_iff (words : ℕ → BitVec 32) (call : Interception) :
    (Guarded words call ↔ InRanges call.msr) ∧
      (¬InRanges call.msr → svmMsrpmOffset call.msr = msrInvalid ∧
        (setMsrInterception { words } call).bug = true ∧
        (setMsrInterception { words } call).accesses = [0xffffffff]) := by
  have outside : ¬InRanges call.msr → svmMsrpmOffset call.msr = msrInvalid ∧
      (setMsrInterception { words } call).bug = true ∧
      (setMsrInterception { words } call).accesses = [0xffffffff] := by
    intro outside
    rw [setMsrInterception_of_not_inRanges outside]
    exact ⟨svmMsrpmOffset_of_not_inRanges outside, rfl, rfl⟩
  refine ⟨⟨?_, ?_⟩, outside⟩
  · intro guarded
    by_contra other
    have bounded := guarded.inside
    rw [(outside other).2.2] at bounded
    exact absurd (bounded _ (List.mem_singleton.mpr rfl)) (by decide)
  · intro inRanges
    rcases Option.isSome_iff_exists.mp (inRanges_iff.mp inRanges) with ⟨position, located⟩
    have start : ({ words } : Msrpm).Running := ⟨rfl, by simp⟩
    exact ⟨(start.setMsrInterception located).inside, fun other => absurd inRanges other⟩

theorem guarded_syscallMask : Guarded (fun _ => 0) ⟨0xc0000084, 1, 1⟩ ∧
    (setMsrInterception { words := fun _ => 0 } ⟨0x2000, 1, 1⟩).accesses = [0xffffffff] :=
  ⟨(guarded_iff _ _).1.mpr (by decide),
    ((guarded_iff _ ⟨0x2000, 1, 1⟩).2 (by decide)).2.2⟩

/-- MSR 0x2000 is behind the first range. -/
theorem not_guarded : ¬∀ (words : ℕ → BitVec 32) (call : Interception), Guarded words call := by
  intro claimed
  have bounded := (claimed (fun _ => 0) ⟨0x2000, 1, 1⟩).inside
  exact absurd (bounded 0xffffffff (by decide)) (by decide)

end Rejected

end VirtLearn.Vmx
