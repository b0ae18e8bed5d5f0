import VirtLearn.Descriptors

/-!
# Opening the device of the hypervisor

`kvm_init` of `vm.c`. What the system calls return is an argument (`KvmAnswers`), and the
descriptors that are opened and closed are recorded.

One variable holds the version, both event descriptors and the result: the second `eventfd` hides
a failure of the first, and nothing that was opened is closed on the way out.
-/

namespace VirtLearn.Kvm

def kvmApiVersion : ℤ :=
  12

def einval : ℤ :=
  22

/-- What the system calls of `kvm_init` return; a failed `open` leaves a positive `errno`. -/
structure KvmAnswers where
  opened : ℤ
  errno : ℤ
  strerror : String
  apiVersion : ℤ
  ioEventfd : ℤ
  irqEventfd : ℤ
  errno_pos : opened = -1 → 0 < errno

/-- The members of `struct KVMState` that are written. -/
structure KvmState where
  fd : ℤ
  ioefd : ℤ
  irqefd : ℤ
deriving DecidableEq

structure KvmInit where
  ret : ℤ
  state : KvmState
  descriptors : Descriptors := {}
  stderr : String := ""

def kvmInit (answers : KvmAnswers) (s : KvmState) : KvmInit :=
  let descriptors := ({} : Descriptors).opens answers.opened
  let s := { s with fd := answers.opened }
  if s.fd = -1 then
    { ret := -answers.errno
      state := s
      descriptors
      stderr := "Could not access KVM kernel module:" ++ answers.strerror ++ "\n" }
  else
    let ret := answers.apiVersion
    if ret ≠ kvmApiVersion then
      { ret := -einval
        state := s
        descriptors
        stderr := "kvm version not supported ret:" ++ toString ret ++ "\n" }
    else
      let ret := answers.ioEventfd
      let descriptors := descriptors.opens ret
      -- `ret` is cleared as well, which the next assignment undoes
      let s := if 0 < ret then { s with ioefd := ret } else s
      let ret := answers.irqEventfd
      let descriptors := descriptors.opens ret
      if 0 < ret then { ret := 0, state := { s with irqefd := ret }, descriptors }
      else { ret, state := s, descriptors }

/-- Success is that of all four calls, with their descriptors kept, and failure leaves none open. -/
structure AllOrNothing (answers : KvmAnswers) (s : KvmState) : Prop where
  success : (kvmInit answers s).ret = 0 ↔ answers.opened ≠ -1 ∧
    answers.apiVersion = kvmApiVersion ∧ answers.ioEventfd ≠ -1 ∧ answers.irqEventfd ≠ -1
  kept : (kvmInit answers s).ret = 0 →
    (kvmInit answers s).state = ⟨answers.opened, answers.ioEventfd, answers.irqEventfd⟩
  failure : (kvmInit answers s).ret ≠ 0 → (kvmInit answers s).descriptors.NoneLeft

section KvmInit

variable {answers : KvmAnswers} (s : KvmState)

theorem kvmInit_of_not_opened (failed : answers.opened = -1) :
    (kvmInit answers s).ret = -answers.errno ∧ (kvmInit answers s).descriptors = {} := by
  rw [kvmInit, if_pos failed]
  exact ⟨rfl, Descriptors.opens_of_eq failed⟩

theorem kvmInit_of_other_version (opened : answers.opened ≠ -1)
    (other : answers.apiVersion ≠ kvmApiVersion) :
    (kvmInit answers s).ret = -einval ∧
      (kvmInit answers s).descriptors = ({} : Descriptors).opens answers.opened := by
  rw [kvmInit, if_neg opened, if_pos other]
  exact ⟨rfl, rfl⟩

/-- With the version right, the second `eventfd` alone decides the result. -/
theorem kvmInit_of_version (opened : answers.opened ≠ -1)
    (version : answers.apiVersion = kvmApiVersion) :
    (kvmInit answers s).ret = min 0 answers.irqEventfd ∧
      (kvmInit answers s).state =
        ⟨answers.opened, if 0 < answers.ioEventfd then answers.ioEventfd else s.ioefd,
          if 0 < answers.irqEventfd then answers.irqEventfd else s.irqefd⟩ ∧
      (kvmInit answers s).descriptors =
        ((({} : Descriptors).opens answers.opened).opens answers.ioEventfd).opens
          answers.irqEventfd := by
  rw [kvmInit, if_neg opened, if_neg (not_not_intro version)]
  by_cases io : 0 < answers.ioEventfd <;> by_cases irq : 0 < answers.irqEventfd
  all_goals simp only [io, irq, if_true, if_false, and_true]
  all_goals omega

/-- Nothing is closed, so a device that was opened stays open. -/
theorem not_noneLeft_kvmInit (opened : answers.opened ≠ -1) :
    ¬(kvmInit answers s).descriptors.NoneLeft := by
  have given : answers.opened ∈ (({} : Descriptors).opens answers.opened).opened := by
    rw [Descriptors.opened_opens_of_ne opened]
    exact List.mem_singleton.mpr rfl
  by_cases version : answers.apiVersion = kvmApiVersion
  · rw [(kvmInit_of_version s opened version).2.2,
      Descriptors.noneLeft_iff_of_closed_eq_nil (by simp)]
    exact List.ne_nil_of_mem (Descriptors.mem_opens (Descriptors.mem_opens given))
  · rw [(kvmInit_of_other_version s opened version).2,
      Descriptors.noneLeft_iff_of_closed_eq_nil (by simp)]
    exact List.ne_nil_of_mem given

theorem allOrNothing_of_not_opened (failed : answers.opened = -1) : AllOrNothing answers s := by
  rcases kvmInit_of_not_opened s failed with ⟨ret, untouched⟩
  have positive := answers.errno_pos failed
  have reported : (kvmInit answers s).ret ≠ 0 := by omega
  refine ⟨?_, fun success => absurd success reported, fun _ => ?_⟩
  · exact iff_of_false reported fun succeeded => succeeded.1 failed
  · rw [untouched]
    exact fun fd given => absurd given List.not_mem_nil

/-- A state that keeps what it held is right by chance only. -/
theorem kept_iff (result held : ℤ) :
    (if 0 < result then result else held) = result ↔ 0 < result ∨ held = result := by
  by_cases positive : 0 < result
  · rw [if_pos positive]
    exact iff_of_true rfl (Or.inl positive)
  · rw [if_neg positive, or_iff_right positive]

theorem allOrNothing_iff_of_version (opened : answers.opened ≠ -1)
    (version : answers.apiVersion = kvmApiVersion) :
    AllOrNothing answers s ↔ answers.ioEventfd ≠ -1 ∧
      (0 < answers.ioEventfd ∨ s.ioefd = answers.ioEventfd) ∧
        (0 < answers.irqEventfd ∨ 0 = answers.irqEventfd ∧ s.irqefd = 0) := by
  rcases kvmInit_of_version s opened version with ⟨ret, state, _⟩
  rw [← kept_iff]
  constructor
  · rintro ⟨success, kept, failure⟩
    have returned : (kvmInit answers s).ret = 0 := by
      by_contra failed
      exact not_noneLeft_kvmInit s opened (failure failed)
    have holds := kept returned
    rw [state, KvmState.mk.injEq, kept_iff answers.irqEventfd] at holds
    rcases holds with ⟨_, io, irq⟩
    refine ⟨(success.mp returned).2.2.1, io, ?_⟩
    rcases irq with positive | same
    · exact Or.inl positive
    · omega
  · rintro ⟨succeeded, io, irq⟩
    have returned : (kvmInit answers s).ret = 0 := by omega
    refine ⟨?_, fun _ => ?_, fun failed => absurd returned failed⟩
    · exact iff_of_true returned ⟨opened, version, succeeded, by omega⟩
    · rw [state, KvmState.mk.injEq, kept_iff answers.irqEventfd]
      exact ⟨rfl, io, by omega⟩

theorem not_allOrNothing_of_other_version (opened : answers.opened ≠ -1)
    (other : answers.apiVersion ≠ kvmApiVersion) : ¬AllOrNothing answers s := by
  rintro ⟨_, _, failure⟩
  apply not_noneLeft_kvmInit s opened
  apply failure
  rw [(kvmInit_of_other_version s opened other).1]
  decide

/--
For every combination of results and every state before: `kvm_init` is all-or-nothing if and only
if the device cannot be opened, or the version is right, no `eventfd` fails, and each gives a
positive descriptor, or the one that the state already holds.
-/
theorem kvmInit_allOrNothing_iff (answers : KvmAnswers) (s : KvmState) :
    AllOrNothing answers s ↔ answers.opened = -1 ∨
      answers.apiVersion = kvmApiVersion ∧ answers.ioEventfd ≠ -1 ∧
        (0 < answers.ioEventfd ∨ s.ioefd = answers.ioEventfd) ∧
        (0 < answers.irqEventfd ∨ 0 = answers.irqEventfd ∧ s.irqefd = 0) := by
  by_cases opened : answers.opened = -1
  · exact iff_of_true (allOrNothing_of_not_opened s opened) (Or.inl opened)
  · rw [or_iff_right opened]
    by_cases version : answers.apiVersion = kvmApiVersion
    · rw [allOrNothing_iff_of_version s opened version, and_iff_right version]
    · refine iff_of_false ?_ fun right => version right.1
      exact not_allOrNothing_of_other_version s opened version

end KvmInit

/-- The first `eventfd` fails and the second does not: the state keeps whatever it held. -/
def hiddenFailure : KvmAnswers where
  opened := 3
  errno := 24
  strerror := "Too many open files"
  apiVersion := 12
  ioEventfd := -1
  irqEventfd := 4
  errno_pos := by decide

theorem kvmInit_hiddenFailure (s : KvmState) :
    (kvmInit hiddenFailure s).ret = 0 ∧ (kvmInit hiddenFailure s).state = ⟨3, s.ioefd, 4⟩ :=
  ⟨rfl, rfl⟩

theorem not_kvmInit_allOrNothing :
    ¬∀ (answers : KvmAnswers) (s : KvmState), AllOrNothing answers s := by
  intro claimed
  have success := (claimed hiddenFailure ⟨0, 0, 0⟩).success
  exact (success.mp (kvmInit_hiddenFailure _).1).2.2.1 rfl

end VirtLearn.Kvm
