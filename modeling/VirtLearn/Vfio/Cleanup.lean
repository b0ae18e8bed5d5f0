import VirtLearn.Descriptors

/-!
# Opening a device through VFIO

`main` of `vfio.c`: container, group and device are opened one after the other, and three labels
close them again, the last opened first. What the system calls return is an argument (`Answers`), so
is what `malloc` left in `pdev->dev_fd`.

A `goto` to a label is a call of the definition of that name.
-/

namespace VirtLearn.Vfio

def vfioApiVersion : ℤ :=
  0

def vfioGroupFlagsViable : BitVec 32 :=
  1

/-- The value a call for a descriptor returns. -/
def returned : Option ℕ → ℤ
  | some fd => fd
  | none => -1

/-- What the system calls of `main` return; `none` is a call for a descriptor that fails. -/
structure Answers where
  initPciData : ℤ
  container : Option ℕ
  apiVersion : ℤ
  extension : ℤ
  group : Option ℕ
  groupFlags : BitVec 32
  setContainer : ℤ
  setIommu : ℤ
  device : Option ℕ
  deviceInfo : ℤ
  regionInfo : ℤ
  pread : ℤ

/-- The variables that hold descriptors, with what was opened and closed, and what comes of it. -/
structure Main where
  ret : ℤ := 0
  container : ℤ
  groupFd : ℤ
  devFd : ℤ
  descriptors : Descriptors := {}
  complaints : List String := []

namespace Main

variable (main : Main) (answers : Answers)

def complain (text : String) : Main :=
  { main with complaints := main.complaints ++ [text] }

def err : Main :=
  { main with descriptors := main.descriptors.closes main.container }

def err0 : Main :=
  { main with descriptors := main.descriptors.closes main.groupFd }.err

def err1 : Main :=
  { main with descriptors := main.descriptors.closes main.devFd }.err0

/-- From the call for the information on the device to the end. -/
def useDevice : Main :=
  if answers.deviceInfo ≠ 0 then (main.complain "error getting device_info").err1
  else
    let main :=
      if answers.regionInfo ≠ 0 then main.complain "get device  region info failed!" else main
    let main := if answers.pread < 0 then main.complain "read config data failed!" else main
    main.err1

def openDevice : Main :=
  let device := returned answers.device
  let main := { main with devFd := device, descriptors := main.descriptors.opens device }
  if main.devFd < 0 then (main.complain "Failed to get device fd").err0
  else main.useDevice answers

/-- From the check of the group's status on. -/
def useGroup : Main :=
  if answers.groupFlags &&& vfioGroupFlagsViable = 0 then
    (main.complain "not suport VIABLE\n").err0
  else if answers.setContainer ≠ 0 then (main.complain "Failed to set group container\n").err0
  else if answers.setIommu ≠ 0 then (main.complain "VFIO set iommu failed").err1
  else main.openDevice answers

def openGroup : Main :=
  let group := returned answers.group
  let main := { main with groupFd := group, descriptors := main.descriptors.opens group }
  if main.groupFd < 0 then (main.complain "failed to open group").err
  else main.useGroup answers

end Main

/-- `main`, from what `malloc` left in the two members of `pdev`. -/
def runMain (answers : Answers) (groupFd devFd : ℤ) : Main :=
  let main : Main := { container := 0, groupFd, devFd }
  if answers.initPciData ≠ 0 then { main with ret := -1 }.complain "initilizal data failed!"
  else
    let container := returned answers.container
    let main := { main with container, descriptors := main.descriptors.opens container }
    if answers.apiVersion ≠ vfioApiVersion then main.complain "error vfio version\n"
    else if answers.extension = 0 then main.complain "not support type1 iommmu\n"
    else main.openGroup answers

section Labels

variable {main : Main} {answers : Answers}

theorem returned_some_ne (fd : ℕ) : returned (some fd) ≠ -1 := by
  rw [returned]
  omega

theorem not_returned_some_neg (fd : ℕ) : ¬returned (some fd) < 0 := by
  rw [returned]
  omega

theorem returned_none_neg : returned none < 0 := by
  decide

/-- The first label is right where the container alone is open. -/
theorem settled_err (held : main.descriptors = { opened := [main.container] }) :
    main.err.descriptors.Settled := by
  rw [Main.err, held]
  exact Descriptors.settled_reverse [main.container]

theorem settled_err0 (held : main.descriptors = { opened := [main.container, main.groupFd] }) :
    main.err0.descriptors.Settled := by
  rw [Main.err0, Main.err, held]
  exact Descriptors.settled_reverse [main.container, main.groupFd]

theorem settled_err1
    (held : main.descriptors = { opened := [main.container, main.groupFd, main.devFd] }) :
    main.err1.descriptors.Settled := by
  rw [Main.err1, Main.err0, Main.err, held]
  exact Descriptors.settled_reverse [main.container, main.groupFd, main.devFd]

/-- The last label closes a third value, whatever it is, where only two were opened. -/
theorem not_settled_err1
    (held : main.descriptors = { opened := [main.container, main.groupFd] }) :
    ¬main.err1.descriptors.Settled := by
  rw [Main.err1, Main.err0, Main.err, held]
  intro settled
  exact absurd settled.length_eq (show 3 ≠ 2 by decide)

theorem settled_useDevice
    (held : main.descriptors = { opened := [main.container, main.groupFd, main.devFd] }) :
    (main.useDevice answers).descriptors.Settled := by
  rw [Main.useDevice]
  split_ifs <;> exact settled_err1 held

theorem settled_openDevice
    (held : main.descriptors = { opened := [main.container, main.groupFd] }) :
    (main.openDevice answers).descriptors.Settled := by
  rw [Main.openDevice]
  cases device : answers.device with
  | none =>
      rw [if_pos returned_none_neg]
      exact settled_err0 ((Descriptors.opens_of_eq rfl).trans held)
  | some fd =>
      rw [if_neg (not_returned_some_neg fd)]
      apply settled_useDevice
      simp only [held, Descriptors.opens, if_neg (returned_some_ne fd)]
      rfl

theorem settled_useGroup_iff
    (held : main.descriptors = { opened := [main.container, main.groupFd] }) :
    (main.useGroup answers).descriptors.Settled ↔
      answers.groupFlags &&& vfioGroupFlagsViable = 0 ∨ answers.setContainer ≠ 0 ∨
        answers.setIommu = 0 := by
  rw [Main.useGroup]
  by_cases viable : answers.groupFlags &&& vfioGroupFlagsViable = 0
  · rw [if_pos viable]
    exact iff_of_true (settled_err0 held) (Or.inl viable)
  · rw [if_neg viable, or_iff_right viable]
    by_cases contained : answers.setContainer ≠ 0
    · rw [if_pos contained]
      exact iff_of_true (settled_err0 held) (Or.inl contained)
    · rw [if_neg contained, or_iff_right contained]
      by_cases translated : answers.setIommu ≠ 0
      · rw [if_pos translated]
        exact iff_of_false (not_settled_err1 held) translated
      · rw [if_neg translated]
        exact iff_of_true (settled_openDevice held) (not_not.mp translated)

theorem settled_openGroup_iff (held : main.descriptors = { opened := [main.container] }) :
    (main.openGroup answers).descriptors.Settled ↔
      answers.group = none ∨ answers.groupFlags &&& vfioGroupFlagsViable = 0 ∨
        answers.setContainer ≠ 0 ∨ answers.setIommu = 0 := by
  rw [Main.openGroup]
  cases group : answers.group with
  | none =>
      rw [if_pos returned_none_neg]
      exact iff_of_true (settled_err ((Descriptors.opens_of_eq rfl).trans held)) (Or.inl rfl)
  | some fd =>
      rw [if_neg (not_returned_some_neg fd), or_iff_right (by simp)]
      apply settled_useGroup_iff
      simp only [held, Descriptors.opens, if_neg (returned_some_ne fd)]
      rfl

/-- A value was closed that no call has given. -/
structure Main.Astray (main : Main) : Prop where
  closed : -1 ∈ main.descriptors.closed
  opened : -1 ∉ main.descriptors.opened

theorem astray_err (unopened : main.container = -1) (never : -1 ∉ main.descriptors.opened) :
    main.err.Astray := by
  refine ⟨?_, never⟩
  rw [← unopened]
  exact List.mem_append_right _ (List.mem_singleton.mpr rfl)

theorem astray_err0 (unopened : main.container = -1) (never : -1 ∉ main.descriptors.opened) :
    main.err0.Astray := by
  apply astray_err
  · exact unopened
  · exact never

theorem astray_err1 (unopened : main.container = -1) (never : -1 ∉ main.descriptors.opened) :
    main.err1.Astray := by
  apply astray_err0
  · exact unopened
  · exact never

theorem astray_useDevice (unopened : main.container = -1)
    (never : -1 ∉ main.descriptors.opened) : (main.useDevice answers).Astray := by
  rw [Main.useDevice]
  split_ifs <;> exact astray_err1 unopened never

theorem astray_openDevice (unopened : main.container = -1)
    (never : -1 ∉ main.descriptors.opened) : (main.openDevice answers).Astray := by
  have device := @Descriptors.failure_not_mem_opens _ (returned answers.device) never
  rw [Main.openDevice]
  split
  · exact astray_err0 unopened device
  · exact astray_useDevice unopened device

theorem astray_useGroup (unopened : main.container = -1)
    (never : -1 ∉ main.descriptors.opened) : (main.useGroup answers).Astray := by
  rw [Main.useGroup]
  split_ifs
  · exact astray_err0 unopened never
  · exact astray_err0 unopened never
  · exact astray_err1 unopened never
  · exact astray_openDevice unopened never

/-- Without a container, every way out of `main` from here closes what was never opened. -/
theorem astray_openGroup (unopened : main.container = -1)
    (never : -1 ∉ main.descriptors.opened) : (main.openGroup answers).Astray := by
  have group := @Descriptors.failure_not_mem_opens _ (returned answers.group) never
  rw [Main.openGroup]
  split
  · exact astray_err unopened group
  · exact astray_useGroup unopened group

theorem Main.Astray.not_settled (astray : main.Astray) : ¬main.descriptors.Settled :=
  fun settled => astray.opened (settled.nothingElse _ astray.closed)

end Labels

section RunMain

variable {answers : Answers} (groupFd devFd : ℤ)

theorem descriptors_opened_some (fd : ℕ) :
    ({} : Descriptors).opens (returned (some fd)) = { opened := [returned (some fd)] } := by
  rw [Descriptors.opens, if_neg (returned_some_ne fd)]
  rfl

/-- The two returns behind the container's checks close nothing. -/
theorem settled_runMain_of_early (found : answers.initPciData = 0)
    (early : answers.apiVersion ≠ vfioApiVersion ∨ answers.extension = 0) :
    (runMain answers groupFd devFd).descriptors.Settled ↔ answers.container = none := by
  have descriptors : (runMain answers groupFd devFd).descriptors =
      ({} : Descriptors).opens (returned answers.container) := by
    rw [runMain, if_neg (not_not_intro found)]
    by_cases version : answers.apiVersion ≠ vfioApiVersion
    · rw [if_pos version]
      rfl
    · rw [if_neg version, if_pos (early.resolve_left version)]
      rfl
  rw [descriptors]
  cases answers.container with
  | none =>
      have nothing : ({} : Descriptors).opens (returned none) = {} := Descriptors.opens_of_eq rfl
      rw [nothing]
      exact iff_of_true ⟨by simp, by simp⟩ rfl
  | some fd =>
      rw [descriptors_opened_some]
      refine iff_of_false (fun settled => ?_) (by simp)
      exact absurd settled.length_eq (show 0 ≠ 1 by decide)

theorem settled_runMain_of_ready (found : answers.initPciData = 0)
    (version : answers.apiVersion = vfioApiVersion) (extension : answers.extension ≠ 0) :
    (runMain answers groupFd devFd).descriptors.Settled ↔ answers.container ≠ none ∧
      (answers.group = none ∨ answers.groupFlags &&& vfioGroupFlagsViable = 0 ∨
        answers.setContainer ≠ 0 ∨ answers.setIommu = 0) := by
  rw [runMain, if_neg (not_not_intro found), if_neg (not_not_intro version), if_neg extension]
  cases answers.container with
  | none =>
      refine iff_of_false (Main.Astray.not_settled ?_) fun ready => ready.1 rfl
      exact astray_openGroup rfl List.not_mem_nil
  | some fd =>
      rw [settled_openGroup_iff (descriptors_opened_some fd)]
      simp

/--
For all results of the system calls, and whatever `pdev` held: at the return from `main` what was
opened has been closed once and nothing else was closed, if and only if nothing was opened before
one of the returns without a label, or the container was opened and the IOMMU is not what fails.
-/
theorem settled_runMain_iff (answers : Answers) (groupFd devFd : ℤ) :
    (runMain answers groupFd devFd).descriptors.Settled ↔
      answers.initPciData ≠ 0 ∨
        (answers.apiVersion ≠ vfioApiVersion ∨ answers.extension = 0) ∧ answers.container = none ∨
        answers.apiVersion = vfioApiVersion ∧ answers.extension ≠ 0 ∧ answers.container ≠ none ∧
          (answers.group = none ∨ answers.groupFlags &&& vfioGroupFlagsViable = 0 ∨
            answers.setContainer ≠ 0 ∨ answers.setIommu = 0) := by
  by_cases found : answers.initPciData = 0
  · rw [or_iff_right (not_not_intro found)]
    by_cases early : answers.apiVersion ≠ vfioApiVersion ∨ answers.extension = 0
    · rw [settled_runMain_of_early groupFd devFd found early, and_iff_right early, iff_self_or]
      rintro ⟨version, extension, _⟩
      exact absurd early (not_or.mpr ⟨not_not_intro version, extension⟩)
    · rcases not_or.mp early with ⟨version, extension⟩
      rw [not_not] at version
      rw [settled_runMain_of_ready groupFd devFd found version extension, and_iff_right version,
        and_iff_right extension]
      exact (or_iff_right fun other => early other.1).symm
  · refine iff_of_true ?_ (Or.inl found)
    rw [runMain, if_pos found]
    exact ⟨by simp [Main.complain], by simp [Main.complain]⟩

/-- The IOMMU cannot be set; the device has not been asked for. -/
def iommuFails : Answers where
  initPciData := 0
  container := some 3
  apiVersion := 0
  extension := 1
  group := some 4
  groupFlags := 1
  setContainer := 0
  setIommu := -1
  device := some 5
  deviceInfo := 0
  regionInfo := 0
  pread := 64

theorem closed_iommuFails (groupFd devFd : ℤ) :
    (runMain iommuFails groupFd devFd).descriptors = ⟨[3, 4], [devFd, 4, 3]⟩ :=
  rfl

theorem not_settled_runMain : ¬∀ (answers : Answers) (groupFd devFd : ℤ),
    answers.initPciData = 0 → (runMain answers groupFd devFd).descriptors.Settled := by
  intro claimed
  have settled := (claimed iommuFails 0 77 rfl).nothingElse
  rw [closed_iommuFails] at settled
  exact absurd (settled 77 (by decide)) (by decide)

end RunMain

end VirtLearn.Vfio
