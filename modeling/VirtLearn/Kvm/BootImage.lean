import VirtLearn.Kvm.Mmio
import VirtLearn.Machine.Regions

/-!
# Loading the boot image

`main` of `vm.c` from the `open` of the image to the first `KVM_RUN`: the image is read into a
mapping, at the offset that the first memory slot shows the guest as address 0x7c00.

What the system calls return is an argument (`Answers`). The mapping has room for 0x7f400 bytes at
that offset and the read asks for the whole file, so the image is loaded if and only if it is not
longer (`booted_iff`).
-/

namespace VirtLearn.Kvm

/-- `MAP_FAILED`. -/
def mapFailed : Address :=
  -1

def mem1Size : ℕ :=
  0x80000

def mem2Size : ℕ :=
  0x4000000

/-- Where in the mapping the image is to begin. -/
def loadOffset : ℕ :=
  0xc00

/-- The most that one `read` of Linux transfers. -/
def maxRwCount : ℕ :=
  0x7ffff000

/-- What `mmap` gives for `mem1`, and how many bytes can be written from the offset on. -/
structure Mapping where
  address : Address
  room : ℕ
  documented : address = mapFailed ∧ room = 0 ∨ mem1Size - loadOffset ≤ room

/-- What the system calls return; `kvmRunSize` is `sizeof(struct kvm_run)`. -/
structure Answers where
  opened : ℤ
  fstat : ℤ
  createVm : ℤ
  mem1 : Mapping
  region1 : ℤ
  mem2 : Address
  region2 : ℤ
  createVcpu : ℤ
  vcpuMmapSize : ℤ
  kvmRunSize : BitVec 64
  setIoeventfd : ℤ
  run : Address
  getSregs : ℤ
  setSregs : ℤ
  setRegs : ℤ

structure MemoryRegion where
  guestPhysAddr : Address
  memorySize : ℕ
  userspaceAddr : Address

/-- The end of the program, with its complaint. -/
structure Exit where
  status : ℤ
  complaint : String

/-- The memory of the process and what the guest is given of it, with the read that loaded it. -/
structure Loaded where
  memory : Memory
  regions : List MemoryRegion
  buffer : Address
  requested : ℕ
  stored : ℕ

/-- What the guest finds at one of its addresses, where it has memory. -/
def Loaded.byteAt (loaded : Loaded) (address : Address) : Option Byte :=
  (loaded.regions.find? fun region => Within address region.guestPhysAddr region.memorySize).map
    fun region => loaded.memory (region.userspaceAddr + (address - region.guestPhysAddr))

def region1 (answers : Answers) : MemoryRegion where
  guestPhysAddr := 0x7000
  memorySize := mem1Size
  userspaceAddr := answers.mem1.address

def region2 (answers : Answers) : MemoryRegion where
  guestPhysAddr := 0x100000
  memorySize := mem2Size
  userspaceAddr := answers.mem2

/-- How much a `read` of `count` bytes transfers that returns all it can. -/
def transferred (answers : Answers) (file : List Byte) (count : ℕ) : ℕ :=
  min (min (min count file.length) maxRwCount) answers.mem1.room

/-- What the `read` returns: where it has something to transfer and cannot, it fails. -/
def readResult (answers : Answers) (file : List Byte) (count : ℕ) : ℤ :=
  if transferred answers file count = 0 ∧ min (min count file.length) maxRwCount ≠ 0 then -1
  else transferred answers file count

/-- From the second mapping to the first `KVM_RUN`. -/
def setUp (answers : Answers) (loaded : Loaded) : Except Exit Loaded :=
  if answers.mem2 = 0 then .error ⟨1, "allocating guest memory"⟩
  else if answers.region2 = -1 then .error ⟨1, "KVM_SET_USER_MEMORY_REGION region 2"⟩
  else if answers.createVcpu = -1 then .error ⟨1, "KVM_CRE  ATE_VCPU"⟩
  else
    let mmapSize := BitVec.ofInt 64 answers.vcpuMmapSize
    -- never: the variable is unsigned
    if mmapSize < 0 then .error ⟨1, "KVM_GET_VCPU_MMAP_SIZE"⟩
    else if mmapSize < answers.kvmRunSize then
      .error ⟨1, "KVM_GET_VCPU_MMAP_SIZE unexpectedly small"⟩
    else if answers.setIoeventfd < 0 then .error ⟨1, "Set ioeventd mmio"⟩
    else if answers.run = 0 then .error ⟨1, "mmap vcpu"⟩
    else if answers.getSregs = -1 then .error ⟨1, "KVM_GET_SREGS"⟩
    else if answers.setSregs = -1 then .error ⟨1, "KVM_SET_SREGS"⟩
    else if answers.setRegs = -1 then .error ⟨1, "KVM_SET_REGS"⟩
    else .ok loaded

/-- `main`, behind `kvm_init`, up to the first `KVM_RUN`. -/
def loadAndSetUp (answers : Answers) (file : List Byte) (memory : Memory) : Except Exit Loaded :=
  if answers.opened = -1 then .error ⟨1, "Open binary fail\n"⟩
  else if answers.fstat ≠ 0 then .error ⟨-1, "Acquire binary file information failed\n"⟩
  else if answers.createVm = -1 then .error ⟨1, "KVM_CREATE_VM"⟩
  else if answers.mem1.address = 0 then .error ⟨1, "allocating guest memory"⟩
  else
    let buffer := answers.mem1.address + BitVec.ofNat 64 loadOffset
    let requested := file.length + 1
    let stored := transferred answers file requested
    let memory := memory.store buffer (file.take stored)
    let ret := (BitVec.ofInt 32 (readResult answers file requested)).toInt
    if ret < 0 then .error ⟨-1, "Read binary failed\n"⟩
    else if answers.region1 = -1 then .error ⟨1, "KVM_SET_USER_MEMORY_REGION region 1"⟩
    else
      let regions := [region1 answers, region2 answers]
      setUp answers { memory, regions, buffer, requested, stored }

/-! ### The image in the memory of the guest -/

/-- Every byte of the image is where the guest starts, and the read stayed in the mapping. -/
structure Loaded.Holds (loaded : Loaded) (answers : Answers) (file : List Byte) : Prop where
  image : ∀ k (inside : k < file.length),
    loaded.byteAt (0x7c00 + BitVec.ofNat 64 k) = some (file.get ⟨k, inside⟩)
  inside : ∀ place, Within place loaded.buffer loaded.stored →
    Within place answers.mem1.address mem1Size

/-- Either the program ends with a complaint, or the guest is run with its image. -/
def Booted (answers : Answers) (file : List Byte) (memory : Memory) : Prop :=
  ∀ loaded, loadAndSetUp answers file memory = .ok loaded → loaded.Holds answers file

/-- No system call fails in a way that `main` complains of. -/
structure Answers.Succeed (answers : Answers) : Prop where
  opened : answers.opened ≠ -1
  fstat : answers.fstat = 0
  createVm : answers.createVm ≠ -1
  mem1 : answers.mem1.address ≠ 0
  mapped : answers.mem1.room ≠ 0
  region1 : answers.region1 ≠ -1
  mem2 : answers.mem2 ≠ 0
  region2 : answers.region2 ≠ -1
  createVcpu : answers.createVcpu ≠ -1
  mmapSize : ¬BitVec.ofInt 64 answers.vcpuMmapSize < answers.kvmRunSize
  setIoeventfd : ¬answers.setIoeventfd < 0
  run : answers.run ≠ 0
  getSregs : answers.getSregs ≠ -1
  setSregs : answers.setSregs ≠ -1
  setRegs : answers.setRegs ≠ -1

section Booted

variable {answers : Answers} {file : List Byte} {memory : Memory} {loaded : Loaded}

/-- What the guest is run with, if it is. -/
def loadedWith (answers : Answers) (file : List Byte) (memory : Memory) : Loaded :=
  let buffer := answers.mem1.address + BitVec.ofNat 64 loadOffset
  let stored := transferred answers file (file.length + 1)
  { memory := memory.store buffer (file.take stored)
    regions := [region1 answers, region2 answers]
    buffer
    requested := file.length + 1
    stored }

theorem of_check {failed : Prop} [Decidable failed] {complaint : Exit} {rest : Except Exit Loaded}
    (ok : (if failed then .error complaint else rest) = .ok loaded) :
    ¬failed ∧ rest = .ok loaded := by
  split at ok
  case isTrue => cases ok
  case isFalse passed => exact ⟨passed, ok⟩

theorem transferred_le (answers : Answers) (file : List Byte) (count : ℕ) :
    transferred answers file count ≤ file.length ∧
      transferred answers file count ≤ maxRwCount := by
  rw [transferred]
  omega

/-- The result of the read fits the variable it is assigned to. -/
theorem toInt_readResult (answers : Answers) (file : List Byte) (count : ℕ) :
    (BitVec.ofInt 32 (readResult answers file count)).toInt = readResult answers file count := by
  have most := (transferred_le answers file count).2
  rw [maxRwCount] at most
  rw [BitVec.toInt_ofInt, readResult]
  split <;> apply Int.bmod_eq_of_le <;> omega

theorem of_ok (ok : loadAndSetUp answers file memory = .ok loaded) :
    (answers.mem1.room ≠ 0 → answers.Succeed) ∧
      ¬readResult answers file (file.length + 1) < 0 ∧
      loaded = loadedWith answers file memory := by
  rw [loadAndSetUp] at ok
  rcases of_check ok with ⟨opened, ok⟩
  rcases of_check ok with ⟨fstat, ok⟩
  rcases of_check ok with ⟨createVm, ok⟩
  rcases of_check ok with ⟨mem1, ok⟩
  rcases of_check ok with ⟨read, ok⟩
  rcases of_check ok with ⟨region1, ok⟩
  rw [setUp] at ok
  rcases of_check ok with ⟨mem2, ok⟩
  rcases of_check ok with ⟨region2, ok⟩
  rcases of_check ok with ⟨createVcpu, ok⟩
  rcases of_check ok with ⟨_, ok⟩
  rcases of_check ok with ⟨mmapSize, ok⟩
  rcases of_check ok with ⟨setIoeventfd, ok⟩
  rcases of_check ok with ⟨run, ok⟩
  rcases of_check ok with ⟨getSregs, ok⟩
  rcases of_check ok with ⟨setSregs, ok⟩
  rcases of_check ok with ⟨setRegs, ok⟩
  rw [toInt_readResult] at read
  refine ⟨?_, read, (Except.ok.inj ok).symm⟩
  intro mapped
  exact ⟨opened, not_not.mp fstat, createVm, mem1, mapped, region1, mem2, region2, createVcpu,
    mmapSize, setIoeventfd, run, getSregs, setSregs, setRegs⟩

theorem not_readResult_neg (mapped : answers.mem1.room ≠ 0) (count : ℕ) :
    ¬readResult answers file count < 0 := by
  rw [readResult, transferred]
  split <;> omega

theorem ok_of_succeed (succeed : answers.Succeed) (file : List Byte) (memory : Memory) :
    loadAndSetUp answers file memory = .ok (loadedWith answers file memory) := by
  have unsigned : ¬BitVec.ofInt 64 answers.vcpuMmapSize < 0 := BitVec.not_lt_zero
  have read := @not_readResult_neg answers file succeed.mapped (file.length + 1)
  rw [← toInt_readResult] at read
  rw [loadAndSetUp, if_neg succeed.opened, if_neg (not_not_intro succeed.fstat),
    if_neg succeed.createVm, if_neg succeed.mem1]
  simp only
  rw [if_neg read, if_neg succeed.region1, setUp, if_neg succeed.mem2, if_neg succeed.region2,
    if_neg succeed.createVcpu]
  simp only
  rw [if_neg unsigned, if_neg succeed.mmapSize, if_neg succeed.setIoeventfd,
    if_neg succeed.run, if_neg succeed.getSregs, if_neg succeed.setSregs, if_neg succeed.setRegs]
  rfl

/-- A whole image that the mapping has room for is read whole. -/
theorem transferred_eq (short : file.length ≤ mem1Size - loadOffset)
    (read : ¬readResult answers file (file.length + 1) < 0) :
    transferred answers file (file.length + 1) = file.length := by
  have documented := answers.mem1.documented
  simp only [mem1Size, loadOffset] at short documented
  rw [readResult] at read
  rw [transferred, maxRwCount] at read ⊢
  split at read <;> omega

theorem toNat_image {k : ℕ} (inside : k < mem1Size - loadOffset) :
    (0x7c00 + BitVec.ofNat 64 k - 0x7000 : Address).toNat = loadOffset + k := by
  simp only [mem1Size, loadOffset] at inside ⊢
  bv_omega

/-- The first slot shows the guest the mapping from its beginning. -/
theorem byteAt_loadedWith {k : ℕ} (inside : k < mem1Size - loadOffset) :
    (loadedWith answers file memory).byteAt (0x7c00 + BitVec.ofNat 64 k) =
      some ((file.take (transferred answers file (file.length + 1))).getD k
        (memory (answers.mem1.address + (0x7c00 + BitVec.ofNat 64 k - 0x7000)))) := by
  have offset := toNat_image inside
  have inSlot : Within (0x7c00 + BitVec.ofNat 64 k) (region1 answers).guestPhysAddr
      (region1 answers).memorySize := by
    rw [Within]
    change (0x7c00 + BitVec.ofNat 64 k - 0x7000 : Address).toNat < mem1Size
    simp only [mem1Size, loadOffset] at inside offset ⊢
    omega
  have index : (answers.mem1.address + (0x7c00 + BitVec.ofNat 64 k - 0x7000) -
      (answers.mem1.address + BitVec.ofNat 64 loadOffset)).toNat = k := by
    simp only [mem1Size, loadOffset] at inside ⊢
    bv_omega
  have most := (transferred_le answers file (file.length + 1)).2
  have small : (file.take (transferred answers file (file.length + 1))).length ≤ 2 ^ 64 := by
    rw [List.length_take]
    rw [maxRwCount] at most
    omega
  rw [Loaded.byteAt, loadedWith]
  simp only
  rw [List.find?_cons_of_pos (by simpa using inSlot), Option.map_some]
  change some (memory.store _ _ (answers.mem1.address + _)) = _
  have base : (region1 answers).guestPhysAddr = 0x7000 := rfl
  rw [Memory.store_apply memory _ small, base, index]

/-- The guest has memory at the addresses of the two slots. -/
theorem isSome_byteAt_iff (address : Address) :
    ((loadedWith answers file memory).byteAt address).isSome ↔ inSlots address := by
  have slots : inSlots address = true ↔
      Within address 0x7000 mem1Size ∨ Within address 0x100000 mem2Size := by
    simp only [inSlots, Within, mem1Size, mem2Size, decide_eq_true_eq]
    bv_omega
  rw [slots, Loaded.byteAt, Option.isSome_map, List.find?_isSome]
  simp [loadedWith, region1, region2]

/-- Behind the first slot the guest has no memory for an image. -/
theorem byteAt_behind : (loadedWith answers file memory).byteAt
    (0x7c00 + BitVec.ofNat 64 (mem1Size - loadOffset)) = none := by
  rw [← Option.not_isSome_iff_eq_none, isSome_byteAt_iff, inSlots, decide_eq_true_eq]
  simp only [mem1Size, loadOffset]
  bv_omega

theorem holds_of_short (short : file.length ≤ mem1Size - loadOffset)
    (read : ¬readResult answers file (file.length + 1) < 0) :
    (loadedWith answers file memory).Holds answers file := by
  have whole := transferred_eq short read
  refine ⟨?_, ?_⟩
  · intro k inside
    rw [byteAt_loadedWith (Nat.lt_of_lt_of_le inside short), whole, List.take_length,
      List.getD_eq_getElem _ _ inside]
    rfl
  · intro place stored
    apply stored.of_add
    · change loadOffset + transferred answers file (file.length + 1) ≤ mem1Size
      rw [whole]
      simp only [mem1Size, loadOffset] at short ⊢
      omega
    · decide

theorem not_holds_of_long (long : mem1Size - loadOffset < file.length) :
    ¬(loadedWith answers file memory).Holds answers file := by
  intro holds
  have byte := holds.image _ long
  rw [byteAt_behind] at byte
  cases byte

/-- The bytes that the read asks for are one more than those of the file. -/
theorem requested_inside_iff :
    (∀ place, Within place (loadedWith answers file memory).buffer
        (loadedWith answers file memory).requested → Within place answers.mem1.address mem1Size) ↔
      file.length < mem1Size - loadOffset := by
  change (∀ place, Within place (answers.mem1.address + BitVec.ofNat 64 loadOffset)
    (file.length + 1) → _) ↔ _
  constructor
  · intro inside
    by_contra long
    have asked := inside (answers.mem1.address + BitVec.ofNat 64 mem1Size) (by
      simp only [Within, mem1Size, loadOffset] at long ⊢
      bv_omega)
    simp only [Within, mem1Size] at asked
    bv_omega
  · intro short place asked
    simp only [mem1Size, loadOffset] at short asked ⊢
    exact asked.of_add (by omega) (by decide)

/--
For every image and all results of the system calls: the program ends with a complaint or the guest
finds the whole image, with nothing written outside of the mapping, if and only if a call fails or
the image has at most 0x7f400 bytes. The buffer that the read is given, of one byte more than the
image, is inside of the mapping if and only if the image is shorter than that.
-/
theorem booted_iff (answers : Answers) (file : List Byte) (memory : Memory) :
    (Booted answers file memory ↔ ¬answers.Succeed ∨ file.length ≤ 0x7f400) ∧
      ∀ loaded, loadAndSetUp answers file memory = .ok loaded →
        ((∀ place, Within place loaded.buffer loaded.requested →
          Within place answers.mem1.address mem1Size) ↔ file.length < 0x7f400) := by
  refine ⟨⟨?_, ?_⟩, ?_⟩
  · intro booted
    rw [or_iff_not_imp_left, not_not]
    intro succeed
    by_contra long
    exact not_holds_of_long (Nat.not_le.mp long) (booted _ (ok_of_succeed succeed file memory))
  · intro fine loaded ok
    rcases of_ok ok with ⟨succeed, read, rfl⟩
    apply holds_of_short ?_ read
    rcases fine with failed | short
    · -- the one call whose failure is not noticed is the first `mmap`, and then by an empty image
      have unmapped : answers.mem1.room = 0 := by
        by_contra mapped
        exact failed (succeed mapped)
      rw [readResult, transferred, unmapped, maxRwCount] at read
      split at read <;> simp only [mem1Size, loadOffset] <;> omega
    · exact short
  · intro loaded ok
    rcases of_ok ok with ⟨_, _, rfl⟩
    exact requested_inside_iff

/-- Every call succeeds; what it returns is of no further use but for the two mappings. -/
def everyCallSucceeds : Answers where
  opened := 6
  fstat := 0
  createVm := 7
  mem1 := ⟨0x7f0000000000, 0x7f400, Or.inr (by decide)⟩
  region1 := 0
  mem2 := 0x7e0000000000
  region2 := 0
  createVcpu := 8
  vcpuMmapSize := 0x3000
  kvmRunSize := 0x930
  setIoeventfd := 0
  run := 0x7d0000000000
  getSregs := 0
  setSregs := 0
  setRegs := 0

theorem succeed_everyCallSucceeds : everyCallSucceeds.Succeed := by
  constructor <;> decide

theorem booted_bootSector : Booted everyCallSucceeds (List.replicate 512 0x90) (fun _ => 0) ∧
    ∃ loaded, loadAndSetUp everyCallSucceeds (List.replicate 512 0x90) (fun _ => 0) = .ok loaded ∧
      ∀ place, Within place loaded.buffer loaded.requested →
        Within place 0x7f0000000000 mem1Size := by
  have length : (List.replicate 512 (0x90 : Byte)).length = 512 := List.length_replicate
  have ok := ok_of_succeed succeed_everyCallSucceeds (List.replicate 512 0x90) fun _ => 0
  have loads := booted_iff everyCallSucceeds (List.replicate 512 0x90) fun _ => 0
  rw [length] at loads
  exact ⟨loads.1.mpr (Or.inr (by decide)), _, ok, (loads.2 _ ok).mpr (by decide)⟩

/-- An image of one byte more than there is room for. -/
theorem not_booted :
    ¬∀ (answers : Answers) (file : List Byte) (memory : Memory), Booted answers file memory := by
  intro claimed
  have booted := claimed everyCallSucceeds (List.replicate 0x7f401 0) (fun _ => 0) _
    (ok_of_succeed succeed_everyCallSucceeds _ _)
  apply not_holds_of_long ?_ booted
  rw [List.length_replicate]
  decide

end Booted

end VirtLearn.Kvm
