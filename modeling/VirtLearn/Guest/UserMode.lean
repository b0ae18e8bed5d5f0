import VirtLearn.Guest.PageTables
import VirtLearn.Kvm.Mmio
import VirtLearn.Machine.AddressSpace

/-!
# Programs in user mode

`init_paging` gives user mode the pages of the image, four pages of stacks, the video pages and the
page of the doorbell. The monitor puts memory behind the first two only. Every present entry may be
written through, and none of the tables is in reach of user mode. So a program in user mode has a
flat memory of its own, whatever it does, and the memory of the kernel stays as it is. Only in the
entries of the tables the processor sets the bits for accessed and dirty, which `init_paging` leaves
clear.
-/

namespace VirtLearn.Guest

open Assembly Register Paging Kvm

/-- The addresses behind which user mode has memory: the image and the stacks. -/
def userMemory (address : Address) : Bool :=
  decide (0x9000 ≤ address.toNat ∧ address.toNat < 0x1a000 ∨
    0x20000 ≤ address.toNat ∧ address.toNat < 0x21000 ∨
    0x7fffffe00000 ≤ address.toNat ∧ address.toNat < 0x7fffffe04000)

/-- The addresses behind which user mode has a device: video memory and the doorbell. -/
def userDevices (address : Address) : Bool :=
  decide (0xb8000 ≤ address.toNat ∧ address.toNat < 0xba000 ∨
    0x8000000 ≤ address.toNat ∧ address.toNat < 0x8200000)

/-- What a program in user mode is to find: a flat memory that starts with some contents. -/
def userProgram : Memory → Service Memory (Access × Walks) Answer :=
  flat (fun address => userMemory address || userDevices address) userMemory

/-- Only the stacks are not mapped to themselves. -/
def userSpace (address : Address) : Option Address :=
  if 0x7fffffe00000 ≤ address.toNat ∧ address.toNat < 0x7fffffe04000 then
    some (address - 0x7fffffe00000 + 0x414000)
  else own (fun address => userMemory address || userDevices address) address

/-- The byte is in memory that is not for user mode. -/
def InKernelMemory (place : Address) : Prop :=
  ∃ range ∈ kernelMemory, range.1 ≤ place.toNat ∧ place.toNat < range.1 + range.2

/-- The byte is as it was, up to the bits that the processor sets in the entries of the tables. -/
def AsKept (place : Address) (now was : Byte) : Prop :=
  if InTables place.toNat ∧ place.toNat % 8 = 0 then now ||| markBits = was ||| markBits
  else now = was

/-- What is to be kept of the memory of the kernel. -/
def KernelByte (place : Address) (now was : Byte) : Prop :=
  InKernelMemory place → AsKept place now was

theorem AsKept.refl (place : Address) (byte : Byte) : AsKept place byte byte := by
  rw [AsKept]
  split <;> rfl

theorem AsKept.trans {place : Address} {first second third : Byte}
    (early : AsKept place first second) (late : AsKept place second third) :
    AsKept place first third := by
  rw [AsKept] at *
  split <;> rename_i entry
  · rw [if_pos entry] at early late
    exact early.trans late
  · rw [if_neg entry] at early late
    exact early.trans late

section

variable {memory later : Memory} {address place : Address}

theorem userSpace_eq_some_iff :
    userSpace address = some place ↔
      ∃ window ∈ windows, window.user = true ∧ window.virtual ≤ address.toNat ∧
        address.toNat < window.virtual + window.size ∧
        place.toNat = window.physical + (address.toNat - window.virtual) := by
  simp only [windows, List.mem_cons, List.not_mem_nil, or_false, exists_eq_or_imp, exists_eq_left,
    Bool.false_eq_true, false_and, false_or, true_and]
  rw [userSpace, own]
  simp only [userMemory, userDevices, Bool.or_eq_true, decide_eq_true_eq]
  split
  case isTrue stack =>
    rw [Option.some.injEq]
    constructor
    · rintro rfl
      bv_omega
    · intro found
      bv_omega
  case isFalse other =>
    split
    case isTrue mapped =>
      rw [Option.some.injEq]
      constructor
      · rintro rfl
        omega
      · intro found
        bv_omega
    case isFalse unmapped =>
      constructor
      · intro found
        cases found
      · intro found
        omega

theorem windows_physical :
    ∀ window ∈ windows, window.physical + window.size ≤ 2 ^ 32 := by
  decide

theorem canonical_of_window {window : Paging.Mapping} (mem : window ∈ windows)
    (above : window.virtual ≤ address.toNat)
    (below : address.toNat < window.virtual + window.size) : Canonical address := by
  rcases (windows_spec window mem).2 with low | high
  · left
    omega
  · right
    omega

/-- User mode gets to the windows that are for it, and nowhere else. -/
theorem reach_pageTables (memory : Memory) :
    reach (pageTables memory).entryAt 0x200000 = userSpace := by
  funext address
  apply Option.ext
  intro place
  rw [userSpace_eq_some_iff, reach]
  split
  case isTrue canonical =>
    rw [Option.bind_eq_some_iff]
    simp only [walk_pageTables memory canonical, Mapping.Maps]
    constructor
    · rintro ⟨_, ⟨window, mem, above, below, rfl⟩, led⟩
      split at led
      case isTrue user =>
        have bounded := windows_physical window mem
        refine ⟨window, mem, user, above, below, ?_⟩
        rw [← Option.some.inj led, BitVec.toNat_ofNat]
        exact Nat.mod_eq_of_lt (by simp only; omega)
      case isFalse => cases led
    · rintro ⟨window, mem, user, above, below, led⟩
      refine ⟨_, ⟨window, mem, above, below, rfl⟩, ?_⟩
      rw [if_pos user, ← led]
      simp
  case isFalse notCanonical =>
    constructor
    · intro found
      cases found
    · rintro ⟨window, mem, _, above, below, _⟩
      exact absurd (canonical_of_window mem above below) notCanonical

/-- What is present in the tables may be written through. -/
theorem stores_writable :
    ∀ store ∈ pageTableStores, store.1.getLsbD 0 = true → store.1.getLsbD 1 = true := by
  have all : pageTableStores.all fun store =>
      store.1.getLsbD 0 = true → store.1.getLsbD 1 = true := by decide +kernel
  simpa only [List.all_eq_true, decide_eq_true_eq] using all

theorem read_tables (memory : Memory) {table index : ℕ} (known : table ∈ pageTablePages)
    (below : index < 512) :
    ∃ half, (half = 0 ∨ ∃ store ∈ pageTableStores, store.1 = half) ∧
      (pageTables memory).read 64 (BitVec.ofNat 64 (table + 8 * index)) = half.setWidth 64 := by
  rcases pageTablePages_spec table known with ⟨page, inTables⟩
  have address : (BitVec.ofNat 64 (table + 8 * index)).toNat = table + 8 * index := by
    simp only [InTables] at inTables
    rw [BitVec.toNat_ofNat]
    omega
  have inside : InTables (BitVec.ofNat 64 (table + 8 * index)).toNat := by
    rw [address]
    simp only [InTables] at inTables ⊢
    omega
  refine ⟨_, ?_, read_entry_pageTables memory (by omega) inside⟩
  cases last : lastWrite (halfWrite (BitVec.ofNat 64 (table + 8 * index))) pageTableStores with
  | none => exact Or.inl rfl
  | some half =>
      rcases (lastWrite_eq_some_iff _ half).mp last with ⟨store, mem, -, stored⟩
      exact Or.inr ⟨store, mem, stored⟩

theorem writableAt_pageTables (memory : Memory) {table index : ℕ} (known : table ∈ pageTablePages)
    (below : index < 512) :
    (pageTables memory).writableAt table index = (pageTables memory).entryAt table index := by
  rcases read_tables memory known below with ⟨half, origin, same⟩
  rw [Memory.writableAt, Memory.entryAt, same, PageEntry.ofBits]
  split
  case isFalse => rfl
  case isTrue present =>
    have writable : (half.setWidth 64).getLsbD 1 = true := by
      rcases origin with rfl | ⟨store, mem, rfl⟩
      · cases present
      · simp only [BitVec.getLsbD_setWidth, Nat.reduceLT, decide_true, Bool.true_and] at present ⊢
        exact stores_writable store mem present
    simp only [writable, Bool.and_true, Option.map_some]

/-! ### Memory with these tables -/

/-- The tables are as `init_paging` left them, but for what the processor marks. -/
def SameTables (before later : Memory) : Prop :=
  ∀ place : Address, InTables place.toNat → AsKept place (later place) (before place)

theorem address_entry {table index : ℕ} (known : table ∈ pageTablePages) (below : index < 512) :
    (BitVec.ofNat 64 (table + 8 * index)).toNat % 8 = 0 ∧
      ∀ place : Address, Within place (BitVec.ofNat 64 (table + 8 * index)) 8 →
        InTables place.toNat := by
  rcases pageTablePages_spec table known with ⟨page, inTables⟩
  simp only [InTables] at inTables
  constructor
  · rw [BitVec.toNat_ofNat]
    omega
  · intro place inEntry
    simp only [InTables, Within] at inEntry ⊢
    bv_omega

/-- The entries say the same. -/
theorem read_same (same : SameTables memory later) {table index : ℕ}
    (known : table ∈ pageTablePages) (below : index < 512) :
    later.read 64 (BitVec.ofNat 64 (table + 8 * index)) ||| markBits.setWidth 64 =
      memory.read 64 (BitVec.ofNat 64 (table + 8 * index)) ||| markBits.setWidth 64 := by
  rcases address_entry known below with ⟨aligned, inside⟩
  generalize BitVec.ofNat 64 (table + 8 * index) = base at aligned inside
  apply read_or_marks
  · have inTables := inside base (within_self base (by decide))
    have alike := same base inTables
    rwa [AsKept, if_pos ⟨inTables, aligned⟩] at alike
  · intro place behindFirst
    have inTables := inside place (behindFirst.succ (by decide)).1
    have alike := same place inTables
    rwa [AsKept, if_neg] at alike
    rintro ⟨-, alignedToo⟩
    simp only [Within] at behindFirst
    bv_omega

theorem entryAt_same (same : SameTables memory later) {table index : ℕ}
    (known : table ∈ pageTablePages) (below : index < 512) :
    later.entryAt table index = memory.entryAt table index ∧
      later.writableAt table index = memory.writableAt table index := by
  have read := read_same same known below
  have decoded : PageEntry.ofBits (later.read 64 (BitVec.ofNat 64 (table + 8 * index))) =
      PageEntry.ofBits (memory.read 64 (BitVec.ofNat 64 (table + 8 * index))) := by
    rw [← ofBits_or_marks, read, ofBits_or_marks]
  have writable : (later.read 64 (BitVec.ofNat 64 (table + 8 * index))).getLsbD 1 =
      (memory.read 64 (BitVec.ofNat 64 (table + 8 * index))).getLsbD 1 := by
    have bit := congrArg (BitVec.getLsbD · 1) read
    have unset : (markBits.setWidth 64).getLsbD 1 = false := by decide
    simpa only [BitVec.getLsbD_or, unset, Bool.or_false] using bit
  exact ⟨decoded, by rw [Memory.writableAt, Memory.writableAt, decoded, writable]⟩

/-- Walks are the same over tables that are the same. -/
theorem reach_eq_of_same {entryAt other : ℕ → ℕ → Option PageEntry}
    (described : Paging.Describes other pageTablePages pageTableListing)
    (same : ∀ table ∈ pageTablePages, ∀ index < 512, entryAt table index = other table index) :
    reach entryAt 0x200000 = reach other 0x200000 := by
  have describedToo : Paging.Describes entryAt pageTablePages pageTableListing := by
    refine ⟨?_, described.index_lt⟩
    intro table known index below entry
    rw [same table known index below]
    exact described.entry table known index below entry
  have walks : ∀ address, walk entryAt 0x200000 address = walk other 0x200000 address := by
    intro address
    apply Option.ext
    intro translation
    rw [walk_eq_some_iff describedToo covers_pageTables,
      walk_eq_some_iff described covers_pageTables]
  funext address
  rw [reach, reach, walks]

theorem reach_of_same (same : SameTables (pageTables memory) later) :
    reach later.entryAt 0x200000 = userSpace ∧ reach later.writableAt 0x200000 = userSpace := by
  have described := describes_pageTables memory
  constructor
  · rw [← reach_pageTables memory]
    apply reach_eq_of_same described
    intro table known index below
    exact (entryAt_same same known below).1
  · rw [← reach_pageTables memory]
    apply reach_eq_of_same described
    intro table known index below
    rw [← writableAt_pageTables memory known below]
    exact (entryAt_same same known below).2

/-- Walks come to entries of the tables only. -/
theorem entry_of_walked (same : SameTables (pageTables memory) later) {virtual : ℕ}
    (walked : place ∈ walkPlaces later.entryAt virtual 4 0x200000) :
    InTables place.toNat ∧ place.toNat % 8 = 0 := by
  have described := describes_pageTables memory
  have describedToo : Paging.Describes later.entryAt pageTablePages pageTableListing := by
    refine ⟨?_, described.index_lt⟩
    intro table known index below entry
    rw [(entryAt_same same known below).1]
    exact described.entry table known index below entry
  rcases mem_walkPlaces describedToo covers_pageTables walked with ⟨table, known, index, below, rfl⟩
  rcases address_entry known below with ⟨aligned, inside⟩
  exact ⟨inside _ (within_self _ (by decide)), aligned⟩

/-- The processor marks entries of the tables, and nothing else. -/
theorem asKept_markWalks (same : SameTables (pageTables memory) later) (walks : Walks)
    (place : Address) : AsKept place (later.markWalks 0x200000 walks place) (later place) := by
  rw [AsKept]
  split
  case isTrue => exact markWalks_or _ walks
  case isFalse noEntry =>
    apply markWalks_of_not_walked
    intro virtual walked
    exact noEntry (entry_of_walked same walked)

theorem inKernelMemory_of_inTables (inTables : InTables place.toNat) : InKernelMemory place := by
  simp only [InKernelMemory, kernelMemory, List.mem_cons, List.not_mem_nil, or_false,
    exists_eq_or_imp, exists_eq_left]
  simp only [InTables] at inTables
  omega

theorem not_inKernelMemory (found : userSpace address = some place) : ¬InKernelMemory place := by
  rintro ⟨range, listed, above, below⟩
  rcases userSpace_eq_some_iff.mp found with ⟨window, mem, user, inWindow, inWindowToo, led⟩
  have apart := windows_isolate window mem user range listed
  omega

/-- User mode gets to no table, and to no place in two ways. -/
theorem sealed_userSpace (same : SameTables (pageTables memory) later) :
    Sealed (fun memory => reach memory.entryAt 0x200000)
      (fun memory => reach memory.writableAt 0x200000) (Memory.markWalks 0x200000) userSpace
      KernelByte later := by
  have stillSame : ∀ now : Memory, (∀ place, KernelByte place (now place) (later place)) →
      SameTables (pageTables memory) now := by
    intro now kept place inTables
    exact (kept place (inKernelMemory_of_inTables inTables)).trans (same place inTables)
  exact
    { refl := fun place byte _ => AsKept.refl place byte
      stable := fun now kept => reach_of_same (stillSame now kept)
      touched := by
        intro now kept walks
        have marks := asKept_markWalks (stillSame now kept) walks
        refine ⟨fun place inKernel => (marks place).trans (kept place inKernel), ?_⟩
        intro address place found
        have alike := marks place
        rwa [AsKept, if_neg] at alike
        rintro ⟨inTables, -⟩
        exact not_inKernelMemory found (inKernelMemory_of_inTables inTables)
      apart := fun address place found now was inKernel =>
        absurd inKernel (not_inKernelMemory found)
      injective := by
        intro address other place found foundOther
        rw [userSpace_eq_some_iff] at found foundOther
        simp only [windows, List.mem_cons, List.not_mem_nil, or_false, exists_eq_or_imp,
          exists_eq_left, Bool.false_eq_true, false_and, false_or, true_and] at found foundOther
        apply BitVec.eq_of_toNat_eq
        omega }

/-- The memory slots of the monitor are behind the image and the stacks, and behind no device. -/
theorem any_inSlots : (fun address => (userSpace address).any inSlots) = userMemory := by
  funext address
  rw [Bool.eq_iff_iff, Option.any_eq_true]
  constructor
  · rintro ⟨place, found, backed⟩
    rw [userSpace_eq_some_iff] at found
    simp only [windows, List.mem_cons, List.not_mem_nil, or_false, exists_eq_or_imp,
      exists_eq_left, Bool.false_eq_true, false_and, false_or, true_and] at found
    simp only [inSlots, userMemory, decide_eq_true_eq] at backed ⊢
    omega
  · intro mapped
    simp only [userMemory, decide_eq_true_eq] at mapped
    have found : ∃ place, userSpace address = some place ∧
        (place.toNat = address.toNat ∧ address.toNat < 0x21000 ∨
          place.toNat = 0x414000 + (address.toNat - 0x7fffffe00000) ∧
            0x7fffffe00000 ≤ address.toNat) := by
      simp only [userSpace, own]
      split
      case isTrue stack => exact ⟨_, rfl, Or.inr ⟨by bv_omega, stack.1⟩⟩
      case isFalse other =>
        have image : userMemory address = true := by
          simp only [userMemory, decide_eq_true_eq]
          exact mapped
        exact ⟨address, by simp [image], Or.inl ⟨rfl, by omega⟩⟩
    rcases found with ⟨place, found, led⟩
    refine ⟨place, found, ?_⟩
    simp only [inSlots, decide_eq_true_eq]
    omega

theorem isSome_userSpace (address : Address) :
    (userMemory address || userDevices address) = (userSpace address).isSome := by
  rw [userSpace, own]
  split
  case isTrue stack => simp [userMemory, stack]
  case isFalse =>
    cases (userMemory address || userDevices address) <;> rfl

/--
Whatever the kernel does to memory after `init_paging`, as long as it leaves the tables alone: each
of a sequence of accesses of a program in user mode is answered as if the program had a flat memory
of its own, and no byte of the kernel's memory changes, except that the processor marks the entries
of the tables as accessed and dirty.
-/
theorem user_sees_flat_memory {machine : Machine} {msrs : BitVec 32 → BitVec 64} {fuel : ℕ}
    (bsp : (msrs ia32ApicBase).getLsbD 8 = true) (backed : Backed machine 0x200000 0xf000)
    (backedAbove : Backed machine 0x300000 0x5000) (enough : 32 < fuel) :
    wp (initPaging msrs fuel)
      (fun _ after => ∀ later, SameTables after.memory later → ∀ accesses,
        ∃ last final answers,
          (userMode inSlots 0x200000 later).run accesses = some (last, answers) ∧
          (userProgram (seen userSpace later)).run accesses = some (final, answers) ∧
          ∀ place, InKernelMemory place → AsKept place (last place) (later place))
      machine := by
  apply (wp_initPaging bsp backed backedAbove enough).mono
  intro _ after only later same accesses
  rw [only.memory] at same
  have simulation := @simulation_flat _ _ _ inSlots _ _ _ _ (sealed_userSpace same)
    isSome_userSpace
  rw [any_inSlots] at simulation
  rcases simulation.run accesses with ⟨last, final, answers, ran, ranFlat, related⟩
  exact ⟨last, final, answers, ran, ranFlat, related.kept⟩

/-- A byte of the image is stored and loaded, and then a table is to be read. -/
theorem user_sees_flat_memory_filled : ∃ memory last,
    (userMode inSlots 0x200000 memory).run
        [(.store 0x9000 [7], { used := [0x9000], stored := [0x9000] }),
          (.load 0x9000 1, {}), (.load 0x200000 8, { used := [0x200000] })] =
      some (last, [.done [], .done [7], .fault]) := by
  rcases @user_sees_flat_memory filledMachine (fun _ => 0x100) 33 (by decide) (fun _ _ _ => rfl)
    (fun _ _ _ => rfl) (by decide) with ⟨_, after, _, flatly⟩
  rcases flatly after.memory (fun place _ => AsKept.refl place _) _ with
    ⟨last, final, answers, ran, ranFlat, _⟩
  refine ⟨after.memory, last, ran.trans ?_⟩
  cases ranFlat
  rfl

end

end VirtLearn.Guest
