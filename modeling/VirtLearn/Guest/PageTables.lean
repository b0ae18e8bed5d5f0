import VirtLearn.Guest.Clearing
import VirtLearn.LastWrite
import VirtLearn.Machine.Paging

/-!
# The page tables of the guest

`init_paging` clears the pages of the tables and stores the halves of their entries. No half is
stored twice and every upper half stored is 0, so that the entries are those that the constants of
the `movl` instructions spell. From their listing follow the windows that the tables map.
-/

namespace VirtLearn.Guest

open Assembly Register Paging

variable {machine : Machine} {memory : Memory} {stores : List (BitVec 32 × Address)}

def storeAll (memory : Memory) (stores : List (BitVec 32 × Address)) : Memory :=
  stores.foldl (fun memory store => memory.write store.2 store.1) memory

/-- Memory as `init_paging` leaves it. -/
def pageTables (memory : Memory) : Memory :=
  storeAll
    (((memory.clear 0x200000 (4096 * 15)).clear 0x201000 (4096 * 3)).clear 0x300000 (4096 * 5))
    pageTableStores

/-- The pages that `init_paging` clears. -/
def pageTablePages : List ℕ :=
  [0x200000, 0x201000, 0x202000, 0x203000, 0x204000, 0x205000, 0x206000, 0x207000, 0x208000,
    0x209000, 0x20a000, 0x20b000, 0x20c000, 0x20d000, 0x20e000, 0x300000, 0x301000, 0x302000,
    0x303000, 0x304000]

def InTables (place : ℕ) : Prop :=
  0x200000 ≤ place ∧ place < 0x200000 + 0xf000 ∨ 0x300000 ≤ place ∧ place < 0x300000 + 0x5000

instance (place : ℕ) : Decidable (InTables place) :=
  inferInstanceAs (Decidable (_ ∨ _))

theorem wp_movls (inRam : ∀ store ∈ stores, machine.ram store.2 = true)
    (post : Unit → Machine → Prop) :
    wp (movls stores) post machine ↔
      post () { machine with memory := storeAll machine.memory stores } := by
  induction stores generalizing machine with
  | nil => simp [movls, storeAll]
  | cons store rest ih =>
      have first : machine.ram store.2 = true := inRam store (by simp)
      have address : machine.effective store.2 none none = store.2 := by simp [Machine.effective]
      have stored : machine.poke store.2 store.1 =
          { machine with memory := machine.memory.write store.2 store.1 } := if_pos first
      simp only [movls, mov, Operand.symbol, wp_bind, wp_fetch_imm, wp_assign_mem, address, stored]
      exact ih fun later mem => inRam later (List.mem_cons_of_mem _ mem)

/-- A call of `clear_4k_pages` on the way of `init_paging`. -/
theorem wp_call_clear4kPages {before : Machine} {changed : List Register} {fuel : ℕ}
    (only : OnlyRegisters changed machine before) (listed : [rax, rsi, rdi] ⊆ changed)
    (start pages : ℕ) (backed : Backed machine start (4096 * pages))
    (fits : start + 4096 * pages < 2 ^ 32) (enough : 32 < fuel) (few : pages ≤ 32) :
    wp (call (clear4kPages fuel))
      (fun _ after =>
        OnlyRegisters changed (machine.cleared (BitVec.ofNat 64 start) (4096 * pages)) after)
      ((before.put rsi (BitVec.ofNat 32 start)).put rdi (BitVec.ofNat 32 pages)) := by
  generalize asked :
    (before.put rsi (BitVec.ofNat 32 start)).put rdi (BitVec.ofNat 32 pages) = ready
  have readyOnly : OnlyRegisters changed machine ready := by
    rw [← asked]
    exact (only.put (listed (by simp)) _).put (listed (by simp)) _
  have begins : (ready.get 32 rsi).toNat = start := by
    rw [← asked, Machine.get_put_of_ne (by decide), Machine.get_put_self (by decide),
      BitVec.toNat_ofNat, Nat.mod_eq_of_lt (by omega)]
  have counted : (ready.get 32 rdi).toNat = pages := by
    rw [← asked, Machine.get_put_self (by decide), BitVec.toNat_ofNat, Nat.mod_eq_of_lt (by omega)]
  have backedHere : Backed ready start (4096 * pages) := by
    intro place above below
    rw [readyOnly.ram]
    exact backed place above below
  have called : wp (call (clear4kPages fuel))
      (fun _ after => OnlyRegisters [rax, rsi, rdi]
        (ready.cleared (BitVec.ofNat 64 start) (4096 * pages)) after) ready := by
    refine wp_call_of_only (by rfl) ?_
    exact @wp_clear4kPages (ready.withStack _) _ _ _ begins counted backedHere (Nat.le_of_lt fits)
      enough (Nat.lt_of_le_of_lt few enough)
  apply called.mono
  intro _ after onlyThen
  exact (readyOnly.cleared _ _).trans (onlyThen.mono listed)

theorem stores_in_tables : ∀ store ∈ pageTableStores, InTables store.2.toNat := by
  have all : pageTableStores.all fun store => InTables store.2.toNat := by decide +kernel
  simpa only [List.all_eq_true, decide_eq_true_eq] using all

/-- On the bootstrap processor `init_paging` leaves its tables in memory. -/
theorem wp_initPaging {msrs : BitVec 32 → BitVec 64} {fuel : ℕ}
    (bsp : (msrs ia32ApicBase).getLsbD 8 = true) (backed : Backed machine 0x200000 0xf000)
    (backedAbove : Backed machine 0x300000 0x5000) (enough : 32 < fuel) :
    wp (initPaging msrs fuel)
      (fun _ after => OnlyRegisters [rax, rcx, rdx, rsi, rdi]
        { machine with memory := pageTables machine.memory } after)
      machine := by
  simp only [initPaging, mov, rdmsr, bt, wp_bind, wp_fetch_imm, wp_fetch_reg, wp_assign_reg, wp_get,
    wp_setFlags, wp_jnc]
  have msr : (machine.put rcx ia32ApicBase).get 32 rcx = ia32ApicBase := by simp
  rw [msr]
  generalize read : ((machine.put rcx ia32ApicBase).put rax ((msrs ia32ApicBase).setWidth 32)).put
    rdx ((msrs ia32ApicBase).extractLsb' 32 32) = ready
  have carry : (ready.get 32 rax).getLsbD 8 = true := by
    rw [← read]
    simpa using bsp
  have only : OnlyRegisters [rax, rcx, rdx, rsi, rdi] machine ready := by
    rw [← read]
    exact ((((OnlyRegisters.refl _ _).put (by simp) _).put (by simp) _).put (by simp) _)
  rw [carry, Machine.withFlags_cf, if_neg (by decide)]
  simp only [wp_bind, wp_fetch_imm, wp_assign_reg]
  -- the calls clear more and more of memory
  apply (wp_call_clear4kPages (only.withFlags _ _) (by simp) 0x200000 15 backed (by decide) enough
    (by decide)).mono
  intro _ first onlyFirst
  have backedAgain : Backed machine 0x201000 (4096 * 3) := backed.mono (by decide) (by decide)
  apply (wp_call_clear4kPages onlyFirst (by simp) 0x201000 3 backedAgain (by decide) enough
    (by decide)).mono
  intro _ second onlySecond
  apply (wp_call_clear4kPages onlySecond (by simp) 0x300000 5 backedAbove (by decide) enough
    (by decide)).mono
  intro _ third onlyThird
  have inRam : ∀ store ∈ pageTableStores, third.ram store.2 = true := by
    intro store mem
    have place : store.2 = BitVec.ofNat 64 store.2.toNat := by simp
    rw [onlyThird.ram, place]
    rcases stores_in_tables store mem with ⟨above, below⟩ | ⟨above, below⟩
    · exact backed _ above below
    · exact backedAbove _ above below
  rw [wp_movls inRam]
  have memory : storeAll third.memory pageTableStores = pageTables machine.memory :=
    congrArg (fun memory => storeAll memory pageTableStores) onlyThird.memory
  exact ⟨onlyThird.registers, onlyThird.stack, onlyThird.ram, memory, onlyThird.writes⟩

/-! ### Entries -/

/-- The command that a store is for one 32-bit half of an entry. -/
def halfWrite (place : Address) (store : BitVec 32 × Address) : Option (BitVec 32) :=
  if store.2 = place then some store.1 else none

theorem aligned_stores : ∀ store ∈ pageTableStores, 4 ∣ store.2.toNat := by
  have all : pageTableStores.all fun store => 4 ∣ store.2.toNat := by decide +kernel
  simpa only [List.all_eq_true, decide_eq_true_eq] using all

theorem read_storeAll {place : Address} (aligned : 4 ∣ place.toNat)
    (alignedStores : ∀ store ∈ stores, 4 ∣ store.2.toNat) :
    (storeAll memory stores).read 32 place =
      (lastWrite (halfWrite place) stores).getD (memory.read 32 place) := by
  refine (@observe_foldl _ _ _ (fun memory : Memory => memory.read 32 place) _ (halfWrite place)
    (fun _ => True) (fun store => 4 ∣ store.2.toNat) ?_ memory trivial stores alignedStores).2
  intro before store _ alignedStore
  refine ⟨trivial, ?_⟩
  by_cases here : store.2 = place
  · rw [halfWrite, if_pos here, ← here, Memory.read_write (by decide) (by decide)]
    rfl
  · have apart : Apart place (32 / 8) store.2 (32 / 8) :=
      apart_of_aligned aligned alignedStore (by decide) (Ne.symm here)
    rw [halfWrite, if_neg here, Memory.read_write_of_apart _ _ apart (by decide) (by decide)]
    rfl

/-- A half of an entry after the stores: the value stored there, or 0. -/
theorem read_pageTables (memory : Memory) {place : Address} (aligned : 4 ∣ place.toNat)
    (inside : InTables place.toNat) :
    (pageTables memory).read 32 place =
      (lastWrite (halfWrite place) pageTableStores).getD 0 := by
  rw [pageTables, read_storeAll aligned aligned_stores, Memory.read_of_zero (by decide)]
  intro byte inHalf
  have inByte : InTables byte.toNat := by
    simp only [InTables, Within] at inside inHalf ⊢
    bv_omega
  simp only [Memory.clear]
  split
  · rfl
  split
  · rfl
  split
  · rfl
  case isFalse aboveOutside _ belowOutside =>
    simp only [InTables, Within] at inByte aboveOutside belowOutside
    bv_omega

/-- The entries that the stores make in a table, with their indices. -/
def pageTableListing (table : ℕ) : List (ℕ × PageEntry) :=
  pageTableStores.filterMap fun (value, address) =>
    if address.toNat % 8 = 0 ∧ address.toNat / 4096 * 4096 = table then
      (PageEntry.ofBits (value.setWidth 64)).map fun entry => (address.toNat % 4096 / 8, entry)
    else none

theorem mem_pageTableListing {table index : ℕ} (page : table % 4096 = 0) (below : index < 512)
    (small : table < 2 ^ 32) (entry : PageEntry) :
    (index, entry) ∈ pageTableListing table ↔
      ∃ store ∈ pageTableStores, store.2 = BitVec.ofNat 64 (table + 8 * index) ∧
        PageEntry.ofBits (store.1.setWidth 64) = some entry := by
  have here_iff : ∀ address : Address,
      (address.toNat % 8 = 0 ∧ address.toNat / 4096 * 4096 = table) ∧
        address.toNat % 4096 / 8 = index ↔ address = BitVec.ofNat 64 (table + 8 * index) := by
    intro address
    rw [← BitVec.toNat_inj, BitVec.toNat_ofNat]
    omega
  simp only [pageTableListing, List.mem_filterMap]
  constructor
  · rintro ⟨store, mem, made⟩
    split at made
    case isTrue inTable =>
      rcases Option.map_eq_some_iff.mp made with ⟨found, decoded, same⟩
      cases same
      exact ⟨store, mem, (here_iff store.2).mp ⟨inTable, rfl⟩, decoded⟩
    case isFalse => cases made
  · rintro ⟨store, mem, here, decoded⟩
    rcases (here_iff store.2).mpr here with ⟨inTable, same⟩
    refine ⟨store, mem, ?_⟩
    rw [if_pos inTable, decoded, same]
    rfl

/-- No half of an entry is stored twice, and the upper halves stored are 0. -/
theorem nodup_stores : (pageTableStores.map Prod.snd).Nodup := by
  decide +kernel

theorem upper_stores : ∀ store ∈ pageTableStores, store.2.toNat % 8 = 4 → store.1 = 0 := by
  have all : pageTableStores.all fun store => store.2.toNat % 8 = 4 → store.1 = 0 := by
    decide +kernel
  simpa only [List.all_eq_true, decide_eq_true_eq] using all

theorem pageTablePages_spec :
    ∀ table ∈ pageTablePages, table % 4096 = 0 ∧ InTables table := by
  decide +kernel

theorem lastWrite_eq_some_iff (place : Address) (value : BitVec 32) :
    lastWrite (halfWrite place) pageTableStores = some value ↔
      ∃ store ∈ pageTableStores, store.2 = place ∧ store.1 = value :=
  lastWrite_eq_some_iff_of_nodup Prod.fst nodup_stores place value

theorem upper_eq_zero {place : Address} (upper : place.toNat % 8 = 4) :
    (lastWrite (halfWrite place) pageTableStores).getD 0 = 0 := by
  cases last : lastWrite (halfWrite place) pageTableStores with
  | none => rfl
  | some value =>
      rcases (lastWrite_eq_some_iff place value).mp last with ⟨store, mem, rfl, rfl⟩
      exact upper_stores store mem upper

/-- An entry after the stores: its lower half, or 0. -/
theorem read_entry_pageTables (memory : Memory) {place : Address} (aligned : 8 ∣ place.toNat)
    (inside : InTables place.toNat) :
    (pageTables memory).read 64 place =
      ((lastWrite (halfWrite place) pageTableStores).getD 0).setWidth 64 := by
  have address : (place + BitVec.ofNat 64 (32 / 8)).toNat = place.toNat + 4 := by
    rw [BitVec.toNat_add]
    simp only [InTables] at inside
    simp
    omega
  have insideUpper : InTables (place + BitVec.ofNat 64 (32 / 8)).toNat := by
    simp only [address, InTables] at inside ⊢
    omega
  have upper : (pageTables memory).read 32 (place + BitVec.ofNat 64 (32 / 8)) = 0 := by
    rw [read_pageTables memory (by omega) insideUpper, upper_eq_zero (by omega)]
  have halves : (pageTables memory).read (32 + 32) place =
      0#32 ++ (pageTables memory).read 32 place := by
    rw [Memory.read_append (by decide), upper]
    rfl
  rw [show 64 = 32 + 32 from rfl, halves, read_pageTables memory (by omega) inside]
  exact (BitVec.setWidth_eq_append (by decide)).symm

/-- A place holds a present entry if and only if the half stored there spells it. -/
theorem ofBits_eq_some_iff (place : Address) (entry : PageEntry) :
    PageEntry.ofBits (((lastWrite (halfWrite place) pageTableStores).getD 0).setWidth 64) =
        some entry ↔
      ∃ store ∈ pageTableStores, store.2 = place ∧
        PageEntry.ofBits (store.1.setWidth 64) = some entry := by
  cases last : lastWrite (halfWrite place) pageTableStores with
  | none =>
      constructor
      · intro present
        cases present
      · rintro ⟨store, mem, here, _⟩
        have unwritten := lastWrite_eq_none_iff.mp last store mem
        rw [halfWrite, if_pos here] at unwritten
        cases unwritten
  | some value =>
      rw [Option.getD_some]
      constructor
      · intro decoded
        rcases (lastWrite_eq_some_iff place value).mp last with ⟨store, mem, here, rfl⟩
        exact ⟨store, mem, here, decoded⟩
      · rintro ⟨store, mem, here, decoded⟩
        have stored := (lastWrite_eq_some_iff place store.1).mpr ⟨store, mem, here, rfl⟩
        rw [last] at stored
        cases stored
        exact decoded

theorem describes_pageTables (memory : Memory) :
    Describes (pageTables memory).entryAt pageTablePages pageTableListing where
  entry := by
    intro table known index below entry
    rcases pageTablePages_spec table known with ⟨page, inTables⟩
    have small : table < 2 ^ 32 := by
      simp only [InTables] at inTables
      omega
    rw [mem_pageTableListing page below small, Memory.entryAt]
    generalize placed : BitVec.ofNat 64 (table + 8 * index) = place
    have address : place.toNat = table + 8 * index := by
      rw [← placed, BitVec.toNat_ofNat]
      omega
    have inside : InTables place.toNat := by
      simp only [address, InTables] at inTables ⊢
      omega
    rw [read_entry_pageTables memory (by omega) inside, ofBits_eq_some_iff]
  index_lt := by
    intro table listed mem
    rcases List.mem_filterMap.mp mem with ⟨⟨value, address⟩, _, made⟩
    simp only at made
    split at made
    case isTrue inTable =>
      rcases Option.map_eq_some_iff.mp made with ⟨found, decoded, rfl⟩
      simp only
      omega
    case isFalse => cases made

theorem covers_pageTables : covers pageTablePages pageTableListing 4 0x200000 = true := by
  decide +kernel

/-! ### Windows -/

/-- The ranges of virtual addresses that the guest has. -/
def windows : List Mapping :=
  [
    ⟨0x9000, 0x11000, 0x9000, true⟩,
    ⟨0x20000, 0x1000, 0x20000, true⟩,
    ⟨0xb8000, 0x2000, 0xb8000, true⟩,
    ⟨0x200000, 0x200000, 0x200000, false⟩,
    ⟨0x8000000, 0x200000, 0x8000000, true⟩,
    ⟨0x800000, 0x200000, 0xfee00000, false⟩,
    ⟨0x7fffffe00000, 0x4000, 0x414000, true⟩,
    ⟨0xfffffff800000000, 0x2000, 0x410000, false⟩,
    ⟨0xfffffff810000000, 0x2000, 0x412000, false⟩,
    ⟨0xffffffffffe00000, 0x200000, 0xa00000, false⟩
  ]

/-- Part of a window: a range of the 48 bits of its addresses that a walk uses. -/
def PartOf (window : Mapping) (virtual size physical : ℕ) (user : Bool) : Prop :=
  window.virtual % span 4 ≤ virtual ∧ virtual + size ≤ window.virtual % span 4 + window.size ∧
    physical + window.virtual % span 4 = window.physical + virtual ∧ user = window.user

instance (window : Mapping) (virtual size physical : ℕ) (user : Bool) :
    Decidable (PartOf window virtual size physical user) :=
  inferInstanceAs (Decidable (_ ∧ _ ∧ _ ∧ _))

theorem partOf_windows :
    ∀ mapping ∈ mappings pageTableListing 0x200000, ∃ window ∈ windows,
      PartOf window mapping.virtual mapping.size mapping.physical mapping.user := by
  decide +kernel

def pageSize (window : Mapping) : ℕ :=
  if window.size < span 1 then span 0 else span 1

theorem windows_mapped :
    ∀ window ∈ windows, ∀ page < window.size / pageSize window,
      ∃ mapping ∈ mappings pageTableListing 0x200000,
        mapping.virtual ≤ window.virtual % span 4 + pageSize window * page ∧
        window.virtual % span 4 + pageSize window * (page + 1) ≤
          mapping.virtual + mapping.size ∧
        mapping.physical + window.virtual % span 4 = window.physical + mapping.virtual ∧
        mapping.user = window.user := by
  decide +kernel

theorem windows_spec :
    ∀ window ∈ windows, pageSize window ∣ window.size ∧
      (window.virtual + window.size ≤ 2 ^ 47 ∨
        2 ^ 64 - 2 ^ 47 ≤ window.virtual ∧ window.virtual + window.size ≤ 2 ^ 64) := by
  decide +kernel

/-- The 48 bits of a canonical address tell whether it is in a window, and where. -/
theorem in_window_iff {window : Mapping} (mem : window ∈ windows) {address : Address}
    (canonical : Canonical address) (offset : ℕ) :
    (address.toNat = window.virtual + offset ∧ offset < window.size) ↔
      address.toNat % span 4 = window.virtual % span 4 + offset ∧ offset < window.size := by
  have bound := address.isLt
  rcases windows_spec window mem with ⟨_, half⟩
  simp only [Canonical, span] at canonical ⊢
  omega

/-- The tables map the windows and nothing else. -/
theorem walk_pageTables (memory : Memory) {address : Address} (canonical : Canonical address)
    (translation : Translation) :
    walk (pageTables memory).entryAt 0x200000 address = some translation ↔
      ∃ window ∈ windows, window.Maps address.toNat translation := by
  rw [walk_eq_some_iff (describes_pageTables memory) covers_pageTables]
  constructor
  · rintro ⟨mapping, mem, above, below, rfl⟩
    rcases partOf_windows mapping mem with ⟨window, windowMem, begins, ends, same, user⟩
    have inWindow := (in_window_iff windowMem canonical
      (address.toNat % span 4 - window.virtual % span 4)).mpr ⟨by omega, by omega⟩
    refine ⟨window, windowMem, by omega, by omega, ?_⟩
    rw [user, Translation.mk.injEq]
    exact ⟨by omega, rfl⟩
  · rintro ⟨window, windowMem, above, below, rfl⟩
    have inWindow := (in_window_iff windowMem canonical
      (address.toNat - window.virtual)).mp ⟨by omega, by omega⟩
    rcases windows_spec window windowMem with ⟨whole, _⟩
    have pagePositive : 0 < pageSize window := by
      rw [pageSize]
      split <;> exact span_pos _
    have inPages : (address.toNat - window.virtual) / pageSize window <
        window.size / pageSize window :=
      Nat.div_lt_div_of_lt_of_dvd whole inWindow.2
    rcases windows_mapped window windowMem _ inPages with
      ⟨mapping, mem, begins, ends, same, user⟩
    have page := Nat.div_add_mod (address.toNat - window.virtual) (pageSize window)
    have inPage := Nat.mod_lt (address.toNat - window.virtual) pagePositive
    rw [Nat.mul_succ] at ends
    refine ⟨mapping, mem, by omega, by omega, ?_⟩
    rw [user, Translation.mk.injEq]
    exact ⟨by omega, rfl⟩

/-- Every canonical address outside one block of 2 MB leads where its window says, if it is in one,
and nowhere otherwise. -/
def TranslatesByWindows (memory : Memory) : Prop :=
  ∀ address, Canonical address →
    ¬(0x7fff00000000 ≤ address.toNat ∧ address.toNat < 0x7fff00000000 + 0x200000) →
      ∀ physical, (walk memory.entryAt 0x200000 address).map Translation.physical = some physical ↔
        ∃ window ∈ windows, window.virtual ≤ address.toNat ∧
          address.toNat < window.virtual + window.size ∧
          physical = window.physical + (address.toNat - window.virtual)

theorem wp_initPaging_translates {msrs : BitVec 32 → BitVec 64} {fuel : ℕ}
    (bsp : (msrs ia32ApicBase).getLsbD 8 = true) (backed : Backed machine 0x200000 0xf000)
    (backedAbove : Backed machine 0x300000 0x5000) (enough : 32 < fuel) :
    wp (initPaging msrs fuel) (fun _ after => TranslatesByWindows after.memory) machine := by
  apply (wp_initPaging bsp backed backedAbove enough).mono
  intro _ after only address canonical _ physical
  rw [only.memory, Option.map_eq_some_iff]
  constructor
  · rintro ⟨translation, found, rfl⟩
    rcases (walk_pageTables _ canonical translation).mp found with ⟨window, mem, above, below, rfl⟩
    exact ⟨window, mem, above, below, rfl⟩
  · rintro ⟨window, mem, above, below, rfl⟩
    exact ⟨_, (walk_pageTables _ canonical _).mpr ⟨window, mem, above, below, rfl⟩, rfl⟩

def filledMachine : Machine where
  registers := fun _ => 0
  ram := fun _ => true
  memory := fun _ => 0xff

theorem wp_initPaging_translates_filled :
    wp (initPaging (fun _ => 0x100) 33) (fun _ after => TranslatesByWindows after.memory)
      filledMachine :=
  wp_initPaging_translates (by decide) (fun _ _ _ => rfl) (fun _ _ _ => rfl) (by decide)

/-- Physical memory that is not for user mode: the page tables, the tables of the processor with
the pages beside them, the stack of the kernel and the local APIC. -/
def kernelMemory : List (ℕ × ℕ) :=
  [(0x200000, 0xf000), (0x300000, 0x5000), (0x410000, 0x4000), (0xa00000, 0x200000),
    (0xfee00000, 0x200000)]

/-- User mode reaches no memory of the kernel. -/
def IsolatesUser (memory : Memory) : Prop :=
  ∀ address, Canonical address →
    ∀ translation, walk memory.entryAt 0x200000 address = some translation →
      translation.user = true → ∀ range ∈ kernelMemory,
        ¬(range.1 ≤ translation.physical ∧ translation.physical < range.1 + range.2)

theorem windows_isolate :
    ∀ window ∈ windows, window.user = true → ∀ range ∈ kernelMemory,
      window.physical + window.size ≤ range.1 ∨ range.1 + range.2 ≤ window.physical := by
  decide +kernel

theorem wp_initPaging_isolates {msrs : BitVec 32 → BitVec 64} {fuel : ℕ}
    (bsp : (msrs ia32ApicBase).getLsbD 8 = true) (backed : Backed machine 0x200000 0xf000)
    (backedAbove : Backed machine 0x300000 0x5000) (enough : 32 < fuel) :
    wp (initPaging msrs fuel) (fun _ after => IsolatesUser after.memory) machine := by
  apply (wp_initPaging bsp backed backedAbove enough).mono
  intro _ after only address canonical translation found user range listed reached
  rw [only.memory] at found
  rcases (walk_pageTables _ canonical translation).mp found with ⟨window, mem, above, below, rfl⟩
  have apart := windows_isolate window mem user range listed
  simp only at reached
  omega

theorem wp_initPaging_isolates_filled :
    wp (initPaging (fun _ => 0x100) 33) (fun _ after => IsolatesUser after.memory)
      filledMachine :=
  wp_initPaging_isolates (by decide) (fun _ _ _ => rfl) (fun _ _ _ => rfl) (by decide)

end VirtLearn.Guest
