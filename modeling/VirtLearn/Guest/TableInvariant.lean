import VirtLearn.Guest.PageTables

/-!
# Well-formed page tables

What the entries of the tables are to be like: 0 or present, and pointing to a cleared table or to
an aligned page. `init_paging` meets this with two exceptions: one entry whose flags name `PS` twice
and `P` not at all, and one that has no `P` either.
-/

namespace VirtLearn.Guest

open Assembly Register Paging

/-- The table lies in what `init_paging` cleared. -/
def ClearedTable (table : ℕ) : Prop :=
  table % 4096 = 0 ∧ InTables table ∧ InTables (table + 4095)

instance (table : ℕ) : Decidable (ClearedTable table) :=
  inferInstanceAs (Decidable (_ ∧ _ ∧ _))

/-- The 8 bytes of an entry. -/
def slot (memory : Memory) (table index : ℕ) : BitVec 64 :=
  memory.read 64 (BitVec.ofNat 64 (table + 8 * index))

def ZeroOrPresent (bits : BitVec 64) : Prop :=
  bits = 0 ∨ bits.getLsbD 0 = true

/-- An entry with this many levels below it points to a cleared table or to an aligned page. -/
def WellPointed (level : ℕ) (entry : PageEntry) : Prop :=
  (Inner level entry → ClearedTable entry.frame) ∧
    (level = 1 ∧ entry.large → entry.frame % span 1 = 0)

instance (level : ℕ) (entry : PageEntry) : Decidable (WellPointed level entry) :=
  inferInstanceAs (Decidable (_ ∧ _))

/-- What a predicate says of every entry of every table that a walk may come to. -/
def EveryEntry (memory : Memory) (holds : ℕ → ℕ → ℕ → Prop) : Prop :=
  ∀ level table, ReachedTable memory.entryAt 0x200000 (level + 1) table →
    ∀ index < 512, holds level table index

/-- All entries are well formed. -/
def WellFormedTables (memory : Memory) : Prop :=
  EveryEntry memory fun level table index =>
    ZeroOrPresent (slot memory table index) ∧
      ∀ entry, memory.entryAt table index = some entry → WellPointed level entry

/-- The entries that are neither 0 nor present. -/
def brokenSlots : List ℕ :=
  [0x301000, 0x205000 + 8]

/-- The tables that walks come to, with the levels that are left. -/
def reachedTables : List (ℕ × ℕ) :=
  [(4, 0x200000), (3, 0x201000), (3, 0x202000), (3, 0x300000), (2, 0x203000), (2, 0x204000),
    (2, 0x209000), (2, 0x301000), (2, 0x302000), (1, 0x205000), (1, 0x206000), (1, 0x207000),
    (1, 0x208000), (1, 0x303000)]

theorem reachedTables_cleared :
    ∀ table ∈ reachedTables, table.2 ∈ pageTablePages := by
  decide +kernel

theorem listing_wellPointed :
    ∀ known ∈ reachedTables, ∀ listed ∈ pageTableListing known.2,
      WellPointed (known.1 - 1) listed.2 ∧
        (Inner (known.1 - 1) listed.2 → (known.1 - 1, listed.2.frame) ∈ reachedTables) := by
  decide +kernel

theorem stores_zeroOrPresent_iff :
    ∀ store ∈ pageTableStores, store.2.toNat % 8 = 0 →
      ((store.1 = 0 ∨ store.1.getLsbD 0 = true) ↔ store.2.toNat ∉ brokenSlots) := by
  have all : pageTableStores.all fun store => store.2.toNat % 8 = 0 →
      ((store.1 = 0 ∨ store.1.getLsbD 0 = true) ↔ store.2.toNat ∉ brokenSlots) := by
    decide +kernel
  simpa only [List.all_eq_true, decide_eq_true_eq] using all

theorem brokenSlots_stored :
    ∀ broken ∈ brokenSlots, ∃ store ∈ pageTableStores, store.2 = BitVec.ofNat 64 broken := by
  decide +kernel

section

variable {memory : Memory} {level table index : ℕ}

theorem mem_reachedTables
    (reached : ReachedTable (pageTables memory).entryAt 0x200000 level table) :
    (level, table) ∈ reachedTables := by
  apply reached.mem_of_closed (by decide)
  intro level table known index below entry present inner
  have listed := ((describes_pageTables memory).entry table
    (reachedTables_cleared _ known) index below entry).mp present
  exact (listing_wellPointed _ known _ listed).2 inner

theorem wellPointed_pageTables
    (reached : ReachedTable (pageTables memory).entryAt 0x200000 (level + 1) table)
    (below : index < 512) {entry : PageEntry}
    (present : (pageTables memory).entryAt table index = some entry) : WellPointed level entry := by
  have known := mem_reachedTables reached
  have listed := ((describes_pageTables memory).entry table
    (reachedTables_cleared _ known) index below entry).mp present
  exact (listing_wellPointed _ known _ listed).1

/-- An entry is 0 or present if its lower half is. -/
theorem zeroOrPresent_setWidth_iff (value : BitVec 32) :
    ZeroOrPresent (value.setWidth 64) ↔ value = 0 ∨ value.getLsbD 0 = true := by
  have zero_iff : value.setWidth 64 = 0 ↔ value = 0 := by
    constructor
    · intro zero
      bv_omega
    · rintro rfl
      rfl
  rw [ZeroOrPresent, zero_iff]
  simp

theorem zeroOrPresent_stored_iff {place : Address} (aligned : place.toNat % 8 = 0) :
    ZeroOrPresent (((lastWrite (halfWrite place) pageTableStores).getD 0).setWidth 64) ↔
      place.toNat ∉ brokenSlots := by
  rw [zeroOrPresent_setWidth_iff]
  cases last : lastWrite (halfWrite place) pageTableStores with
  | none =>
      have unbroken : place.toNat ∉ brokenSlots := by
        intro broken
        rcases brokenSlots_stored _ broken with ⟨store, mem, here⟩
        rw [BitVec.ofNat_toNat, BitVec.setWidth_eq] at here
        have unwritten := lastWrite_eq_none_iff.mp last store mem
        rw [halfWrite, if_pos here] at unwritten
        cases unwritten
      simp [unbroken]
  | some value =>
      rcases (lastWrite_eq_some_iff place value).mp last with ⟨store, mem, rfl, rfl⟩
      exact stores_zeroOrPresent_iff store mem aligned

theorem zeroOrPresent_pageTables_iff
    (reached : ReachedTable (pageTables memory).entryAt 0x200000 (level + 1) table)
    (below : index < 512) :
    ZeroOrPresent (slot (pageTables memory) table index) ↔ table + 8 * index ∉ brokenSlots := by
  rcases pageTablePages_spec table (reachedTables_cleared _ (mem_reachedTables reached)) with
    ⟨page, inTables⟩
  rw [slot]
  generalize placed : BitVec.ofNat 64 (table + 8 * index) = place
  have address : place.toNat = table + 8 * index := by
    rw [← placed, BitVec.toNat_ofNat]
    simp only [InTables] at inTables
    omega
  have inside : InTables place.toNat := by
    simp only [address, InTables] at inTables ⊢
    omega
  rw [read_entry_pageTables memory (by omega) inside, ← address]
  exact zeroOrPresent_stored_iff (by omega)

/-- Both tables with a broken entry are reached. -/
theorem reached_broken (memory : Memory) :
    ReachedTable (pageTables memory).entryAt 0x200000 2 0x301000 ∧
      ReachedTable (pageTables memory).entryAt 0x200000 1 0x205000 := by
  have present : ∀ table ∈ pageTablePages, ∀ index < 512, ∀ entry,
      (index, entry) ∈ pageTableListing table →
        (pageTables memory).entryAt table index = some entry := by
    intro table known index inTable entry listed
    exact ((describes_pageTables memory).entry table known index inTable entry).mpr listed
  have processor : ReachedTable (pageTables memory).entryAt 0x200000 3 0x300000 :=
    @ReachedTable.deeper _ _ 3 0x200000 0xff ⟨0x300000, true, false⟩ .root (by decide)
      (present _ (by decide) _ (by decide) _ (by decide +kernel)) (by decide)
  have directories : ReachedTable (pageTables memory).entryAt 0x200000 3 0x201000 :=
    @ReachedTable.deeper _ _ 3 0x200000 0 ⟨0x201000, true, false⟩ .root (by decide)
      (present _ (by decide) _ (by decide) _ (by decide +kernel)) (by decide)
  have tables : ReachedTable (pageTables memory).entryAt 0x200000 2 0x203000 :=
    @ReachedTable.deeper _ _ 2 0x201000 0 ⟨0x203000, true, false⟩ directories (by decide)
      (present _ (by decide) _ (by decide) _ (by decide +kernel)) (by decide)
  constructor
  · exact @ReachedTable.deeper _ _ 2 0x300000 0x1fc ⟨0x301000, true, false⟩ processor (by decide)
      (present _ (by decide) _ (by decide) _ (by decide +kernel)) (by decide)
  · exact @ReachedTable.deeper _ _ 1 0x203000 0 ⟨0x205000, true, false⟩ tables (by decide)
      (present _ (by decide) _ (by decide) _ (by decide +kernel)) (by decide)

theorem not_wellFormedTables (memory : Memory) : ¬WellFormedTables (pageTables memory) := by
  intro wellFormed
  have reached := (reached_broken memory).1
  have good := (wellFormed 1 0x301000 reached 0 (by decide)).1
  rw [zeroOrPresent_pageTables_iff reached (by decide)] at good
  exact good (by decide)

end

section

variable {machine : Machine} {msrs : BitVec 32 → BitVec 64} {fuel : ℕ}

/-- The tables are never well formed: two entries of tables that are reached are neither 0 nor
present. All others are, and what is present is well pointed. -/
theorem initPaging_leaves_broken (bsp : (msrs ia32ApicBase).getLsbD 8 = true)
    (backed : Backed machine 0x200000 0xf000) (backedAbove : Backed machine 0x300000 0x5000)
    (enough : 32 < fuel) :
    wp (initPaging msrs fuel)
      (fun _ after => ¬WellFormedTables after.memory ∧
        ReachedTable after.memory.entryAt 0x200000 2 0x301000 ∧
        ReachedTable after.memory.entryAt 0x200000 1 0x205000 ∧
        EveryEntry after.memory fun level table index =>
          (ZeroOrPresent (slot after.memory table index) ↔ table + 8 * index ∉ brokenSlots) ∧
            ∀ entry, after.memory.entryAt table index = some entry → WellPointed level entry)
      machine := by
  apply (wp_initPaging bsp backed backedAbove enough).mono
  intro _ after only
  rw [only.memory]
  refine ⟨not_wellFormedTables _, (reached_broken _).1, (reached_broken _).2, ?_⟩
  intro level table reached index below
  refine ⟨zeroOrPresent_pageTables_iff reached below, ?_⟩
  intro entry present
  exact wellPointed_pageTables reached below present

/-- Over memory that is filled with ones, entry 0 of the table at `0x301000` is broken, and entry 1
is not. -/
theorem initPaging_leaves_broken_filled :
    wp (initPaging (fun _ => 0x100) 33)
      (fun _ after => ¬ZeroOrPresent (slot after.memory 0x301000 0) ∧
        ZeroOrPresent (slot after.memory 0x301000 1)) filledMachine := by
  apply (initPaging_leaves_broken (by decide) (fun _ _ _ => rfl) (fun _ _ _ => rfl)
    (by decide)).mono
  rintro _ after ⟨_, reached, _, every⟩
  constructor
  · rw [(every 1 0x301000 reached 0 (by decide)).1]
    decide
  · rw [(every 1 0x301000 reached 1 (by decide)).1]
    decide

/-- Also over memory that is filled with ones, the tables are not well formed. -/
theorem initPaging_filled_not_wellFormed :
    ¬wp (initPaging (fun _ => 0x100) 33) (fun _ after => WellFormedTables after.memory)
      filledMachine := by
  intro holds
  have ran : wp (initPaging (fun _ => 0x100) 33)
      (fun _ after => ¬WellFormedTables after.memory) filledMachine := by
    apply (wp_initPaging (by decide) (fun _ _ _ => rfl) (fun _ _ _ => rfl) (by decide)).mono
    intro _ after only
    rw [only.memory]
    exact not_wellFormedTables _
  rcases ran with ⟨_, after, ends, broken⟩
  exact broken ((wp_iff_of_ends ends).mp holds)

end

end VirtLearn.Guest
