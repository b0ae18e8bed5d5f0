import VirtLearn.Machine.Memory

/-!
# Four-level paging

The walk of the processor from a virtual address through four levels of tables, with pages of 4 KB
and, where an entry of the second level from below is large, of 2 MB. User mode may use an address
if every entry on the way lets it.

Tables that are described by a listing of their present entries map the ranges that `mappings`
computes from the listing, and nothing else.
-/

namespace VirtLearn

/-- A present entry of a table: the table or page it points to, and its `US` and `PS` bits. -/
structure PageEntry where
  frame : ℕ
  user : Bool
  large : Bool
deriving DecidableEq

/-- What 64 bits in a table say; bit 0 tells whether the entry is present. -/
def PageEntry.ofBits (bits : BitVec 64) : Option PageEntry :=
  if bits.getLsbD 0 then
    some ⟨(bits &&& 0x000ffffffffff000).toNat, bits.getLsbD 2, bits.getLsbD 7⟩
  else none

/-- The entry of a table in memory. -/
def Memory.entryAt (memory : Memory) (table index : ℕ) : Option PageEntry :=
  PageEntry.ofBits (memory.read 64 (BitVec.ofNat 64 (table + 8 * index)))

/-- Where an address leads, and whether user mode may use it. -/
structure Translation where
  physical : ℕ
  user : Bool
deriving DecidableEq

namespace Paging

def span (level : ℕ) : ℕ :=
  2 ^ (12 + 9 * level)

/-- The large page that an entry points to. -/
def largeFrame (entry : PageEntry) : ℕ :=
  entry.frame - entry.frame % span 1

/-- The walk with a number of levels left; without any, the table is the page. -/
def walkFrom (entryAt : ℕ → ℕ → Option PageEntry) (address : ℕ) :
    ℕ → ℕ → Bool → Option Translation
  | 0, page, user => some ⟨page + address % span 0, user⟩
  | level + 1, table, user => do
      let entry ← entryAt table (address / span level % 512)
      if level = 1 ∧ entry.large then
        some ⟨largeFrame entry + address % span level, user && entry.user⟩
      else walkFrom entryAt address level entry.frame (user && entry.user)

/-- The walk from the table that `CR3` points to. -/
def walk (entryAt : ℕ → ℕ → Option PageEntry) (root : ℕ) (address : Address) :
    Option Translation :=
  walkFrom entryAt address.toNat 4 root true

/-- The upper bits of the address are copies of bit 47. -/
def Canonical (address : Address) : Prop :=
  address.toNat < 2 ^ 47 ∨ 2 ^ 64 - 2 ^ 47 ≤ address.toNat

instance (address : Address) : Decidable (Canonical address) :=
  inferInstanceAs (Decidable (_ ∨ _))

/-- A range of virtual addresses and the physical addresses behind it. -/
structure Mapping where
  virtual : ℕ
  size : ℕ
  physical : ℕ
  user : Bool
deriving DecidableEq

/-- The mapping leads a virtual address to a translation. -/
def Mapping.Maps (mapping : Mapping) (address : ℕ) (translation : Translation) : Prop :=
  mapping.virtual ≤ address ∧ address < mapping.virtual + mapping.size ∧
    translation = ⟨mapping.physical + (address - mapping.virtual), mapping.user⟩

/-- The present entries of each table, with their indices. -/
abbrev Listing :=
  ℕ → List (ℕ × PageEntry)

/-- The mappings of a table whose range begins at `base`. -/
def mappingsFrom (listing : Listing) : ℕ → ℕ → Bool → ℕ → List Mapping
  | 0, page, user, base => [⟨base, span 0, page, user⟩]
  | level + 1, table, user, base =>
      (listing table).flatMap fun (index, entry) =>
        if level = 1 ∧ entry.large then
          [⟨base + index * span level, span level, largeFrame entry, user && entry.user⟩]
        else mappingsFrom listing level entry.frame (user && entry.user) (base + index * span level)

/-- All mappings of the tables below a root. -/
def mappings (listing : Listing) (root : ℕ) : List Mapping :=
  mappingsFrom listing 4 root true 0

/-- Every table that a walk reads is one of `tables`. -/
def covers (tables : List ℕ) (listing : Listing) : ℕ → ℕ → Bool
  | 0, _ => true
  | level + 1, table =>
      decide (table ∈ tables) && (listing table).all fun (_, entry) =>
        decide (level = 1 ∧ entry.large) || covers tables listing level entry.frame

/-- A listing tells which entries of some tables are present. -/
structure Describes (entryAt : ℕ → ℕ → Option PageEntry) (tables : List ℕ) (listing : Listing) :
    Prop where
  entry : ∀ table ∈ tables, ∀ index < 512, ∀ entry,
    entryAt table index = some entry ↔ (index, entry) ∈ listing table
  index_lt : ∀ table, ∀ entry ∈ listing table, entry.1 < 512

/-- An entry with this many levels below it points to a table, and not to a page. -/
def Inner (level : ℕ) (entry : PageEntry) : Prop :=
  level ≠ 0 ∧ ¬(level = 1 ∧ entry.large)

instance (level : ℕ) (entry : PageEntry) : Decidable (Inner level entry) :=
  inferInstanceAs (Decidable (_ ∧ _))

/-- The tables that walks from a root come to, with the levels that they have left there. -/
inductive ReachedTable (entryAt : ℕ → ℕ → Option PageEntry) (root : ℕ) : ℕ → ℕ → Prop where
  | root : ReachedTable entryAt root 4 root
  | deeper {level table index : ℕ} {entry : PageEntry}
      (above : ReachedTable entryAt root (level + 1) table) (inTable : index < 512)
      (present : entryAt table index = some entry) (inner : Inner level entry) :
      ReachedTable entryAt root level entry.frame

/-- Tables that include the root and those that their entries point to include all that are
reached. -/
theorem ReachedTable.mem_of_closed {entryAt : ℕ → ℕ → Option PageEntry} {root : ℕ}
    {known : ℕ → ℕ → Prop} (rootKnown : known 4 root)
    (closed : ∀ level table, known (level + 1) table → ∀ index < 512, ∀ entry,
      entryAt table index = some entry → Inner level entry → known level entry.frame)
    {level table : ℕ} (reached : ReachedTable entryAt root level table) : known level table := by
  induction reached with
  | root => exact rootKnown
  | deeper _ inTable present inner ih => exact closed _ _ ih _ inTable _ present inner

theorem span_pos (level : ℕ) : 0 < span level :=
  Nat.two_pow_pos _

theorem span_succ (level : ℕ) : span (level + 1) = span level * 512 := by
  rw [span, span, Nat.mul_succ, ← Nat.add_assoc, Nat.pow_add]

theorem mod_span_succ (address level : ℕ) :
    address % span (level + 1) =
      address / span level % 512 * span level + address % span level := by
  rw [span_succ, Nat.mod_mul, Nat.add_comm, Nat.mul_comm]

section Describes

variable {entryAt : ℕ → ℕ → Option PageEntry} {tables : List ℕ} {listing : Listing}
  {level table : ℕ} {user : Bool}

/-- The mappings of an entry lie in its range if those of the table below do. -/
theorem within_of_mem_entry {base : ℕ} {entry : PageEntry} {mapping : Mapping}
    (below : mapping ∈ mappingsFrom listing level entry.frame (user && entry.user) base →
      base ≤ mapping.virtual ∧ mapping.virtual + mapping.size ≤ base + span level)
    (mem : mapping ∈ if level = 1 ∧ entry.large then
        [⟨base, span level, largeFrame entry, user && entry.user⟩]
      else mappingsFrom listing level entry.frame (user && entry.user) base) :
    base ≤ mapping.virtual ∧ mapping.virtual + mapping.size ≤ base + span level := by
  split at mem
  case isTrue leaf =>
    rw [List.mem_singleton] at mem
    rw [mem]
    exact ⟨Nat.le_refl _, Nat.le_refl _⟩
  case isFalse deeper => exact below mem

/-- The mappings of a table lie in its range. -/
theorem within_of_mem_mappingsFrom (described : Describes entryAt tables listing) {base : ℕ}
    {mapping : Mapping} (mem : mapping ∈ mappingsFrom listing level table user base) :
    base ≤ mapping.virtual ∧ mapping.virtual + mapping.size ≤ base + span level := by
  induction level generalizing table user base with
  | zero =>
      rw [mappingsFrom, List.mem_singleton] at mem
      simp [mem]
  | succ level ih =>
      rw [mappingsFrom, List.mem_flatMap] at mem
      rcases mem with ⟨⟨index, entry⟩, listed, mem⟩
      have inTable : index < 512 := described.index_lt table _ listed
      have part : base + index * span level + span level ≤ base + span (level + 1) := by
        rw [span_succ, Nat.mul_comm (span level), Nat.add_assoc, ← Nat.succ_mul]
        exact Nat.add_le_add_left (Nat.mul_le_mul_right _ inTable) base
      rcases within_of_mem_entry ih mem with ⟨above, upTo⟩
      exact ⟨(Nat.le_add_right _ _).trans above, upTo.trans part⟩

/-- An entry translates by its mappings if the table below does. -/
theorem entry_eq_some_iff {address base : ℕ} {entry : PageEntry} {translation : Translation}
    (below : ¬(level = 1 ∧ entry.large) →
      (walkFrom entryAt address level entry.frame (user && entry.user) = some translation ↔
        ∃ mapping ∈ mappingsFrom listing level entry.frame (user && entry.user) base,
          mapping.Maps (base + address % span level) translation)) :
    (if level = 1 ∧ entry.large then
        some ⟨largeFrame entry + address % span level, user && entry.user⟩
      else walkFrom entryAt address level entry.frame (user && entry.user)) = some translation ↔
      ∃ mapping ∈ if level = 1 ∧ entry.large then
          [⟨base, span level, largeFrame entry, user && entry.user⟩]
        else mappingsFrom listing level entry.frame (user && entry.user) base,
        mapping.Maps (base + address % span level) translation := by
  by_cases leaf : level = 1 ∧ entry.large
  · simp [leaf, Mapping.Maps, Nat.mod_lt _ (span_pos 1), eq_comm]
  · rw [if_neg leaf, if_neg leaf]
    exact below leaf

/-- The parts of a range do not overlap. -/
theorem eq_of_in_part {size index other offset base : ℕ} (small : offset < size)
    (above : base + other * size ≤ base + index * size + offset)
    (below : base + index * size + offset < base + other * size + size) : other = index := by
  have quotient : (index * size + offset) / size = index := by
    rw [Nat.mul_comm, Nat.mul_add_div (by omega), Nat.div_eq_of_lt small]
    rfl
  rw [← quotient]
  symm
  apply Nat.div_eq_of_lt_le
  · omega
  · rw [Nat.succ_mul]
    omega

/-- A walk finds the mapping of the address, if there is one. -/
theorem walkFrom_eq_some_iff (described : Describes entryAt tables listing)
    (covered : covers tables listing level table = true) (address base : ℕ)
    (translation : Translation) :
    walkFrom entryAt address level table user = some translation ↔
      ∃ mapping ∈ mappingsFrom listing level table user base,
        mapping.Maps (base + address % span level) translation := by
  induction level generalizing table user base with
  | zero =>
      have inPage : address % span 0 < span 0 := Nat.mod_lt _ (span_pos 0)
      simp [walkFrom, mappingsFrom, Mapping.Maps, inPage, eq_comm]
  | succ level ih =>
      simp only [covers, Bool.and_eq_true, decide_eq_true_eq, List.all_eq_true, Bool.or_eq_true]
        at covered
      rcases covered with ⟨known, coveredBelow⟩
      have inTable : address / span level % 512 < 512 := Nat.mod_lt _ (by decide)
      have inPart : address % span level < span level := Nat.mod_lt _ (span_pos level)
      rw [mod_span_succ, ← Nat.add_assoc, walkFrom, mappingsFrom]
      simp only [Option.bind_eq_bind, Option.bind_eq_some_iff, List.mem_flatMap]
      constructor
      · rintro ⟨entry, present, found⟩
        have listed := (described.entry table known _ inTable entry).mp present
        rw [entry_eq_some_iff fun deeper =>
          ih ((coveredBelow _ listed).resolve_left deeper) _] at found
        rcases found with ⟨mapping, mem, maps⟩
        exact ⟨mapping, ⟨_, listed, mem⟩, maps⟩
      · rintro ⟨mapping, ⟨⟨index, entry⟩, listed, mem⟩, maps⟩
        -- the mapping is of the entry at the index of the address
        have range := within_of_mem_entry (within_of_mem_mappingsFrom described) mem
        have same : index = address / span level % 512 :=
          eq_of_in_part inPart (range.1.trans maps.1) (Nat.lt_of_lt_of_le maps.2.1 range.2)
        subst same
        refine ⟨entry, (described.entry table known _ inTable entry).mpr listed, ?_⟩
        rw [entry_eq_some_iff fun deeper => ih ((coveredBelow _ listed).resolve_left deeper) _]
        exact ⟨mapping, mem, maps⟩

/-- A walk from the root finds the mapping of the 48 bits of the address that it uses. -/
theorem walk_eq_some_iff (described : Describes entryAt tables listing) {root : ℕ}
    (covered : covers tables listing 4 root = true) (address : Address)
    (translation : Translation) :
    walk entryAt root address = some translation ↔
      ∃ mapping ∈ mappings listing root,
        mapping.Maps (address.toNat % span 4) translation := by
  rw [walk, walkFrom_eq_some_iff described covered _ 0, Nat.zero_add, mappings]

end Describes

end Paging

end VirtLearn
