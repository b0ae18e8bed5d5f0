import VirtLearn.Kvm.CpuidTermination

/-!
# The contents of the CPUID table

Every leaf that is due is in the table handed to the ioctl, and nothing recorded is overwritten
(`table_complete`). Whether every entry is also what the host says of its own leaf depends on one
sub-leaf: the loop over leaf 0xd takes the next slot before it knows whether another sub-leaf will
fill it, so a host with a sub-leaf 63 gets an entry of zeros (`table_faithful_iff`).
-/

namespace VirtLearn.Kvm

def Recorded (host : Host) (table : List KvmCpuidEntry2) (i j : BitVec 32) : Prop :=
  ∃ entry ∈ table, entry.function = i ∧ entry.index = j ∧ entry.regs = host i j

/-- The table is to have this sub-leaf of a basic leaf. -/
def BasicDue (host : Host) (i j : BitVec 32) : Prop :=
  i ≤ (host 0 0).eax ∧
    (i ≠ 4 ∧ i ≠ 7 ∧ i ≠ 0xb ∧ i ≠ 0xd ∧ i ≠ 0x14 ∧ j = 0 ∧ host i 0 ≠ {} ∨
      (i = 4 ∨ i = 0xb) ∧ (∀ earlier < j, ¬EndsAt host i earlier) ∨
      i = 0xd ∧ j < 64 ∧ (host i j).eax ≠ 0 ∨
      (i = 7 ∨ i = 0x14) ∧ j ≤ (host i 0).eax)

/-- The table is to have this extended leaf. -/
def ExtendedDue (host : Host) (i j : BitVec 32) : Prop :=
  0x80000000 ≤ i ∧ i ≤ (host 0x80000000 0).eax ∧ j = 0 ∧ host i 0 ≠ {}

theorem Recorded.append {host : Host} {table : List KvmCpuidEntry2} {i j : BitVec 32}
    (recorded : Recorded host table i j) (more : List KvmCpuidEntry2) :
    Recorded host (table ++ more) i j := by
  rcases recorded with ⟨entry, entry_mem, same⟩
  exact ⟨entry, List.mem_append_left _ entry_mem, same⟩

theorem recorded_indexedEntry (host : Host) (table : List KvmCpuidEntry2) (i j : BitVec 32) :
    Recorded host (table ++ [indexedEntry host i j]) i j :=
  ⟨indexedEntry host i j, by simp, rfl, rfl, rfl⟩

theorem recorded_plainEntry (host : Host) (table : List KvmCpuidEntry2) (i : BitVec 32) :
    Recorded host (table ++ [plainEntry host i]) i 0 :=
  ⟨plainEntry host i, by simp, rfl, rfl, rfl⟩

namespace Listing

/-- The enumeration is past this sub-leaf of a basic leaf. -/
def Passed (listing : Listing) (i j : BitVec 32) : Prop :=
  match listing.point with
  | .basic => i < listing.i
  | .extended => True
  | _ => i < listing.i ∨ i = listing.i ∧ j < listing.j

/-- Everything that is due and passed is in the table. -/
structure Complete (host : Host) (listing : Listing) : Prop where
  basic : ∀ i j, BasicDue host i j → listing.Passed i j → Recorded host listing.table i j
  extended : listing.point = .extended → ∀ i j, ExtendedDue host i j → i < listing.i →
    Recorded host listing.table i j
  counted : listing.point = .counted →
    (listing.i = 7 ∨ listing.i = 0x14) ∧ listing.times = (host listing.i 0).eax

end Listing

theorem BasicDue.of_plain {host : Host} {i j : BitVec 32} (due : BasicDue host i j)
    (plain : i ≠ 4 ∧ i ≠ 7 ∧ i ≠ 0xb ∧ i ≠ 0xd ∧ i ≠ 0x14) : j = 0 ∧ host i 0 ≠ {} := by
  rcases plain with ⟨four, seven, eleven, thirteen, twenty⟩
  rcases due with ⟨_, ⟨_, _, _, _, _, first, filled⟩ | ⟨same | same, _⟩ | ⟨same, _⟩ |
    ⟨same | same, _⟩⟩
  · exact ⟨first, filled⟩
  all_goals contradiction

theorem BasicDue.not_after_end {host : Host} {i j last : BitVec 32} (due : BasicDue host i j)
    (ends : EndsAt host i last) : ¬last < j := by
  intro after
  have leaf : i = 4 ∨ i = 0xb := ends.imp And.left And.left
  rcases due with ⟨_, ⟨four, _, eleven, _⟩ | ⟨_, open_before⟩ | ⟨same, _⟩ | ⟨same | same, _⟩⟩
  · exact leaf.elim four eleven
  · exact open_before last after ends
  all_goals rcases leaf with leaf | leaf <;> rw [leaf] at same <;> exact absurd same (by decide)

theorem BasicDue.of_thirteen {host : Host} {j : BitVec 32} (due : BasicDue host 0xd j) :
    j < 64 ∧ (host 0xd j).eax ≠ 0 := by
  rcases due with ⟨_, ⟨_, _, _, thirteen, _⟩ | ⟨same | same, _⟩ | ⟨_, below, filled⟩ |
    ⟨same | same, _⟩⟩
  · exact absurd rfl thirteen
  · exact absurd same (by decide)
  · exact absurd same (by decide)
  · exact ⟨below, filled⟩
  · exact absurd same (by decide)
  · exact absurd same (by decide)

theorem BasicDue.of_counted {host : Host} {i j : BitVec 32} (due : BasicDue host i j)
    (counted : i = 7 ∨ i = 0x14) : j ≤ (host i 0).eax := by
  rcases due with ⟨_, ⟨_, seven, _, _, twenty, _⟩ | ⟨same | same, _⟩ | ⟨same, _⟩ | ⟨_, atMost⟩⟩
  · exact absurd counted (not_or.mpr ⟨seven, twenty⟩)
  · rcases counted with leaf | leaf <;> rw [leaf] at same <;> exact absurd same (by decide)
  · rcases counted with leaf | leaf <;> rw [leaf] at same <;> exact absurd same (by decide)
  · rcases counted with leaf | leaf <;> rw [leaf] at same <;> exact absurd same (by decide)
  · exact atMost

namespace Listing

variable {host : Host} {before after : Listing}

theorem passed_of_lt_add_one {i : BitVec 32} (j : BitVec 32) (below : i < before.i + 1) :
    before.Passed i j ∨ i = before.i := by
  rcases Counter.lt_add_one_cases below with earlier | same
  · left
    rw [Passed]
    split
    · exact earlier
    · trivial
    · exact Or.inl earlier
  · exact Or.inr same

theorem passed_of_lt_add_one_sub {i j : BitVec 32}
    (inside : before.point = .subleaves ∨ before.point = .counted)
    (below : i < before.i ∨ i = before.i ∧ j < before.j + 1) :
    before.Passed i j ∨ i = before.i ∧ j = before.j := by
  have passed : before.Passed i j ↔ i < before.i ∨ i = before.i ∧ j < before.j := by
    rcases inside with inside | inside <;> simp [Passed, inside]
  rw [passed]
  rcases below with earlier | ⟨same, below⟩
  · exact Or.inl (Or.inl earlier)
  · rcases Counter.lt_add_one_cases below with earlier | sameSub
    · exact Or.inl (Or.inr ⟨same, earlier⟩)
    · exact Or.inr ⟨same, sameSub⟩

/-- A leaf without sub-leaves is passed, with what it is due. -/
theorem Complete.pass (complete : Complete host before)
    (plain : before.point = .basic ∧ before.i ≠ 4 ∧ before.i ≠ 7 ∧ before.i ≠ 0xb ∧
      before.i ≠ 0xd ∧ before.i ≠ 0x14 ∨ before.point = .extended) {more : List KvmCpuidEntry2}
    (recorded : host before.i 0 ≠ {} → Recorded host (before.table ++ more) before.i 0) :
    Complete host { before with i := before.i + 1, table := before.table ++ more } := by
  rcases complete with ⟨basic, extended, counted⟩
  refine ⟨?_, ?_, ?_⟩
  · intro i j due passed
    rcases plain with ⟨inside, plain⟩ | inside
    · simp only [Passed, inside] at passed
      rcases passed_of_lt_add_one j passed with earlier | same
      · exact (basic i j due earlier).append _
      · subst same
        rw [(due.of_plain plain).1]
        exact recorded (due.of_plain plain).2
    · exact (basic i j due (by simp [Passed, inside])).append _
  · intro inside i j due below
    rcases Counter.lt_add_one_cases below with earlier | same
    · exact (extended inside i j due earlier).append _
    · subst same
      rw [due.2.2.1]
      exact recorded due.2.2.2
  · intro inside
    rcases plain with ⟨basic, _⟩ | extended
    · exact absurd (basic.symm.trans inside) (by decide)
    · exact absurd (extended.symm.trans inside) (by decide)

/-- The next sub-leaf of the leaf at hand. -/
theorem Complete.nextSubleaf (complete : Complete host before)
    (inside : before.point = .subleaves ∨ before.point = .counted) {more : List KvmCpuidEntry2}
    {pending : KvmCpuidEntry2}
    (recorded : BasicDue host before.i before.j →
      Recorded host (before.table ++ more) before.i before.j) :
    Complete host
      { before with j := before.j + 1, table := before.table ++ more, pending } := by
  have notExtended : before.point ≠ .extended := by
    rcases inside with inside | inside <;> simp [inside]
  refine ⟨?_, fun extended => absurd extended notExtended, complete.counted⟩
  intro i j due passed
  have below : i < before.i ∨ i = before.i ∧ j < before.j + 1 := by
    rcases inside with inside | inside <;> simpa [Passed, inside] using passed
  rcases passed_of_lt_add_one_sub inside below with earlier | ⟨same, sameSub⟩
  · exact (complete.basic i j due earlier).append _
  · subst same sameSub
    exact recorded due

/-- The leaf at hand is left, with all its sub-leaves that are due. -/
theorem Complete.leave (complete : Complete host before) {more : List KvmCpuidEntry2}
    {pending : KvmCpuidEntry2}
    (recorded : ∀ j, BasicDue host before.i j →
      Recorded host (before.table ++ more) before.i j) :
    Complete host
      { before with
        point := .basic
        i := before.i + 1
        table := before.table ++ more
        pending } := by
  refine ⟨?_, by simp, by simp⟩
  intro i j due passed
  rcases passed_of_lt_add_one j passed with earlier | same
  · exact (complete.basic i j due earlier).append _
  · subst same
    exact recorded j due

theorem Complete.moves (complete : Complete host before) (moves : before.Moves host after)
    (limit : before.point ≠ .extended → before.limit = (host 0 0).eax) : Complete host after := by
  cases moves with
  | enter pending inside =>
      refine ⟨?_, by simp, by simp⟩
      intro i j due passed
      rcases passed with earlier | ⟨_, none_below⟩
      · exact complete.basic i j due (by simpa [Passed, inside] using earlier)
      · exact absurd none_below BitVec.not_lt_zero
  | count inside listed leaf =>
      refine ⟨?_, by simp, fun _ => ⟨leaf, rfl⟩⟩
      intro i j due passed
      rcases passed with earlier | ⟨same, first⟩
      · exact (complete.basic i j due (by simpa [Passed, inside] using earlier)).append _
      · rcases Counter.lt_add_one_cases (show j < 0 + 1 from first) with none_below | zero
        · exact absurd none_below BitVec.not_lt_zero
        · subst same zero
          exact recorded_indexedEntry host before.table before.i 0
  | record plain listed filled =>
      apply complete.pass plain
      exact fun _ => recorded_plainEntry host before.table before.i
  | skip plain listed empty =>
      have passed := @Complete.pass host before complete plain [] fun filled => absurd empty filled
      rwa [List.append_nil] at passed
  | extend inside exceeded =>
      refine ⟨?_, ?_, by simp⟩
      · intro i j due _
        have atMost := due.1
        rw [← limit (by simp [inside])] at atMost
        have earlier : i < before.i := Counter.lt_of_le_of_not_le atMost exceeded
        exact complete.basic i j due (by simpa [Passed, inside] using earlier)
      · intro _ i j due below
        exact absurd below (BitVec.not_lt.mpr due.1)
  | last inside ends =>
      apply complete.leave
      intro j due
      have upTo : j ≤ before.j := BitVec.not_lt.mp (due.not_after_end ends)
      by_cases final : j = before.j
      · subst final
        exact recorded_indexedEntry host before.table before.i before.j
      · have below := BitVec.lt_of_le_ne upTo final
        exact (complete.basic before.i j due (by simp [Passed, inside, below])).append _
  | retry inside leaf other empty =>
      have absent : ¬BasicDue host before.i before.j := by
        intro due
        rw [leaf] at due empty
        exact due.of_thirteen.2 empty
      have next := @Complete.nextSubleaf host before complete (Or.inl inside) []
        (indexedEntry host before.i before.j) fun due => absurd due absent
      rwa [List.append_nil] at next
  | next inside =>
      apply complete.nextSubleaf (Or.inl inside)
      exact fun _ => recorded_indexedEntry host before.table before.i before.j
  | close inside leaf done =>
      apply complete.leave
      intro j due
      have below := (leaf ▸ due).of_thirteen.1
      rw [← done] at below
      exact (complete.basic before.i j due (by simp [Passed, inside, below])).append _
  | tick inside more =>
      apply complete.nextSubleaf (Or.inr inside)
      exact fun _ => recorded_indexedEntry host before.table before.i before.j
  | stop inside done =>
      rcases complete.counted inside with ⟨leaf, times⟩
      have listed : ∀ j, BasicDue host before.i j →
          Recorded host (before.table ++ []) before.i j := by
        intro j due
        have atMost := due.of_counted leaf
        rw [← times] at atMost
        have below : j < before.j := Counter.lt_of_le_of_not_le atMost done
        exact (complete.basic before.i j due (by simp [Passed, inside, below])).append []
      have left := @Complete.leave host before complete [] before.pending listed
      rwa [List.append_nil] at left

theorem Moves.table_prefix (moves : before.Moves host after) : before.table <+: after.table := by
  cases moves with
  | enter => exact List.prefix_rfl
  | skip => exact List.prefix_rfl
  | extend => exact List.prefix_rfl
  | retry => exact List.prefix_rfl
  | stop => exact List.prefix_rfl
  | _ => exact List.prefix_append _ _

end Listing

/-! ### Completeness -/

section Complete

variable {host : Host} {locals later : Locals}

theorem complete_start (host : Host) : (start host).listing.Complete host where
  basic := by
    intro i j _ passed
    exact absurd passed BitVec.not_lt_zero
  extended := by simp [start, Locals.listing]
  counted := by simp [start, Locals.listing]

theorem complete_of_reaches (path : Loop.Reaches (round host) (start host) locals) :
    Sane host locals ∧ locals.listing.Complete host := by
  apply listing_of_reaches (sane_start host) (complete_start host) ?_ path
  intro before after sane moves complete
  exact complete.moves moves sane.basicLimit

theorem table_prefix_of_reaches (sane : Sane host locals)
    (path : Loop.Reaches (round host) locals later) :
    locals.listing.table <+: later.listing.table := by
  have kept := @listing_of_reaches _ _ (fun listing => locals.listing.table <+: listing.table) _
    sane List.prefix_rfl (fun _ _ _ moves same => same.trans moves.table_prefix) path
  exact kept.2

/-- What the ioctl gets, seen from the last loop head. -/
theorem exists_last_of_called {fuel : ℕ} {nent : BitVec 32} {entries : ℕ → KvmCpuidEntry2}
    (called : vmInitCpuid host fuel = some (.setCpuid2 nent entries)) :
    ∃ last, Loop.Reaches (round host) (start host) last ∧ last.point = .extended ∧
      ¬last.i ≤ last.limit ∧ last.listing.table = listed entries nent.toNat := by
  have exits : Loop.Exits (round host) (start host) (.setCpuid2 nent entries) := ⟨fuel, called⟩
  rcases exits.exists_reaches with ⟨last, path, ended⟩
  rcases outcome_cases (sane_of_reaches path) ended with ⟨_, failed⟩ | ⟨extended, exceeded, same⟩
  · cases failed
  · cases same
    refine ⟨last, path, extended, exceeded, ?_⟩
    rw [Locals.listing_of_ne (by simp [extended])]

/--
For every host, if the ioctl is called, every sub-leaf and every leaf that is due has an entry
with the host's registers; and in every run no finished entry is written again.
-/
theorem table_complete (host : Host) :
    (∀ fuel nent entries, vmInitCpuid host fuel = some (.setCpuid2 nent entries) →
      ∀ i j, BasicDue host i j ∨ ExtendedDue host i j →
        ∃ k < nent.toNat, (entries k).function = i ∧ (entries k).index = j ∧
          (entries k).regs = host i j) ∧
    ∀ locals later, Loop.Reaches (round host) (start host) locals →
      Loop.Reaches (round host) locals later →
      locals.finished ≤ later.finished ∧
        ∀ k < locals.finished, later.entries k = locals.entries k := by
  constructor
  · intro fuel nent entries called i j due
    rcases exists_last_of_called called with ⟨last, path, extended, exceeded, table⟩
    rcases complete_of_reaches path with ⟨sane, complete⟩
    have recorded : Recorded host last.listing.table i j := by
      rcases due with due | due
      · exact complete.basic i j due (by simp [Listing.Passed, Locals.listing, extended])
      · apply complete.extended extended i j due
        apply Counter.lt_of_le_of_not_le due.2.1
        rw [← sane.extendedLimit extended]
        exact exceeded
    rcases recorded with ⟨entry, entry_mem, same⟩
    rw [table] at entry_mem
    rcases mem_listed.mp entry_mem with ⟨k, inside, rfl⟩
    exact ⟨k, inside, same⟩
  · intro locals later path continued
    have kept := table_prefix_of_reaches (sane_of_reaches path) continued
    have shorter := kept.length_le
    simp only [Locals.listing, length_listed] at shorter
    refine ⟨shorter, ?_⟩
    intro k inside
    have same := kept.getElem (show k < locals.listing.table.length by simpa [Locals.listing])
    simpa [Locals.listing, getElem_listed] using same.symm

def twoLeafHost : Host := fun leaf _ =>
  if leaf = 0 then { eax := 1 } else if leaf = 1 then { eax := 7, edx := 9 } else {}

theorem table_complete_twoLeafHost : ∃ nent entries,
    vmInitCpuid twoLeafHost 4 = some (.setCpuid2 nent entries) ∧
      ∃ k < nent.toNat, (entries k).function = 1 ∧ (entries k).index = 0 ∧
        (entries k).regs = { eax := 7, edx := 9 } := by
  have called : ∃ nent entries, vmInitCpuid twoLeafHost 4 = some (.setCpuid2 nent entries) :=
    ⟨_, _, rfl⟩
  rcases called with ⟨nent, entries, called⟩
  have due : BasicDue twoLeafHost 1 0 := by
    refine ⟨by decide, Or.inl ?_⟩
    decide
  exact ⟨nent, entries, called, (table_complete twoLeafHost).1 4 nent entries called 1 0 (.inl due)⟩

end Complete

/-! ### Faithfulness -/

/-- The entry has the registers of the leaf it names. -/
def KvmCpuidEntry2.Faithful (host : Host) (entry : KvmCpuidEntry2) : Prop :=
  entry.regs = host entry.function entry.index

def KvmCpuidEntry2.key (entry : KvmCpuidEntry2) : BitVec 32 × BitVec 32 :=
  (entry.function, entry.index)

/-- The host's basic limit, and the condition under which no slot is taken and left unfilled. -/
structure Benign (host : Host) : Prop where
  basic : (host 0 0).eax < 0x80000000
  extended : (host 0x80000000 0).eax ≠ 0xffffffff
  filled : (host 0 0).eax < 0xd ∨ (host 0xd 63).eax = 0

/-- Every entry is faithful, and no two have one key. -/
structure Truthful (host : Host) (table : List KvmCpuidEntry2) : Prop where
  faithful : ∀ entry ∈ table, entry.Faithful host
  distinct : (table.map KvmCpuidEntry2.key).Nodup

theorem Truthful.append {host : Host} {table : List KvmCpuidEntry2} {entry : KvmCpuidEntry2}
    (truthful : Truthful host table) (faithful : entry.Faithful host)
    (new : ∀ earlier ∈ table, earlier.key ≠ entry.key) : Truthful host (table ++ [entry]) where
  faithful := by
    intro other other_mem
    rcases List.mem_append.mp other_mem with old | last
    · exact truthful.faithful other old
    · rw [List.mem_singleton.mp last]
      exact faithful
  distinct := by
    rw [List.map_append, List.nodup_append]
    refine ⟨truthful.distinct, by simp, ?_⟩
    intro key key_mem other other_mem
    rcases List.mem_map.mp key_mem with ⟨earlier, earlier_mem, rfl⟩
    rw [List.map_singleton, List.mem_singleton] at other_mem
    rw [other_mem]
    exact new earlier earlier_mem

namespace Listing

/-- The entry comes before the place the enumeration is at. -/
def Before (listing : Listing) (entry : KvmCpuidEntry2) : Prop :=
  match listing.point with
  | .basic => entry.function < listing.i
  | .extended => entry.function < listing.i
  | _ => entry.function < listing.i ∨ entry.function = listing.i ∧ entry.index < listing.j

/-- The table is truthful so far, in the order of the enumeration. -/
structure Ordered (host : Host) (listing : Listing) : Prop where
  truthful : Truthful host listing.table
  before : ∀ entry ∈ listing.table, listing.Before entry
  inBasic : listing.point = .basic → listing.i.toNat ≤ (host 0 0).eax.toNat + 1
  inSubleaves : listing.point = .subleaves →
    listing.i ≤ (host 0 0).eax ∧ (listing.i = 4 ∨ listing.i = 0xb ∨ listing.i = 0xd) ∧
      (listing.i ≠ 0xd → listing.j.toNat ≤ listing.table.length) ∧
      (listing.i = 0xd → listing.j.toNat ≤ 64)
  inCounted : listing.point = .counted →
    listing.i ≤ (host 0 0).eax ∧ (listing.i = 7 ∨ listing.i = 0x14) ∧
      listing.j.toNat ≤ listing.table.length
  /-- Leaf 0xd keeps the sub-leaves that are not empty; the last one seen may be pending. -/
  inThirteen : listing.point = .subleaves → listing.i = 0xd →
    (∀ entry ∈ listing.table, entry.function = 0xd → entry.regs.eax ≠ 0) ∧
      (0 < listing.j → (host 0xd (listing.j - 1)).eax = 0 →
        listing.pending = indexedEntry host 0xd (listing.j - 1))

variable {host : Host} {before after : Listing}

theorem function_lt_of_before {entry : KvmCpuidEntry2} (placed : before.Before entry)
    (room : before.i.toNat + 1 < 2 ^ 32) : entry.function < before.i + 1 := by
  have next := Counter.lt_add_one room
  rw [Before] at placed
  split at placed
  · exact BitVec.lt_trans placed next
  · exact BitVec.lt_trans placed next
  · rcases placed with earlier | ⟨same, _⟩
    · exact BitVec.lt_trans earlier next
    · rw [same]
      exact next

theorem before_add_one {entry : KvmCpuidEntry2} (room : before.j.toNat + 1 < 2 ^ 32)
    (placed : entry.function < before.i ∨ entry.function = before.i ∧ entry.index < before.j) :
    entry.function < before.i ∨ entry.function = before.i ∧ entry.index < before.j + 1 := by
  rcases placed with earlier | ⟨same, earlier⟩
  · exact Or.inl earlier
  · exact Or.inr ⟨same, BitVec.lt_trans earlier (Counter.lt_add_one room)⟩

theorem key_ne_of_function_lt {entry : KvmCpuidEntry2} {i j : BitVec 32}
    (below : entry.function < i) : entry.key ≠ (i, j) := by
  intro same
  have function : entry.function = i := congrArg Prod.fst same
  rw [function] at below
  exact BitVec.lt_irrefl _ below

theorem key_ne_of_before {entry : KvmCpuidEntry2} {i j : BitVec 32}
    (placed : entry.function < i ∨ entry.function = i ∧ entry.index < j) : entry.key ≠ (i, j) := by
  rcases placed with below | ⟨_, below⟩
  · exact key_ne_of_function_lt below
  · intro same
    have index : entry.index = j := congrArg Prod.snd same
    rw [index] at below
    exact BitVec.lt_irrefl _ below

theorem room_of_leaf {i : BitVec 32}
    (leaf : (i = 4 ∨ i = 0xb ∨ i = 0xd) ∨ i = 7 ∨ i = 0x14) : i.toNat + 1 < 2 ^ 32 := by
  rcases leaf with (rfl | rfl | rfl) | rfl | rfl <;> decide

theorem not_inside_of_outside (outside : before.point = .basic ∨ before.point = .extended) :
    before.point ≠ .subleaves ∧ before.point ≠ .counted := by
  rcases outside with basic | extended
  · simp [basic]
  · simp [extended]

theorem room_of_listed (benign : Benign host) (outside : before.point = .basic ∨
      before.point = .extended) (listed : before.i ≤ before.limit)
    (basicLimit : before.point ≠ .extended → before.limit = (host 0 0).eax)
    (extendedLimit : before.point = .extended → before.limit = (host 0x80000000 0).eax) :
    before.i.toNat + 1 < 2 ^ 32 := by
  rw [BitVec.le_def] at listed
  rcases outside with basic | extended
  · have small : (host 0 0).eax.toNat < 0x80000000 := benign.basic
    rw [basicLimit (by simp [basic])] at listed
    omega
  · have notLast : (host 0x80000000 0).eax.toNat ≠ 0xffffffff :=
      fun same => benign.extended (BitVec.eq_of_toNat_eq same)
    have inWord := (host 0x80000000 0).eax.isLt
    rw [extendedLimit extended] at listed
    omega

theorem Ordered.function_lt (ordered : Ordered host before)
    (outside : before.point = .basic ∨ before.point = .extended) :
    ∀ entry ∈ before.table, entry.function < before.i := by
  intro entry entry_mem
  have placed := ordered.before entry entry_mem
  rcases outside with basic | extended
  · simpa [Before, basic] using placed
  · simpa [Before, extended] using placed

theorem Ordered.place_lt (ordered : Ordered host before)
    (inside : before.point = .subleaves ∨ before.point = .counted) :
    ∀ entry ∈ before.table,
      entry.function < before.i ∨ entry.function = before.i ∧ entry.index < before.j := by
  intro entry entry_mem
  have placed := ordered.before entry entry_mem
  rcases inside with inside | inside
  · simpa [Before, inside] using placed
  · simpa [Before, inside] using placed

/-- A leaf that is recorded first is new, and so is each further sub-leaf. -/
theorem Ordered.truthful_append_leaf (ordered : Ordered host before)
    (outside : before.point = .basic ∨ before.point = .extended) {entry : KvmCpuidEntry2}
    (faithful : entry.Faithful host) (function : entry.function = before.i) :
    Truthful host (before.table ++ [entry]) := by
  apply ordered.truthful.append faithful
  intro earlier earlier_mem
  have below := ordered.function_lt outside earlier earlier_mem
  rw [← function] at below
  exact key_ne_of_function_lt below

theorem Ordered.truthful_append_subleaf (ordered : Ordered host before)
    (inside : before.point = .subleaves ∨ before.point = .counted) :
    Truthful host (before.table ++ [indexedEntry host before.i before.j]) := by
  have faithful : (indexedEntry host before.i before.j).Faithful host := rfl
  apply ordered.truthful.append faithful
  intro earlier earlier_mem
  exact key_ne_of_before (ordered.place_lt inside earlier earlier_mem)

theorem Ordered.function_lt_add_one (ordered : Ordered host before)
    (room : before.i.toNat + 1 < 2 ^ 32) {more : List KvmCpuidEntry2}
    (own : ∀ entry ∈ more, entry.function = before.i) :
    ∀ other ∈ before.table ++ more, other.function < before.i + 1 := by
  intro other other_mem
  rcases List.mem_append.mp other_mem with old | new
  · exact function_lt_of_before (ordered.before other old) room
  · rw [own other new]
    exact Counter.lt_add_one room

/-- A leaf without sub-leaves is passed. -/
theorem Ordered.pass (ordered : Ordered host before)
    (outside : before.point = .basic ∨ before.point = .extended)
    (room : before.i.toNat + 1 < 2 ^ 32)
    (listed : before.point = .basic → before.i ≤ (host 0 0).eax) {more : List KvmCpuidEntry2}
    (truthful : Truthful host (before.table ++ more))
    (own : ∀ entry ∈ more, entry.function = before.i) :
    Ordered host { before with i := before.i + 1, table := before.table ++ more } := by
  have notInside := not_inside_of_outside outside
  refine ⟨truthful, ?_, ?_, by simp [notInside.1], by simp [notInside.2], by simp [notInside.1]⟩
  · intro entry entry_mem
    have below := ordered.function_lt_add_one room own entry entry_mem
    rcases outside with basic | extended
    · simpa [Before, basic] using below
    · simpa [Before, extended] using below
  · intro basic
    exact Counter.toNat_add_one_le room (listed basic)

/-- The leaf at hand is left. -/
theorem Ordered.leave (ordered : Ordered host before) (room : before.i.toNat + 1 < 2 ^ 32)
    (listed : before.i ≤ (host 0 0).eax) {more : List KvmCpuidEntry2} {pending : KvmCpuidEntry2}
    (truthful : Truthful host (before.table ++ more))
    (own : ∀ entry ∈ more, entry.function = before.i) :
    Ordered host
      { before with
        point := .basic
        i := before.i + 1
        table := before.table ++ more
        pending } := by
  refine ⟨truthful, ?_, ?_, by simp, by simp, by simp⟩
  · exact ordered.function_lt_add_one room own
  · exact fun _ => Counter.toNat_add_one_le room listed

theorem Ordered.place_lt_add_one (ordered : Ordered host before)
    (inside : before.point = .subleaves ∨ before.point = .counted)
    (room : before.j.toNat + 1 < 2 ^ 32) :
    ∀ entry ∈ before.table ++ [indexedEntry host before.i before.j],
      entry.function < before.i ∨ entry.function = before.i ∧ entry.index < before.j + 1 := by
  intro entry entry_mem
  rcases List.mem_append.mp entry_mem with old | new
  · exact before_add_one room (ordered.place_lt inside entry old)
  · rw [List.mem_singleton.mp new]
    exact Or.inr ⟨rfl, Counter.lt_add_one room⟩

/-- The next sub-leaf of leaf 4, 0xb or 0xd. -/
theorem Ordered.next (ordered : Ordered host before) (inside : before.point = .subleaves)
    (below : before.i = 0xd → before.j ≠ 64)
    (filled : before.i = 0xd → (host before.i before.j).eax ≠ 0)
    (fits : before.table.length ≤ 100) :
    Ordered host
      { before with
        j := before.j + 1
        table := before.table ++ [indexedEntry host before.i before.j]
        pending := {} } := by
  rcases ordered.inSubleaves inside with ⟨listed, indexed, short, atMost⟩
  have room : before.j.toNat + 1 < 2 ^ 32 := by
    by_cases leaf : before.i = 0xd
    · have := atMost leaf
      omega
    · have := short leaf
      omega
  refine ⟨ordered.truthful_append_subleaf (Or.inl inside), ?_, by simp [inside], ?_,
    by simp [inside], ?_⟩
  · intro entry entry_mem
    simpa [Before, inside] using ordered.place_lt_add_one (Or.inl inside) room entry entry_mem
  · intro _
    refine ⟨listed, indexed, ?_, ?_⟩
    · intro other
      have bound := short other
      simp only [Counter.toNat_add_one room, List.length_append, List.length_singleton]
      omega
    · intro leaf
      have bound := atMost leaf
      have strict : before.j.toNat ≠ 64 := fun same => below leaf (BitVec.eq_of_toNat_eq same)
      simp only [Counter.toNat_add_one room]
      omega
  · intro _ leaf
    have leaf : before.i = 0xd := leaf
    constructor
    · intro entry entry_mem same
      rcases List.mem_append.mp entry_mem with old | new
      · exact (ordered.inThirteen inside leaf).1 entry old same
      · rw [List.mem_singleton.mp new]
        exact filled leaf
    · intro _ empty
      simp only [BitVec.add_sub_cancel] at empty
      rw [← leaf] at empty
      exact absurd empty (filled leaf)

/-- Leaving leaf 0xd behind sub-leaf 63, which is empty and still pending. -/
theorem Ordered.close (ordered : Ordered host before) (benign : Benign host)
    (inside : before.point = .subleaves) (leaf : before.i = 0xd) (done : before.j = 64) :
    Ordered host
      { before with
        point := .basic
        i := before.i + 1
        table := before.table ++ [before.pending]
        pending := {} } := by
  rcases ordered.inSubleaves inside with ⟨listed, indexed, _⟩
  rcases ordered.inThirteen inside leaf with ⟨kept, pending⟩
  have room := room_of_leaf (Or.inl indexed)
  have empty : (host 0xd 63).eax = 0 := by
    apply benign.filled.resolve_left
    rw [← leaf]
    exact BitVec.not_lt.mpr listed
  have pending : before.pending = indexedEntry host 0xd 63 := by
    rw [done] at pending
    exact pending (by decide) empty
  rw [pending]
  apply ordered.leave room listed
  · have faithful : (indexedEntry host 0xd 63).Faithful host := rfl
    apply ordered.truthful.append faithful
    intro entry entry_mem same
    have function : entry.function = 0xd := congrArg Prod.fst same
    have index : entry.index = 63 := congrArg Prod.snd same
    have registers := ordered.truthful.faithful entry entry_mem
    rw [KvmCpuidEntry2.Faithful, function, index] at registers
    exact kept entry entry_mem function (by rw [registers, empty])
  · intro entry entry_mem
    rw [List.mem_singleton.mp entry_mem, leaf]
    rfl

theorem Ordered.moves (ordered : Ordered host before) (benign : Benign host)
    (moves : before.Moves host after)
    (basicLimit : before.point ≠ .extended → before.limit = (host 0 0).eax)
    (extendedLimit : before.point = .extended → before.limit = (host 0x80000000 0).eax)
    (fits : before.table.length ≤ kvmMaxCpuidEntries) : Ordered host after := by
  simp only [kvmMaxCpuidEntries] at fits
  cases moves with
  | enter pending basic listed indexed =>
      have functions := ordered.function_lt (Or.inl basic)
      rw [basicLimit (by simp [basic])] at listed
      refine ⟨ordered.truthful, ?_, by simp, ?_, by simp, ?_⟩
      · intro entry entry_mem
        exact Or.inl (functions entry entry_mem)
      · exact fun _ => ⟨listed, indexed, fun _ => Nat.zero_le _, fun _ => Nat.zero_le _⟩
      · intro _ leaf
        refine ⟨?_, fun positive => absurd positive (BitVec.lt_irrefl _)⟩
        intro entry entry_mem same
        have below := functions entry entry_mem
        rw [same, ← leaf] at below
        exact absurd below (BitVec.lt_irrefl _)
  | count basic listed leaf =>
      have functions := ordered.function_lt (Or.inl basic)
      rw [basicLimit (by simp [basic])] at listed
      refine ⟨ordered.truthful_append_leaf (Or.inl basic) rfl rfl, ?_, by simp, by simp, ?_,
        by simp⟩
      · intro entry entry_mem
        rcases List.mem_append.mp entry_mem with old | new
        · exact Or.inl (functions entry old)
        · rw [List.mem_singleton.mp new]
          exact Or.inr ⟨rfl, show (0 : BitVec 32) < 1 by decide⟩
      · exact fun _ => ⟨listed, leaf, by simp⟩
  | record plain listed =>
      have outside := plain.imp And.left id
      have room := room_of_listed benign outside listed basicLimit extendedLimit
      apply ordered.pass outside room
      · exact fun basic => basicLimit (by simp [basic]) ▸ listed
      · exact ordered.truthful_append_leaf outside rfl rfl
      · intro entry entry_mem
        rw [List.mem_singleton.mp entry_mem]
        rfl
  | skip plain listed =>
      have outside := plain.imp And.left id
      have room := room_of_listed benign outside listed basicLimit extendedLimit
      have passed := @Ordered.pass host before ordered outside room
        (fun basic => basicLimit (by simp [basic]) ▸ listed) []
        (by rw [List.append_nil]; exact ordered.truthful) (by simp)
      rwa [List.append_nil] at passed
  | extend basic exceeded =>
      have atMost := ordered.inBasic basic
      have small := benign.basic
      refine ⟨ordered.truthful, ?_, by simp, by simp, by simp, by simp⟩
      intro entry entry_mem
      have below := ordered.function_lt (Or.inl basic) entry entry_mem
      rw [BitVec.lt_def] at below small
      change entry.function < 0x80000000
      rw [BitVec.lt_def]
      exact Nat.lt_of_lt_of_le below (Nat.le_trans atMost small)
  | last inside ends =>
      rcases ordered.inSubleaves inside with ⟨listed, leaf, _⟩
      apply ordered.leave (room_of_leaf (Or.inl leaf)) listed
      · exact ordered.truthful_append_subleaf (Or.inl inside)
      · intro entry entry_mem
        rw [List.mem_singleton.mp entry_mem]
        rfl
  | retry inside leaf other empty =>
      rcases ordered.inSubleaves inside with ⟨listed, indexed, _, atMost⟩
      have strict : before.j.toNat ≠ 64 := fun same => other (BitVec.eq_of_toNat_eq same)
      have atMost := atMost leaf
      have room : before.j.toNat + 1 < 2 ^ 32 := by omega
      refine ⟨ordered.truthful, ?_, by simp [inside], ?_, by simp [inside], ?_⟩
      · intro entry entry_mem
        have place := ordered.place_lt (Or.inl inside) entry entry_mem
        simpa [Before, inside] using before_add_one room place
      · intro _
        refine ⟨listed, indexed, fun other => absurd leaf other, ?_⟩
        intro _
        simp only [Counter.toNat_add_one room]
        omega
      · intro _ _
        refine ⟨(ordered.inThirteen inside leaf).1, ?_⟩
        intro _ _
        simp only [BitVec.add_sub_cancel, leaf]
  | next inside below goesOn filled => exact ordered.next inside below filled fits
  | close inside leaf done => exact ordered.close benign inside leaf done
  | tick inside more =>
      rcases ordered.inCounted inside with ⟨listed, leaf, short⟩
      have room : before.j.toNat + 1 < 2 ^ 32 := by omega
      refine ⟨ordered.truthful_append_subleaf (Or.inr inside), ?_, by simp [inside],
        by simp [inside], ?_, by simp [inside]⟩
      · intro entry entry_mem
        simpa [Before, inside] using ordered.place_lt_add_one (Or.inr inside) room entry entry_mem
      · intro _
        refine ⟨listed, leaf, ?_⟩
        simp only [Counter.toNat_add_one room, List.length_append, List.length_singleton]
        omega
  | stop inside done =>
      rcases ordered.inCounted inside with ⟨listed, leaf, _⟩
      have left := @Ordered.leave host before ordered (room_of_leaf (Or.inr leaf)) listed []
        before.pending (by rw [List.append_nil]; exact ordered.truthful) (by simp)
      rwa [List.append_nil] at left

/-- With a sub-leaf 63 in leaf 0xd, the slot taken behind it stays as `memset` left it. -/
structure Unfilled (host : Host) (listing : Listing) : Prop where
  within : listing.point ≠ .extended → 0xd < listing.i → {} ∈ listing.table
  beyond : listing.point = .extended → {} ∈ listing.table
  inThirteen : listing.point = .subleaves → listing.i = 0xd → 0 < listing.j →
    (host 0xd (listing.j - 1)).eax ≠ 0 → listing.pending = {}
  inCounted : listing.point = .counted → listing.i = 7 ∨ listing.i = 0x14

theorem Unfilled.moves (unfilled : Unfilled host before) (moves : before.Moves host after)
    (large : 0xd ≤ (host 0 0).eax) (last : (host 0xd 63).eax ≠ 0)
    (basicLimit : before.point ≠ .extended → before.limit = (host 0 0).eax) :
    Unfilled host after := by
  rcases unfilled with ⟨within, beyond, inThirteen, inCounted⟩
  -- no leaf but 0xd itself takes the enumeration past it
  have passed : before.point ≠ .extended → before.i ≠ 0xd → 0xd < before.i + 1 →
      {} ∈ before.table := by
    intro notExtended other below
    rcases Counter.lt_add_one_cases below with earlier | same
    · exact within notExtended earlier
    · exact absurd same.symm other
  cases moves with
  | enter _ basic =>
      refine ⟨fun _ => within (by simp [basic]), by simp, ?_, by simp⟩
      exact fun _ _ positive => absurd positive (BitVec.lt_irrefl _)
  | count basic _ leaf =>
      refine ⟨?_, by simp, by simp, fun _ => leaf⟩
      exact fun _ below => List.mem_append_left _ (within (by simp [basic]) below)
  | record plain =>
      rcases plain with ⟨basic, _, _, _, other, _⟩ | extended
      · refine ⟨?_, by simp [basic], by simp [basic], by simp [basic]⟩
        exact fun _ below => List.mem_append_left _ (passed (by simp [basic]) other below)
      · refine ⟨by simp [extended], ?_, by simp [extended], by simp [extended]⟩
        exact fun _ => List.mem_append_left _ (beyond extended)
  | skip plain =>
      rcases plain with ⟨basic, _, _, _, other, _⟩ | extended
      · refine ⟨?_, by simp [basic], by simp [basic], by simp [basic]⟩
        exact fun _ below => passed (by simp [basic]) other below
      · exact ⟨by simp [extended], fun _ => beyond extended, by simp [extended],
          by simp [extended]⟩
  | extend basic exceeded =>
      refine ⟨by simp, ?_, by simp, by simp⟩
      intro _
      apply within (by simp [basic])
      rw [basicLimit (by simp [basic])] at exceeded
      exact Counter.lt_of_le_of_not_le large exceeded
  | last inside ends =>
      have other : before.i ≠ 0xd := by
        rcases ends with ⟨leaf, _⟩ | ⟨leaf, _⟩ <;> rw [leaf] <;> decide
      refine ⟨?_, by simp, by simp, by simp⟩
      exact fun _ below => List.mem_append_left _ (passed (by simp [inside]) other below)
  | retry inside leaf _ empty =>
      refine ⟨fun _ => within (by simp [inside]), by simp [inside], ?_, by simp [inside]⟩
      intro _ _ _ filled
      rw [leaf] at empty
      simp only [BitVec.add_sub_cancel] at filled
      exact absurd empty filled
  | next inside =>
      refine ⟨?_, by simp [inside], fun _ _ _ _ => rfl, by simp [inside]⟩
      exact fun _ below => List.mem_append_left _ (within (by simp [inside]) below)
  | close inside leaf done =>
      have pending : before.pending = {} := by
        apply inThirteen inside leaf
        · rw [done]
          decide
        · rw [done]
          exact last
      refine ⟨?_, by simp, by simp, by simp⟩
      intro _ _
      simp [pending]
  | tick inside =>
      refine ⟨?_, by simp [inside], by simp [inside], fun _ => inCounted inside⟩
      exact fun _ below => List.mem_append_left _ (within (by simp [inside]) below)
  | stop inside =>
      have other : before.i ≠ 0xd := by
        rcases inCounted inside with leaf | leaf <;> rw [leaf] <;> decide
      exact ⟨fun _ => passed (by simp [inside]) other, by simp, by simp, by simp⟩

end Listing

section Faithful

variable {host : Host} {locals : Locals}

theorem ordered_of_reaches (benign : Benign host)
    (path : Loop.Reaches (round host) (start host) locals) :
    Sane host locals ∧ locals.listing.Ordered host := by
  apply listing_of_reaches (sane_start host) ?_ ?_ path
  · refine ⟨⟨?_, ?_⟩, ?_, ?_, ?_, ?_, ?_⟩
    all_goals simp [start, Locals.listing, Locals.finished]
  · intro before after sane moves ordered
    apply ordered.moves benign moves sane.basicLimit sane.extendedLimit
    have taken := taken_listing sane
    have bounded := sane.bounded
    have most : before.listing.table.length ≤ before.listing.taken := by
      rw [Listing.taken]
      split <;> omega
    omega

theorem unfilled_of_reaches (large : 0xd ≤ (host 0 0).eax) (last : (host 0xd 63).eax ≠ 0)
    (path : Loop.Reaches (round host) (start host) locals) :
    Sane host locals ∧ locals.listing.Unfilled host := by
  apply listing_of_reaches (sane_start host) ?_ ?_ path
  · refine ⟨?_, ?_, ?_, ?_⟩
    all_goals simp [start, Locals.listing, Locals.finished]
  · intro before after sane moves unfilled
    exact unfilled.moves moves large last sane.basicLimit

/--
For every host with a basic limit below 0x80000000 for which the ioctl is called: all its entries
are what the host says of the leaf they name, and no two name the same, if and only if the host
has no leaf 0xd or reports no sub-leaf 63 of it.
-/
theorem table_faithful_iff (host : Host) (small : (host 0 0).eax < 0x80000000) {fuel : ℕ}
    {nent : BitVec 32} {entries : ℕ → KvmCpuidEntry2}
    (called : vmInitCpuid host fuel = some (.setCpuid2 nent entries)) :
    (∀ k < nent.toNat, (entries k).regs = host (entries k).function (entries k).index) ∧
        (∀ k < nent.toNat, ∀ l < nent.toNat, (entries k).function = (entries l).function →
          (entries k).index = (entries l).index → k = l) ↔
      (host 0 0).eax < 0xd ∨ (host 0xd 63).eax = 0 := by
  rcases exists_last_of_called called with ⟨last, path, extended, exceeded, table⟩
  have sane := sane_of_reaches path
  constructor
  · rintro ⟨faithful, _⟩
    by_contra unfilled
    rw [not_or, BitVec.not_lt] at unfilled
    rcases unfilled with ⟨large, filled⟩
    have blank := (unfilled_of_reaches large filled path).2.beyond extended
    rw [table] at blank
    rcases mem_listed.mp blank with ⟨k, inside, zero⟩
    have registers := faithful k inside
    rw [zero] at registers
    rw [← registers] at large
    exact absurd large (by decide)
  · intro filled
    have benign : Benign host := by
      refine ⟨small, ?_, filled⟩
      intro top
      rw [sane.extendedLimit extended, top] at exceeded
      apply exceeded
      rw [BitVec.le_def]
      exact Nat.le_of_lt_succ last.i.isLt
    have truthful := (ordered_of_reaches benign path).2.truthful
    rw [table] at truthful
    constructor
    · intro k inside
      exact truthful.faithful _ (mem_listed.mpr ⟨k, inside, rfl⟩)
    · intro k inK l inL function index
      have distinct := List.nodup_iff_injective_get.mp truthful.distinct
      have inK : k < ((listed entries nent.toNat).map KvmCpuidEntry2.key).length := by simpa
      have inL : l < ((listed entries nent.toNat).map KvmCpuidEntry2.key).length := by simpa
      have same : (⟨k, inK⟩ : Fin _) = ⟨l, inL⟩ := by
        apply distinct
        simp only [List.get_eq_getElem, List.getElem_map, getElem_listed]
        exact Prod.ext function index
      exact congrArg Fin.val same

theorem table_faithful_twoLeafHost : ∃ nent entries,
    vmInitCpuid twoLeafHost 4 = some (.setCpuid2 nent entries) ∧
      (∀ k < nent.toNat,
        (entries k).regs = twoLeafHost (entries k).function (entries k).index) ∧
      ∀ k < nent.toNat, ∀ l < nent.toNat, (entries k).function = (entries l).function →
        (entries k).index = (entries l).index → k = l := by
  have called : ∃ nent entries, vmInitCpuid twoLeafHost 4 = some (.setCpuid2 nent entries) :=
    ⟨_, _, rfl⟩
  rcases called with ⟨nent, entries, called⟩
  exact ⟨nent, entries, called, (table_faithful_iff twoLeafHost (by decide) called).mpr
    (Or.inl (by decide))⟩

def lastSubleafHost : Host := fun leaf subleaf =>
  if leaf = 0 then { eax := 0xd }
  else if leaf = 0xd ∧ subleaf = 63 then { eax := 1 }
  else {}

/-- The count and the last counted entry, if the ioctl is called. -/
def lastEntry : Option Outcome → Option (BitVec 32 × KvmCpuidEntry2)
  | some (.setCpuid2 nent entries) => some (nent, entries (nent - 1).toNat)
  | _ => none

/-- The slot taken behind sub-leaf 63 is handed over as it is: as an entry of leaf 0. -/
theorem lastEntry_lastSubleafHost :
    lastEntry (vmInitCpuid lastSubleafHost 96) = some (6, {}) := by
  decide +kernel

theorem table_not_faithful : ¬∀ (host : Host) (fuel : ℕ) (nent : BitVec 32)
    (entries : ℕ → KvmCpuidEntry2), (host 0 0).eax < 0x80000000 →
    vmInitCpuid host fuel = some (.setCpuid2 nent entries) →
      (∀ k < nent.toNat, (entries k).regs = host (entries k).function (entries k).index) ∧
        ∀ k < nent.toNat, ∀ l < nent.toNat, (entries k).function = (entries l).function →
          (entries k).index = (entries l).index → k = l := by
  intro claimed
  have last := lastEntry_lastSubleafHost
  cases ended : vmInitCpuid lastSubleafHost 96 with
  | none => simp [ended, lastEntry] at last
  | some outcome =>
      cases outcome with
      | failed => simp [ended, lastEntry] at last
      | overrun => simp [ended, lastEntry] at last
      | setCpuid2 nent entries =>
          rw [ended] at last
          simp only [lastEntry, Option.some.injEq, Prod.mk.injEq] at last
          rcases last with ⟨rfl, blank⟩
          have faithful := (claimed lastSubleafHost 96 6 entries (by decide) ended).1
          have registers := faithful 5 (by decide)
          rw [show entries 5 = {} from blank] at registers
          exact absurd registers (by decide)

end Faithful

end VirtLearn.Kvm
