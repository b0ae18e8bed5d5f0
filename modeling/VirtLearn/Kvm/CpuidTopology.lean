import VirtLearn.Kvm.CpuidContents

/-!
# Leaf 0x1f of the CPUID table

The loop over sub-leaves has the two tests that end an enumeration of leaf 0x1f, as it has those of
leaf 0xb. The `switch` around it does not name the leaf, so the tests are never made: leaf 0x1f is
recorded as a leaf without sub-leaves, and no entry of it has the flag of an indexed one.
-/

namespace VirtLearn.Kvm

/-- The sub-leaves of leaf 0x1f up to the one that ends it. -/
def SharedDue (host : Host) (j : BitVec 32) : Prop :=
  j < 64 ∧ ∀ earlier < j, (host 0x1f earlier).ecx &&& 0xff00 ≠ 0

/-- The table has these sub-leaves as it has those of leaf 0xb. -/
def SharedListed (host : Host) (nent : BitVec 32) (entries : ℕ → KvmCpuidEntry2) : Prop :=
  ∀ j, SharedDue host j → ∃ k < nent.toNat, entries k = indexedEntry host 0x1f j

theorem sharedDue_zero (host : Host) : SharedDue host 0 :=
  ⟨by decide, fun _ before => absurd before BitVec.not_lt_zero⟩

/-- The leaves that the `switch` has a loop over sub-leaves for. -/
def indexedLeaves : List (BitVec 32) :=
  [4, 7, 0xb, 0xd, 0x14]

/-- An entry of another leaf is the one of a leaf without sub-leaves, or as `memset` left it. -/
def KvmCpuidEntry2.Unindexed (host : Host) (entry : KvmCpuidEntry2) : Prop :=
  entry.function ∉ indexedLeaves → entry = plainEntry host entry.function ∨ entry = {}

theorem unindexed_plainEntry (host : Host) (i : BitVec 32) : (plainEntry host i).Unindexed host :=
  fun _ => Or.inl rfl

theorem unindexed_indexedEntry {i : BitVec 32} (indexed : i ∈ indexedLeaves) (host : Host)
    (j : BitVec 32) : (indexedEntry host i j).Unindexed host :=
  fun other => absurd indexed other

namespace Listing

variable {host : Host} {before after : Listing}

/-- Only the leaves of the `switch` have entries with the flag. -/
structure Flagged (host : Host) (listing : Listing) : Prop where
  table : ∀ entry ∈ listing.table, entry.Unindexed host
  pending : listing.point = .subleaves → listing.j ≠ 0 → listing.pending.Unindexed host
  inside : listing.point = .subleaves ∨ listing.point = .counted → listing.i ∈ indexedLeaves

theorem Flagged.table_append (flagged : Flagged host before) {entry : KvmCpuidEntry2}
    (unindexed : entry.Unindexed host) :
    ∀ other ∈ before.table ++ [entry], other.Unindexed host := by
  intro other listed
  rcases List.mem_append.mp listed with old | new
  · exact flagged.table other old
  · rw [List.mem_singleton.mp new]
    exact unindexed

theorem Flagged.moves (flagged : Flagged host before) (moves : before.Moves host after) :
    Flagged host after := by
  cases moves with
  | enter pending basic listed indexed =>
      refine ⟨flagged.table, fun _ positive => absurd rfl positive, fun _ => ?_⟩
      rcases indexed with leaf | leaf | leaf <;> simp [leaf, indexedLeaves]
  | count basic listed counted =>
      have indexed : before.i ∈ indexedLeaves := by
        rcases counted with leaf | leaf <;> simp [leaf, indexedLeaves]
      refine ⟨?_, by simp, fun _ => indexed⟩
      exact flagged.table_append (unindexed_indexedEntry indexed host 0)
  | record plain =>
      have outside : before.point ≠ .subleaves ∧ before.point ≠ .counted := by
        rcases plain with ⟨basic, _⟩ | extended <;> simp [*]
      refine ⟨flagged.table_append (unindexed_plainEntry host before.i), ?_, ?_⟩
      · exact fun inside => absurd inside outside.1
      · exact fun inside => absurd inside (not_or.mpr outside)
  | skip plain =>
      have outside : before.point ≠ .subleaves ∧ before.point ≠ .counted := by
        rcases plain with ⟨basic, _⟩ | extended <;> simp [*]
      refine ⟨flagged.table, ?_, ?_⟩
      · exact fun inside => absurd inside outside.1
      · exact fun inside => absurd inside (not_or.mpr outside)
  | extend => exact ⟨flagged.table, by simp, by simp⟩
  | last inside =>
      have indexed := flagged.inside (Or.inl inside)
      refine ⟨?_, by simp, by simp⟩
      exact flagged.table_append (unindexed_indexedEntry indexed host before.j)
  | retry inside =>
      have indexed := flagged.inside (Or.inl inside)
      refine ⟨flagged.table, fun _ _ => ?_, fun _ => indexed⟩
      exact unindexed_indexedEntry indexed host before.j
  | next inside =>
      have indexed := flagged.inside (Or.inl inside)
      refine ⟨?_, fun _ _ _ => Or.inr rfl, fun _ => indexed⟩
      exact flagged.table_append (unindexed_indexedEntry indexed host before.j)
  | close inside leaf done =>
      have pending : before.pending.Unindexed host := by
        apply flagged.pending inside
        rw [done]
        decide
      exact ⟨flagged.table_append pending, by simp, by simp⟩
  | tick inside =>
      have indexed := flagged.inside (Or.inr inside)
      refine ⟨?_, by simp [inside], fun _ => indexed⟩
      exact flagged.table_append (unindexed_indexedEntry indexed host before.j)
  | stop => exact ⟨flagged.table, by simp, by simp⟩

end Listing

section Shared

variable {host : Host} {locals : Locals} {fuel : ℕ} {nent : BitVec 32}
  {entries : ℕ → KvmCpuidEntry2}

theorem flagged_of_reaches (path : Loop.Reaches (round host) (start host) locals) :
    Sane host locals ∧ locals.listing.Flagged host := by
  apply listing_of_reaches (sane_start host) ?_ ?_ path
  · refine ⟨?_, ?_, ?_⟩
    all_goals simp [start, Locals.listing, Locals.finished]
  · intro before after _ moves flagged
    exact flagged.moves moves

theorem unindexed_of_called
    (called : vmInitCpuid host fuel = some (.setCpuid2 nent entries)) {k : ℕ}
    (inside : k < nent.toNat) : (entries k).Unindexed host := by
  rcases exists_last_of_called called with ⟨last, path, _, _, table⟩
  apply (flagged_of_reaches path).2.table
  rw [table]
  exact mem_listed.mpr ⟨k, inside, rfl⟩

theorem flags_indexedEntry (host : Host) (i j : BitVec 32) : (indexedEntry host i j).flags ≠ 0 :=
  show kvmCpuidFlagSignifcantIndex ≠ 0 by decide

/--
For every host for which the ioctl is called: the only entry that leaf 0x1f can have is that of a
leaf without sub-leaves, without the flag, so the table never lists the sub-leaves.
-/
theorem not_sharedListed (host : Host) {fuel : ℕ} {nent : BitVec 32} {entries : ℕ → KvmCpuidEntry2}
    (called : vmInitCpuid host fuel = some (.setCpuid2 nent entries)) :
    (∀ k < nent.toNat, (entries k).function = 0x1f → entries k = plainEntry host 0x1f) ∧
      ¬SharedListed host nent entries := by
  have plain : ∀ k < nent.toNat, (entries k).function = 0x1f →
      entries k = plainEntry host 0x1f := by
    intro k inside leaf
    have outside : (entries k).function ∉ indexedLeaves := by
      rw [leaf]
      decide
    rcases unindexed_of_called called inside outside with same | blank
    · rw [same, leaf]
    · rw [blank] at leaf
      exact absurd leaf (by decide)
  refine ⟨plain, ?_⟩
  intro complete
  rcases complete 0 (sharedDue_zero host) with ⟨k, inside, same⟩
  apply flags_indexedEntry host 0x1f 0
  rw [← same, plain k inside (by rw [same]; rfl)]
  rfl

/-- Two levels of topology, and nothing else. -/
def multiDieHost : Host := fun leaf subleaf =>
  if leaf = 0 then { eax := 0x1f }
  else if leaf = 0x1f ∧ subleaf = 0 then { eax := 1, ebx := 2, ecx := 0x100 }
  else if leaf = 0x1f ∧ subleaf = 1 then { eax := 4, ebx := 8, ecx := 0x201 }
  else {}

/-- The table that the ioctl is called with. -/
def calledWith : Option Outcome → Option (List KvmCpuidEntry2)
  | some (.setCpuid2 nent entries) => some (listed entries nent.toNat)
  | _ => none

theorem exists_called_of_calledWith {ended : Option Outcome} {table : List KvmCpuidEntry2}
    (called : calledWith ended = some table) :
    ∃ nent entries, ended = some (.setCpuid2 nent entries) ∧ listed entries nent.toNat = table := by
  match ended, called with
  | some (.setCpuid2 nent entries), called => exact ⟨nent, entries, rfl, Option.some.inj called⟩

theorem calledWith_multiDieHost :
    calledWith (vmInitCpuid multiDieHost 120) =
      some [plainEntry multiDieHost 0, indexedEntry multiDieHost 4 0, indexedEntry multiDieHost 7 0,
        indexedEntry multiDieHost 0xb 0, indexedEntry multiDieHost 0xd 63,
        indexedEntry multiDieHost 0x14 0, plainEntry multiDieHost 0x1f] := by
  decide +kernel

/-- The host has sub-leaves 0, 1 and 2 to list, the last with no further level. -/
theorem not_sharedListed_multiDieHost : ∃ nent entries,
    vmInitCpuid multiDieHost 120 = some (.setCpuid2 nent entries) ∧
      0x1f ≤ (multiDieHost 0 0).eax ∧ SharedDue multiDieHost 2 ∧
      ¬SharedListed multiDieHost nent entries := by
  rcases exists_called_of_calledWith calledWith_multiDieHost with ⟨nent, entries, called, _⟩
  refine ⟨nent, entries, called, by decide, ⟨by decide, ?_⟩, (not_sharedListed _ called).2⟩
  intro earlier before
  have first : earlier = 0 ∨ earlier = 1 := by
    rcases Counter.lt_add_one_cases (show earlier < 1 + 1 from before) with before | same
    · rcases Counter.lt_add_one_cases (show earlier < 0 + 1 from before) with before | same
      · exact absurd before BitVec.not_lt_zero
      · exact Or.inl same
    · exact Or.inr same
  rcases first with rfl | rfl <;> decide

theorem sharedListed_fails : ¬∀ (host : Host) (fuel : ℕ) (nent : BitVec 32)
    (entries : ℕ → KvmCpuidEntry2), 0x1f ≤ (host 0 0).eax →
    vmInitCpuid host fuel = some (.setCpuid2 nent entries) → SharedListed host nent entries := by
  intro claimed
  rcases exists_called_of_calledWith calledWith_multiDieHost with ⟨nent, entries, called, table⟩
  have listing := claimed multiDieHost 120 nent entries (by decide) called
  rcases listing 0 (sharedDue_zero multiDieHost) with ⟨k, inside, same⟩
  have inTable : entries k ∈ listed entries nent.toNat := mem_listed.mpr ⟨k, inside, rfl⟩
  rw [table, same] at inTable
  revert inTable
  decide

end Shared

end VirtLearn.Kvm
