import VirtLearn.Counter
import VirtLearn.Kvm.Cpuid
import VirtLearn.Slots

/-!
# The CPUID table as a list

The array of entries, the pointer into it and the count that goes up and down are one list of
finished entries, which only grows: `Listing` is that view of the local variables, and
`Listing.Moves` says what a round can do to it. The invariant that makes the view right, `Sane`,
also bounds the count, so that no write leaves the table (`sane_round`, `outcome_cases`).
-/

namespace VirtLearn.Kvm

/-- The table as a list: the finished entries, and the one a sub-leaf loop is still at. -/
structure Listing where
  point : Point
  limit : BitVec 32
  i : BitVec 32
  j : BitVec 32
  times : BitVec 32
  table : List KvmCpuidEntry2
  pending : KvmCpuidEntry2

namespace Locals

/-- The entries that are finished: all that are counted, save the one a sub-leaf loop is at. -/
def finished (locals : Locals) : ℕ :=
  match locals.point with
  | .subleaves => locals.cpuidI.toNat - 1
  | _ => locals.cpuidI.toNat

def listing (locals : Locals) : Listing where
  point := locals.point
  limit := locals.limit
  i := locals.i
  j := locals.j
  times := locals.times
  table := listed locals.entries locals.finished
  pending :=
    match locals.point with
    | .subleaves => locals.entries locals.c
    | _ => {}

theorem listing_of_ne {locals : Locals} (outside : locals.point ≠ .subleaves) :
    locals.listing =
      { point := locals.point
        limit := locals.limit
        i := locals.i
        j := locals.j
        times := locals.times
        table := listed locals.entries locals.cpuidI.toNat
        pending := {} } := by
  cases point : locals.point <;> simp_all [listing, finished]

theorem listing_of_subleaves {locals : Locals} {count : ℕ} (inside : locals.point = .subleaves)
    (counted : locals.cpuidI.toNat = count + 1) :
    locals.listing =
      { point := locals.point
        limit := locals.limit
        i := locals.i
        j := locals.j
        times := locals.times
        table := listed locals.entries count
        pending := locals.entries locals.c } := by
  simp [listing, finished, inside, counted]

end Locals

def plainEntry (host : Host) (i : BitVec 32) : KvmCpuidEntry2 :=
  { function := i, regs := host i 0 }

def indexedEntry (host : Host) (i j : BitVec 32) : KvmCpuidEntry2 :=
  { function := i, index := j, flags := kvmCpuidFlagSignifcantIndex, regs := host i j }

/-- Sub-leaf `j` of leaf 4 or 0xb is the last one. -/
def EndsAt (host : Host) (i j : BitVec 32) : Prop :=
  i = 4 ∧ (host i j).eax = 0 ∨ i = 0xb ∧ (host i j).ecx &&& 0xff00 = 0

namespace Listing

/-- What a round can do to the list, with the guard it took. -/
inductive Moves (host : Host) (before : Listing) : Listing → Prop where
  | enter (pending : KvmCpuidEntry2) (basic : before.point = .basic)
      (listed : before.i ≤ before.limit)
      (indexed : before.i = 4 ∨ before.i = 0xb ∨ before.i = 0xd) :
      Moves host before { before with point := .subleaves, j := 0, pending }
  | count (basic : before.point = .basic) (listed : before.i ≤ before.limit)
      (counted : before.i = 7 ∨ before.i = 0x14) :
      Moves host before
        { before with
          point := .counted
          times := (host before.i 0).eax
          j := 1
          table := before.table ++ [indexedEntry host before.i 0] }
  | record (plain : before.point = .basic ∧ before.i ≠ 4 ∧ before.i ≠ 7 ∧ before.i ≠ 0xb ∧
        before.i ≠ 0xd ∧ before.i ≠ 0x14 ∨ before.point = .extended)
      (listed : before.i ≤ before.limit) (filled : host before.i 0 ≠ {}) :
      Moves host before
        { before with
          i := before.i + 1
          table := before.table ++ [plainEntry host before.i] }
  | skip (plain : before.point = .basic ∧ before.i ≠ 4 ∧ before.i ≠ 7 ∧ before.i ≠ 0xb ∧
        before.i ≠ 0xd ∧ before.i ≠ 0x14 ∨ before.point = .extended)
      (listed : before.i ≤ before.limit) (empty : host before.i 0 = {}) :
      Moves host before { before with i := before.i + 1 }
  | extend (basic : before.point = .basic) (passed : ¬before.i ≤ before.limit) :
      Moves host before
        { before with
          point := .extended
          limit := (host 0x80000000 0).eax
          i := 0x80000000 }
  | last (inside : before.point = .subleaves) (ends : EndsAt host before.i before.j) :
      Moves host before
        { before with
          point := .basic
          i := before.i + 1
          table := before.table ++ [indexedEntry host before.i before.j]
          pending := {} }
  | retry (inside : before.point = .subleaves) (leaf : before.i = 0xd) (below : before.j ≠ 64)
      (empty : (host before.i before.j).eax = 0) :
      Moves host before
        { before with j := before.j + 1, pending := indexedEntry host before.i before.j }
  | next (inside : before.point = .subleaves) (below : before.i = 0xd → before.j ≠ 64)
      (goesOn : ¬EndsAt host before.i before.j)
      (filled : before.i = 0xd → (host before.i before.j).eax ≠ 0) :
      Moves host before
        { before with
          j := before.j + 1
          table := before.table ++ [indexedEntry host before.i before.j]
          pending := {} }
  | close (inside : before.point = .subleaves) (leaf : before.i = 0xd) (done : before.j = 64) :
      Moves host before
        { before with
          point := .basic
          i := before.i + 1
          table := before.table ++ [before.pending]
          pending := {} }
  | tick (inside : before.point = .counted) (more : before.j ≤ before.times) :
      Moves host before
        { before with
          j := before.j + 1
          table := before.table ++ [indexedEntry host before.i before.j] }
  | stop (inside : before.point = .counted) (done : ¬before.j ≤ before.times) :
      Moves host before { before with point := .basic, i := before.i + 1 }

end Listing

/-! ### The invariant of the variables -/

/-- The slots from `count` on are as `memset` left them. -/
def BlankFrom (locals : Locals) (count : ℕ) : Prop :=
  ∀ k, count ≤ k → locals.entries k = {}

/-- What holds at every loop head. -/
structure Sane (host : Host) (locals : Locals) : Prop where
  bounded : locals.cpuidI.toNat ≤ kvmMaxCpuidEntries
  basicLimit : locals.point ≠ .extended → locals.limit = (host 0 0).eax
  extendedLimit : locals.point = .extended → locals.limit = (host 0x80000000 0).eax
  /-- The next slot may hold a leaf given back, whose index was never written. -/
  unwritten : (locals.entries locals.cpuidI.toNat).index = 0
  blank : BlankFrom locals (locals.cpuidI.toNat + 1)
  fresh : locals.point = .subleaves → locals.entries locals.cpuidI.toNat = {}
  inSubleaves : locals.point = .subleaves →
    (locals.i = 4 ∨ locals.i = 0xb ∨ locals.i = 0xd) ∧ locals.c + 1 = locals.cpuidI.toNat ∧
      (locals.i = 0xd → locals.j.toNat ≤ 64)

theorem sane_start (host : Host) : Sane host (start host) where
  bounded := Nat.zero_le _
  basicLimit := fun _ => rfl
  extendedLimit := by simp [start]
  unwritten := rfl
  blank := fun _ _ => rfl
  fresh := fun _ => rfl
  inSubleaves := by simp [start]

namespace Locals

variable {host : Host} {locals after : Locals}

theorem lt_of_not_full (bounded : locals.cpuidI.toNat ≤ kvmMaxCpuidEntries)
    (notFull : ¬locals.full) : locals.cpuidI.toNat < kvmMaxCpuidEntries := by
  apply Nat.lt_of_le_of_ne bounded
  intro same
  apply notFull
  rw [full, ← same, BitVec.ofNat_toNat, BitVec.setWidth_eq]

theorem toNat_allot (room : locals.cpuidI.toNat < kvmMaxCpuidEntries) :
    locals.allot.cpuidI.toNat = locals.cpuidI.toNat + 1 := by
  simp only [kvmMaxCpuidEntries] at room
  exact Counter.toNat_add_one (by omega)

theorem store_of_lt (inside : locals.c < kvmMaxCpuidEntries) (entry : KvmCpuidEntry2)
    (rest : Locals → Locals ⊕ Outcome) :
    locals.store entry rest =
      rest { locals with entries := Function.update locals.entries locals.c entry } :=
  if_pos inside

/-- The entry a leaf without sub-leaves writes, the index of its slot being unwritten. -/
theorem plainLeaf_allot (room : locals.cpuidI.toNat < kvmMaxCpuidEntries)
    (unwritten : (locals.entries locals.cpuidI.toNat).index = 0) :
    locals.allot.plainLeaf host =
      .inl
        { locals with
          c := locals.cpuidI.toNat
          cpuidI := if host locals.i 0 = {} then locals.cpuidI else locals.cpuidI + 1
          entries := Function.update locals.entries locals.cpuidI.toNat (plainEntry host locals.i)
          i := locals.i + 1 } := by
  have entry : { locals.entries locals.cpuidI.toNat with
      function := locals.i, flags := 0, regs := host locals.i 0 } = plainEntry host locals.i := by
    simp only [plainEntry, unwritten]
  rw [plainLeaf, store_of_lt (by exact room)]
  simp only [allot, entry, Function.update_self, plainEntry]
  by_cases empty : host locals.i 0 = {}
  · simp only [empty, if_true, BitVec.add_sub_cancel]
  · simp only [empty, if_false]

end Locals

theorem BlankFrom.update {locals : Locals} {count more index : ℕ} (blank : BlankFrom locals count)
    (entry : KvmCpuidEntry2) (below : index < more) (grows : count ≤ more) :
    ∀ k, more ≤ k → Function.update locals.entries index entry k = {} := by
  intro k above
  rw [Function.update_of_ne (by omega)]
  exact blank k (Nat.le_trans grows above)

section Rounds

variable {host : Host} {before after : Locals}

theorem sane_plainLeaf (sane : Sane host before)
    (plain : before.point = .basic ∧ before.i ≠ 4 ∧ before.i ≠ 7 ∧ before.i ≠ 0xb ∧
      before.i ≠ 0xd ∧ before.i ≠ 0x14 ∨ before.point = .extended)
    (listed : before.i ≤ before.limit) (notFull : ¬before.full)
    (leaf : before.allot.plainLeaf host = .inl after) :
    Sane host after ∧ before.listing.Moves host after.listing := by
  have room := Locals.lt_of_not_full sane.bounded notFull
  have outside : before.point ≠ .subleaves := by
    rcases plain with ⟨basic, _⟩ | extended
    · simp [basic]
    · simp [extended]
  have grown := Locals.toNat_allot room
  simp only [Locals.allot] at grown
  rw [Locals.plainLeaf_allot room sane.unwritten] at leaf
  cases Sum.inl.inj leaf
  by_cases empty : host before.i 0 = {}
  · simp only [empty, if_true]
    refine ⟨⟨sane.bounded, sane.basicLimit, sane.extendedLimit, ?_, ?_, ?_, ?_⟩, ?_⟩
    · simp [plainEntry]
    · exact sane.blank.update _ (Nat.lt_succ_self _) (Nat.le_refl _)
    · exact fun inside => absurd inside outside
    · exact fun inside => absurd inside outside
    · rw [Locals.listing_of_ne outside, Locals.listing_of_ne, listed_update_of_le (Nat.le_refl _)]
      · exact .skip plain listed empty
      · exact outside
  · simp only [empty, if_false]
    refine ⟨⟨?_, sane.basicLimit, sane.extendedLimit, ?_, ?_, ?_, ?_⟩, ?_⟩
    · rw [grown]
      exact room
    · simp only [grown, Function.update_of_ne (Nat.succ_ne_self _)]
      rw [sane.blank _ (Nat.le_refl _)]
    · rw [BlankFrom, grown]
      exact sane.blank.update _ (by omega) (Nat.le_succ _)
    · exact fun inside => absurd inside outside
    · exact fun inside => absurd inside outside
    · rw [Locals.listing_of_ne outside, Locals.listing_of_ne, grown, listed_update_succ]
      · exact .record plain listed empty
      · exact outside

theorem sane_basicLeaf (sane : Sane host before) (basic : before.point = .basic)
    (leaf : before.basicLeaf host = .inl after) :
    Sane host after ∧ before.listing.Moves host after.listing := by
  have outside : before.point ≠ .subleaves := by simp [basic]
  have limited := sane.basicLimit (by simp [basic])
  rw [Locals.basicLeaf] at leaf
  split at leaf
  case isFalse passed =>
    cases Sum.inl.inj leaf
    refine ⟨⟨sane.bounded, by simp, fun _ => rfl, sane.unwritten, sane.blank, by simp, by simp⟩, ?_⟩
    rw [Locals.listing_of_ne outside, Locals.listing_of_ne (by simp)]
    exact .extend basic passed
  case isTrue listed =>
    split at leaf
    case isTrue => cases leaf
    case isFalse notFull =>
      have room := Locals.lt_of_not_full sane.bounded notFull
      have grown := Locals.toNat_allot room
      simp only [Locals.allot] at grown
      simp only at leaf
      by_cases indexed : before.allot.i = 4 ∨ before.allot.i = 0xb ∨ before.allot.i = 0xd
      · rw [if_pos indexed] at leaf
        simp only [Locals.allot] at leaf indexed
        cases Sum.inl.inj leaf
        refine ⟨⟨?_, fun _ => limited, by simp, ?_, ?_, ?_, ?_⟩, ?_⟩
        · rw [grown]
          exact room
        · simp only [grown, sane.blank _ (Nat.le_refl _)]
        · rw [BlankFrom, grown]
          exact fun k above => sane.blank k (by omega)
        · simp only [grown, sane.blank _ (Nat.le_refl _), implies_true]
        · exact fun _ => ⟨indexed, grown.symm, fun _ => Nat.zero_le _⟩
        · rw [Locals.listing_of_ne outside, Locals.listing_of_subleaves rfl grown]
          exact .enter _ basic listed indexed
      · rw [if_neg indexed] at leaf
        by_cases counted : before.allot.i = 7 ∨ before.allot.i = 0x14
        · rw [if_pos counted, Locals.store_of_lt (by exact room)] at leaf
          simp only [Locals.allot, Function.update_self] at leaf
          cases Sum.inl.inj leaf
          refine ⟨⟨?_, fun _ => limited, by simp, ?_, ?_, by simp, by simp⟩, ?_⟩
          · rw [grown]
            exact room
          · simp only [grown, Function.update_of_ne (Nat.succ_ne_self _)]
            rw [sane.blank _ (Nat.le_refl _)]
          · rw [BlankFrom, grown]
            exact sane.blank.update _ (by omega) (Nat.le_succ _)
          · rw [Locals.listing_of_ne outside, Locals.listing_of_ne (by simp), grown,
              listed_update_succ]
            exact .count basic listed counted
        · rw [if_neg counted] at leaf
          apply sane_plainLeaf sane ?_ listed notFull leaf
          simp only [not_or] at indexed counted
          exact Or.inl ⟨basic, indexed.1, counted.1, indexed.2.1, indexed.2.2, counted.2⟩

theorem sane_leave (sane : Sane host before) (point : before.point ≠ .extended) :
    Sane host before.leave :=
  ⟨sane.bounded, fun _ => sane.basicLimit point, by simp [Locals.leave], sane.unwritten,
    sane.blank, by simp [Locals.leave], by simp [Locals.leave]⟩

/-- Behind the `cpuid` of a sub-leaf, other than of leaf 0x1f. -/
theorem afterSubleaf_cases {locals : Locals} (notShared : locals.i ≠ 0x1f)
    (written : locals.entries locals.c = indexedEntry host locals.i locals.j)
    (tests : locals.afterSubleaf = .inl after) :
    EndsAt host locals.i locals.j ∧ after = locals.leave ∨
      ¬EndsAt host locals.i locals.j ∧
        (locals.i = 0xd ∧ (host locals.i locals.j).eax = 0 ∧
            after = { locals with j := locals.j + 1 } ∨
          (locals.i = 0xd → (host locals.i locals.j).eax ≠ 0) ∧ ¬locals.full ∧
            after = { locals.allot with j := locals.j + 1 }) := by
  simp only [Locals.afterSubleaf, written, indexedEntry] at tests
  by_cases four : locals.i = 4 ∧ (host locals.i locals.j).eax = 0
  · rw [if_pos four] at tests
    exact Or.inl ⟨Or.inl four, (Sum.inl.inj tests).symm⟩
  rw [if_neg four] at tests
  by_cases eleven : locals.i = 0xb ∧ (host locals.i locals.j).ecx &&& 0xff00 = 0
  · rw [if_pos eleven] at tests
    exact Or.inl ⟨Or.inr eleven, (Sum.inl.inj tests).symm⟩
  rw [if_neg eleven, if_neg (fun shared => notShared shared.1)] at tests
  right
  refine ⟨fun ends => ends.elim four eleven, ?_⟩
  by_cases thirteen : locals.i = 0xd ∧ (host locals.i locals.j).eax = 0
  · rw [if_pos thirteen] at tests
    exact Or.inl ⟨thirteen.1, thirteen.2, (Sum.inl.inj tests).symm⟩
  rw [if_neg thirteen] at tests
  by_cases full : locals.full
  · rw [if_pos full] at tests
    cases tests
  rw [if_neg full] at tests
  exact Or.inr ⟨fun leaf empty => thirteen ⟨leaf, empty⟩, full, (Sum.inl.inj tests).symm⟩

theorem sane_subleaf (sane : Sane host before) (inside : before.point = .subleaves)
    (leaf : before.subleaf host = .inl after) :
    Sane host after ∧ before.listing.Moves host after.listing := by
  rcases sane.inSubleaves inside with ⟨indexed, pending, below⟩
  have bounded := sane.bounded
  have notExtended : before.point ≠ .extended := by simp [inside]
  have notShared : before.i ≠ 0x1f := by
    rcases indexed with leaf | leaf | leaf <;> simp [leaf]
  have inTable : before.c < kvmMaxCpuidEntries := by omega
  let entry := indexedEntry host before.i before.j
  let stored := { before with entries := Function.update before.entries before.c entry }
  -- storing the pending entry touches nothing that is finished or unused
  have storedSane : Sane host stored := by
    have elsewhere : stored.entries before.cpuidI.toNat = {} := by
      simp only [stored]
      rw [Function.update_of_ne (by omega), sane.fresh inside]
    refine ⟨bounded, sane.basicLimit, sane.extendedLimit, ?_, ?_, ?_, sane.inSubleaves⟩
    · rw [elsewhere]
    · exact sane.blank.update _ (show before.c < before.cpuidI.toNat + 1 by omega) (Nat.le_refl _)
    · exact fun _ => elsewhere
  have table : listed stored.entries before.c = listed before.entries before.c :=
    listed_update_of_le (Nat.le_refl _) _ _
  have written : stored.entries stored.c = entry := Function.update_self _ _ _
  have nextBelow : before.i = 0xd → before.j ≠ 64 → (before.j + 1).toNat ≤ 64 := by
    intro leaf other
    have strict : before.j.toNat ≠ 64 := fun same => other (BitVec.eq_of_toNat_eq same)
    have atMost := below leaf
    rw [Counter.toNat_add_one (by omega)]
    omega
  rw [Locals.listing_of_subleaves inside pending.symm]
  rw [Locals.subleaf] at leaf
  split at leaf
  case isTrue done =>
    cases Sum.inl.inj leaf
    refine ⟨sane_leave sane notExtended, ?_⟩
    rw [Locals.listing_of_ne (by simp [Locals.leave])]
    simp only [Locals.leave, ← pending, listed_succ]
    exact .close inside done.1 done.2
  case isFalse notDone =>
    rw [if_neg (fun shared => notShared shared.1), Locals.store_of_lt inTable] at leaf
    rcases @afterSubleaf_cases host after stored notShared written leaf with
      ⟨ends, rfl⟩ | ⟨goesOn, ⟨thirteen, empty, rfl⟩ | ⟨filled, notFull, rfl⟩⟩
    · refine ⟨sane_leave storedSane notExtended, ?_⟩
      rw [Locals.listing_of_ne (by simp [Locals.leave])]
      simp only [Locals.leave, stored, ← pending, listed_update_succ]
      exact .last inside ends
    · refine ⟨⟨bounded, storedSane.basicLimit, storedSane.extendedLimit, storedSane.unwritten,
        storedSane.blank, storedSane.fresh, fun _ => ⟨indexed, pending, fun leaf => ?_⟩⟩, ?_⟩
      · exact nextBelow leaf (fun same => notDone ⟨leaf, same⟩)
      · rw [@Locals.listing_of_subleaves { stored with j := before.j + 1 } _ inside pending.symm]
        simp only [table, written]
        exact .retry (by exact inside) (by exact thirteen) (fun same => notDone ⟨thirteen, same⟩)
          (by exact empty)
    · have room := Locals.lt_of_not_full storedSane.bounded notFull
      have grown := Locals.toNat_allot room
      have unused : stored.allot.entries stored.allot.cpuidI.toNat = {} := by
        rw [grown]
        exact storedSane.blank _ (Nat.le_refl _)
      refine ⟨⟨?_, storedSane.basicLimit, storedSane.extendedLimit, ?_, ?_, fun _ => unused,
        fun _ => ⟨indexed, grown.symm, fun leaf => ?_⟩⟩, ?_⟩
      · rw [grown]
        exact room
      · simp only [unused]
      · intro k above
        simp only [grown] at above
        exact storedSane.blank k (by omega)
      · exact nextBelow leaf (fun same => notDone ⟨leaf, same⟩)
      · rw [@Locals.listing_of_subleaves { stored.allot with j := before.j + 1 } _ inside grown]
        have appended : listed stored.entries stored.cpuidI.toNat =
            listed before.entries before.c ++ [entry] := by
          rw [show stored.cpuidI.toNat = stored.c + 1 from pending.symm, listed_succ, table,
            written]
        have untouched : stored.entries stored.cpuidI.toNat = {} := storedSane.fresh inside
        simp only [Locals.allot, appended, untouched]
        exact .next inside (fun leaf same => notDone ⟨leaf, same⟩) (by exact goesOn)
          (by exact filled)

theorem sane_countedSubleaf (sane : Sane host before) (inside : before.point = .counted)
    (leaf : before.countedSubleaf host = .inl after) :
    Sane host after ∧ before.listing.Moves host after.listing := by
  have outside : before.point ≠ .subleaves := by simp [inside]
  have notExtended : before.point ≠ .extended := by simp [inside]
  rw [Locals.countedSubleaf] at leaf
  split at leaf
  case isFalse done =>
    cases Sum.inl.inj leaf
    refine ⟨sane_leave sane notExtended, ?_⟩
    rw [Locals.listing_of_ne outside, Locals.listing_of_ne (by simp [Locals.leave])]
    exact .stop inside done
  case isTrue more =>
    split at leaf
    case isTrue => cases leaf
    case isFalse notFull =>
      have room := Locals.lt_of_not_full sane.bounded notFull
      have grown := Locals.toNat_allot room
      rw [Locals.store_of_lt (by exact room)] at leaf
      simp only [Locals.allot] at leaf grown
      cases Sum.inl.inj leaf
      refine ⟨⟨?_, sane.basicLimit, sane.extendedLimit, ?_, ?_, fun inSub => absurd inSub outside,
        fun inSub => absurd inSub outside⟩, ?_⟩
      · rw [grown]
        exact room
      · simp only [grown, Function.update_of_ne (Nat.succ_ne_self _)]
        rw [sane.blank _ (Nat.le_refl _)]
      · rw [BlankFrom, grown]
        exact sane.blank.update _ (by omega) (Nat.le_succ _)
      · rw [Locals.listing_of_ne outside, Locals.listing_of_ne (by exact outside), grown,
          listed_update_succ]
        exact .tick inside more

theorem sane_extendedLeaf (sane : Sane host before) (extended : before.point = .extended)
    (leaf : before.extendedLeaf host = .inl after) :
    Sane host after ∧ before.listing.Moves host after.listing := by
  rw [Locals.extendedLeaf] at leaf
  split at leaf
  case isFalse => cases leaf
  case isTrue listed =>
    split at leaf
    case isTrue => cases leaf
    case isFalse notFull => exact sane_plainLeaf sane (Or.inr extended) listed notFull leaf

/-- Every round keeps the invariant and moves the list in one of the ways above. -/
theorem sane_round (sane : Sane host before) (rounded : round host before = .inl after) :
    Sane host after ∧ before.listing.Moves host after.listing := by
  rw [round] at rounded
  cases point : before.point with
  | basic =>
      simp only [point] at rounded
      exact sane_basicLeaf sane point rounded
  | subleaves =>
      simp only [point] at rounded
      exact sane_subleaf sane point rounded
  | counted =>
      simp only [point] at rounded
      exact sane_countedSubleaf sane point rounded
  | extended =>
      simp only [point] at rounded
      exact sane_extendedLeaf sane point rounded

theorem outcome_cases {outcome : Outcome} (sane : Sane host before)
    (ended : round host before = .inr outcome) :
    (∃ stderr, outcome = .failed stderr) ∨
      before.point = .extended ∧ ¬before.i ≤ before.limit ∧
        outcome = .setCpuid2 before.cpuidI before.entries := by
  rw [round] at ended
  cases point : before.point with
  | basic =>
      simp only [point, Locals.basicLeaf] at ended
      left
      split at ended
      case isFalse => cases ended
      case isTrue =>
        split at ended
        case isTrue => exact ⟨_, (Sum.inr.inj ended).symm⟩
        case isFalse notFull =>
          have room := Locals.lt_of_not_full sane.bounded notFull
          rw [Locals.plainLeaf_allot room sane.unwritten,
            Locals.store_of_lt (by exact room)] at ended
          split at ended
          · cases ended
          · split at ended <;> cases ended
  | subleaves =>
      rcases sane.inSubleaves point with ⟨_, pending, _⟩
      have bounded := sane.bounded
      have inTable : before.c < kvmMaxCpuidEntries := by omega
      simp only [point, Locals.subleaf, Locals.store_of_lt inTable, Locals.afterSubleaf] at ended
      left
      repeat' split at ended
      all_goals first
        | cases ended; done
        | exact ⟨_, (Sum.inr.inj ended).symm⟩
  | counted =>
      simp only [point, Locals.countedSubleaf] at ended
      left
      split at ended
      case isFalse => cases ended
      case isTrue =>
        split at ended
        case isTrue => exact ⟨_, (Sum.inr.inj ended).symm⟩
        case isFalse notFull =>
          have room := Locals.lt_of_not_full sane.bounded notFull
          rw [Locals.store_of_lt (by exact room)] at ended
          cases ended
  | extended =>
      simp only [point, Locals.extendedLeaf] at ended
      split at ended
      case isFalse passed => exact Or.inr ⟨rfl, passed, (Sum.inr.inj ended).symm⟩
      case isTrue =>
        left
        split at ended
        case isTrue => exact ⟨_, (Sum.inr.inj ended).symm⟩
        case isFalse notFull =>
          have room := Locals.lt_of_not_full sane.bounded notFull
          rw [Locals.plainLeaf_allot room sane.unwritten] at ended
          cases ended

end Rounds

end VirtLearn.Kvm
