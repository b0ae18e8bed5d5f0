import VirtLearn.Kvm.CpuidListing

/-!
# Termination of the CPUID enumeration

The limits of the leaf loops and the ends of the sub-leaf loops come from the host. Two loops do
not end by themselves if the limit is the largest word; they end because each pass over leaf 0 or
leaf 0x80000000 takes a slot of the table, which is finite.
-/

namespace VirtLearn.Kvm

namespace Listing

/-- The table slots taken, with the one a sub-leaf loop is at. -/
def taken (listing : Listing) : ℕ :=
  match listing.point with
  | .subleaves => listing.table.length + 1
  | _ => listing.table.length

def ahead (listing : Listing) : ℕ :=
  match listing.point with
  | .basic => if listing.i ≤ listing.limit then 2 else 1
  | .extended => 0
  | _ => 2

/--
How far the counter of the current loop is from the point where it must have taken a slot: the
counters of leaves wrap around to leaf 0 or 0x80000000, which is not empty if the limit is that
large.
-/
def distance (listing : Listing) : ℕ :=
  match listing.point with
  | .basic => (0 - listing.i).toNat
  | .subleaves => 2 ^ 32 + (64 - listing.j.toNat)
  | .counted => 2 ^ 32
  | .extended => (0x80000000 - listing.i).toNat

def rank (listing : Listing) : ℕ :=
  (listing.ahead * (kvmMaxCpuidEntries + 1) + (kvmMaxCpuidEntries - listing.taken)) * 2 ^ 33 +
    listing.distance

theorem ahead_le (listing : Listing) : listing.ahead ≤ 2 := by
  rw [ahead]
  split
  · split <;> omega
  · omega
  · omega

theorem distance_basic_lt {listing : Listing} (basic : listing.point = .basic) :
    listing.distance < 2 ^ 32 := by
  rw [distance, basic]
  exact (0 - listing.i).isLt

theorem rank_lt_of_basic {before after : Listing} (basic : after.point = .basic)
    (inside : before.ahead = 2) (taken : after.taken = before.taken)
    (far : 2 ^ 32 ≤ before.distance) : after.rank < before.rank := by
  have near := distance_basic_lt basic
  have atMost := after.ahead_le
  simp only [rank, kvmMaxCpuidEntries, taken, inside]
  omega

theorem rank_lt_of_taken {before after : Listing} (inside : before.ahead = 2 ∨ after.ahead = 0)
    (taken : after.taken = before.taken + 1) (fits : after.taken ≤ kvmMaxCpuidEntries)
    (near : after.distance < 2 ^ 33) : after.rank < before.rank := by
  have atMost := after.ahead_le
  simp only [kvmMaxCpuidEntries] at fits
  simp only [rank, kvmMaxCpuidEntries, taken]
  omega

theorem Moves.rank_lt {host : Host} {before after : Listing} (moves : before.Moves host after)
    (basicLimit : before.point ≠ .extended → before.limit = (host 0 0).eax)
    (extendedLimit : before.point = .extended → before.limit = (host 0x80000000 0).eax)
    (below : before.point = .subleaves → before.i = 0xd → before.j.toNat ≤ 64)
    (fits : after.taken ≤ kvmMaxCpuidEntries) : after.rank < before.rank := by
  have nearAfter : after.distance < 2 ^ 33 := by
    rw [distance]
    split <;> omega
  cases moves with
  | enter pending basic listed =>
      apply rank_lt_of_taken ?_ ?_ fits nearAfter
      · simp [ahead, basic, listed]
      · simp [taken, basic]
  | count basic listed =>
      apply rank_lt_of_taken ?_ ?_ fits nearAfter
      · simp [ahead, basic, listed]
      · simp [taken, basic]
  | record plain listed =>
      apply rank_lt_of_taken ?_ ?_ fits nearAfter
      · rcases plain with ⟨basic, _⟩ | extended
        · simp [ahead, basic, listed]
        · simp [ahead, extended]
      · rcases plain with ⟨basic, _⟩ | extended
        · simp [taken, basic]
        · simp [taken, extended]
  | skip plain listed empty =>
      rcases plain with ⟨basic, _⟩ | extended
      · by_cases first : before.i = 0
        · -- an empty leaf 0 reports the limit 0, so the loop is over
          have limit : before.limit = 0 := by
            rw [first] at empty
            rw [basicLimit (by simp [basic]), empty]
          have exceeded : ¬before.i + 1 ≤ before.limit := by
            rw [first, limit]
            decide
          simp only [rank, ahead, taken, distance, basic, listed, exceeded, if_true, if_false,
            kvmMaxCpuidEntries]
          omega
        · have closer := Counter.toNat_sub_add_one_lt first
          have fewer := ahead_le { before with i := before.i + 1 }
          simp only [rank, ahead, taken, distance, basic, listed, if_true] at fewer ⊢
          simp only [kvmMaxCpuidEntries]
          omega
      · have other : before.i ≠ 0x80000000 := by
          intro first
          rw [extendedLimit extended, ← first, empty] at listed
          rw [first] at listed
          exact absurd listed (by decide)
        have closer := Counter.toNat_sub_add_one_lt other
        simp only [rank, ahead, taken, distance, extended]
        omega
  | extend basic passed =>
      simp only [rank, ahead, taken, distance, basic, passed, if_false, kvmMaxCpuidEntries]
      omega
  | last inside =>
      apply rank_lt_of_basic rfl
      · simp [ahead, inside]
      · simp [taken, inside]
      · simp [distance, inside]
  | retry inside leaf other =>
      have strict : before.j.toNat ≠ 64 := fun same => other (BitVec.eq_of_toNat_eq same)
      have atMost := below inside leaf
      have grown := Counter.toNat_add_one (show before.j.toNat + 1 < 2 ^ 32 by omega)
      simp only [rank, ahead, taken, distance, inside, grown]
      omega
  | next inside =>
      apply rank_lt_of_taken ?_ ?_ fits nearAfter
      · simp [ahead, inside]
      · simp [taken, inside]
  | close inside =>
      apply rank_lt_of_basic rfl
      · simp [ahead, inside]
      · simp [taken, inside]
      · simp [distance, inside]
  | tick inside =>
      apply rank_lt_of_taken ?_ ?_ fits nearAfter
      · simp [ahead, inside]
      · simp [taken, inside]
  | stop inside =>
      apply rank_lt_of_basic rfl
      · simp [ahead, inside]
      · simp [taken, inside]
      · simp [distance, inside]

end Listing

/-! ### Whole runs -/

section Run

variable {host : Host} {locals : Locals} {outcome : Outcome}

theorem taken_listing (sane : Sane host locals) : locals.listing.taken = locals.cpuidI.toNat := by
  by_cases inside : locals.point = .subleaves
  · rcases sane.inSubleaves inside with ⟨_, pending, _⟩
    simp [Locals.listing_of_subleaves inside pending.symm, Listing.taken, inside, pending]
  · rw [Locals.listing_of_ne inside, Listing.taken]
    cases point : locals.point <;> simp_all

theorem sane_of_reaches (path : Loop.Reaches (round host) (start host) locals) :
    Sane host locals := by
  apply path.invariant (sane_start host)
  intro before after sane rounded
  exact (sane_round sane rounded).1

/-- What every move of the list keeps holds at every loop head. -/
theorem listing_of_reaches {holds : Listing → Prop} {first : Locals} (sane : Sane host first)
    (initial : holds first.listing)
    (kept : ∀ before after : Locals, Sane host before → before.listing.Moves host after.listing →
      holds before.listing → holds after.listing)
    (path : Loop.Reaches (round host) first locals) : Sane host locals ∧ holds locals.listing := by
  apply path.invariant ⟨sane, initial⟩
  rintro before after ⟨saneBefore, held⟩ rounded
  rcases sane_round saneBefore rounded with ⟨saneAfter, moves⟩
  exact ⟨saneAfter, kept before after saneBefore moves held⟩

theorem exists_exits (host : Host) : ∃ outcome, Loop.Exits (round host) (start host) outcome := by
  apply Loop.exists_exits_of_rank (fun locals => locals.listing.rank) (sane_start host)
  · intro before after sane rounded
    exact (sane_round sane rounded).1
  · intro before after sane rounded
    rcases sane_round sane rounded with ⟨saneAfter, moves⟩
    apply moves.rank_lt sane.basicLimit sane.extendedLimit
    · exact fun inside => (sane.inSubleaves inside).2.2
    · rw [taken_listing saneAfter]
      exact saneAfter.bounded

/--
For every host the function ends: it gives up, or it calls the ioctl with at most 100 entries.
It never writes outside of the table, and its count stays between 0 and 100.
-/
theorem vmInitCpuid_bounded (host : Host) :
    (∃ fuel outcome, vmInitCpuid host fuel = some outcome ∧
      ((∃ stderr, outcome = .failed stderr) ∨
        ∃ nent entries, outcome = .setCpuid2 nent entries ∧ nent.toNat ≤ kvmMaxCpuidEntries)) ∧
    ∀ locals, Loop.Reaches (round host) (start host) locals →
      locals.cpuidI.toNat ≤ kvmMaxCpuidEntries := by
  constructor
  · rcases exists_exits host with ⟨outcome, exits⟩
    rcases exits.exists_reaches with ⟨last, path, ended⟩
    rcases exits with ⟨fuel, done⟩
    have sane := sane_of_reaches path
    refine ⟨fuel, outcome, done, ?_⟩
    rcases outcome_cases sane ended with failed | ⟨_, _, called⟩
    · exact Or.inl failed
    · exact Or.inr ⟨_, _, called, sane.bounded⟩
  · intro locals path
    exact (sane_of_reaches path).bounded

end Run

end VirtLearn.Kvm
