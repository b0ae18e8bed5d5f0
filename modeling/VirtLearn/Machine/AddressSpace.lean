import VirtLearn.Machine.Paging
import VirtLearn.Transition

/-!
# Programs behind an address space

A program in user mode sees memory through the tables of the processor. Each byte of an access is
translated; the access faults where one of them is not for user mode, and leaves memory to a device
where one has no memory behind it. The processor marks the entries that it has used, so that memory
changes with every access.

If no place that user mode gets to is one that the translation depends on, and no two addresses lead
to one place, then the program cannot tell its memory from a flat one, and what is to be kept from
it stays as it is (`simulation_flat`).
-/

namespace VirtLearn

/-- An access of a program in user mode. -/
inductive Access where
  | load (base : Address) (count : ℕ)
  | store (base : Address) (bytes : List Byte)

inductive Answer where
  | fault
  /-- Some byte has no memory behind it. -/
  | device
  | done (bytes : List Byte)
deriving DecidableEq

/-- The entry of a table, where `user` is to say that user mode may store. -/
def Memory.writableAt (memory : Memory) (table index : ℕ) : Option PageEntry :=
  let bits := memory.read 64 (BitVec.ofNat 64 (table + 8 * index))
  (PageEntry.ofBits bits).map fun entry => { entry with user := entry.user && bits.getLsbD 1 }

/-- Bytes stored one by one, each to a place of its own. -/
def Memory.scatter (memory : Memory) : List Address → List Byte → Memory
  | place :: places, byte :: bytes => Function.update (memory.scatter places bytes) place byte
  | _, _ => memory

namespace Paging

/-- The place that user mode gets to with an address. -/
def reach (entryAt : ℕ → ℕ → Option PageEntry) (root : ℕ) (address : Address) : Option Address :=
  if Canonical address then
    (walk entryAt root address).bind fun translation =>
      if translation.user then some (BitVec.ofNat 64 translation.physical) else none
  else none

/-- The places of the present entries that a walk comes to. -/
def walkPlaces (entryAt : ℕ → ℕ → Option PageEntry) (address : ℕ) : ℕ → ℕ → List Address
  | 0, _ => []
  | level + 1, table =>
      let index := address / span level % 512
      match entryAt table index with
      | none => []
      | some entry =>
          BitVec.ofNat 64 (table + 8 * index) ::
            if level = 1 ∧ entry.large then [] else walkPlaces entryAt address level entry.frame

end Paging

/--
The addresses whose entries the processor marks in the course of an access, and those among them
that it stores to. Which they are is up to the processor, which may walk ahead of need.
-/
structure Walks where
  used : List Address := []
  stored : List Address := []

/-- The bit of an entry that tells that it was used. -/
def accessedBit : Byte :=
  0x20

/-- The bit of an entry that tells that a store went through it. -/
def dirtyBit : Byte :=
  0x40

/-- Bits set in some places. -/
def Memory.mark (memory : Memory) (bits : Byte) (places : List Address) : Memory :=
  fun place => if place ∈ places then memory place ||| bits else memory place

/-- The entries on the way are marked as accessed, and the last ones for stores as dirty. -/
def Memory.markWalks (root : ℕ) (memory : Memory) (walks : Walks) : Memory :=
  let places := fun address : Address =>
    Paging.walkPlaces memory.entryAt address.toNat 4 root
  (memory.mark accessedBit (walks.used.flatMap places)).mark dirtyBit
    (walks.stored.filterMap fun address => (places address).getLast?)

/-- The places behind consecutive addresses, if there is one behind each. -/
def placesOf (space : Address → Option Address) (base : Address) : ℕ → Option (List Address)
  | 0 => some []
  | count + 1 =>
      (space base).bind fun place => (placesOf space (base + 1) count).map (place :: ·)

/--
Memory behind two address spaces, one for loads and one for stores, which may depend on it. `touch`
is what the processor does to memory with an access besides.
-/
def behind (loads stores : Memory → Address → Option Address) (touch : Memory → Walks → Memory)
    (ram : Address → Bool) (initial : Memory) : Service Memory (Access × Walks) Answer where
  initial
  serve memory request :=
    let touched := touch memory request.2
    match request.1 with
    | .load base count =>
        match placesOf (loads memory) base count with
        | none => some (touched, .fault)
        | some places =>
            if places.all ram then some (touched, .done (places.map touched))
            else some (touched, .device)
    | .store base bytes =>
        match placesOf (stores memory) base bytes.length with
        | none => some (touched, .fault)
        | some places =>
            if places.all ram then some (touched.scatter places bytes, .done [])
            else some (touched, .device)

/-- Physical memory behind the tables in it, as user mode sees it. -/
def userMode (ram : Address → Bool) (root : ℕ) :
    Memory → Service Memory (Access × Walks) Answer :=
  behind (fun memory => Paging.reach memory.entryAt root)
    (fun memory => Paging.reach memory.writableAt root) (Memory.markWalks root) ram

/-- An address that may be used is its own place. -/
def own (usable : Address → Bool) (address : Address) : Option Address :=
  if usable address then some address else none

/-- Memory in which each address that may be used is its own place. -/
def flat (usable ram : Address → Bool) : Memory → Service Memory (Access × Walks) Answer :=
  behind (fun _ => own usable) (fun _ => own usable) (fun memory _ => memory) ram

/-! ### The bits that the processor sets -/

section Marks

variable {memory : Memory} {place : Address}

/-- Both bits. -/
def markBits : Byte :=
  accessedBit ||| dirtyBit

theorem mark_of_not_mem {bits : Byte} {places : List Address} (outside : place ∉ places) :
    memory.mark bits places place = memory place :=
  if_neg outside

theorem mark_or {bits : Byte} (inMarks : bits ||| markBits = markBits) (places : List Address) :
    memory.mark bits places place ||| markBits = memory place ||| markBits := by
  rw [Memory.mark]
  split
  · rw [BitVec.or_assoc, inMarks]
  · rfl

/-- No other bit changes. -/
theorem markWalks_or (root : ℕ) (walks : Walks) :
    memory.markWalks root walks place ||| markBits = memory place ||| markBits := by
  rw [Memory.markWalks, mark_or (by decide), mark_or (by decide)]

/-- Nothing but entries on the way changes. -/
theorem markWalks_of_not_walked {root : ℕ} (walks : Walks)
    (apart : ∀ address : ℕ, place ∉ Paging.walkPlaces memory.entryAt address 4 root) :
    memory.markWalks root walks place = memory place := by
  have notUsed : place ∉ walks.used.flatMap fun address : Address =>
      Paging.walkPlaces memory.entryAt address.toNat 4 root := by
    intro used
    rcases List.mem_flatMap.mp used with ⟨address, -, walked⟩
    exact apart _ walked
  have notStored : place ∉ walks.stored.filterMap fun address : Address =>
      (Paging.walkPlaces memory.entryAt address.toNat 4 root).getLast? := by
    intro stored
    rcases List.mem_filterMap.mp stored with ⟨address, -, last⟩
    exact apart _ (List.mem_of_getLast? last)
  rw [Memory.markWalks, mark_of_not_mem notStored, mark_of_not_mem notUsed]

/-- A walk comes to entries of the tables that are listed only. -/
theorem Paging.mem_walkPlaces {entryAt : ℕ → ℕ → Option PageEntry} {tables : List ℕ}
    {listing : Paging.Listing} (described : Paging.Describes entryAt tables listing)
    {level table address : ℕ} (covered : Paging.covers tables listing level table = true)
    (walked : place ∈ Paging.walkPlaces entryAt address level table) :
    ∃ table ∈ tables, ∃ index < 512, place = BitVec.ofNat 64 (table + 8 * index) := by
  induction level generalizing table with
  | zero => exact absurd walked List.not_mem_nil
  | succ level ih =>
      simp only [Paging.covers, Bool.and_eq_true, decide_eq_true_eq, List.all_eq_true,
        Bool.or_eq_true] at covered
      rcases covered with ⟨known, coveredBelow⟩
      have inTable : address / Paging.span level % 512 < 512 := Nat.mod_lt _ (by decide)
      simp only [Paging.walkPlaces] at walked
      split at walked
      case h_1 => exact absurd walked List.not_mem_nil
      case h_2 entry present =>
        rcases List.mem_cons.mp walked with rfl | deeper
        · exact ⟨table, known, _, inTable, rfl⟩
        · split at deeper
          case isTrue => exact absurd deeper List.not_mem_nil
          case isFalse inner =>
            have listed := (described.entry table known _ inTable entry).mp present
            exact ih ((coveredBelow _ listed).resolve_left inner) deeper

/-- What an entry says does not depend on the bits that the processor sets. -/
theorem ofBits_or_marks (bits : BitVec 64) :
    PageEntry.ofBits (bits ||| markBits.setWidth 64) = PageEntry.ofBits bits := by
  have others : ∀ bit : ℕ, (markBits.setWidth 64).getLsbD bit = false →
      (bits ||| markBits.setWidth 64).getLsbD bit = bits.getLsbD bit := by
    intro bit unset
    rw [BitVec.getLsbD_or, unset, Bool.or_false]
  have frame : (bits ||| markBits.setWidth 64) &&& 0x000ffffffffff000 =
      bits &&& 0x000ffffffffff000 := by
    rw [BitVec.and_or_distrib_right,
      (by decide : markBits.setWidth 64 &&& 0x000ffffffffff000 = 0#64), BitVec.or_zero]
  rw [PageEntry.ofBits, PageEntry.ofBits, frame, others 0 (by decide), others 2 (by decide),
    others 7 (by decide)]

/-- A word whose first byte is as it was but for these bits, and the others are. -/
theorem read_or_marks {other : Memory} {base : Address}
    (first : memory base ||| markBits = other base ||| markBits)
    (others : ∀ place, Within place (base + 1) 7 → memory place = other place) :
    memory.read 64 base ||| markBits.setWidth 64 =
      other.read 64 base ||| markBits.setWidth 64 := by
  have parts : ∀ memory : Memory, memory.read 64 base ||| markBits.setWidth 64 =
      memory.read 56 (base + 1) ++ (memory base ||| markBits) := by
    intro memory
    have split := @Memory.read_append 8 56 (by decide) memory base
    rw [Memory.read_eight] at split
    have marks : markBits.setWidth 64 = 0#56 ++ markBits := by decide
    rw [split, marks, BitVec.or_append, BitVec.or_zero]
    rfl
  rw [parts, parts, first]
  have rest : memory.read 56 (base + 1) = other.read 56 (base + 1) :=
    Memory.read_congr (by decide) others
  rw [rest]

end Marks

/-! ### The simulation -/

section Simulation

variable {loads stores : Memory → Address → Option Address} {touch : Memory → Walks → Memory}
  {ram usable : Address → Bool} {space : Address → Option Address} {initial : Memory}
  {kept : Address → Byte → Byte → Prop}

/-- What a flat memory starts with. -/
def seen (space : Address → Option Address) (memory : Memory) : Memory :=
  fun address => (space address).elim 0 memory

/-- Of each byte what is to be kept of it is, and the rest is as in the flat memory. -/
structure Behind (space : Address → Option Address) (kept : Address → Byte → Byte → Prop)
    (initial physical virtual : Memory) : Prop where
  kept : ∀ place, kept place (physical place) (initial place)
  same : ∀ address place, space address = some place → physical place = virtual address

/-- An address space that stores through it cannot change, and without aliases. -/
structure Sealed (loads stores : Memory → Address → Option Address)
    (touch : Memory → Walks → Memory) (space : Address → Option Address)
    (kept : Address → Byte → Byte → Prop) (initial : Memory) : Prop where
  refl : ∀ place byte, kept place byte byte
  stable : ∀ memory : Memory, (∀ place, kept place (memory place) (initial place)) →
    loads memory = space ∧ stores memory = space
  touched : ∀ memory : Memory, (∀ place, kept place (memory place) (initial place)) →
    ∀ walks, (∀ place, kept place (touch memory walks place) (initial place)) ∧
      ∀ address place, space address = some place → touch memory walks place = memory place
  apart : ∀ address place, space address = some place → ∀ now was, kept place now was
  injective : ∀ address other place, space address = some place → space other = some place →
    address = other

theorem Behind.touches {physical virtual : Memory}
    (guarded : Sealed loads stores touch space kept initial)
    (related : Behind space kept initial physical virtual) (walks : Walks) :
    Behind space kept initial (touch physical walks) virtual := by
  rcases guarded.touched physical related.kept walks with ⟨keeps, apart⟩
  refine ⟨keeps, ?_⟩
  intro address place found
  rw [apart address place found, related.same address place found]

/-- The places of an access and the addresses they are behind. -/
theorem placesOf_own (mapped : ∀ address, usable address = (space address).isSome)
    (base : Address) (count : ℕ) :
    (placesOf space base count = none ∧ placesOf (own usable) base count = none) ∨
      ∃ places addresses, placesOf space base count = some places ∧
        placesOf (own usable) base count = some addresses ∧
        List.Forall₂ (fun address place => space address = some place) addresses places := by
  induction count generalizing base with
  | zero => exact Or.inr ⟨[], [], rfl, rfl, .nil⟩
  | succ count ih =>
      rw [placesOf, placesOf]
      cases found : space base with
      | none =>
          have unusable : own usable base = none := by simp [own, mapped, found]
          rw [unusable]
          exact Or.inl ⟨rfl, rfl⟩
      | some place =>
          have used : own usable base = some base := by simp [own, mapped, found]
          rw [used, Option.bind_some, Option.bind_some]
          rcases ih (base + 1) with ⟨missing, missingOwn⟩ | ⟨places, addresses, whole, owned, each⟩
          · rw [missing, missingOwn]
            exact Or.inl ⟨rfl, rfl⟩
          · rw [whole, owned]
            exact Or.inr ⟨_, _, rfl, rfl, .cons found each⟩

theorem all_ram {addresses places : List Address}
    (each : List.Forall₂ (fun address place => space address = some place) addresses places) :
    (addresses.all fun address => (space address).any ram) = places.all ram := by
  induction each with
  | nil => rfl
  | cons found _ ih => simp [found, ih]

theorem Behind.map {physical virtual : Memory} {addresses places : List Address}
    (related : Behind space kept initial physical virtual)
    (each : List.Forall₂ (fun address place => space address = some place) addresses places) :
    places.map physical = addresses.map virtual := by
  induction each with
  | nil => rfl
  | cons found _ ih => rw [List.map_cons, List.map_cons, ih, related.same _ _ found]

theorem Behind.scatter {physical virtual : Memory} {addresses places : List Address}
    (guarded : Sealed loads stores touch space kept initial)
    (related : Behind space kept initial physical virtual)
    (each : List.Forall₂ (fun address place => space address = some place) addresses places)
    (bytes : List Byte) :
    Behind space kept initial (physical.scatter places bytes)
      (virtual.scatter addresses bytes) := by
  induction each generalizing bytes with
  | nil => exact related
  | @cons address place addresses places found _ ih =>
      cases bytes with
      | nil => exact related
      | cons byte rest =>
          constructor
          · intro other
            by_cases here : other = place
            · subst here
              exact guarded.apart address other found _ _
            · rw [Memory.scatter, Function.update_of_ne here]
              exact (ih rest).kept other
          · intro other target reached
            by_cases here : other = address
            · subst here
              rw [found] at reached
              cases reached
              simp [Memory.scatter]
            · have different : target ≠ place := by
                rintro rfl
                exact here (guarded.injective other address target reached found)
              rw [Memory.scatter, Memory.scatter, Function.update_of_ne different,
                Function.update_of_ne here]
              exact (ih rest).same other target reached

/-- The program is answered as over a flat memory, and what is to be kept is kept. -/
theorem simulation_flat (guarded : Sealed loads stores touch space kept initial)
    (mapped : ∀ address, usable address = (space address).isSome) :
    Simulation (behind loads stores touch ram initial)
      (flat usable (fun address => (space address).any ram) (seen space initial))
      (Behind space kept initial) where
  initial := by
    refine ⟨fun place => guarded.refl place _, ?_⟩
    intro address place found
    simp [flat, behind, seen, found]
  serve := by
    rintro physical virtual ⟨access, walks⟩ related
    rcases guarded.stable physical related.kept with ⟨loaded, stored⟩
    have touched := related.touches guarded walks
    cases access with
    | load base count =>
        rcases placesOf_own mapped base count with ⟨missing, missingOwn⟩ |
          ⟨places, addresses, found, owned, each⟩
        · refine ⟨touch physical walks, virtual, .fault, ?_, ?_, touched⟩
          · simp [behind, loaded, missing]
          · simp [flat, behind, missingOwn]
        · have backed := @all_ram ram space _ _ each
          cases inRam : places.all ram with
          | false =>
              refine ⟨touch physical walks, virtual, .device, ?_, ?_, touched⟩
              · simp only [behind, loaded, found, inRam]
                rfl
              · simp only [flat, behind, owned, backed, inRam]
                rfl
          | true =>
              refine ⟨touch physical walks, virtual, .done (places.map (touch physical walks)), ?_,
                ?_, touched⟩
              · simp only [behind, loaded, found, inRam]
                rfl
              · simp only [flat, behind, owned, backed, inRam, touched.map each]
                rfl
    | store base bytes =>
        rcases placesOf_own mapped base bytes.length with ⟨missing, missingOwn⟩ |
          ⟨places, addresses, found, owned, each⟩
        · refine ⟨touch physical walks, virtual, .fault, ?_, ?_, touched⟩
          · simp [behind, stored, missing]
          · simp [flat, behind, missingOwn]
        · have backed := @all_ram ram space _ _ each
          cases inRam : places.all ram with
          | false =>
              refine ⟨touch physical walks, virtual, .device, ?_, ?_, touched⟩
              · simp only [behind, stored, found, inRam]
                rfl
              · simp only [flat, behind, owned, backed, inRam]
                rfl
          | true =>
              refine ⟨(touch physical walks).scatter places bytes, virtual.scatter addresses bytes,
                .done [], ?_, ?_, touched.scatter guarded each bytes⟩
              · simp only [behind, stored, found, inRam]
                rfl
              · simp only [flat, behind, owned, backed, inRam]
                rfl

end Simulation

end VirtLearn
