import VirtLearn.Guest.UserMode
import VirtLearn.Kvm.RunLoop

/-!
# User mode and the monitor

Behind the pages of the screen and of the doorbell user mode has no memory, so that an access there
is up to the monitor, if KVM knows the instruction. KVM takes the access apart into exits; how it
does that is a parameter (`Splitting`). The monitor knows the whole screen, but of the doorbell only
the first address, although the page behind it has 2 MB. So there are accesses in user mode that end
the monitor, and these are all (`user_ends_monitor_iff`).

Interrupts that the monitor raises are not delivered here.
-/

namespace VirtLearn

namespace Access

def base : Access → Address
  | load base _ => base
  | store base _ => base

def size : Access → ℕ
  | load _ count => count
  | store _ bytes => bytes.length

def isWrite : Access → BitVec 8
  | load _ _ => 0
  | store _ _ => 1

end Access

namespace Guest

open Paging Kvm

/-- The access of one instruction. An exit for a load has what was in the buffer before, and every
exit its replies of the system calls. -/
structure UserAccess where
  access : Access
  walks : Walks := {}
  stale : Address → List Byte := fun _ => []
  replies : Address → Replies := fun _ => {}
  size_pos : 0 < access.size
  size_le : access.size ≤ 64

/--
How KVM takes an access apart that it leaves to the monitor: the lengths of the parts from the first
byte on, each of which is one exit. A part has at most the eight bytes of `mmio.data` in `kvm_run`,
and what fits there and is on one page stays whole.
-/
structure Splitting where
  lengths : Address → ℕ → List ℕ
  covers : ∀ base count, (lengths base count).sum = count
  fits : ∀ base count, ∀ length ∈ lengths base count, 0 < length ∧ length ≤ 8
  whole : ∀ (base : Address) (count : ℕ), 0 < count → count ≤ 8 →
    base.toNat % 4096 + count ≤ 4096 → lengths base count = [count]

namespace UserAccess

/-- The exit for `count` bytes at a place, the first of which is at an offset of the access. -/
def exit (user : UserAccess) (place : Address) (offset count : ℕ) : Return :=
  .mmio
    { physAddr := place
      data :=
        match user.access with
        | .load _ _ => user.stale place
        | .store _ bytes => (bytes.drop offset).take count
      len := BitVec.ofNat 32 count
      isWrite := user.access.isWrite }
    (user.replies place)

/-- The exits for parts of the access from an offset on: none where there is memory. -/
def exitsFrom (user : UserAccess) (space : Address → Option Address) (ram : Address → Bool) :
    ℕ → List ℕ → List Return
  | _, [] => []
  | offset, length :: rest =>
      let behind := user.exitsFrom space ram (offset + length) rest
      match space (user.access.base + BitVec.ofNat 64 offset) with
      | none => behind
      | some place => if ram place then behind else user.exit place offset length :: behind

def exits (user : UserAccess) (split : Splitting) (space : Address → Option Address)
    (ram : Address → Bool) : List Return :=
  user.exitsFrom space ram 0 (split.lengths user.access.base user.access.size)

/-- The addresses that the access may go to. -/
def space (user : UserAccess) (memory : Memory) (root : ℕ) : Address → Option Address :=
  match user.access with
  | .load _ _ => reach memory.entryAt root
  | .store _ _ => reach memory.writableAt root

/-- The access is to the doorbell. -/
def Rings (user : UserAccess) : Prop :=
  user.access.base = 0x8000000

instance (user : UserAccess) : Decidable user.Rings :=
  inferInstanceAs (Decidable (_ = _))

/-- The access is to the pages of the screen. -/
def OnScreen (user : UserAccess) : Prop :=
  0xb8000 ≤ user.access.base.toNat ∧ user.access.base.toNat + user.access.size ≤ 0xba000

/-- The access is to the page of the doorbell. -/
def OnDoorbell (user : UserAccess) : Prop :=
  0x8000000 ≤ user.access.base.toNat ∧ user.access.base.toNat + user.access.size ≤ 0x8200000

instance (user : UserAccess) : Decidable user.OnDoorbell :=
  inferInstanceAs (Decidable (_ ∧ _))

/-- The access is to the page of the doorbell, but not to the address that the monitor knows, or it
has more than eight bytes. -/
def Stray (user : UserAccess) : Prop :=
  user.OnDoorbell ∧ ¬(user.Rings ∧ user.access.size ≤ 8)

instance (user : UserAccess) : Decidable user.Stray :=
  inferInstanceAs (Decidable (_ ∧ ¬(_ ∧ _)))

end UserAccess

/-- The memory of the guest, and the monitor. After a fault the program in user mode does not go on:
no handler of a fault returns to it. -/
structure Hosted where
  memory : Memory
  monitor : Monitor
  faulted : Bool := false

/-- A program in user mode, one access after the other. -/
def hosted (split : Splitting) (name : String) (root : ℕ) (initial : Hosted) :
    System Hosted UserAccess where
  initial
  step := fun host user =>
    if host.faulted ∨ host.monitor.vmm.exited.isSome then none
    else
      match (userMode inSlots root host.memory).serve host.memory (user.access, user.walks) with
      | none => none
      | some (memory, .fault) => some { host with memory, faulted := true }
      | some (memory, .done _) => some { host with memory }
      | some (memory, .device) =>
          some { host with
            memory
            monitor :=
              host.monitor.serveAll name
                (user.exits split (user.space host.memory root) inSlots) }

/-! ### Where an access goes -/

section Places

variable {space : Address → Option Address} {base place : Address} {count : ℕ}
  {places : List Address}

theorem add_one_add (base : Address) (k : ℕ) :
    base + 1 + BitVec.ofNat 64 k = base + BitVec.ofNat 64 (k + 1) := by
  rw [BitVec.ofNat_add, BitVec.add_comm (BitVec.ofNat 64 k), ← BitVec.add_assoc]
  rfl

/-- The places of an access are those behind its addresses. -/
theorem mem_placesOf (found : placesOf space base count = some places) :
    place ∈ places ↔ ∃ k < count, space (base + BitVec.ofNat 64 k) = some place := by
  induction count generalizing base places with
  | zero =>
      cases found
      simp
  | succ count ih =>
      rw [placesOf, Option.bind_eq_some_iff] at found
      rcases found with ⟨first, here, found⟩
      rcases Option.map_eq_some_iff.mp found with ⟨rest, behind, rfl⟩
      rw [List.mem_cons, ih behind]
      constructor
      · rintro (rfl | ⟨k, below, led⟩)
        · exact ⟨0, Nat.succ_pos _, by simpa using here⟩
        · exact ⟨k + 1, Nat.succ_lt_succ below, by rwa [← add_one_add]⟩
      · rintro ⟨_ | k, below, led⟩
        · rw [BitVec.add_zero, here] at led
          exact Or.inl (Option.some.inj led).symm
        · exact Or.inr ⟨k, Nat.lt_of_succ_lt_succ below, by rwa [add_one_add]⟩

theorem isSome_placesOf_iff :
    (placesOf space base count).isSome ↔
      ∀ k < count, (space (base + BitVec.ofNat 64 k)).isSome := by
  induction count generalizing base with
  | zero => simp [placesOf]
  | succ count ih =>
      rw [placesOf]
      cases here : space base with
      | none =>
          rw [Option.bind_none]
          apply iff_of_false (by simp)
          intro mapped
          have first := mapped 0 (Nat.succ_pos _)
          rw [BitVec.add_zero, here] at first
          cases first
      | some place =>
          rw [Option.bind_some, Option.isSome_map, ih]
          constructor
          · rintro mapped (_ | k) below
            · rw [BitVec.add_zero, here]
              rfl
            · rw [← add_one_add]
              exact mapped k (Nat.lt_of_succ_lt_succ below)
          · intro mapped k below
            rw [add_one_add]
            exact mapped (k + 1) (Nat.succ_lt_succ below)

end Places

section Accesses

variable {memory : Memory} {user : UserAccess}

/-- User mode sees memory as it does behind the tables of `init_paging`. -/
def SeesUserSpace (memory : Memory) : Prop :=
  reach memory.entryAt 0x200000 = userSpace ∧ reach memory.writableAt 0x200000 = userSpace

theorem space_eq (sees : SeesUserSpace memory) (user : UserAccess) :
    user.space memory 0x200000 = userSpace := by
  rw [UserAccess.space]
  split
  · exact sees.1
  · exact sees.2

/-- User mode has memory behind an address exactly if the monitor has it behind the place. -/
theorem inSlots_of_userSpace {address place : Address} (led : userSpace address = some place) :
    inSlots place = userMemory address := by
  rw [← congrFun any_inSlots address]
  simp [led]

theorem isSome_of_userSpace {address : Address} (mapped : (userSpace address).isSome = true) :
    0x9000 ≤ address.toNat ∧ address.toNat < 0x1a000 ∨
      0x20000 ≤ address.toNat ∧ address.toNat < 0x21000 ∨
      0xb8000 ≤ address.toNat ∧ address.toNat < 0xba000 ∨
      0x8000000 ≤ address.toNat ∧ address.toNat < 0x8200000 ∨
      0x7fffffe00000 ≤ address.toNat ∧ address.toNat < 0x7fffffe04000 := by
  rw [← isSome_userSpace, Bool.or_eq_true] at mapped
  simp only [userMemory, userDevices, decide_eq_true_eq] at mapped
  omega

/-- The addresses of the devices are their own places. -/
theorem userSpace_device {address : Address}
    (device : 0xb8000 ≤ address.toNat ∧ address.toNat < 0xba000 ∨
      0x8000000 ≤ address.toNat ∧ address.toNat < 0x8200000) :
    userSpace address = some address := by
  have notStack : ¬(0x7fffffe00000 ≤ address.toNat ∧ address.toNat < 0x7fffffe04000) := by
    omega
  have usable : (userMemory address || userDevices address) = true := by
    rw [Bool.or_eq_true]
    right
    exact decide_eq_true device
  rw [userSpace, if_neg notStack, own, if_pos usable]

/-- No window of user mode with memory has one of a device beside it. -/
theorem device_iff {base : Address} {count : ℕ} (pos : 0 < count) (few : count ≤ 64)
    (mapped : ∀ k < count, (userSpace (base + BitVec.ofNat 64 k)).isSome = true) :
    (∃ k < count, userMemory (base + BitVec.ofNat 64 k) = false) ↔
      (0xb8000 ≤ base.toNat ∧ base.toNat + count ≤ 0xba000) ∨
        0x8000000 ≤ base.toNat ∧ base.toNat + count ≤ 0x8200000 := by
  have windows : ∀ k < count, _ := fun k below => isSome_of_userSpace (mapped k below)
  have first := windows 0 pos
  rw [BitVec.add_zero] at first
  have sum : ∀ k < count, (base + BitVec.ofNat 64 k).toNat = base.toNat + k := by
    intro k below
    bv_omega
  -- the last byte is in the same window as the first one
  have last : ∀ edge, base.toNat < edge → edge < base.toNat + count →
      (userSpace (BitVec.ofNat 64 edge)).isSome = true := by
    intro edge above below
    have inside := mapped (edge - base.toNat) (by omega)
    have same : base + BitVec.ofNat 64 (edge - base.toNat) = BitVec.ofNat 64 edge := by
      bv_omega
    rwa [same] at inside
  have edges : ∀ edge ∈ [0x1a000, 0x21000, 0xba000, 0x8200000, 0x7fffffe04000],
      ¬(base.toNat < edge ∧ edge < base.toNat + count) := by
    rintro edge listed ⟨above, below⟩
    have inside := isSome_of_userSpace (last edge above below)
    simp only [List.mem_cons, List.not_mem_nil, or_false] at listed
    rcases listed with rfl | rfl | rfl | rfl | rfl
    all_goals
      simp only [BitVec.toNat_ofNat] at inside
      omega
  simp only [List.forall_mem_cons, List.not_mem_nil, false_implies, implies_true, and_true]
    at edges
  constructor
  · rintro ⟨k, below, device⟩
    have here := windows k below
    simp only [userMemory, decide_eq_false_iff_not] at device
    rw [sum k below] at here device
    omega
  · intro onDevice
    refine ⟨0, pos, ?_⟩
    rw [BitVec.add_zero, userMemory, decide_eq_false_iff_not]
    omega

theorem serve_userMode (sees : SeesUserSpace memory) (start : Memory) (access : Access)
    (walks : Walks) :
    (userMode inSlots 0x200000 start).serve memory (access, walks) =
      let touched := memory.markWalks 0x200000 walks
      match placesOf userSpace access.base access.size with
      | none => some (touched, .fault)
      | some places =>
          if places.all inSlots then
            match access with
            | .load _ _ => some (touched, .done (places.map touched))
            | .store _ bytes => some (touched.scatter places bytes, .done [])
          else some (touched, .device) := by
  cases access with
  | load base count =>
      simp only [userMode, behind, sees.1]
      rfl
  | store base bytes =>
      simp only [userMode, behind, sees.2]
      rfl

/-- The access is up to the monitor exactly if it is to the screen or to the page of the
doorbell. -/
theorem serve_device_iff (sees : SeesUserSpace memory) (start : Memory) (user : UserAccess) :
    (∃ next, (userMode inSlots 0x200000 start).serve memory (user.access, user.walks) =
        some (next, .device)) ↔ user.OnScreen ∨ user.OnDoorbell := by
  have classified := @device_iff user.access.base user.access.size user.size_pos user.size_le
  have mappedAll : user.OnScreen ∨ user.OnDoorbell →
      ∀ k < user.access.size, (userSpace (user.access.base + BitVec.ofNat 64 k)).isSome = true := by
    intro onDevice k below
    have few := user.size_le
    simp only [UserAccess.OnScreen, UserAccess.OnDoorbell] at onDevice
    rw [userSpace_device (by bv_omega)]
    rfl
  rw [serve_userMode sees]
  cases found : placesOf userSpace user.access.base user.access.size with
  | none =>
      apply iff_of_false
      · simp
      · intro onDevice
        have some := isSome_placesOf_iff.mpr (mappedAll onDevice)
        rw [found] at some
        cases some
  | some places =>
      have mapped := isSome_placesOf_iff.mp (Option.isSome_of_eq_some found)
      have stored : places.all inSlots = false ↔
          ∃ k < user.access.size, userMemory (user.access.base + BitVec.ofNat 64 k) = false := by
        rw [List.all_eq_false]
        constructor
        · rintro ⟨place, listed, outside⟩
          rcases (mem_placesOf found).mp listed with ⟨k, below, led⟩
          refine ⟨k, below, ?_⟩
          rwa [← inSlots_of_userSpace led, ← Bool.not_eq_true]
        · rintro ⟨k, below, device⟩
          rcases Option.isSome_iff_exists.mp (mapped k below) with ⟨place, led⟩
          refine ⟨place, (mem_placesOf found).mpr ⟨k, below, led⟩, ?_⟩
          rw [inSlots_of_userSpace led, device]
          decide
      rw [UserAccess.OnScreen, UserAccess.OnDoorbell, ← classified mapped, ← stored]
      simp only
      cases inRam : places.all inSlots with
      | false => simp
      | true =>
          rw [if_pos rfl]
          apply iff_of_false
          · split <;> simp
          · simp

end Accesses

/-! ### The exits of an access -/

section Exits

variable {user : UserAccess} {split : Splitting}

/-- Each exit is for a part of the access. -/
theorem mem_exitsFrom {space : Address → Option Address} {ram : Address → Bool} {back : Return}
    {lengths : List ℕ} {offset : ℕ} (positive : ∀ length ∈ lengths, 0 < length)
    (mem : back ∈ user.exitsFrom space ram offset lengths) :
    ∃ k length place, k < offset + lengths.sum ∧
      space (user.access.base + BitVec.ofNat 64 k) = some place ∧
      back = user.exit place k length := by
  induction lengths generalizing offset with
  | nil => exact absurd mem List.not_mem_nil
  | cons length rest ih =>
      have some_length := positive length List.mem_cons_self
      have later : back ∈ user.exitsFrom space ram (offset + length) rest → _ :=
        ih fun other listed => positive other (List.mem_cons_of_mem _ listed)
      rw [List.sum_cons, ← Nat.add_assoc]
      simp only [UserAccess.exitsFrom] at mem
      split at mem
      case h_1 => exact later mem
      case h_2 place led =>
        split at mem
        case isTrue => exact later mem
        case isFalse =>
          rcases List.mem_cons.mp mem with rfl | behind
          · exact ⟨offset, length, place, by omega, led, rfl⟩
          · exact later behind

theorem exitsFrom_device {offset length : ℕ} (rest : List ℕ)
    (device : userMemory (user.access.base + BitVec.ofNat 64 offset) = false)
    (led : userSpace (user.access.base + BitVec.ofNat 64 offset) =
      some (user.access.base + BitVec.ofNat 64 offset)) :
    user.exitsFrom userSpace inSlots offset (length :: rest) =
      user.exit (user.access.base + BitVec.ofNat 64 offset) offset length ::
        user.exitsFrom userSpace inSlots (offset + length) rest := by
  have outside := inSlots_of_userSpace led
  rw [device] at outside
  simp only [UserAccess.exitsFrom, led, outside]
  rfl

theorem status_exit (user : UserAccess) (place : Address) (offset length : ℕ) :
    (user.exit place offset length).status =
      if (0xb8000 ≤ place ∧ place ≤ 0xba000) ∨ place = 0x8000000 then none else some (-1) :=
  rfl

/-- An access to the screen has exits that the monitor prints. -/
theorem status_exits_screen (screen : user.OnScreen) {back : Return}
    (mem : back ∈ user.exits split userSpace inSlots) : back.status = none ∧ ¬back.Rings := by
  rcases screen with ⟨above, below⟩
  rcases mem_exitsFrom (fun length listed => (split.fits _ _ length listed).1) mem with
    ⟨k, length, place, within, led, rfl⟩
  rw [Nat.zero_add, split.covers] at within
  have address : (user.access.base + BitVec.ofNat 64 k).toNat = user.access.base.toNat + k := by
    bv_omega
  rw [userSpace_device (by omega)] at led
  cases led
  have video : 0xb8000 ≤ user.access.base + BitVec.ofNat 64 k ∧
      user.access.base + BitVec.ofNat 64 k ≤ 0xba000 := by
    bv_omega
  refine ⟨(status_exit _ _ _ _).trans (if_pos (Or.inl video)), ?_⟩
  intro rings
  have rings : user.access.base + BitVec.ofNat 64 k = 0x8000000 := rings
  bv_omega

/-- On the page of the doorbell each part of an access is an exit for its own address. -/
theorem exitsFrom_doorbell (doorbell : user.OnDoorbell) {offset length : ℕ} (rest : List ℕ)
    (inside : offset < user.access.size) :
    user.exitsFrom userSpace inSlots offset (length :: rest) =
      user.exit (user.access.base + BitVec.ofNat 64 offset) offset length ::
        user.exitsFrom userSpace inSlots (offset + length) rest := by
  rcases doorbell with ⟨above, below⟩
  have address : (user.access.base + BitVec.ofNat 64 offset).toNat =
      user.access.base.toNat + offset := by
    bv_omega
  apply exitsFrom_device
  · rw [userMemory, decide_eq_false_iff_not]
    omega
  · exact userSpace_device (Or.inr (by omega))

/-- The first exit of an access to the page of the doorbell is for its own address, and the second,
if the doorbell is rung with more than eight bytes, for one that the monitor does not know. -/
theorem exits_doorbell (doorbell : user.OnDoorbell) :
    ∃ length rest,
      user.exits split userSpace inSlots = user.exit user.access.base 0 length :: rest ∧
      (user.Rings → user.access.size ≤ 8 → rest = []) ∧
      (user.Rings → 8 < user.access.size → ∃ offset length later, 0 < offset ∧ offset ≤ 8 ∧
        rest = user.exit (0x8000000 + BitVec.ofNat 64 offset) offset length :: later) := by
  have pos := user.size_pos
  have covers := split.covers user.access.base user.access.size
  have fits := split.fits user.access.base user.access.size
  have whole := split.whole user.access.base user.access.size pos
  rw [UserAccess.exits]
  cases lengths : split.lengths user.access.base user.access.size with
  | nil =>
      rw [lengths, List.sum_nil] at covers
      omega
  | cons length rest =>
      rw [lengths] at covers fits whole
      have first := @exitsFrom_doorbell user doorbell 0 length rest pos
      rw [BitVec.add_zero] at first
      refine ⟨length, _, first, ?_, ?_⟩
      · intro rings small
        have onPage : user.access.base.toNat % 4096 + user.access.size ≤ 4096 := by
          rw [show user.access.base = 0x8000000 from rings]
          change 0 + _ ≤ _
          omega
        rw [(List.cons.inj (whole small onPage)).2]
        rfl
      · intro rings long
        rcases fits length List.mem_cons_self with ⟨some_length, short⟩
        cases rest with
        | nil =>
            rw [List.sum_singleton] at covers
            omega
        | cons second later =>
            have bounded := (fits second (by simp)).1
            rw [List.sum_cons, List.sum_cons] at covers
            have next := @exitsFrom_doorbell user doorbell length second later (by omega)
            rw [show user.access.base = 0x8000000 from rings] at next
            rw [Nat.zero_add]
            exact ⟨length, second, _, some_length, short, next⟩

theorem onDoorbell_of_rings (rings : user.Rings) : user.OnDoorbell := by
  have few := user.size_le
  have base : user.access.base = 0x8000000 := rings
  rw [UserAccess.OnDoorbell, base]
  change _ ∧ 0x8000000 + _ ≤ _
  exact ⟨by decide, by omega⟩

variable {name : String} {monitor : Monitor}

/-- An access to the page of the doorbell rings it if it begins there, and ends the program unless
that is all. -/
theorem serveAll_doorbell (running : monitor.vmm.exited = none) (doorbell : user.OnDoorbell) :
    (monitor.serveAll name (user.exits split userSpace inSlots)).vmm.exited =
        (if user.Stray then some (-1) else none) ∧
      (monitor.serveAll name (user.exits split userSpace inSlots)).vmm.irqefd =
        monitor.vmm.irqefd ++ if user.Rings then [1] else [] := by
  rcases exits_doorbell doorbell with ⟨length, rest, whole, short, long⟩
  rw [whole]
  have notVideo : ∀ place : Address, 0x8000000 ≤ place.toNat →
      ¬(0xb8000 ≤ place ∧ place ≤ 0xba000) := by
    intro place above video
    bv_omega
  by_cases rings : user.Rings
  · have base : user.access.base = 0x8000000 := rings
    have first : (user.exit user.access.base 0 length).status = none :=
      (status_exit _ _ _ _).trans (if_pos (Or.inr base))
    have rung : (user.exit user.access.base 0 length).Rings := base
    have onward := @exited_serve name _ running (user.exit user.access.base 0 length)
    rw [first] at onward
    have irqefd := (@irqefd_serve name monitor
      (user.exit user.access.base 0 length)).1
    rw [if_pos rung] at irqefd
    rw [serveAll_cons running, if_pos rings]
    by_cases small : user.access.size ≤ 8
    · rw [short rings small, if_neg (fun stray => stray.2 ⟨rings, small⟩)]
      exact ⟨onward, irqefd⟩
    · rcases long rings (Nat.lt_of_not_le small) with ⟨offset, second, later, more, few, rfl⟩
      have other : 0x8000000 + BitVec.ofNat 64 offset ≠ (0x8000000 : Address) := by
        bv_omega
      have unknown : (user.exit (0x8000000 + BitVec.ofNat 64 offset) offset second).status =
          some (-1) := by
        rw [status_exit, if_neg]
        rintro (video | doorbell)
        · exact notVideo _ (by bv_omega) video
        · exact other doorbell
      have silent : ¬(user.exit (0x8000000 + BitVec.ofNat 64 offset) offset second).Rings := other
      rw [serveAll_of_ends onward unknown, exited_serve onward, unknown,
        if_pos ⟨doorbell, fun both => small both.2⟩, (irqefd_serve _).1, if_neg silent,
        List.append_nil]
      exact ⟨rfl, irqefd⟩
  · have unknown : (user.exit user.access.base 0 length).status = some (-1) := by
      rw [status_exit, if_neg]
      rintro (video | rung)
      · exact notVideo _ doorbell.1 video
      · exact rings rung
    have silent : ¬(user.exit user.access.base 0 length).Rings := rings
    rw [serveAll_of_ends running unknown, exited_serve running, unknown,
      if_pos ⟨doorbell, fun both => rings both.1⟩, (irqefd_serve _).1, if_neg silent, if_neg rings]
    exact ⟨rfl, rfl⟩

end Exits

/-! ### A program in user mode -/

section Programs

variable {split : Splitting} {name : String} {initial : Hosted} {later : Memory}

/-- The memory of the kernel is as it was, so that the tables are. -/
def KernelKept (later memory : Memory) : Prop :=
  ∃ virtual, Behind userSpace KernelByte later memory virtual

/-- The monitor has ended only for a stray access, and has raised an interrupt for each access to
the doorbell. -/
structure Attended (later : Memory) (monitor : Monitor) (users : List UserAccess)
    (last : Hosted) : Prop where
  kept : KernelKept later last.memory
  exited : last.monitor.vmm.exited = if ∃ user ∈ users, user.Stray then some (-1) else none
  irqefd : last.monitor.vmm.irqefd =
    monitor.vmm.irqefd ++ List.replicate (users.countP (UserAccess.Rings ·)) 1

/-- What one access does. -/
theorem attended_step {host next : Hosted} {user : UserAccess}
    (guarded : Sealed (fun memory => reach memory.entryAt 0x200000)
      (fun memory => reach memory.writableAt 0x200000) (Memory.markWalks 0x200000) userSpace
      KernelByte later)
    (kept : KernelKept later host.memory) (running : host.monitor.vmm.exited = none)
    (taken : (hosted split name 0x200000 initial).step host user = some next) :
    Attended later host.monitor [user] next := by
  rcases kept with ⟨virtual, related⟩
  have sees : SeesUserSpace host.memory := guarded.stable _ related.kept
  have simulation := @simulation_flat _ _ _ inSlots _ _ _ _ guarded isSome_userSpace
  rcases simulation.serve _ _ (user.access, user.walks) related with
    ⟨memory, after, answer, served, -, keeps⟩
  have device := serve_device_iff sees host.memory user
  have served : (userMode inSlots 0x200000 host.memory).serve host.memory
      (user.access, user.walks) = some (memory, answer) := served
  have going : ¬(host.faulted = true ∨ host.monitor.vmm.exited.isSome = true) := by
    intro stopped
    simp only [hosted, if_pos stopped] at taken
    cases taken
  simp only [hosted, if_neg going, served] at taken
  rw [served] at device
  -- an access that is not up to the monitor is none to the page of the doorbell
  have elsewhere : answer ≠ .device → ¬user.Stray ∧ ¬user.Rings := by
    intro other
    have notDevice : ¬(user.OnScreen ∨ user.OnDoorbell) := by
      rw [← device]
      rintro ⟨next, same⟩
      exact other (Prod.mk.inj (Option.some.inj same)).2
    refine ⟨fun stray => notDevice (Or.inr stray.1), fun rings => notDevice (Or.inr ?_)⟩
    exact onDoorbell_of_rings rings
  have unattended : ∀ memory faulted, KernelKept later memory → ¬user.Stray ∧ ¬user.Rings →
      Attended later host.monitor [user] { memory, monitor := host.monitor, faulted } := by
    rintro memory faulted keeps ⟨notStray, silent⟩
    refine ⟨keeps, ?_, ?_⟩
    · simp [notStray, running]
    · simp [silent]
  cases answer with
  | fault =>
      cases taken
      exact unattended _ _ ⟨after, keeps⟩ (elsewhere (by simp))
  | done bytes =>
      cases taken
      exact unattended _ _ ⟨after, keeps⟩ (elsewhere (by simp))
  | device =>
      cases taken
      rw [space_eq sees]
      rcases device.mp ⟨memory, rfl⟩ with screen | doorbell
      · have notDoorbell : ¬user.OnDoorbell := by
          rintro ⟨above, -⟩
          have below := screen.2
          omega
        have notStray : ¬user.Stray := fun stray => notDoorbell stray.1
        have silent : ¬user.Rings := fun rings => notDoorbell (onDoorbell_of_rings rings)
        rcases @serveAll_of_goesOn name _ running (user.exits split userSpace inSlots)
          (fun back mem => (status_exits_screen screen mem).1)
          (fun back mem => (status_exits_screen screen mem).2) with ⟨exited, irqefd⟩
        refine ⟨⟨after, keeps⟩, ?_, ?_⟩
        · simp [notStray, exited]
        · simp [silent, irqefd]
      · rcases @serveAll_doorbell user split name _ running doorbell with ⟨exited, irqefd⟩
        refine ⟨⟨after, keeps⟩, ?_, ?_⟩
        · simp [exited]
        · rw [irqefd]
          by_cases rings : user.Rings <;> simp [rings]

/-- What a whole program does. -/
theorem attended_run {host last : Hosted} {users : List UserAccess}
    (guarded : Sealed (fun memory => reach memory.entryAt 0x200000)
      (fun memory => reach memory.writableAt 0x200000) (Memory.markWalks 0x200000) userSpace
      KernelByte later)
    (kept : KernelKept later host.memory) (running : host.monitor.vmm.exited = none)
    (ran : (hosted split name 0x200000 initial).run host users = some last) :
    Attended later host.monitor users last := by
  induction users generalizing host with
  | nil =>
      cases ran
      exact ⟨kept, by simp [running], by simp⟩
  | cons user rest ih =>
      rw [System.run, Option.bind_eq_some_iff] at ran
      rcases ran with ⟨next, taken, ran⟩
      have first := attended_step guarded kept running taken
      have exited := first.exited
      have irqefd := first.irqefd
      by_cases stray : user.Stray
      · have ended : next.monitor.vmm.exited = some (-1) := by
          rw [exited]
          exact if_pos ⟨user, List.mem_singleton_self _, stray⟩
        -- the program has ended with this access, so that there is no other
        cases rest with
        | nil =>
            cases ran
            exact first
        | cons other more => simp [System.run, hosted, ended] at ran
      · have onward : next.monitor.vmm.exited = none := by
          rw [exited]
          apply if_neg
          rintro ⟨other, listed, isStray⟩
          rw [List.mem_singleton] at listed
          exact stray (listed ▸ isStray)
        have behind := ih first.kept onward ran
        refine ⟨behind.kept, ?_, ?_⟩
        · rw [behind.exited]
          simp [stray]
        · rw [behind.irqefd, irqefd]
          by_cases rings : user.Rings <;> simp [rings, List.replicate_succ]

theorem exists_serve (ram : Address → Bool) (root : ℕ) (start memory : Memory) (access : Access)
    (walks : Walks) :
    ∃ next answer, (userMode ram root start).serve memory (access, walks) =
      some (next, answer) := by
  cases access with
  | load base count =>
      simp only [userMode, behind]
      split
      · exact ⟨_, _, rfl⟩
      · split <;> exact ⟨_, _, rfl⟩
  | store base bytes =>
      simp only [userMode, behind]
      split
      · exact ⟨_, _, rfl⟩
      · split <;> exact ⟨_, _, rfl⟩

/-- A program goes on until it faults or the monitor ends. -/
theorem exists_step_hosted {host : Hosted} (unharmed : host.faulted = false)
    (running : host.monitor.vmm.exited = none) (user : UserAccess) :
    ∃ next, (hosted split name 0x200000 initial).step host user = some next := by
  have going : ¬(host.faulted = true ∨ host.monitor.vmm.exited.isSome = true) := by
    simp [unharmed, running]
  rcases exists_serve inSlots 0x200000 host.memory host.memory user.access user.walks with
    ⟨memory, answer, served⟩
  simp only [hosted, if_neg going, served]
  cases answer <;> exact ⟨_, rfl⟩

/--
Whatever the kernel does to memory after `init_paging`, as long as it leaves the tables alone, and
however KVM takes accesses apart: over every sequence of loads and stores in user mode, the monitor
ends, and then with -1, exactly if one of them is to the page of the doorbell and does not begin at
its first address or has more than eight bytes; it raises an interrupt for each access that begins
there and for no other; and the accesses leave the memory of the kernel as it is, but for the marks
in the tables.
-/
theorem user_ends_monitor_iff {machine : Machine} {msrs : BitVec 32 → BitVec 64} {fuel : ℕ}
    (split : Splitting) (bsp : (msrs ia32ApicBase).getLsbD 8 = true)
    (backed : Backed machine 0x200000 0xf000) (backedAbove : Backed machine 0x300000 0x5000)
    (enough : 32 < fuel) :
    wp (initPaging msrs fuel)
      (fun _ after => ∀ later, SameTables after.memory later →
        ∀ (name : String) (monitor : Monitor), monitor.vmm.exited = none →
        ∀ users last,
          (hosted split name 0x200000 ⟨later, monitor, false⟩).run ⟨later, monitor, false⟩ users =
            some last →
          last.monitor.vmm.exited = (if ∃ user ∈ users, user.Stray then some (-1) else none) ∧
          last.monitor.vmm.irqefd =
            monitor.vmm.irqefd ++ List.replicate (users.countP (UserAccess.Rings ·)) 1 ∧
          (∀ place, InKernelMemory place → AsKept place (last.memory place) (later place)) ∧
          (last.faulted = false → last.monitor.vmm.exited = none → ∀ user, ∃ next,
            (hosted split name 0x200000 ⟨later, monitor, false⟩).step last user = some next))
      machine := by
  apply (wp_initPaging bsp backed backedAbove enough).mono
  intro _ after only later same name monitor running users last ran
  rw [only.memory] at same
  have guarded := sealed_userSpace same
  have simulation := @simulation_flat _ _ _ inSlots _ _ _ _ guarded isSome_userSpace
  have attended := attended_run guarded ⟨_, simulation.initial⟩ running ran
  rcases attended.kept with ⟨virtual, related⟩
  exact ⟨attended.exited, attended.irqefd, related.kept, exists_step_hosted⟩

/-- Parts of eight bytes, and what is left. -/
def eights (count : ℕ) : List ℕ :=
  List.replicate (count / 8) 8 ++ if count % 8 = 0 then [] else [count % 8]

theorem sum_eights (count : ℕ) : (eights count).sum = count := by
  rw [eights, List.sum_append, List.sum_replicate_nat]
  split <;> simp <;> omega

theorem mem_eights {count length : ℕ} (mem : length ∈ eights count) : 0 < length ∧ length ≤ 8 := by
  rcases List.mem_append.mp mem with whole | last
  · rw [(List.mem_replicate.mp whole).2]
    decide
  · split at last
    case isTrue => exact absurd last List.not_mem_nil
    case isFalse =>
      rw [List.mem_singleton] at last
      omega

theorem eights_of_le {count : ℕ} (pos : 0 < count) (few : count ≤ 8) : eights count = [count] := by
  by_cases whole : count = 8
  · rw [whole]
    rfl
  · have none_whole : count / 8 = 0 := by omega
    have left : count % 8 = count := by omega
    simp [eights, none_whole, left, Nat.ne_of_gt pos]

/-- An access is taken apart where it goes on to another page, and then into parts of eight. -/
def kvmSplitting : Splitting where
  lengths := fun base count =>
    let room := 4096 - base.toNat % 4096
    if count ≤ room then eights count else eights room ++ eights (count - room)
  covers := by
    intro base count
    simp only
    split
    · exact sum_eights count
    · rw [List.sum_append, sum_eights, sum_eights]
      omega
  fits := by
    intro base count length mem
    simp only at mem
    split at mem
    · exact mem_eights mem
    · rcases List.mem_append.mp mem with first | second
      · exact mem_eights first
      · exact mem_eights second
  whole := by
    intro base count pos few onPage
    simp only
    rw [if_pos (by omega), eights_of_le pos few]

/-- Nine bytes from the address of the doorbell on. -/
def longRing : UserAccess where
  access := .store 0x8000000 [1, 0, 0, 0, 0, 0, 0, 0, 1]
  size_pos := by decide
  size_le := by decide

/-- The doorbell rings, and then the ninth byte ends the monitor. -/
theorem user_ends_monitor_iff_filled : ∃ memory last,
    (hosted kvmSplitting "vm" 0x200000 ⟨memory, {}, false⟩).run ⟨memory, {}, false⟩ [longRing] =
        some last ∧
      last.monitor.vmm.exited = some (-1) ∧ last.monitor.vmm.irqefd = [1] := by
  rcases @user_ends_monitor_iff filledMachine (fun _ => 0x100) 33 kvmSplitting (by decide)
    (fun _ _ _ => rfl) (fun _ _ _ => rfl) (by decide) with ⟨_, after, _, ends⟩
  have ends := ends after.memory (fun place _ => AsKept.refl place _) "vm" {} rfl
  rcases (ends [] _ rfl).2.2.2 rfl rfl longRing with ⟨last, taken⟩
  have ran : (hosted kvmSplitting "vm" 0x200000 ⟨after.memory, {}, false⟩).run
      ⟨after.memory, {}, false⟩ [longRing] = some last := by
    rw [System.run_of_step taken, System.run_nil]
  rcases ends [longRing] last ran with ⟨exited, irqefd, -, -⟩
  refine ⟨after.memory, last, ran, exited.trans (if_pos ?_), irqefd.trans ?_⟩
  · exact ⟨longRing, List.mem_singleton_self _, by decide⟩
  · decide

end Programs

end Guest

end VirtLearn
