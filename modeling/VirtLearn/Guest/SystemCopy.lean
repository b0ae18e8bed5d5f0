import VirtLearn.Guest.SystemData

/-!
# Copying the tables

The kernel copies the tables of the image to the pages at `systemData64Base` with one `rep movsb`,
and uses the copy. The parts of the image are then at the same distance from there, and with them
the segments that the selectors of the kernel and its user name.
-/

namespace VirtLearn.Guest

open Assembly Register Paging

/-- One byte of `movsb`. -/
def movsb : Routine Unit := do
  let machine ← get
  let source := machine.registers rsi
  if machine.ram source then
    let stored := machine.poke (machine.registers rdi) (machine.memory source)
    set (((stored.put rsi (source + 1)).put rdi (machine.registers rdi + 1)).put rcx
      (machine.registers rcx - 1))
  else failure

def movsbs : ℕ → Routine Unit
  | 0 => pure ()
  | count + 1 => do
      movsb
      movsbs count

/-- `rep movsb`, upwards. -/
def repMovsb : Routine Unit := do
  movsbs ((← get).registers rcx).toNat

def copySystemData (symbols : KernelSymbols) : Routine Unit := do
  mov 64 (.imm systemData64Base) (.reg rdi)
  mov 64 (.imm symbols.systemData64Entry) (.reg rsi)
  mov 64 (.imm (BitVec.ofNat 64 systemData64Size)) (.reg rcx)
  repMovsb

/-! ### Copying -/

section Copy

variable {machine : Machine} {memory : Memory}

theorem write_byte (memory : Memory) (address : Address) (byte : Byte) :
    memory.write address byte = Function.update memory address byte := by
  simp [Memory.write, bytesOf, Memory.store]

theorem store_update {base place : Address} {byte : Byte} {bytes : List Byte}
    (small : bytes.length ≤ 2 ^ 64) (outside : ¬Within place base bytes.length) :
    Memory.store (Function.update memory place byte) base bytes =
      Function.update (memory.store base bytes) place byte := by
  funext other
  by_cases here : other = place
  · rw [here, Function.update_self, Memory.store_of_not_within small outside, Function.update_self]
  · rw [Function.update_of_ne here, Memory.store_apply _ _ small, Memory.store_apply _ _ small,
      Function.update_of_ne here]

theorem wp_movsbs {source target : Address} {count : ℕ}
    (from_source : machine.registers rsi = source) (to_target : machine.registers rdi = target)
    (small : count < 2 ^ 64) (apart : Apart source count target count)
    (inRam : ∀ place, Within place source count ∨ Within place target count →
      machine.ram place = true) :
    wp (movsbs count)
      (fun _ after => OnlyRegisters [rsi, rdi, rcx] { machine with
        memory := machine.memory.store target (machine.memory.load source count) } after)
      machine := by
  induction count generalizing machine source target with
  | zero =>
      simp only [movsbs, wp_pure]
      exact .refl _ _
  | succ count ih =>
      have first : Within source source (count + 1) := within_self _ (Nat.succ_pos _)
      have firstTarget : Within target target (count + 1) := within_self _ (Nat.succ_pos _)
      have readable := inRam source (Or.inl first)
      have writable := inRam target (Or.inr firstTarget)
      simp only [movsbs, movsb, wp_bind, wp_get, from_source, to_target, readable, if_true, wp_set,
        Machine.poke_of_ram writable, write_byte]
      generalize next_eq : Machine.put _ _ _ = next
      have later : ∀ place, Within place (source + 1) count ∨ Within place (target + 1) count →
          Within place source (count + 1) ∨ Within place target (count + 1) := by
        rintro place (inSource | inTarget)
        · exact Or.inl (inSource.succ (by omega)).1
        · exact Or.inr (inTarget.succ (by omega)).1
      have nextRam : next.ram = machine.ram := by rw [← next_eq]; rfl
      have nextMemory : next.memory =
          Function.update machine.memory target (machine.memory source) := by
        rw [← next_eq]
        rfl
      have behind : ∀ place, Within place (source + 1) count → place ≠ target := by
        rintro place inSource rfl
        exact apart place (inSource.succ (by omega)).1 firstTarget
      have loaded : next.memory.load (source + 1) count =
          machine.memory.load (source + 1) count := by
        apply Memory.load_congr (by omega)
        intro place inSource
        rw [nextMemory, Function.update_of_ne (behind place inSource)]
      have outside : ¬Within target (target + 1)
          (machine.memory.load (source + 1) count).length := by
        rw [Memory.length_load]
        intro inTarget
        exact (inTarget.succ (by omega)).2 rfl
      apply (@ih next (source + 1) (target + 1) ?_ ?_ (by omega) ?_ ?_).mono
      · intro _ after only
        rw [loaded, nextMemory, store_update (by simp; omega) outside] at only
        refine ⟨?_, ?_, only.ram.trans nextRam, only.memory, ?_⟩
        · intro register kept
          simp only [List.mem_cons, List.not_mem_nil, or_false, not_or] at kept
          rw [only.registers register (by simp [kept]), ← next_eq]
          simp [kept]
        · rw [only.stack, ← next_eq]
          rfl
        · rw [only.writes, ← next_eq]
          rfl
      · rw [← next_eq]
        simp
      · rw [← next_eq]
        simp
      · intro place inSource inTarget
        exact apart place (inSource.succ (by omega)).1 (inTarget.succ (by omega)).1
      · intro place listed
        rw [nextRam]
        exact inRam place (later place listed)

/-- Part of some bytes in memory. -/
theorem load_part {bytes : List Byte} {base : Address} {count : ℕ}
    (loaded : memory.load base count = bytes) {offset part : ℕ} (fits : offset + part ≤ count) :
    memory.load (base + BitVec.ofNat 64 offset) part = (bytes.drop offset).take part := by
  have split : count = offset + (part + (count - offset - part)) := by omega
  rw [split, Memory.load_add, Memory.load_add] at loaded
  rw [← loaded, List.drop_left' (Memory.length_load _ _ _),
    List.take_left' (Memory.length_load _ _ _)]

theorem load_store_part {bytes : List Byte} {base : Address} {offset part : ℕ}
    (small : bytes.length ≤ 2 ^ 64) (fits : offset + part ≤ bytes.length) :
    (memory.store base bytes).load (base + BitVec.ofNat 64 offset) part =
      (bytes.drop offset).take part :=
  load_part (Memory.load_store memory base small) fits

end Copy

/-- The parts of the image are in memory at some place, as they are for an image at `entry`. -/
def PartsAt (memory : Memory) (place entry : Address) : Prop :=
  ∀ part ∈ systemDataParts entry,
    memory.load (place + BitVec.ofNat 64 part.1) part.2.length = part.2

def copied (entry : Address) (memory : Memory) : Memory :=
  memory.store systemData64Base (memory.load entry systemData64Size)

theorem length_quads (values : List ℕ) : (quads values).length = 8 * values.length := by
  induction values with
  | nil => rfl
  | cons value rest ih =>
      rw [quads, List.flatMap_cons, List.length_append, length_bytesOf, ← quads, ih,
        List.length_cons]
      omega

theorem length_globalDescriptorTable : globalDescriptorTable.length = 200 :=
  length_quads _

theorem length_interruptDescriptorTable : interruptDescriptorTable.length = 1280 :=
  List.length_replicate

theorem length_taskStatusSegment : taskStatusSegment.length = 104 := by
  rw [taskStatusSegment, List.length_append, List.length_append, length_bytesOf, length_quads,
    List.length_replicate]
  rfl

theorem parts_inside (entry : Address) :
    ∀ part ∈ systemDataParts entry, part.1 + part.2.length ≤ systemData64Size := by
  simp only [systemDataParts, List.forall_mem_cons, length_globalDescriptorTable,
    length_interruptDescriptorTable, length_taskStatusSegment, List.length_append, length_bytesOf,
    List.not_mem_nil, false_implies, implies_true, and_true]
  decide

theorem partsAt_copied {memory : Memory} {entry : Address} (image : SystemDataAt memory entry) :
    PartsAt (copied entry memory) systemData64Base entry := by
  intro part listed
  have inside := parts_inside entry part listed
  have stored := @load_store_part memory (memory.load entry systemData64Size) systemData64Base
    part.1 part.2.length (by rw [Memory.length_load]; decide)
    (by rw [Memory.length_load]; exact inside)
  have source := @load_part memory _ entry systemData64Size rfl part.1 part.2.length inside
  rw [copied, stored, ← source]
  exact image part listed

theorem gdtPointer64_mem (entry : Address) :
    (gdtPointer64At,
      bytesOf 2 gdtLimit.toNat ++ bytesOf 8 (entry.toNat + globalDescriptorTableAt)) ∈
        systemDataParts entry := by
  simp [systemDataParts]

theorem idtPointer64_mem (entry : Address) :
    (idtPointer64At,
      bytesOf 2 idtLimit.toNat ++ bytesOf 8 (entry.toNat + interruptDescriptorTableAt)) ∈
        systemDataParts entry := by
  simp [systemDataParts]

/-! ### Images -/

/-- Memory with nothing but the parts. -/
def systemDataMemory (entry : Address) : Memory :=
  (systemDataParts entry).foldr
    (fun part memory => memory.store (entry + BitVec.ofNat 64 part.1) part.2) fun _ => 0

/-- Parts that do not overlap are all there once they are stored. -/
theorem load_foldr_store {base : Address} {parts : List (ℕ × List Byte)} (memory : Memory)
    (ordered : parts.Pairwise fun first second => first.1 + first.2.length ≤ second.1)
    (small : ∀ part ∈ parts, part.1 + part.2.length ≤ 2 ^ 64) :
    ∀ part ∈ parts,
      (parts.foldr (fun part memory => memory.store (base + BitVec.ofNat 64 part.1) part.2)
        memory).load (base + BitVec.ofNat 64 part.1) part.2.length = part.2 := by
  induction parts with
  | nil => simp
  | cons first rest ih =>
      rw [List.pairwise_cons] at ordered
      rw [List.forall_mem_cons] at small
      rw [List.forall_mem_cons, List.foldr_cons]
      refine ⟨Memory.load_store _ _ (by omega), ?_⟩
      intro part listed
      have behind := ordered.1 part listed
      have bounded := small.2 part listed
      refine Eq.trans ?_ (ih ordered.2 small.2 part listed)
      apply Memory.load_congr (by omega)
      intro place inPart
      apply Memory.store_of_not_within (by omega)
      intro inFirst
      exact apart_of_offsets base (by omega) (by omega) (Or.inl behind) place inFirst inPart

theorem ordered_systemDataParts (entry : Address) :
    (systemDataParts entry).Pairwise fun first second =>
      first.1 + first.2.length ≤ second.1 := by
  simp only [systemDataParts, List.pairwise_cons, List.forall_mem_cons,
    length_globalDescriptorTable, length_interruptDescriptorTable, length_taskStatusSegment,
    List.length_append, length_bytesOf, List.not_mem_nil, false_implies, implies_true, and_true,
    List.Pairwise.nil]
  decide

theorem systemDataAt_systemDataMemory (entry : Address) :
    SystemDataAt (systemDataMemory entry) entry := by
  apply load_foldr_store _ (ordered_systemDataParts entry)
  intro part listed
  exact Nat.le_trans (parts_inside entry part listed) (by decide)

/-! ### Segments -/

/-- What the table of segments has for a selector. -/
def segmentOf (selector : BitVec 16) : SegmentDescriptor :=
  .ofBits (BitVec.ofNat 64
    (valueOf ((globalDescriptorTable.drop (selector &&& 0xfff8).toNat).take 8)))

/-- The selectors that the kernel and its user use. -/
def usedSelectors : List (BitVec 16) :=
  [0x28, 0x30, 0x4b, 0x53]

theorem usedSelectors_spec :
    ∀ selector ∈ usedSelectors, selector.getLsbD 2 = false ∧
      (selector &&& 0xfff8).toNat + 8 ≤ 0x58 := by
  simp only [usedSelectors, List.forall_mem_cons, List.not_mem_nil, false_implies, implies_true]
  decide

theorem load_globalDescriptorTable {memory : Memory} {place entry : Address}
    (parts : PartsAt memory place entry) {offset count : ℕ} (inside : offset + count ≤ 200) :
    memory.load (place + BitVec.ofNat 64 offset) count =
      (globalDescriptorTable.drop offset).take count := by
  have whole : memory.load (place + BitVec.ofNat 64 globalDescriptorTableAt)
      globalDescriptorTable.length = globalDescriptorTable := by
    apply parts (globalDescriptorTableAt, globalDescriptorTable)
    simp [systemDataParts]
  rw [length_globalDescriptorTable, globalDescriptorTableAt, BitVec.add_zero] at whole
  exact load_part whole inside

/-- The stack pointer for level 0. -/
theorem read_rsp0 {memory : Memory} {place entry : Address} (parts : PartsAt memory place entry) :
    memory.read 64 (place + BitVec.ofNat 64 (taskStatusSegmentAt + 4)) = processor0IdtRsp := by
  have whole : memory.load (place + BitVec.ofNat 64 taskStatusSegmentAt)
      taskStatusSegment.length = taskStatusSegment := by
    apply parts (taskStatusSegmentAt, taskStatusSegment)
    simp [systemDataParts]
  rw [length_taskStatusSegment] at whole
  have part := @load_part memory _ _ _ whole 4 8 (by decide)
  rw [BitVec.add_assoc, ← BitVec.ofNat_add] at part
  rw [Memory.read, part]
  decide

/-- The limit in a pointer. -/
theorem read_limit {memory : Memory} {place entry : Address} (parts : PartsAt memory place entry)
    {pointerAt : ℕ} {limit : BitVec 16} {base : List Byte}
    (listed : (pointerAt, bytesOf 2 limit.toNat ++ base) ∈ systemDataParts entry) :
    memory.read 16 (place + BitVec.ofNat 64 pointerAt) = limit := by
  have whole := parts _ listed
  simp only [List.length_append, length_bytesOf, Memory.load_add] at whole
  have two := (List.append_inj whole (by simp)).1
  have small : limit.toNat % 256 ^ 2 = limit.toNat := Nat.mod_eq_of_lt limit.isLt
  rw [Memory.read, two, valueOf_bytesOf, small, BitVec.ofNat_toNat, BitVec.setWidth_eq]

/-- The base in a pointer, as it is read before 64-bit mode. -/
theorem read_base32 {memory : Memory} {place entry : Address} (parts : PartsAt memory place entry)
    {pointerAt table : ℕ} {limit : BitVec 16} (more : ℕ)
    (listed : (pointerAt, bytesOf 2 limit.toNat ++ bytesOf (4 + more) table) ∈
      systemDataParts entry) :
    memory.read 32 (place + BitVec.ofNat 64 pointerAt + 2) = BitVec.ofNat 32 table := by
  have whole := parts _ listed
  simp only [List.length_append, length_bytesOf, Memory.load_add] at whole
  have base := (List.append_inj whole (by simp)).2
  have four : memory.load (place + BitVec.ofNat 64 pointerAt + 2) (32 / 8) = bytesOf 4 table := by
    have part := congrArg (List.take 4) base
    rwa [List.take_left' (Memory.length_load _ _ _), take_bytesOf] at part
  rw [Memory.read, four, valueOf_bytesOf]
  apply BitVec.eq_of_toNat_eq
  simp

theorem descriptor_of_inside {memory : Memory} {place : Address} {selector : BitVec 16}
    (global : selector.getLsbD 2 = false) (inside : (selector &&& 0xfff8).toNat + 8 ≤ 200)
    (loaded : memory.load (place + BitVec.ofNat 64 (selector &&& 0xfff8).toNat) 8 =
      (globalDescriptorTable.drop (selector &&& 0xfff8).toNat).take 8) :
    TableRegister.descriptor { limit := gdtLimit, base := place } memory selector =
      some (segmentOf selector) := by
  have reaches : ¬(selector.getLsbD 2 = true ∨
      gdtLimit.toNat < (selector &&& 0xfff8).toNat + 7) := by
    rintro (isLocal | behind)
    · rw [global] at isLocal
      cases isLocal
    · have limit : gdtLimit.toNat = 199 := rfl
      omega
  have address : (selector &&& 0xfff8).setWidth 64 =
      BitVec.ofNat 64 (selector &&& 0xfff8).toNat := by
    apply BitVec.eq_of_toNat_eq
    simp
  rw [TableRegister.descriptor, if_neg reaches, segmentOf, ← loaded, Memory.read, address]

theorem descriptor_of_load {memory : Memory} {place : Address} {selector : BitVec 16}
    (used : selector ∈ usedSelectors)
    (loaded : memory.load (place + BitVec.ofNat 64 (selector &&& 0xfff8).toNat) 8 =
      (globalDescriptorTable.drop (selector &&& 0xfff8).toNat).take 8) :
    TableRegister.descriptor { limit := gdtLimit, base := place } memory selector =
      some (segmentOf selector) := by
  rcases usedSelectors_spec selector used with ⟨global, inside⟩
  exact descriptor_of_inside global (by omega) loaded

theorem segmentOf_kernelSS : segmentOf 0x30 = ⟨0x2, true, 0, true, false, false⟩ := by
  decide +kernel

theorem segmentOf_kernelCS : segmentOf 0x28 = kernelCode := by
  decide +kernel

theorem segmentOf_userCS : segmentOf 0x4b = ⟨0x8, true, 3, true, true, false⟩ := by
  decide +kernel

theorem segmentOf_userSS : segmentOf 0x53 = ⟨0x2, true, 3, true, false, false⟩ := by
  decide +kernel

/-! ### Memory behind the windows -/

section Windows

variable {ram : Address → Bool} {place : Address}

theorem ram_systemData (mapped : WindowsMapped ram)
    (inside : Within place systemData64Base 0x2000) : ram place = true := by
  apply mapped ⟨0xfffffff800000000, 0x2000, 0x410000, false⟩ (by simp [windows]) (by decide)
    (by decide)
  · simp only [Within, systemData64Base] at inside
    bv_omega
  · simp only [Within, systemData64Base] at inside
    bv_omega

theorem ram_image (mapped : WindowsMapped ram) (above : 0x9000 ≤ place.toNat)
    (below : place.toNat < 0x1a000) : ram place = true :=
  mapped ⟨0x9000, 0x11000, 0x9000, true⟩ (by simp [windows]) (by decide) (by decide) place above
    below

theorem ram_apic (mapped : WindowsMapped ram) (above : 0x800000 ≤ place.toNat)
    (below : place.toNat < 0xa00000) : ram place = true :=
  mapped ⟨0x800000, 0x200000, 0xfee00000, false⟩ (by simp [windows]) (by decide) (by decide) place
    above below

theorem ram_kernelStack (mapped : WindowsMapped ram) (above : 0xffffffffffe00000 ≤ place.toNat) :
    ram place = true :=
  mapped ⟨0xffffffffffe00000, 0x200000, 0xa00000, false⟩ (by simp [windows]) (by decide)
    (by decide) place above (Nat.lt_of_lt_of_le place.isLt (by decide))

end Windows

end VirtLearn.Guest
