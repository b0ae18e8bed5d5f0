import VirtLearn.Boot.RealMode
import VirtLearn.Loop

/-!
# Loading the module

`load_module` of `pre_run.S` reads the sectors behind the boot sector to the memory behind it: one
sector, then chunks of 32 sectors, and what is left in the end. The loop reads its chunk before it
looks how many sectors are left, so that everything is as it should be from 33 sectors on, and a
shorter module is read beyond its end (`loadModule_loads_iff`).
-/

namespace VirtLearn.Boot

/-- What `read_sector_with_chs` is asked. -/
structure DiskRead where
  count : BitVec 8
  start : BitVec 32
  selector : BitVec 16
  offset : BitVec 16
deriving DecidableEq

def DiskAddressPacket.read (packet : DiskAddressPacket) : DiskRead where
  count := packet.readSectors.setWidth 8
  start := packet.startSector
  selector := packet.bufferSelector
  offset := packet.bufferOffset

/-- The variables, and what has been read. -/
structure Loading where
  packet : DiskAddressPacket
  reads : List DiskRead
deriving DecidableEq

variable (answer : DiskRead → BitVec 16)

/-- `read_sector_with_chs`, which leaves its answer in `ax`. -/
def readSectorWithChs (loading : Loading) : BitVec 16 × Loading :=
  let read := loading.packet.read
  (answer read, { loading with reads := loading.reads ++ [read] })

/-- A round from `loop_read` on. -/
def loopRead (loading : Loading) : Loading ⊕ Loading :=
  let loading := { loading with packet.readSectors := 0x20 }
  let (ax, loading) := readSectorWithChs answer loading
  if ax ≠ 0 then .inr loading
  else
    let packet := loading.packet
    let packet :=
      { packet with
        startSector := withWord packet.startSector (word packet.startSector + 0x20)
        bufferSelector := packet.bufferSelector + 0x400
        totalSectors := withWord packet.totalSectors (word packet.totalSectors - 0x20) }
    let loading := { loading with packet }
    if word packet.totalSectors = 0 then .inr loading
    else if 0x20 ≤ packet.totalSectors then .inl loading
    else
      let loading := { loading with packet.readSectors := word packet.totalSectors }
      .inr (readSectorWithChs answer loading).2

/-- `load_module`; `fuel` bounds the rounds of its loop. -/
def loadModule (fuel : ℕ) (packet : DiskAddressPacket) : Option Loading :=
  let packet :=
    { packet with
      bufferOffset := 0x7e00
      bufferSelector := 0
      readSectors := 1
      startSector := withWord packet.startSector 1 }
  let (ax, loading) := readSectorWithChs answer ⟨packet, []⟩
  if ax ≠ 0 then some loading
  else
    let packet :=
      { packet with
        startSector := withWord packet.startSector (word packet.startSector + 1)
        totalSectors := withWord packet.totalSectors (word packet.totalSectors - 1)
        bufferSelector := 0x800
        bufferOffset := 0 }
    Loop.run (loopRead answer) fuel { loading with packet }

/-! ### Sectors in memory -/

/-- The sectors that a read copies, and the linear addresses they are copied to. -/
def DiskRead.transfers (read : DiskRead) : List (ℕ × ℕ) :=
  (List.range read.count.toNat).map fun index =>
    (read.start.toNat + index, read.selector.toNat * 16 + read.offset.toNat + 512 * index)

def Loading.transfers (loading : Loading) : List (ℕ × ℕ) :=
  loading.reads.flatMap DiskRead.transfers

/-- The module in memory: its sectors, from sector 1 on, one behind the other. -/
def image (sectors : ℕ) : List (ℕ × ℕ) :=
  (List.range sectors).map fun index => (index + 1, 0x7e00 + 512 * index)

/-- The sectors of the module are read, each once, to where they belong, and no others. -/
def Loads (sectors : ℕ) (loading : Loading) : Prop :=
  loading.transfers.Perm (image sectors)

theorem image_add (done count : ℕ) :
    image (done + count) =
      image done ++ (List.range count).map fun index =>
        (done + 1 + index, 0x7e00 + 512 * done + 512 * index) := by
  rw [image, List.range_add, List.map_append, List.map_map, image]
  congr 2
  funext index
  simp only [Function.comp_apply, Prod.mk.injEq]
  omega

/-- A read that continues the module. -/
theorem image_append_transfers {read : DiskRead} {done : ℕ} (start : read.start.toNat = done + 1)
    (place : read.selector.toNat * 16 + read.offset.toNat = 0x7e00 + 512 * done) :
    image done ++ read.transfers = image (done + read.count.toNat) := by
  rw [image_add, DiskRead.transfers, start, place]

theorem mem_transfers {read : DiskRead} {index : ℕ} (below : index < read.count.toNat) :
    (read.start.toNat + index, read.selector.toNat * 16 + read.offset.toNat + 512 * index) ∈
      read.transfers :=
  List.mem_map.mpr ⟨index, List.mem_range.mpr below, rfl⟩

theorem mem_image {sectors sector address : ℕ} (listed : (sector, address) ∈ image sectors) :
    1 ≤ sector ∧ sector ≤ sectors := by
  simp only [image, List.mem_map, List.mem_range, Prod.mk.injEq] at listed
  omega

/-! ### The loop -/

section

variable {answer} {sectors : ℕ} {loading next result : Loading}

/-- The state behind a chunk. -/
def Loading.chunk (loading : Loading) : Loading where
  packet :=
    { loading.packet with
      readSectors := 0x20
      startSector :=
        withWord loading.packet.startSector (word loading.packet.startSector + 0x20)
      bufferSelector := loading.packet.bufferSelector + 0x400
      totalSectors :=
        withWord loading.packet.totalSectors (word loading.packet.totalSectors - 0x20) }
  reads := loading.reads ++ [{ loading.packet.read with count := 0x20 }]

/-- The state behind what is left of less than a chunk. -/
def Loading.rest (loading : Loading) : Loading where
  packet := { loading.packet with readSectors := word loading.packet.totalSectors }
  reads := loading.reads ++
    [{ loading.packet.read with count := (word loading.packet.totalSectors).setWidth 8 }]

theorem loopRead_eq (succeeds : ∀ read, answer read = 0) (loading : Loading) :
    loopRead answer loading =
      if word loading.chunk.packet.totalSectors = 0 then .inr loading.chunk
      else if 0x20 ≤ loading.chunk.packet.totalSectors then .inl loading.chunk
      else .inr loading.chunk.rest := by
  simp only [loopRead, readSectorWithChs, succeeds]
  rfl

@[simp]
theorem transfers_chunk : loading.chunk.transfers = loading.transfers ++
    DiskRead.transfers { loading.packet.read with count := 0x20 } := by
  simp [Loading.transfers, Loading.chunk]

@[simp]
theorem transfers_rest : loading.rest.transfers = loading.transfers ++
    DiskRead.transfers
      { loading.packet.read with count := (word loading.packet.totalSectors).setWidth 8 } := by
  simp [Loading.transfers, Loading.rest]

/-- At `loop_read`, with `left` sectors of the module to be read. -/
structure AtLoopRead (done left : ℕ) (loading : Loading) : Prop where
  total : loading.packet.totalSectors.toNat = left
  transfers : loading.transfers = image done
  start : loading.packet.startSector.toNat = done + 1
  place : loading.packet.bufferSelector.toNat * 16 + loading.packet.bufferOffset.toNat =
    0x7e00 + 512 * done

theorem toNat_withWord_add {memory : BitVec 32} {value : BitVec 16}
    (small : memory.toNat + value.toNat < 2 ^ 16) :
    (withWord memory (word memory + value)).toNat = memory.toNat + value.toNat := by
  rw [toNat_withWord, BitVec.toNat_add, toNat_word]
  omega

theorem toNat_withWord_sub {memory : BitVec 32} {value : BitVec 16}
    (small : memory.toNat < 2 ^ 16) (enough : value.toNat ≤ memory.toNat) :
    (withWord memory (word memory - value)).toNat = memory.toNat - value.toNat := by
  have bound := value.isLt
  rw [toNat_withWord, BitVec.toNat_sub, toNat_word]
  omega

/-- A chunk is read where there is one. -/
theorem AtLoopRead.chunk {done left : ℕ} (holds : AtLoopRead done (left + 0x20) loading)
    (fits : 0x7e00 + 512 * (done + 0x20 + left) ≤ 0x100000) :
    loading.chunk.packet.totalSectors.toNat = left ∧
      loading.chunk.transfers = image (done + 0x20) ∧
      (0 < left → AtLoopRead (done + 0x20) left loading.chunk) := by
  rcases holds with ⟨total, transfers, start, place⟩
  have totalAfter : loading.chunk.packet.totalSectors.toNat = left := by
    have taken := @toNat_withWord_sub loading.packet.totalSectors 0x20 (by omega)
      (by rw [total]; exact Nat.le_add_left _ _)
    exact taken.trans (by rw [total]; exact Nat.add_sub_cancel left 0x20)
  have transfersAfter : loading.chunk.transfers = image (done + 0x20) := by
    rw [transfers_chunk, transfers]
    exact image_append_transfers start place
  refine ⟨totalAfter, transfersAfter, ?_⟩
  intro more
  refine ⟨totalAfter, transfersAfter, ?_, ?_⟩
  · have added := @toNat_withWord_add loading.packet.startSector 0x20
      (by rw [start]; change _ + 0x20 < _; omega)
    exact added.trans (by rw [start]; exact Nat.add_right_comm done 1 0x20)
  · have next : (loading.packet.bufferSelector + 0x400).toNat =
        loading.packet.bufferSelector.toNat + 0x400 := by
      rw [BitVec.toNat_add]
      change (_ + 0x400) % 2 ^ 16 = _
      omega
    simp only [Loading.chunk, next]
    omega

/-- Fewer sectors than a chunk are read in the end. -/
theorem AtLoopRead.rest {done left : ℕ} (holds : AtLoopRead done left loading)
    (few : left < 0x20) : loading.rest.transfers = image (done + left) := by
  rcases holds with ⟨total, transfers, start, place⟩
  have count : ((word loading.packet.totalSectors).setWidth 8).toNat = left := by
    rw [BitVec.toNat_setWidth, toNat_word, total]
    omega
  have continued := @image_append_transfers { loading.packet.read with
    count := (word loading.packet.totalSectors).setWidth 8 } done start place
  rw [transfers_rest, transfers, continued]
  exact congrArg (fun sectors => image (done + sectors)) count

/-- From a state with at least a chunk to read, the loop reads the rest of the module. -/
theorem exits_loopRead (succeeds : ∀ read, answer read = 0) {done left : ℕ}
    (holds : AtLoopRead done left loading) (enough : 0x20 ≤ left)
    (fits : 0x7e00 + 512 * (done + left) ≤ 0x100000) :
    ∃ result, Loop.Exits (loopRead answer) loading result ∧
      result.transfers = image (done + left) := by
  induction left using Nat.strong_induction_on generalizing done loading with
  | _ left ih =>
      rcases Nat.exists_eq_add_of_le' enough with ⟨remaining, rfl⟩
      rcases holds.chunk (by omega) with ⟨total, transfers, continues⟩
      have round := loopRead_eq succeeds loading
      have low : (word loading.chunk.packet.totalSectors).toNat = remaining := by
        rw [toNat_word, total]
        omega
      have sum : done + (remaining + 0x20) = done + 0x20 + remaining := by omega
      rw [sum]
      by_cases finished : remaining = 0
      · subst finished
        rw [if_pos (BitVec.eq_of_toNat_eq low)] at round
        exact ⟨loading.chunk, Loop.exits_of_inr round, transfers⟩
      · have more : word loading.chunk.packet.totalSectors ≠ 0 := by
          intro zero
          rw [zero] at low
          exact finished low.symm
        have head := continues (Nat.pos_of_ne_zero finished)
        rw [if_neg more] at round
        by_cases again : 0x20 ≤ remaining
        · have above : 0x20 ≤ loading.chunk.packet.totalSectors := by
            rw [BitVec.le_def, total]
            exact again
          rw [if_pos above] at round
          rcases ih remaining (by omega) head again (by omega) with ⟨result, exits, loaded⟩
          exact ⟨result, Loop.exits_of_inl round exits, loaded⟩
        · have below : ¬0x20 ≤ loading.chunk.packet.totalSectors := by
            rw [BitVec.le_def, total]
            exact again
          rw [if_neg below] at round
          exact ⟨loading.chunk.rest, Loop.exits_of_inr round, head.rest (by omega)⟩

/-! ### What has been read -/

theorem transfers_subset_of_loopRead (succeeds : ∀ read, answer read = 0)
    (round : loopRead answer loading = .inl next ∨ loopRead answer loading = .inr next) :
    loading.chunk.transfers ⊆ next.transfers := by
  rw [loopRead_eq succeeds] at round
  have cases : next = loading.chunk ∨ next = loading.chunk.rest := by
    split at round
    · simp_all
    · split at round
      · simp_all
      · simp_all
  rcases cases with rfl | rfl
  · exact List.Subset.refl _
  · rw [transfers_rest]
    exact List.subset_append_left _ _

/-- Whatever comes later, the first chunk has been read. -/
theorem chunk_subset_of_exits (succeeds : ∀ read, answer read = 0)
    (exits : Loop.Exits (loopRead answer) loading result) :
    loading.chunk.transfers ⊆ result.transfers := by
  have grows : ∀ between : Loading, between.transfers ⊆ between.chunk.transfers := by
    intro between
    rw [transfers_chunk]
    exact List.subset_append_left _ _
  rcases exits.exists_reaches with ⟨last, path, leaves⟩
  have read := @Loop.Reaches.invariant _ _ _
    (fun state => state = loading ∨ loading.chunk.transfers ⊆ state.transfers) _ _ path
    (Or.inl rfl) (by
      intro before after holds round
      right
      have reads := transfers_subset_of_loopRead succeeds (Or.inl round)
      rcases holds with rfl | holds
      · exact reads
      · exact List.Subset.trans (List.Subset.trans holds (grows before)) reads)
  have reads := transfers_subset_of_loopRead succeeds (Or.inr leaves)
  rcases read with rfl | holds
  · exact reads
  · exact List.Subset.trans (List.Subset.trans holds (grows last)) reads

/-! ### The whole routine -/

variable {packet : DiskAddressPacket}

/-- The state behind the first sector. -/
def DiskAddressPacket.first (packet : DiskAddressPacket) : Loading where
  packet :=
    { readSectors := 1
      bufferOffset := 0
      bufferSelector := 0x800
      startSector := withWord (withWord packet.startSector 1) (1 + 1)
      totalSectors := withWord packet.totalSectors (word packet.totalSectors - 1) }
  reads := [⟨1, withWord packet.startSector 1, 0, 0x7e00⟩]

def DiskAddressPacket.firstRead (packet : DiskAddressPacket) : DiskRead :=
  ⟨1, withWord packet.startSector 1, 0, 0x7e00⟩

theorem toNat_start_firstRead (packet : DiskAddressPacket) :
    packet.firstRead.start.toNat = (upper packet.startSector).toNat * 2 ^ 16 + 1 := by
  rw [DiskAddressPacket.firstRead, toNat_withWord, toNat_upper]
  rfl

theorem toNat_start_first (packet : DiskAddressPacket) :
    packet.first.packet.startSector.toNat = (upper packet.startSector).toNat * 2 ^ 16 + 2 := by
  have kept : (withWord (withWord packet.startSector 1) (1 + 1)).toNat =
      packet.startSector.toNat / 2 ^ 16 * 2 ^ 16 + 2 := by
    rw [toNat_withWord, toNat_withWord]
    change (_ + 1) / 2 ^ 16 * 2 ^ 16 + 2 = _
    omega
  rw [toNat_upper]
  exact kept

theorem transfers_first (packet : DiskAddressPacket) :
    packet.first.transfers = packet.firstRead.transfers :=
  List.append_nil _

theorem loadModule_eq (succeeds : ∀ read, answer read = 0) (fuel : ℕ)
    (packet : DiskAddressPacket) :
    loadModule answer fuel packet = Loop.run (loopRead answer) fuel packet.first := by
  simp only [loadModule, readSectorWithChs, succeeds, word_withWord]
  rfl

theorem atLoopRead_first (clear : upper packet.startSector = 0) {left : ℕ}
    (total : packet.totalSectors.toNat = left + 1) (small : left + 1 < 2 ^ 16) :
    AtLoopRead 1 left packet.first where
  total := by
    have taken := @toNat_withWord_sub packet.totalSectors 1 (by omega)
      (by rw [total]; exact Nat.le_add_left 1 left)
    exact taken.trans (by rw [total]; exact Nat.add_sub_cancel left 1)
  transfers := by
    have start := toNat_start_firstRead packet
    have place : (0 : BitVec 16).toNat * 16 + (0x7e00 : BitVec 16).toNat = 0x7e00 + 512 * 0 := by
      decide
    rw [clear] at start
    rw [transfers_first]
    exact @image_append_transfers packet.firstRead 0 start place
  start := by
    rw [toNat_start_first, clear]
    rfl
  place := by
    change (0x800 : BitVec 16).toNat * 16 + (0 : BitVec 16).toNat = _
    decide

/--
The module is loaded as it should be exactly if it has at least 33 sectors, from a packet in which
the upper half of `start_sector` is clear, as it is from the data section on.
-/
theorem loadModule_loads_iff (succeeds : ∀ read, answer read = 0)
    (positive : 1 ≤ packet.totalSectors.toNat)
    (fits : 0x7e00 + 512 * packet.totalSectors.toNat ≤ 0x100000) :
    (∃ fuel result, loadModule answer fuel packet = some result ∧
      Loads packet.totalSectors.toNat result) ↔
      33 ≤ packet.totalSectors.toNat ∧ upper packet.startSector = 0 := by
  rcases Nat.exists_eq_add_of_le' positive with ⟨left, total⟩
  rw [total] at fits ⊢
  constructor
  · rintro ⟨fuel, result, ends, loads⟩
    rw [loadModule_eq succeeds] at ends
    have read := chunk_subset_of_exits succeeds ⟨fuel, ends⟩
    have listed : ∀ sector address, (sector, address) ∈ packet.first.chunk.transfers →
        sector ≤ left + 1 := by
      intro sector address transferred
      exact (mem_image (loads.mem_iff.mp (read transferred))).2
    rw [transfers_chunk, transfers_first] at listed
    have one : 0 < (1 : BitVec 8).toNat := by decide
    have chunk : 31 < (0x20 : BitVec 8).toNat := by decide
    have first := listed _ _ (List.mem_append_left _ (@mem_transfers packet.firstRead 0 one))
    have last := listed _ _ (List.mem_append_right _
      (@mem_transfers { packet.first.packet.read with count := 0x20 } 31 chunk))
    rw [toNat_start_firstRead] at first
    change packet.first.packet.startSector.toNat + 31 ≤ left + 1 at last
    rw [toNat_start_first] at last
    have clear : (upper packet.startSector).toNat = 0 := by omega
    exact ⟨by omega, BitVec.eq_of_toNat_eq clear⟩
  · rintro ⟨enough, clear⟩
    have head := atLoopRead_first clear total (by omega)
    rcases exits_loopRead succeeds head (by omega) (by omega) with ⟨result, ⟨fuel, ends⟩, loaded⟩
    refine ⟨fuel, result, by rw [loadModule_eq succeeds, ends], ?_⟩
    rw [Loads, loaded, Nat.add_comm left 1]

end

/-- `disk_address_packet` with this many sectors to load. -/
def diskAddressPacket (totalSectors : BitVec 32) : DiskAddressPacket where
  readSectors := 0
  bufferOffset := 0
  bufferSelector := 0
  startSector := 0
  totalSectors := totalSectors

theorem loadModule_loads_iff_seventyFive :
    ∃ fuel result, loadModule (fun _ => 0) fuel (diskAddressPacket 75) = some result ∧
      Loads 75 result :=
  (@loadModule_loads_iff (fun _ => 0) (diskAddressPacket 75) (fun _ => rfl) (by decide)
    (by decide)).mpr ⟨by decide, by decide⟩

/-- With a module of one sector, 32 sectors behind it are read. -/
theorem not_loads_one :
    ¬∃ fuel result, loadModule (fun _ => 0) fuel (diskAddressPacket 1) = some result ∧
      Loads 1 result := by
  rintro ⟨fuel, result, ends, loads⟩
  rw [loadModule_eq fun _ => rfl] at ends
  have read := chunk_subset_of_exits (fun _ => rfl) ⟨fuel, ends⟩
  have second : (2, 0x8000) ∈ (diskAddressPacket 1).first.chunk.transfers := by
    decide
  have listed := mem_image (loads.mem_iff.mp (read second))
  omega

end VirtLearn.Boot
