import Mathlib.Tactic.Ring
import VirtLearn.Boot.RealMode

/-!
# Cylinders, heads and sectors

`get_driver_parameters` of `pre_run.S` has the BIOS tell the geometry of the drive, and
`do_lba_to_chs` finds the cylinder, the head and the sector of the sector with a given number. Its
divisor is the sectors of a cylinder in the low word of `eax`, where the upper half is still that
of its caller; and of 256 heads the byte that counts them keeps none
(`doLbaToChs_locates_iff`).
-/

namespace VirtLearn.Boot

/-- `driver_parameters_table`. Of the word `header_maximum` only the low byte is ever written. -/
structure DriverParametersTable where
  driverType : BitVec 8
  driverNumber : BitVec 8
  cylinderMaximum : BitVec 16
  headerMaximum : BitVec 16
  sectorMaximum : BitVec 16
  parameterTable : BitVec 16
  headersByte : headerMaximum.toNat < 2 ^ 8

/-- A word of memory with its low byte written. -/
def storeByte (memory : BitVec 16) (byte : BitVec 8) : BitVec 16 :=
  memory.extractLsb' 8 8 ++ byte

theorem toNat_storeByte (memory : BitVec 16) (byte : BitVec 8) :
    (storeByte memory byte).toNat = memory.toNat / 2 ^ 8 * 2 ^ 8 + byte.toNat := by
  have bound := memory.isLt
  rw [storeByte, toNat_append_eq_add, BitVec.extractLsb'_toNat, Nat.shiftRight_eq_div_pow]
  omega

theorem toNat_storeByte_of_lt {memory : BitVec 16} (small : memory.toNat < 2 ^ 8)
    (byte : BitVec 8) : (storeByte memory byte).toNat = byte.toNat := by
  rw [toNat_storeByte, Nat.div_eq_of_lt small, Nat.zero_mul, Nat.zero_add]

theorem storeByte_lt {memory : BitVec 16} (small : memory.toNat < 2 ^ 8) (byte : BitVec 8) :
    (storeByte memory byte).toNat < 2 ^ 8 := by
  rw [toNat_storeByte_of_lt small]
  exact byte.isLt

/-- What `get_driver_parameters` asks the BIOS. -/
def driverParametersRequest (table : DriverParametersTable) (registers : Registers) : Registers :=
  { registers with
    eax := withHigh registers.eax 0x08
    edx := withLow registers.edx table.driverNumber
    edi := withWord registers.edi table.parameterTable }

/-- `int13` answers a call of the BIOS with the carry flag and the registers. -/
def getDriverParameters (int13 : Registers → Bool × Registers) (table : DriverParametersTable)
    (registers : Registers) : DriverParametersTable × Registers :=
  let (carry, answer) := int13 (driverParametersRequest table registers)
  -- The low words of `edx`, `ecx` and `ebx` come back from the stack.
  let done : Registers :=
    { answer with
      eax := withWord answer.eax ((high answer.eax).setWidth 16)
      ebx := withWord answer.ebx (word registers.ebx)
      ecx := withWord answer.ecx (word registers.ecx)
      edx := withWord answer.edx (word registers.edx) }
  if carry then (table, done)
  else
    let dh := high answer.edx + 1
    let sectorMaximum := storeByte table.sectorMaximum (low answer.ecx)
    let ecx := withLow answer.ecx (low answer.ecx >>> 6)
    let cx := (word ecx).rotateLeft 8
    let cx := cx &&& 0x3ff
    let cx := cx + 1
    ({ table with
        driverType := low answer.ebx
        headerMaximum := storeByte table.headerMaximum dh
        headersByte := storeByte_lt table.headersByte dh
        sectorMaximum := sectorMaximum &&& 0x3f
        cylinderMaximum := cx }, done)

/-- `do_lba_to_chs`; a division may fail. -/
def doLbaToChs (table : DriverParametersTable) (packet : DiskAddressPacket)
    (registers : Registers) : Option Registers := do
  let ecx := withWord registers.ecx table.sectorMaximum
  let eax := withWord registers.eax table.headerMaximum
  -- `mul %cx` to `dx:ax`
  let product := (word eax).setWidth 32 * (word ecx).setWidth 32
  let eax := withWord eax (word product)
  let ecx := eax
  let eax := packet.startSector
  let edx := 0
  let (eax, edx) ← div edx eax ecx
  let ebx := eax
  let edi := withWord registers.edi table.sectorMaximum
  let ecx := (word edi).setWidth 32
  let eax := edx
  let edx := 0
  let (eax, edx) ← div edx eax ecx
  let edx := edx + 1
  let ecx := withLow ecx (low edx)
  let ecx := withHigh ecx (low ebx)
  let ebx := withWord ebx (word ebx >>> 2)
  let ebx := withWord ebx (word ebx &&& 0xc0)
  let ecx := withLow ecx (low ecx ||| low ebx)
  let edx := withHigh edx (low eax)
  return { eax, ebx, ecx, edx, edi }

/-! ### Geometry -/

/--
What the BIOS reports of a drive: the highest head, and in one word the highest cylinder and the
number of sectors of a track, of which there is at least one.
-/
structure Geometry where
  maximumHead : BitVec 8
  packed : BitVec 16
  track : 0 < packed.toNat % 2 ^ 6

/-- Where a sector is. Sectors are counted from 1. -/
structure SectorAddress where
  cylinder : ℕ
  head : ℕ
  sector : ℕ
deriving DecidableEq

namespace Geometry

variable (geometry : Geometry)

def heads : ℕ :=
  geometry.maximumHead.toNat + 1

def sectors : ℕ :=
  geometry.packed.toNat % 2 ^ 6

def cylinders : ℕ :=
  geometry.packed.toNat / 2 ^ 8 + geometry.packed.toNat / 2 ^ 6 % 2 ^ 2 * 2 ^ 8 + 1

/-- The sector with this number is at this address. -/
structure Locates (number : ℕ) (address : SectorAddress) : Prop where
  cylinder : address.cylinder < geometry.cylinders
  head : address.head < geometry.heads
  sector : 1 ≤ address.sector ∧ address.sector ≤ geometry.sectors
  number : number =
    (address.cylinder * geometry.heads + address.head) * geometry.sectors + (address.sector - 1)

/-- The BIOS answers a request with this geometry. -/
structure Reported (answer : Bool × Registers) : Prop where
  success : answer.1 = false
  head : high answer.2.edx = geometry.maximumHead
  packed : word answer.2.ecx = geometry.packed

end Geometry

/-- An address as the BIOS takes it: the cylinder is split over `ch` and the top of `cl`. -/
structure Encodes (address : SectorAddress) (registers : Registers) : Prop where
  cylinder : (high registers.ecx).toNat = address.cylinder % 2 ^ 8
  sector : (low registers.ecx).toNat = address.cylinder / 2 ^ 8 * 2 ^ 6 + address.sector
  head : (high registers.edx).toNat = address.head

namespace Geometry

variable {geometry : Geometry} {number : ℕ}

theorem sectors_lt : geometry.sectors < 2 ^ 6 :=
  Nat.mod_lt _ (by decide)

theorem heads_le : geometry.heads ≤ 2 ^ 8 :=
  geometry.maximumHead.isLt

theorem cylinders_le : geometry.cylinders ≤ 2 ^ 10 := by
  have bound := geometry.packed.isLt
  rw [cylinders]
  omega

theorem sectors_pos : 0 < geometry.sectors :=
  geometry.track

/-- A head and a sector of a cylinder, as a number. -/
theorem track_lt {head sector : ℕ} (headBound : head < geometry.heads)
    (sectorBound : sector < geometry.sectors) :
    head * geometry.sectors + sector < geometry.heads * geometry.sectors := by
  calc
    head * geometry.sectors + sector < (head + 1) * geometry.sectors := by
      rw [Nat.succ_mul]
      exact Nat.add_lt_add_left sectorBound _
    _ ≤ geometry.heads * geometry.sectors := Nat.mul_le_mul_right _ headBound

/-- The address of a number, by its digits to the sizes of a track and of a cylinder. -/
def addressOf (geometry : Geometry) (number : ℕ) : SectorAddress where
  cylinder := number / (geometry.heads * geometry.sectors)
  head := number % (geometry.heads * geometry.sectors) / geometry.sectors
  sector := number % (geometry.heads * geometry.sectors) % geometry.sectors + 1

theorem Locates.eq_addressOf {address : SectorAddress} (locates : geometry.Locates number address) :
    address = geometry.addressOf number := by
  rcases address with ⟨cylinder, head, sector⟩
  rcases locates with ⟨_, headBound, ⟨first, last⟩, written⟩
  simp only at headBound first last written
  have track := @sectors_pos geometry
  have sectorBound : sector - 1 < geometry.sectors := by omega
  have inTrack := track_lt headBound sectorBound
  have digits : number = head * geometry.sectors + (sector - 1) +
      cylinder * (geometry.heads * geometry.sectors) := by
    rw [written]
    ring
  have positive : 0 < geometry.heads * geometry.sectors := by omega
  have rest : number % (geometry.heads * geometry.sectors) =
      head * geometry.sectors + (sector - 1) := by
    rw [digits, Nat.add_mul_mod_self_right, Nat.mod_eq_of_lt inTrack]
  have quotient : number / (geometry.heads * geometry.sectors) = cylinder := by
    rw [digits, Nat.add_mul_div_right _ _ positive, Nat.div_eq_of_lt inTrack, Nat.zero_add]
  rw [addressOf, quotient, rest, Nat.add_comm (head * _), Nat.add_mul_div_right _ _ track,
    Nat.add_mul_mod_self_right, Nat.div_eq_of_lt sectorBound, Nat.mod_eq_of_lt sectorBound,
    Nat.zero_add, Nat.sub_add_cancel first]

theorem locates_addressOf
    (inside : number < geometry.cylinders * geometry.heads * geometry.sectors) :
    geometry.Locates number (geometry.addressOf number) where
  cylinder := by
    apply Nat.div_lt_of_lt_mul
    rwa [Nat.mul_comm, ← Nat.mul_assoc]
  head := by
    have positive : 0 < geometry.heads * geometry.sectors :=
      Nat.mul_pos (Nat.succ_pos _) sectors_pos
    apply Nat.div_lt_of_lt_mul
    rw [Nat.mul_comm geometry.sectors]
    exact Nat.mod_lt _ positive
  sector := ⟨Nat.succ_pos _, Nat.mod_lt _ sectors_pos⟩
  number := by
    have whole := Nat.div_add_mod number (geometry.heads * geometry.sectors)
    have inCylinder := Nat.div_add_mod (number % (geometry.heads * geometry.sectors))
      geometry.sectors
    simp only [addressOf, Nat.add_sub_cancel]
    rw [Nat.add_mul, Nat.mul_assoc, Nat.mul_comm (_ / _) (geometry.heads * _),
      Nat.mul_comm (_ / _) geometry.sectors]
    omega

theorem existsUnique_locates
    (inside : number < geometry.cylinders * geometry.heads * geometry.sectors) :
    ∃! address, geometry.Locates number address :=
  ⟨geometry.addressOf number, locates_addressOf inside, fun _ located => located.eq_addressOf⟩

end Geometry

/-! ### The geometry in the table -/

variable {geometry : Geometry} {table : DriverParametersTable}

theorem toNat_and_sectors (memory : BitVec 16) (byte : BitVec 8) :
    (storeByte memory byte &&& 0x3f).toNat = byte.toNat % 2 ^ 6 := by
  rw [BitVec.toNat_and]
  change (storeByte memory byte).toNat &&& (2 ^ 6 - 1) = _
  rw [Nat.and_two_pow_sub_one_eq_mod, toNat_storeByte]
  omega

theorem toNat_rotateLeft_eight (register : BitVec 32) :
    ((word register).rotateLeft 8).toNat =
      (low register).toNat * 2 ^ 8 + (high register).toNat := by
  have swapped : (word register).rotateLeft 8 = low register ++ high register := by
    apply BitVec.eq_of_getElem_eq
    intro index below
    rw [BitVec.getElem_rotateLeft, BitVec.getElem_append]
    split
    · simp [word, high]
    · simp [word, low]
  rw [swapped, toNat_append_eq_add]

theorem getDriverParameters_reported {int13 : Registers → Bool × Registers} {asking : Registers}
    (reported : geometry.Reported (int13 (driverParametersRequest table asking))) :
    (getDriverParameters int13 table asking).1.sectorMaximum.toNat = geometry.sectors ∧
      (getDriverParameters int13 table asking).1.headerMaximum.toNat = geometry.heads % 2 ^ 8 ∧
      (getDriverParameters int13 table asking).1.cylinderMaximum.toNat = geometry.cylinders := by
  rcases reported with ⟨success, head, packed⟩
  rcases answered : int13 (driverParametersRequest table asking) with ⟨carry, answer⟩
  rw [answered] at success head packed
  simp only at success head packed
  simp only [getDriverParameters, answered, success, Bool.false_eq_true, if_false]
  refine ⟨?_, ?_, ?_⟩
  · rw [toNat_and_sectors, toNat_low, Geometry.sectors, ← packed, toNat_word]
    omega
  · rw [toNat_storeByte_of_lt table.headersByte, BitVec.toNat_add, head]
    rfl
  · rw [BitVec.toNat_add, BitVec.toNat_and]
    change ((_ &&& (2 ^ 10 - 1)) + 1) % 2 ^ 16 = _
    rw [Nat.and_two_pow_sub_one_eq_mod, toNat_rotateLeft_eight, low_withLow, high_withLow,
      BitVec.toNat_ushiftRight, toNat_low, toNat_high, Geometry.cylinders, ← packed, toNat_word,
      Nat.shiftRight_eq_div_pow]
    have cylinderLow : answer.ecx.toNat / 2 ^ 8 % 2 ^ 8 = answer.ecx.toNat % 2 ^ 16 / 2 ^ 8 := by
      omega
    have cylinderHigh :
        answer.ecx.toNat % 2 ^ 8 / 2 ^ 6 = answer.ecx.toNat % 2 ^ 16 / 2 ^ 6 % 2 ^ 2 := by
      omega
    have topBound : answer.ecx.toNat % 2 ^ 16 / 2 ^ 6 % 2 ^ 2 < 2 ^ 2 := Nat.mod_lt _ (by decide)
    have restBound : answer.ecx.toNat % 2 ^ 16 / 2 ^ 8 < 2 ^ 8 := by omega
    rw [cylinderLow, cylinderHigh, Nat.mod_eq_of_lt (by omega), Nat.mod_eq_of_lt (by omega)]
    omega

/-! ### The conversion -/

/-- The divisor that is to be the number of sectors of a cylinder. -/
def divisor (table : DriverParametersTable) (registers : Registers) : BitVec 32 :=
  withWord (withWord registers.eax table.headerMaximum)
    (word (table.headerMaximum.setWidth 32 * table.sectorMaximum.setWidth 32))

theorem toNat_divisor (registers : Registers) (track : table.sectorMaximum.toNat < 2 ^ 6) :
    (divisor table registers).toNat = (upper registers.eax).toNat * 2 ^ 16 +
      table.headerMaximum.toNat * table.sectorMaximum.toNat := by
  have product : table.headerMaximum.toNat * table.sectorMaximum.toNat < 2 ^ 8 * 2 ^ 6 :=
    Nat.mul_lt_mul'' table.headersByte track
  have header := table.headerMaximum.isLt
  rw [divisor, toNat_withWord, toNat_withWord, toNat_word, BitVec.toNat_mul,
    BitVec.toNat_setWidth_of_le (by decide), BitVec.toNat_setWidth_of_le (by decide), toNat_upper]
  omega

theorem and_top (value : ℕ) : value &&& 0xc0 = value / 2 ^ 6 % 2 ^ 2 * 2 ^ 6 := by
  apply Nat.eq_of_testBit_eq
  intro bit
  rw [show 0xc0 = (2 ^ 2 - 1) * 2 ^ 6 from rfl, Nat.testBit_and, Nat.testBit_mul_two_pow,
    Nat.testBit_mul_two_pow, Nat.testBit_mod_two_pow, Nat.testBit_two_pow_sub_one,
    Nat.testBit_div_two_pow]
  by_cases reached : 6 ≤ bit
  · simp [reached, Bool.and_comm]
  · simp [reached]

theorem low_withWord_withWord (register : BitVec 32) (first second : BitVec 16) :
    low (withWord (withWord register first) second) = low (withWord register second) := by
  apply BitVec.eq_of_toNat_eq
  simp only [toNat_low, toNat_withWord]
  omega

/-- The cylinder and the sector in their parts of `cl`. -/
theorem toNat_sectorByte {cylinder sector : BitVec 32} (small : sector.toNat < 2 ^ 6) :
    (low sector ||| low (withWord cylinder (word cylinder >>> 2 &&& 0xc0))).toNat =
      cylinder.toNat / 2 ^ 8 % 2 ^ 2 * 2 ^ 6 + sector.toNat := by
  have top : (low (withWord cylinder (word cylinder >>> 2 &&& 0xc0))).toNat =
      (cylinder.toNat / 2 ^ 8 % 2 ^ 2) <<< 6 := by
    rw [toNat_low, toNat_withWord, BitVec.toNat_and, BitVec.toNat_ushiftRight, toNat_word]
    change (_ + (_ &&& 0xc0)) % 2 ^ 8 = _
    rw [and_top, Nat.shiftRight_eq_div_pow, Nat.shiftLeft_eq]
    omega
  have bottom : (low sector).toNat = sector.toNat := by
    rw [toNat_low]
    omega
  rw [BitVec.toNat_or, top, bottom, Nat.or_comm, ← Nat.shiftLeft_add_eq_or_of_lt small,
    Nat.shiftLeft_eq]

/-- The registers in the end, from the results of the two divisions. -/
def chsRegisters (table : DriverParametersTable) (registers : Registers)
    (cylinder head sector : BitVec 32) : Registers where
  eax := head
  ebx := withWord (withWord cylinder (word cylinder >>> 2)) (word cylinder >>> 2 &&& 0xc0)
  ecx := withLow (withHigh (withLow (table.sectorMaximum.setWidth 32) (low sector)) (low cylinder))
    (low sector |||
      low (withWord (withWord cylinder (word cylinder >>> 2)) (word cylinder >>> 2 &&& 0xc0)))
  edx := withHigh sector (low head)
  edi := withWord registers.edi table.sectorMaximum

theorem doLbaToChs_eq (packet : DiskAddressPacket) (registers : Registers) :
    doLbaToChs table packet registers = (do
      let (cylinder, rest) ← div 0 packet.startSector (divisor table registers)
      let (head, sector) ← div 0 rest (table.sectorMaximum.setWidth 32)
      return chsRegisters table registers cylinder head (sector + 1)) := by
  simp only [doLbaToChs, divisor, chsRegisters, word_withWord, low_withLow, low_withHigh]

theorem encodes_chsRegisters (registers : Registers) {cylinder head sector : BitVec 32}
    (small : sector.toNat < 2 ^ 6) :
    Encodes ⟨cylinder.toNat % 2 ^ 10, head.toNat % 2 ^ 8, sector.toNat⟩
      (chsRegisters table registers cylinder head sector) where
  cylinder := by
    rw [chsRegisters, high_withLow, high_withHigh, toNat_low]
    dsimp only
    omega
  sector := by
    rw [chsRegisters, low_withLow, low_withWord_withWord, toNat_sectorByte small]
    dsimp only
    omega
  head := by rw [chsRegisters, high_withHigh, toNat_low]

/-- What is found with a divisor that need not be the right one. -/
theorem doLbaToChs_of_divisor (packet : DiskAddressPacket) {registers : Registers} {size : ℕ}
    (same : (divisor table registers).toNat = size) (positive : 0 < size)
    (first : 0 < table.sectorMaximum.toNat) (track : table.sectorMaximum.toNat < 2 ^ 6) :
    ∃ after, doLbaToChs table packet registers = some after ∧
      Encodes ⟨packet.startSector.toNat / size % 2 ^ 10,
        packet.startSector.toNat % size / table.sectorMaximum.toNat % 2 ^ 8,
        packet.startSector.toNat % size % table.sectorMaximum.toNat + 1⟩ after := by
  have defined : divisor table registers ≠ 0 := by
    intro zero
    rw [zero] at same
    exact Nat.ne_of_gt positive same.symm
  have sectorMaximum : (table.sectorMaximum.setWidth 32).toNat = table.sectorMaximum.toNat :=
    BitVec.toNat_setWidth_of_le (by decide)
  have trackDefined : table.sectorMaximum.setWidth 32 ≠ 0 := by
    intro zero
    rw [zero] at sectorMaximum
    exact Nat.ne_of_gt first sectorMaximum.symm
  have inTrack : packet.startSector.toNat % size % table.sectorMaximum.toNat <
      table.sectorMaximum.toNat := Nat.mod_lt _ first
  have sector : (packet.startSector % divisor table registers %
      table.sectorMaximum.setWidth 32 + 1).toNat =
        packet.startSector.toNat % size % table.sectorMaximum.toNat + 1 := by
    rw [BitVec.toNat_add, BitVec.toNat_umod, BitVec.toNat_umod, same, sectorMaximum]
    change (_ + 1) % 2 ^ 32 = _
    omega
  have encodes := @encodes_chsRegisters table registers
    (packet.startSector / divisor table registers)
    (packet.startSector % divisor table registers / table.sectorMaximum.setWidth 32) _
    (by rw [sector]; omega)
  rw [sector, BitVec.toNat_udiv, BitVec.toNat_udiv, BitVec.toNat_umod, same, sectorMaximum]
    at encodes
  refine ⟨_, ?_, encodes⟩
  rw [doLbaToChs_eq, div_of_ne_zero defined]
  simp only [Option.bind_eq_bind, Option.bind_some, div_of_ne_zero trackDefined]
  rfl

theorem doLbaToChs_eq_none (packet : DiskAddressPacket) {registers : Registers}
    (zero : (divisor table registers).toNat = 0) : doLbaToChs table packet registers = none := by
  have undefined : divisor table registers = 0 := BitVec.eq_of_toNat_eq zero
  rw [doLbaToChs_eq, undefined, div_zero]
  rfl

/-- Registers encode one address. -/
theorem Encodes.cylinder_eq {first second : SectorAddress} {registers : Registers}
    (encodes : Encodes first registers) (other : Encodes second registers)
    (small : first.sector < 2 ^ 6) (otherSmall : second.sector < 2 ^ 6) :
    first.cylinder = second.cylinder := by
  have low := encodes.cylinder.symm.trans other.cylinder
  have top := encodes.sector.symm.trans other.sector
  omega

/-- The conversion ends without a divide error, and leaves the address of the sector. -/
def Converts (geometry : Geometry) (table : DriverParametersTable) (packet : DiskAddressPacket)
    (registers : Registers) : Prop :=
  ∃ after address, doLbaToChs table packet registers = some after ∧
    geometry.Locates packet.startSector.toNat address ∧ Encodes address after

section

variable {packet : DiskAddressPacket} {registers : Registers}

/-- With the right divisor the address is found. -/
theorem converts_of_divisor (sectors : table.sectorMaximum.toNat = geometry.sectors)
    (same : (divisor table registers).toNat = geometry.heads * geometry.sectors)
    (inside : packet.startSector.toNat <
      geometry.cylinders * geometry.heads * geometry.sectors) :
    Converts geometry table packet registers := by
  have located := Geometry.locates_addressOf inside
  have cylinder := Nat.lt_of_lt_of_le located.cylinder Geometry.cylinders_le
  have head := Nat.lt_of_lt_of_le located.head Geometry.heads_le
  rcases doLbaToChs_of_divisor packet same
    (Nat.mul_pos (Nat.succ_pos _) Geometry.sectors_pos)
    (by rw [sectors]; exact Geometry.sectors_pos)
    (by rw [sectors]; exact Geometry.sectors_lt) with ⟨after, ends, encodes⟩
  rw [sectors] at encodes
  simp only [Geometry.addressOf] at cylinder head
  rw [Nat.mod_eq_of_lt cylinder, Nat.mod_eq_of_lt head] at encodes
  exact ⟨after, _, ends, located, encodes⟩

/-- A much larger divisor leaves a smaller quotient, unless both are 0. -/
theorem lt_of_div_le {size number larger : ℕ} (positive : 0 < size) (small : size < 2 ^ 8 * 2 ^ 6)
    (large : 2 ^ 16 ≤ larger) (le : number / size ≤ number / larger) : number < size := by
  by_contra reached
  have first : 1 ≤ number / size := Nat.div_pos (Nat.not_lt.mp reached) positive
  have below : number / size * 2 ^ 16 ≤ number := by
    calc
      number / size * 2 ^ 16 ≤ number / larger * larger := Nat.mul_le_mul le large
      _ ≤ number := Nat.div_mul_le_self number larger
  have above : number < (number / size + 1) * (2 ^ 8 * 2 ^ 6) := by
    calc
      number < (number / size + 1) * size := by
        rw [Nat.mul_comm]
        exact Nat.lt_mul_div_succ number positive
      _ ≤ (number / size + 1) * (2 ^ 8 * 2 ^ 6) := Nat.mul_le_mul_left _ (Nat.le_of_lt small)
  omega

/-- A divisor above any cylinder finds the sectors of the first cylinder only. -/
theorem converts_iff_of_large (sectors : table.sectorMaximum.toNat = geometry.sectors)
    (large : 2 ^ 16 ≤ (divisor table registers).toNat)
    (inside : packet.startSector.toNat <
      geometry.cylinders * geometry.heads * geometry.sectors) :
    Converts geometry table packet registers ↔
      packet.startSector.toNat < geometry.heads * geometry.sectors := by
  have located := Geometry.locates_addressOf inside
  have sizeBound : geometry.heads * geometry.sectors < 2 ^ 8 * 2 ^ 6 :=
    Nat.mul_lt_mul_of_le_of_lt Geometry.heads_le Geometry.sectors_lt (by decide)
  rcases doLbaToChs_of_divisor packet rfl (Nat.lt_of_lt_of_le (by decide) large)
    (by rw [sectors]; exact Geometry.sectors_pos)
    (by rw [sectors]; exact Geometry.sectors_lt) with ⟨after, ends, encodes⟩
  rw [sectors] at encodes
  constructor
  · rintro ⟨same, address, sameEnds, addressed, encoded⟩
    cases Option.some.inj (ends.symm.trans sameEnds)
    have bound : packet.startSector.toNat % (divisor table registers).toNat % geometry.sectors <
        geometry.sectors := Nat.mod_lt _ Geometry.sectors_pos
    have small : geometry.sectors < 2 ^ 6 := Geometry.sectors_lt
    have cylinders := encodes.cylinder_eq encoded (Nat.lt_of_le_of_lt bound small)
      (Nat.lt_of_le_of_lt addressed.sector.2 small)
    rw [addressed.eq_addressOf] at cylinders
    simp only [Geometry.addressOf] at cylinders
    exact lt_of_div_le (Nat.mul_pos (Nat.succ_pos _) Geometry.sectors_pos) sizeBound large
      (cylinders ▸ Nat.mod_le _ _)
  · intro first
    have below : packet.startSector.toNat < (divisor table registers).toNat := by omega
    have head := Nat.lt_of_lt_of_le located.head Geometry.heads_le
    simp only [Geometry.addressOf, Nat.mod_eq_of_lt first] at head
    rw [Nat.div_eq_of_lt below, Nat.mod_eq_of_lt below, Nat.mod_eq_of_lt head] at encodes
    rw [Geometry.addressOf, Nat.div_eq_of_lt first, Nat.mod_eq_of_lt first] at located
    exact ⟨after, _, ends, located, encodes⟩

/--
The address is found if the caller left the upper half of `eax` clear and the heads fit a byte, or
else in the first cylinder only. With 256 heads and a clear upper half the first division fails.
-/
theorem doLbaToChs_locates_iff {int13 : Registers → Bool × Registers} {asking : Registers}
    (reported : geometry.Reported (int13 (driverParametersRequest table asking)))
    (inside : packet.startSector.toNat <
      geometry.cylinders * geometry.heads * geometry.sectors) :
    (∃! address, geometry.Locates packet.startSector.toNat address) ∧
      (Converts geometry (getDriverParameters int13 table asking).1 packet registers ↔
        upper registers.eax = 0 ∧ geometry.maximumHead ≠ 255 ∨
        upper registers.eax ≠ 0 ∧
          packet.startSector.toNat < geometry.heads * geometry.sectors) := by
  refine ⟨Geometry.existsUnique_locates inside, ?_⟩
  rcases getDriverParameters_reported reported with ⟨sectors, headers, _⟩
  have track := @Geometry.sectors_lt geometry
  rw [← sectors] at track
  have size := toNat_divisor registers track
  rw [sectors, headers] at size
  by_cases clear : upper registers.eax = 0
  · simp only [clear, not_true_eq_false, false_and, or_false, true_and, ne_eq]
    rw [clear] at size
    constructor
    · rintro ⟨after, _, ends, _⟩ all
      have zero : geometry.heads % 2 ^ 8 = 0 := by
        rw [Geometry.heads, all]
        rfl
      rw [zero, Nat.zero_mul] at size
      rw [doLbaToChs_eq_none packet size] at ends
      cases ends
    · intro some
      have headsByte : geometry.heads < 2 ^ 8 := by
        have bound := geometry.maximumHead.isLt
        have other : geometry.maximumHead.toNat ≠ 255 :=
          fun all => some (BitVec.eq_of_toNat_eq all)
        rw [Geometry.heads]
        omega
      rw [Nat.mod_eq_of_lt headsByte] at size
      exact converts_of_divisor sectors (by simpa using size) inside
  · simp only [clear, not_false_eq_true, false_and, false_or, true_and, ne_eq]
    apply converts_iff_of_large sectors _ inside
    have positive : 0 < (upper registers.eax).toNat := by
      apply Nat.pos_of_ne_zero
      intro zero
      exact clear (BitVec.eq_of_toNat_eq zero)
    omega

end

/-- The data section. -/
def driverParametersTable : DriverParametersTable where
  driverType := 0
  driverNumber := 0
  cylinderMaximum := 0
  headerMaximum := 0
  sectorMaximum := 0
  parameterTable := 0
  headersByte := by decide

/-- A floppy disk of 80 cylinders, two heads and 18 sectors. -/
def floppy : Geometry where
  maximumHead := 1
  packed := 0x4f12
  track := by decide

/-- The largest geometry. -/
def largest : Geometry where
  maximumHead := 255
  packed := 0xffff
  track := by decide

/-- The answer of a BIOS that leaves the other registers clear. -/
def Geometry.answer (geometry : Geometry) : Bool × Registers :=
  (false, { eax := 0, ebx := 0, ecx := geometry.packed.setWidth 32,
            edx := withHigh 0 geometry.maximumHead, edi := 0 })

def packetAt (startSector : BitVec 32) : DiskAddressPacket where
  readSectors := 1
  bufferOffset := 0x7e00
  bufferSelector := 0
  startSector := startSector
  totalSectors := 75

/-- The registers of a caller with this in `eax`. -/
def registersWith (eax : BitVec 32) : Registers :=
  ⟨eax, 0, 0, 0, 0⟩

theorem doLbaToChs_locates_iff_floppy :
    Converts floppy
      (getDriverParameters (fun _ => floppy.answer) driverParametersTable (registersWith 0)).1
      (packetAt 33) (registersWith 0x1234) := by
  have reported : floppy.Reported floppy.answer := ⟨rfl, by decide, by decide⟩
  have located := @doLbaToChs_locates_iff floppy driverParametersTable (packetAt 33)
    (registersWith 0x1234) (fun _ => floppy.answer) (registersWith 0) reported (by decide)
  exact located.2.mpr (Or.inl ⟨by decide, by decide⟩)

/-- A divide error, and the first sector of the second cylinder sought in the first. -/
theorem not_converts_largest :
    ¬Converts largest
      (getDriverParameters (fun _ => largest.answer) driverParametersTable (registersWith 0)).1
      (packetAt 1) (registersWith 0) ∧
    ¬Converts floppy
      (getDriverParameters (fun _ => floppy.answer) driverParametersTable (registersWith 0)).1
      (packetAt 36) (registersWith 0x10000) := by
  constructor
  · rintro ⟨after, address, ends, _⟩
    have none : doLbaToChs (getDriverParameters (fun _ => largest.answer) driverParametersTable
        (registersWith 0)).1 (packetAt 1) (registersWith 0) = none := by
      decide
    rw [none] at ends
    cases ends
  · rintro ⟨after, address, ends, located, encodes⟩
    have found : doLbaToChs (getDriverParameters (fun _ => floppy.answer) driverParametersTable
        (registersWith 0)).1 (packetAt 36) (registersWith 0x10000) =
          some ⟨2, 0, 1, 0x201, 18⟩ := by
      decide
    rw [found] at ends
    cases ends
    rw [located.eq_addressOf] at encodes
    exact absurd encodes.cylinder (by decide)

end VirtLearn.Boot
