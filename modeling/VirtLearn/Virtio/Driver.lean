import Mathlib.Data.Int.Notation
import Mathlib.Logic.Function.Basic
import VirtLearn.Virtio.Device

/-!
# The virtio driver

The driver side, from `virtio_custdev.c`: the write and read file operations and the callbacks of
the two queues, over the `virtio_custom_device` that all open files share.

`virtio_custdev_read` blocks in `wait_for_completion`, so it is given in two parts, the one that
posts the request and the one that runs after the wait. No part takes a lock. The answers of the
kernel functions called on the way are arguments.

As on the device, every index used on `buf_lens` is recorded (`lenUses`).
-/

namespace VirtLearn.Virtio

/-- `ENOSPC`, which `virtio_custdev_write` returns without a sign. -/
def enospc : ℤ :=
  28

def enomem : ℤ :=
  12

/--
`virtio_custom_device`, as far as the file operations and callbacks use it. `dataReady` is the
number of completions signalled and not yet waited for.
-/
structure VirtioCustomDevice where
  vqRx : VirtQueue := {}
  vqTx : VirtQueue := {}
  buffers : BitVec 32 := 0
  bufLens : ℕ → BitVec 32 := fun _ => 0
  readData : Option UsedElement := none
  dataReady : ℕ := 0
  lenUses : List ℕ := []

/-- The driver state after `virtio_custdev_probe`, on the zeroed allocation of the module. -/
def virtioCustdevProbe : VirtioCustomDevice :=
  {}

namespace VirtioCustomDevice

def noteLen (vcust : VirtioCustomDevice) (index : ℕ) : VirtioCustomDevice :=
  { vcust with lenUses := vcust.lenUses ++ [index] }

def lenAt (vcust : VirtioCustomDevice) (index : ℕ) : ℕ :=
  (vcust.bufLens index).toNat

/-- `vcust->buf_lens[index] = length`, cut to the width of an `unsigned`. -/
def setLen (vcust : VirtioCustomDevice) (index length : ℕ) : VirtioCustomDevice :=
  { vcust with bufLens := Function.update vcust.bufLens index (BitVec.ofNat 32 length) }

end VirtioCustomDevice

/-- What `kmalloc`, `copy_from_user` and `virtqueue_add_outbuf` answer to a write. -/
structure WriteAnswer where
  allocated : Bool := true
  uncopied : ℕ := 0
  added : Bool := true
deriving DecidableEq

structure WriteResult where
  ret : ℤ
  kicked : Bool
  vcust : VirtioCustomDevice

/-- `virtio_custdev_write` of the user's bytes `data`. -/
def virtioCustdevWrite (answer : WriteAnswer) (data : List UInt8) (vcust : VirtioCustomDevice) :
    WriteResult :=
  if virtioCustdevBuffers ≤ vcust.buffers.toNat then
    { ret := enospc, kicked := false, vcust }
  else if !answer.allocated then
    { ret := 1, kicked := false, vcust }
  else
    let count := data.length - answer.uncopied
    -- `sg_init_one` takes the length as an `unsigned int`
    let request : VirtQueueElement := { outSg := [(data.take count).take (count % 2 ^ 32)] }
    let index := vcust.buffers.toNat
    let vcust := { (vcust.noteLen index).setLen index count with buffers := vcust.buffers + 1 }
    let vcust := if answer.added then { vcust with vqTx := vcust.vqTx.add request } else vcust
    { ret := (BitVec.ofNat 64 count).toInt, kicked := true, vcust }

/-- What `kzalloc` and `virtqueue_add_inbuf` answer to a read. -/
structure ReadAnswer where
  allocated : Bool := true
  added : Bool := true
deriving DecidableEq

/-- Whether the first part of a read returns at once or goes on to wait. -/
inductive ReadStart where
  | returned (ret : ℤ)
  | waiting
deriving DecidableEq

/-- `virtio_custdev_read` up to the kick of the receive queue. -/
def virtioCustdevReadPost (answer : ReadAnswer) (vcust : VirtioCustomDevice) :
    ReadStart × VirtioCustomDevice :=
  if vcust.buffers.toNat < 1 then (.returned 0, vcust)
  else
    let index := (vcust.buffers - 1).toNat
    let vcust := vcust.noteLen index
    if !answer.allocated then (.returned (-enomem), vcust)
    else
      let request : VirtQueueElement := { inSg := [vcust.lenAt index] }
      let vcust := vcust.noteLen index
      -- the result of `virtqueue_add_inbuf` is ignored
      (.waiting, if answer.added then { vcust with vqRx := vcust.vqRx.add request } else vcust)

/-- The outcome of a read: its return value and the bytes copied to the user. -/
structure ReadResult where
  ret : ℤ
  copied : List UInt8
  vcust : VirtioCustomDevice

/--
`virtio_custdev_read` after `wait_for_completion`. `copy_to_user` leaves `uncopied` of the bytes
asked for, or all of them; the length is looked up anew for the copy, for the correction and for
the result.
-/
def virtioCustdevReadFinish (beyond : ℕ → UInt8) (uncopied : ℕ) (vcust : VirtioCustomDevice) :
    ReadResult :=
  let index := vcust.buffers.toNat
  let source := vcust.readData.elim [] UsedElement.buffer
  let uncopied := min uncopied (vcust.lenAt index)
  let copied := readBuffer beyond source (vcust.lenAt index - uncopied)
  let vcust := vcust.noteLen index
  let vcust :=
    if uncopied ≠ 0 then
      { (vcust.noteLen index) with
        bufLens := Function.update vcust.bufLens index
          (vcust.bufLens index - BitVec.ofNat 32 uncopied) }
    else vcust
  { ret := vcust.lenAt index, copied, vcust := vcust.noteLen index }

/-- What a read that could not copy `uncopied` bytes does to `buf_lens`. -/
def virtioCustdevReadCorrect (uncopied : ℕ) (vcust : VirtioCustomDevice) : VirtioCustomDevice :=
  let index := vcust.buffers.toNat
  if uncopied ≠ 0 then
    { (vcust.noteLen index) with
      bufLens := Function.update vcust.bufLens index
        (vcust.bufLens index - BitVec.ofNat 32 uncopied) }
  else vcust

/-- `virtio_custdev_outbuf_cb`: collect one sent buffer and free it. -/
def virtioCustdevOutbufCb (vcust : VirtioCustomDevice) : VirtioCustomDevice :=
  { vcust with vqTx := vcust.vqTx.getBuf.2 }

/-- `virtio_custdev_inbuf_cb`: collect one filled buffer, count down and wake a reader. -/
def virtioCustdevInbufCb (vcust : VirtioCustomDevice) : VirtioCustomDevice :=
  { vcust with
    vqRx := vcust.vqRx.getBuf.2
    readData := vcust.vqRx.getBuf.1
    buffers := vcust.buffers - 1
    dataReady := vcust.dataReady + 1 }

/-! ### What the file operations do -/

section Operations

variable {vcust : VirtioCustomDevice}

theorem virtioCustdevWrite_of_full (answer : WriteAnswer) (data : List UInt8)
    (full : virtioCustdevBuffers ≤ vcust.buffers.toNat) :
    virtioCustdevWrite answer data vcust = { ret := enospc, kicked := false, vcust } := by
  simp [virtioCustdevWrite, full]

theorem virtioCustdevWrite_of_room {answer : WriteAnswer} (data : List UInt8)
    (allocated : answer.allocated = true) (room : vcust.buffers.toNat < virtioCustdevBuffers) :
    (virtioCustdevWrite answer data vcust).kicked = true ∧
      (virtioCustdevWrite answer data vcust).vcust =
        { vqRx := vcust.vqRx
          vqTx :=
            if answer.added then
              vcust.vqTx.add { outSg := [(data.take (data.length - answer.uncopied)).take
                ((data.length - answer.uncopied) % 2 ^ 32)] }
            else vcust.vqTx
          buffers := vcust.buffers + 1
          bufLens := Function.update vcust.bufLens vcust.buffers.toNat
            (BitVec.ofNat 32 (data.length - answer.uncopied))
          readData := vcust.readData
          dataReady := vcust.dataReady
          lenUses := vcust.lenUses ++ [vcust.buffers.toNat] } := by
  have notFull : ¬virtioCustdevBuffers ≤ vcust.buffers.toNat := by omega
  cases added : answer.added <;>
    simp [virtioCustdevWrite, notFull, allocated, added, VirtioCustomDevice.noteLen,
      VirtioCustomDevice.setLen]

theorem virtioCustdevReadPost_of_empty (answer : ReadAnswer) (empty : vcust.buffers.toNat = 0) :
    virtioCustdevReadPost answer vcust = (.returned 0, vcust) := by
  simp [virtioCustdevReadPost, empty]

theorem virtioCustdevReadPost_of_filled {answer : ReadAnswer} (allocated : answer.allocated = true)
    (filled : 0 < vcust.buffers.toNat) :
    virtioCustdevReadPost answer vcust =
      (.waiting,
        { vcust with
          vqRx :=
            if answer.added then
              vcust.vqRx.add { inSg := [vcust.lenAt (vcust.buffers - 1).toNat] }
            else vcust.vqRx
          lenUses := vcust.lenUses ++
            [(vcust.buffers - 1).toNat, (vcust.buffers - 1).toNat] }) := by
  have notEmpty : ¬vcust.buffers.toNat < 1 := by omega
  rw [virtioCustdevReadPost, if_neg notEmpty]
  cases added : answer.added <;>
    simp [allocated, VirtioCustomDevice.noteLen, VirtioCustomDevice.lenAt]

theorem virtioCustdevReadPost_of_unallocated {answer : ReadAnswer}
    (unallocated : answer.allocated = false) (filled : 0 < vcust.buffers.toNat) :
    virtioCustdevReadPost answer vcust =
      (.returned (-enomem), vcust.noteLen (vcust.buffers - 1).toNat) := by
  have notEmpty : ¬vcust.buffers.toNat < 1 := by omega
  simp [virtioCustdevReadPost, notEmpty, unallocated]

@[simp]
theorem buffers_virtioCustdevReadPost (answer : ReadAnswer) :
    (virtioCustdevReadPost answer vcust).2.buffers = vcust.buffers := by
  unfold virtioCustdevReadPost
  split
  · rfl
  · cases answer.allocated <;> cases answer.added <;> rfl

@[simp]
theorem buffers_virtioCustdevReadFinish (beyond : ℕ → UInt8) (uncopied : ℕ) :
    (virtioCustdevReadFinish beyond uncopied vcust).vcust.buffers = vcust.buffers := by
  simp only [virtioCustdevReadFinish]
  split <;> rfl

@[simp]
theorem vqRx_virtioCustdevReadFinish (beyond : ℕ → UInt8) (uncopied : ℕ) :
    (virtioCustdevReadFinish beyond uncopied vcust).vcust.vqRx = vcust.vqRx := by
  simp only [virtioCustdevReadFinish]
  split <;> rfl

@[simp]
theorem vqTx_virtioCustdevReadFinish (beyond : ℕ → UInt8) (uncopied : ℕ) :
    (virtioCustdevReadFinish beyond uncopied vcust).vcust.vqTx = vcust.vqTx := by
  simp only [virtioCustdevReadFinish]
  split <;> rfl

@[simp]
theorem dataReady_virtioCustdevReadFinish (beyond : ℕ → UInt8) (uncopied : ℕ) :
    (virtioCustdevReadFinish beyond uncopied vcust).vcust.dataReady = vcust.dataReady := by
  simp only [virtioCustdevReadFinish]
  split <;> rfl

theorem lenUses_virtioCustdevReadFinish (beyond : ℕ → UInt8) (uncopied : ℕ) :
    ∀ index ∈ (virtioCustdevReadFinish beyond uncopied vcust).vcust.lenUses,
      index ∈ vcust.lenUses ∨ index = vcust.buffers.toNat := by
  simp only [virtioCustdevReadFinish]
  split <;> simp [VirtioCustomDevice.noteLen]

theorem mem_lenUses_virtioCustdevReadFinish (beyond : ℕ → UInt8) (uncopied : ℕ) :
    vcust.buffers.toNat ∈ (virtioCustdevReadFinish beyond uncopied vcust).vcust.lenUses := by
  simp only [virtioCustdevReadFinish]
  split <;> simp [VirtioCustomDevice.noteLen]

@[simp]
theorem vqRx_virtioCustdevReadCorrect (uncopied : ℕ) :
    (virtioCustdevReadCorrect uncopied vcust).vqRx = vcust.vqRx := by
  simp only [virtioCustdevReadCorrect]
  split <;> rfl

@[simp]
theorem vqTx_virtioCustdevReadCorrect (uncopied : ℕ) :
    (virtioCustdevReadCorrect uncopied vcust).vqTx = vcust.vqTx := by
  simp only [virtioCustdevReadCorrect]
  split <;> rfl

@[simp]
theorem buffers_virtioCustdevReadCorrect (uncopied : ℕ) :
    (virtioCustdevReadCorrect uncopied vcust).buffers = vcust.buffers := by
  simp only [virtioCustdevReadCorrect]
  split <;> rfl

@[simp]
theorem dataReady_virtioCustdevReadCorrect (uncopied : ℕ) :
    (virtioCustdevReadCorrect uncopied vcust).dataReady = vcust.dataReady := by
  simp only [virtioCustdevReadCorrect]
  split <;> rfl

/-- A read looks at the length before the copy, corrects it, and looks at it again. -/
theorem vcust_virtioCustdevReadFinish (beyond : ℕ → UInt8) (uncopied : ℕ) :
    (virtioCustdevReadFinish beyond uncopied vcust).vcust =
      (virtioCustdevReadCorrect (min uncopied (vcust.lenAt vcust.buffers.toNat))
        (vcust.noteLen vcust.buffers.toNat)).noteLen vcust.buffers.toNat := by
  simp only [virtioCustdevReadFinish, virtioCustdevReadCorrect]
  split <;> rfl

/-- With everything copied, the user gets as many bytes as the value returned says. -/
theorem virtioCustdevReadFinish_of_copied (beyond : ℕ → UInt8) :
    virtioCustdevReadFinish beyond 0 vcust =
      { ret := vcust.lenAt vcust.buffers.toNat
        copied := readBuffer beyond (vcust.readData.elim [] UsedElement.buffer)
          (vcust.lenAt vcust.buffers.toNat)
        vcust := { vcust with
          lenUses := vcust.lenUses ++ [vcust.buffers.toNat, vcust.buffers.toNat] } } := by
  simp [virtioCustdevReadFinish, VirtioCustomDevice.noteLen, VirtioCustomDevice.lenAt]

/-- The bytes copied and the value returned agree, also when some bytes could not be copied. -/
theorem lengths_virtioCustdevReadFinish (beyond : ℕ → UInt8) (uncopied : ℕ) :
    (virtioCustdevReadFinish beyond uncopied vcust).copied.length =
        vcust.lenAt vcust.buffers.toNat - uncopied ∧
      (virtioCustdevReadFinish beyond uncopied vcust).ret =
        (vcust.lenAt vcust.buffers.toNat - uncopied : ℕ) := by
  have inWord := (vcust.bufLens vcust.buffers.toNat).isLt
  simp only [virtioCustdevReadFinish, length_readBuffer, VirtioCustomDevice.lenAt]
  refine ⟨by omega, ?_⟩
  by_cases copied : min uncopied (vcust.bufLens vcust.buffers.toNat).toNat = 0
  · have exact_length : (vcust.bufLens vcust.buffers.toNat).toNat - uncopied =
        (vcust.bufLens vcust.buffers.toNat).toNat := by omega
    simp only [copied, ne_eq, not_true_eq_false, if_false, VirtioCustomDevice.noteLen,
      exact_length]
  · have corrected : (vcust.bufLens vcust.buffers.toNat - BitVec.ofNat 32
        (min uncopied (vcust.bufLens vcust.buffers.toNat).toNat)).toNat =
          (vcust.bufLens vcust.buffers.toNat).toNat - uncopied := by
      have small : min uncopied (vcust.bufLens vcust.buffers.toNat).toNat < 2 ^ 32 := by omega
      have fits : (BitVec.ofNat 32 (min uncopied (vcust.bufLens vcust.buffers.toNat).toNat)).toNat =
          min uncopied (vcust.bufLens vcust.buffers.toNat).toNat := by
        rw [BitVec.toNat_ofNat, Nat.mod_eq_of_lt small]
      rw [BitVec.toNat_sub_of_le (by rw [BitVec.le_def, fits]; exact Nat.min_le_right _ _), fits]
      omega
    simp only [copied, ne_eq, not_false_eq_true, if_true, VirtioCustomDevice.noteLen,
      Function.update_self, corrected]

end Operations

end VirtLearn.Virtio
