import Mathlib.Logic.Function.Basic
import VirtLearn.Counter
import VirtLearn.Virtio.Queue

/-!
# The virtio device

The device side, from `virtio-custdev.c`: a table of `VIRTIO_CUSTDEV_BUFFERS` message pointers,
the count of messages stored and the two queue handlers. `handleOutbuf` serves the queue the
driver transmits on and `handleInbuf` the queue it receives on.

The table is private memory of the device process, so an index outside it has no meaning in C.
The handlers therefore also record every use of the table (`slotUses`). After a use that is not
valid the model goes on with the unsigned arithmetic of the counter and without the memory
outside the table; nothing is claimed about the table from there on.
-/

namespace VirtLearn.Virtio

/-- `VIRTIO_CUSTDEV_BUFFERS`, in the driver and in the device alike. -/
def virtioCustdevBuffers : ℕ :=
  1024

/-- A block obtained from `malloc`: the size asked for and the bytes written so far. -/
structure Block where
  size : ℕ
  data : List UInt8
deriving DecidableEq

/-- The heap of the device process; a block is named by the count of blocks allocated before. -/
structure Heap where
  next : ℕ := 0
  blocks : ℕ → Option Block := fun _ => none
  /-- Every block handed to `g_free`, in order. -/
  freed : List ℕ := []

namespace Heap

/-- `malloc`, assumed to succeed. -/
def malloc (heap : Heap) (size : ℕ) : ℕ × Heap :=
  (heap.next, { heap with
    next := heap.next + 1
    blocks := Function.update heap.blocks heap.next (some ⟨size, []⟩) })

/-- Store bytes at the start of a block; a pointer to no live block writes elsewhere. -/
def write (heap : Heap) (target : Option ℕ) (bytes : List UInt8) : Heap :=
  match target with
  | none => heap
  | some block =>
      { heap with
        blocks := Function.update heap.blocks block
          ((heap.blocks block).map fun held => { held with data := bytes }) }

def free (heap : Heap) (pointer : Option ℕ) : Heap :=
  match pointer with
  | none => heap
  | some block =>
      { heap with
        blocks := Function.update heap.blocks block none
        freed := heap.freed ++ [block] }

def block? (heap : Heap) (pointer : Option ℕ) : Option Block :=
  pointer.bind heap.blocks

def contents (heap : Heap) (pointer : Option ℕ) : List UInt8 :=
  match heap.block? pointer with
  | none => []
  | some held => held.data

end Heap

/-- One use of `rcv_bufs`: a store, or a load with whether it found a live block. -/
inductive SlotUse where
  | store (index : ℕ)
  | load (index : ℕ) (live : Bool)
deriving DecidableEq

/-- The index is inside the table, and a load finds a message stored and not yet freed. -/
def SlotUse.Valid : SlotUse → Prop
  | .store index => index < virtioCustdevBuffers
  | .load index live => index < virtioCustdevBuffers ∧ live = true

instance : DecidablePred SlotUse.Valid := fun use =>
  match use with
  | .store index => inferInstanceAs (Decidable (index < virtioCustdevBuffers))
  | .load index live =>
      inferInstanceAs (Decidable (index < virtioCustdevBuffers ∧ live = true))

/-- What `virtio_queue_ready` and `runstate_check(RUN_STATE_RUNNING)` answer. -/
structure QueueStatus where
  ready : Bool := true
  running : Bool := true
deriving DecidableEq

/-- The handler goes past both of its early returns. -/
def QueueStatus.up (status : QueueStatus) : Bool :=
  status.ready && status.running

/-- `VirtIOCustdev`, with the heap of its process and the uses of `rcv_bufs` so far. -/
structure VirtIOCustdev where
  rcvBufs : ℕ → Option ℕ := fun _ => none
  rcvCount : BitVec 32 := 0
  heap : Heap := {}
  slotUses : List SlotUse := []

namespace VirtIOCustdev

def storeSlot (vcust : VirtIOCustdev) (index : ℕ) (pointer : ℕ) : VirtIOCustdev :=
  { vcust with
    rcvBufs :=
      if index < virtioCustdevBuffers then Function.update vcust.rcvBufs index (some pointer)
      else vcust.rcvBufs
    slotUses := vcust.slotUses ++ [.store index] }

def slot (vcust : VirtIOCustdev) (index : ℕ) : Option ℕ :=
  if index < virtioCustdevBuffers then vcust.rcvBufs index else none

/-- Record that `vcust->rcv_bufs[index]` was read. -/
def noteLoad (vcust : VirtIOCustdev) (index : ℕ) : VirtIOCustdev :=
  { vcust with
    slotUses := vcust.slotUses ++
      [.load index (vcust.heap.block? (vcust.slot index)).isSome] }

/-- The body of `virtio_custdev_handle_outbuf` for a popped request, up to `rcv_count++`. -/
def storeMessage (vcust : VirtIOCustdev) (vqe : VirtQueueElement) : VirtIOCustdev :=
  let (block, heap) := vcust.heap.malloc vqe.outIovLen
  let vcust := { vcust with heap := heap }.storeSlot vcust.rcvCount.toNat block
  let target := vcust.slot vcust.rcvCount.toNat
  let vcust := vcust.noteLoad vcust.rcvCount.toNat
  { vcust with
    heap := vcust.heap.write target (iovToBuf vqe.outSg vqe.outIovLen)
    rcvCount := vcust.rcvCount + 1 }

/-- `last_buf`, computed before the early returns of `virtio_custdev_handle_inbuf`. -/
def lastBuf (vcust : VirtIOCustdev) : ℕ :=
  (vcust.rcvCount - 1).toNat

/-- The bytes `iov_from_buf` puts into a request popped from the inbuf queue. -/
def answer (beyond : ℕ → UInt8) (vcust : VirtIOCustdev) (vqe : VirtQueueElement) : List UInt8 :=
  iovFromBuf beyond vqe.inSg (vcust.heap.contents (vcust.slot vcust.lastBuf)) vqe.inIovLen

/--
What `virtio_custdev_handle_inbuf` does to the device once the request is answered.
`rcv_bufs[last_buf]` is read twice, for the copy and for `g_free`.
-/
def dropMessage (vcust : VirtIOCustdev) : VirtIOCustdev :=
  let lastBuf := vcust.lastBuf
  let vcust := vcust.noteLoad lastBuf
  let vcust := { vcust with rcvCount := vcust.rcvCount - 1 }
  let victim := vcust.slot lastBuf
  let vcust := vcust.noteLoad lastBuf
  { vcust with heap := vcust.heap.free victim }

end VirtIOCustdev

/-- The device as `virtio_custdev_device_realize` leaves it. -/
def virtioCustdevDeviceRealize : VirtIOCustdev :=
  {}

/--
`virtio_custdev_handle_outbuf`: pop one request, copy its first segment's length of bytes into a
new block and store the block on top of the table. The result is `none` where the handler
dereferences the `NULL` that `virtqueue_pop` returns for an empty queue.
-/
def virtioCustdevHandleOutbuf (status : QueueStatus) (vcust : VirtIOCustdev) (vq : VirtQueue) :
    Option (VirtIOCustdev × VirtQueue) :=
  if !status.ready then some (vcust, vq)
  else if !status.running then some (vcust, vq)
  else
    match vq.pop with
    | none => none
    | some (vqe, vq) => some (vcust.storeMessage vqe, vq.push vqe [] 0)

/--
`virtio_custdev_handle_inbuf`: pop one request, fill it from the block on top of the table with
as many bytes as its first segment asks for, and free that block. As for the other handler,
`none` is the dereference of `NULL` on an empty queue.
-/
def virtioCustdevHandleInbuf (beyond : ℕ → UInt8) (status : QueueStatus) (vcust : VirtIOCustdev)
    (vq : VirtQueue) : Option (VirtIOCustdev × VirtQueue) :=
  if !status.ready then some (vcust, vq)
  else if !status.running then some (vcust, vq)
  else
    match vq.pop with
    | none => none
    | some (vqe, vq) =>
        some (vcust.dropMessage, vq.push vqe (vcust.answer beyond vqe) vqe.inIovLen)

/-! ### What the handlers do -/

section Handlers

variable {status : QueueStatus} {vcust : VirtIOCustdev} {vq : VirtQueue} {vqe : VirtQueueElement}
  {rest : List VirtQueueElement} {beyond : ℕ → UInt8}

theorem virtioCustdevHandleOutbuf_of_down (down : status.up = false) :
    virtioCustdevHandleOutbuf status vcust vq = some (vcust, vq) := by
  rcases status with ⟨_ | _, _ | _⟩ <;> simp_all [QueueStatus.up, virtioCustdevHandleOutbuf]

theorem virtioCustdevHandleInbuf_of_down (down : status.up = false) :
    virtioCustdevHandleInbuf beyond status vcust vq = some (vcust, vq) := by
  rcases status with ⟨_ | _, _ | _⟩ <;> simp_all [QueueStatus.up, virtioCustdevHandleInbuf]

theorem virtioCustdevHandleOutbuf_of_up (up : status.up = true) (avail : vq.avail = vqe :: rest) :
    virtioCustdevHandleOutbuf status vcust vq =
      some (vcust.storeMessage vqe, { avail := rest, used := vq.used ++ [⟨vqe, [], 0⟩] }) := by
  rcases status with ⟨_ | _, _ | _⟩ <;> simp [QueueStatus.up] at up
  simp [virtioCustdevHandleOutbuf, VirtQueue.pop, avail, VirtQueue.push]

theorem virtioCustdevHandleInbuf_of_up (up : status.up = true) (avail : vq.avail = vqe :: rest) :
    virtioCustdevHandleInbuf beyond status vcust vq =
      some (vcust.dropMessage,
        { avail := rest, used := vq.used ++ [⟨vqe, vcust.answer beyond vqe, vqe.inIovLen⟩] }) := by
  rcases status with ⟨_ | _, _ | _⟩ <;> simp [QueueStatus.up] at up
  simp [virtioCustdevHandleInbuf, VirtQueue.pop, avail, VirtQueue.push]

end Handlers

namespace VirtIOCustdev

variable (vcust : VirtIOCustdev) (vqe : VirtQueueElement)

@[simp]
theorem rcvCount_storeMessage : (vcust.storeMessage vqe).rcvCount = vcust.rcvCount + 1 :=
  rfl

@[simp]
theorem rcvCount_dropMessage : vcust.dropMessage.rcvCount = vcust.rcvCount - 1 :=
  rfl

theorem slotUses_storeMessage : ∃ live, (vcust.storeMessage vqe).slotUses = vcust.slotUses ++
    [.store vcust.rcvCount.toNat, .load vcust.rcvCount.toNat live] :=
  ⟨_, List.append_assoc _ _ _⟩

theorem slotUses_dropMessage : ∃ live, vcust.dropMessage.slotUses = vcust.slotUses ++
    [.load vcust.lastBuf live, .load vcust.lastBuf live] :=
  ⟨_, List.append_assoc _ _ _⟩

end VirtIOCustdev

/-! ### The stack the table represents -/

/--
The first `messages.length` slots of the table hold the messages, the oldest first: each slot
points to a live block of its own, and blocks not yet allocated are not in use.
-/
structure Holds (vcust : VirtIOCustdev) (messages : List Block) : Prop where
  count : vcust.rcvCount.toNat = messages.length
  bounded : messages.length ≤ virtioCustdevBuffers
  stored : ∀ k (inside : k < messages.length),
    ∃ block, vcust.rcvBufs k = some block ∧ vcust.heap.blocks block = some messages[k]
  distinct : ∀ j k, j < messages.length → k < messages.length →
    vcust.rcvBufs j = vcust.rcvBufs k → j = k
  fresh : ∀ block, (vcust.heap.blocks block).isSome → block < vcust.heap.next

theorem holds_virtioCustdevDeviceRealize : Holds virtioCustdevDeviceRealize [] where
  count := rfl
  bounded := Nat.zero_le _
  stored := by simp
  distinct := by simp
  fresh := by simp [virtioCustdevDeviceRealize]

namespace VirtIOCustdev

variable {vcust : VirtIOCustdev} (vqe : VirtQueueElement)

theorem storeMessage_of_room (room : vcust.rcvCount.toNat < virtioCustdevBuffers) :
    vcust.storeMessage vqe =
      { rcvBufs := Function.update vcust.rcvBufs vcust.rcvCount.toNat (some vcust.heap.next)
        rcvCount := vcust.rcvCount + 1
        heap :=
          { next := vcust.heap.next + 1
            blocks := Function.update vcust.heap.blocks vcust.heap.next
              (some ⟨vqe.outIovLen, iovToBuf vqe.outSg vqe.outIovLen⟩)
            freed := vcust.heap.freed }
        slotUses := vcust.slotUses ++
          [.store vcust.rcvCount.toNat, .load vcust.rcvCount.toNat true] } := by
  simp [storeMessage, Heap.malloc, Heap.write, Heap.block?, storeSlot, slot, noteLoad, room]

theorem dropMessage_of_live {block : ℕ} {top : Block}
    (inside : vcust.lastBuf < virtioCustdevBuffers)
    (pointer : vcust.rcvBufs vcust.lastBuf = some block)
    (live : vcust.heap.blocks block = some top) :
    vcust.dropMessage =
      { rcvBufs := vcust.rcvBufs
        rcvCount := vcust.rcvCount - 1
        heap :=
          { next := vcust.heap.next
            blocks := Function.update vcust.heap.blocks block none
            freed := vcust.heap.freed ++ [block] }
        slotUses := vcust.slotUses ++
          [.load vcust.lastBuf true, .load vcust.lastBuf true] } := by
  simp [dropMessage, Heap.free, Heap.block?, slot, noteLoad, inside, pointer, live]

end VirtIOCustdev

namespace Holds

variable {vcust : VirtIOCustdev} {messages : List Block}

theorem lastBuf {top : Block} (holds : Holds vcust (messages ++ [top])) :
    vcust.lastBuf = messages.length := by
  have count := holds.count
  simp only [List.length_append, List.length_singleton] at count
  rw [VirtIOCustdev.lastBuf, Counter.toNat_sub_one (by omega)]
  omega

theorem unique {others : List Block} (holds : Holds vcust messages)
    (alike : Holds vcust others) : messages = others := by
  have counted := holds.count.symm.trans alike.count
  apply List.ext_getElem counted
  intro k inside alsoInside
  rcases holds.stored k inside with ⟨block, pointer, live⟩
  rcases alike.stored k alsoInside with ⟨other, otherPointer, otherLive⟩
  obtain rfl : block = other := Option.some.inj (pointer.symm.trans otherPointer)
  exact Option.some.inj (live.symm.trans otherLive)

/-- Storing a message while there is room puts it on top, using only the slot above the rest. -/
theorem storeMessage (holds : Holds vcust messages) (vqe : VirtQueueElement)
    (room : messages.length < virtioCustdevBuffers) :
    Holds (vcust.storeMessage vqe)
        (messages ++ [⟨vqe.outIovLen, iovToBuf vqe.outSg vqe.outIovLen⟩]) ∧
      (vcust.storeMessage vqe).slotUses = vcust.slotUses ++
        [.store messages.length, .load messages.length true] := by
  have counted := holds.count
  have unallocated : ∀ block, (vcust.heap.blocks block).isSome → block ≠ vcust.heap.next :=
    fun block used => Nat.ne_of_lt (holds.fresh block used)
  rw [VirtIOCustdev.storeMessage_of_room vqe (by omega), counted]
  refine ⟨⟨?_, ?_, ?_, ?_, ?_⟩, rfl⟩
  · simp only [virtioCustdevBuffers] at room
    rw [Counter.toNat_add_one (by omega), counted, List.length_append, List.length_singleton]
  · simpa [Nat.succ_le_iff] using room
  · intro k inside
    rcases Nat.lt_succ_iff_lt_or_eq.mp (by simpa using inside) with below | rfl
    · rcases holds.stored k below with ⟨block, pointer, live⟩
      have old := unallocated block (by simp [live])
      exact ⟨block, by simp [Function.update_of_ne (Nat.ne_of_lt below), pointer],
        by simp [Function.update_of_ne old, live, List.getElem_append_left below]⟩
    · exact ⟨vcust.heap.next, by simp, by simp⟩
  · have new_ne : ∀ j, j < messages.length → vcust.rcvBufs j ≠ some vcust.heap.next := by
      intro j below same
      rcases holds.stored j below with ⟨block, pointer, live⟩
      rw [pointer] at same
      exact unallocated block (by simp [live]) (Option.some.inj same)
    intro j k inJ inK same
    simp only at same
    rcases Nat.lt_succ_iff_lt_or_eq.mp (by simpa using inJ) with belowJ | rfl <;>
      rcases Nat.lt_succ_iff_lt_or_eq.mp (by simpa using inK) with belowK | rfl
    · rw [Function.update_of_ne (Nat.ne_of_lt belowJ),
        Function.update_of_ne (Nat.ne_of_lt belowK)] at same
      exact holds.distinct j k belowJ belowK same
    · rw [Function.update_of_ne (Nat.ne_of_lt belowJ), Function.update_self] at same
      exact absurd same (new_ne j belowJ)
    · rw [Function.update_of_ne (Nat.ne_of_lt belowK), Function.update_self] at same
      exact absurd same.symm (new_ne k belowK)
    · rfl
  · intro block used
    by_cases new : block = vcust.heap.next
    · simp [new]
    · simp only [Function.update_of_ne new] at used
      exact Nat.lt_succ_of_lt (holds.fresh block used)

/-- Answering a request reads the top message, and afterwards the others are held. -/
theorem dropMessage {top : Block} (holds : Holds vcust (messages ++ [top])) :
    Holds vcust.dropMessage messages ∧
      vcust.dropMessage.slotUses = vcust.slotUses ++
        [.load messages.length true, .load messages.length true] ∧
      ∀ beyond vqe, vcust.answer beyond vqe =
        iovFromBuf beyond vqe.inSg top.data vqe.inIovLen := by
  have counted := holds.count
  have bounded := holds.bounded
  have last := holds.lastBuf
  simp only [List.length_append, List.length_singleton] at counted bounded
  rcases holds.stored messages.length (by simp) with ⟨block, pointer, live⟩
  simp only [List.getElem_concat_length] at live
  have inside : vcust.lastBuf < virtioCustdevBuffers := by omega
  rw [VirtIOCustdev.dropMessage_of_live inside (last ▸ pointer) live, last]
  refine ⟨⟨?_, ?_, ?_, ?_, ?_⟩, rfl, ?_⟩
  · rw [Counter.toNat_sub_one (by omega)]
    omega
  · omega
  · intro k below
    rcases holds.stored k (by simp; omega) with ⟨other, otherPointer, otherLive⟩
    have differs : other ≠ block := by
      rintro rfl
      have := holds.distinct k messages.length (by simp; omega) (by simp)
        (otherPointer.trans pointer.symm)
      omega
    refine ⟨other, otherPointer, ?_⟩
    simpa [Function.update_of_ne differs, List.getElem_append_left below] using otherLive
  · intro j k belowJ belowK
    exact holds.distinct j k (by simp; omega) (by simp; omega)
  · intro other used
    by_cases freed : other = block
    · simp [freed] at used
    · simp only [Function.update_of_ne freed] at used
      exact holds.fresh other used
  · intro beyond vqe
    simp [VirtIOCustdev.answer, VirtIOCustdev.slot, inside, Heap.contents, Heap.block?, last ▸
      pointer, live]

end Holds

end VirtLearn.Virtio
