import Mathlib.Data.List.Perm.Basic
import VirtLearn.Transition
import VirtLearn.Virtio.DeviceSafety

/-!
# The message buffers of the device

A message lives in one block from the notification that brings it to the one that takes it, or to
the removal of the device. This is about the two ends of that life: what is put into the block,
and that the block is given back once.

A message may be spread over any number of segments. `virtio_custdev_handle_outbuf` takes the
length of the first for the length of the message, both for the block and for the copy, while the
copy is handed all segments (`storesWhole_iff`).

The table keeps the pointer of a message that has been freed until the slot is used again, and the
frees are in two functions. `Accounted` is the ledger that covers both.
-/

namespace VirtLearn.Virtio

/-! ### What is stored -/

/-- `virtio_custdev_handle_outbuf` leaves the whole message in the slot that was next. -/
def StoresWhole (status : QueueStatus) (vcust : VirtIOCustdev) (vq : VirtQueue)
    (vqe : VirtQueueElement) : Prop :=
  ∃ after later, virtioCustdevHandleOutbuf status vcust vq = some (after, later) ∧
    after.heap.block? (after.slot vcust.rcvCount.toNat) =
      some ⟨vqe.message.length, vqe.message⟩

theorem block?_storeMessage {vcust : VirtIOCustdev} (vqe : VirtQueueElement)
    (room : vcust.rcvCount.toNat < virtioCustdevBuffers) :
    (vcust.storeMessage vqe).heap.block? ((vcust.storeMessage vqe).slot vcust.rcvCount.toNat) =
      some ⟨vqe.outIovLen, iovToBuf vqe.outSg vqe.outIovLen⟩ := by
  rw [VirtIOCustdev.storeMessage_of_room vqe room]
  simp [VirtIOCustdev.slot, room, Heap.block?]

/--
For every request of at least one segment, the handler stores the whole message if and only if a
slot is free and all segments behind the first are empty.
-/
theorem storesWhole_iff {status : QueueStatus} {vcust : VirtIOCustdev} {vq : VirtQueue}
    {vqe : VirtQueueElement} {rest : List VirtQueueElement} (up : status.up = true)
    (avail : vq.avail = vqe :: rest) (segments : vqe.outSg ≠ []) :
    StoresWhole status vcust vq vqe ↔
      vcust.rcvCount.toNat < virtioCustdevBuffers ∧ vqe.outSg.tail.flatten = [] := by
  rcases List.exists_cons_of_ne_nil segments with ⟨first, others, spelled⟩
  rw [spelled, List.tail_cons, ← iovToBuf_eq_message_iff spelled]
  constructor
  · rintro ⟨after, later, served, stored⟩
    rw [virtioCustdevHandleOutbuf_of_up up avail] at served
    cases served
    by_cases room : vcust.rcvCount.toNat < virtioCustdevBuffers
    · rw [block?_storeMessage vqe room] at stored
      exact ⟨room, congrArg Block.data (Option.some.inj stored)⟩
    · simp [VirtIOCustdev.slot, room, Heap.block?] at stored
  · rintro ⟨room, copied⟩
    have exact_size : vqe.outIovLen = vqe.message.length := by
      rw [iovToBuf_eq_message_iff spelled] at copied
      rw [outIovLen_of_cons spelled, VirtQueueElement.message, spelled, List.flatten_cons,
        copied, List.append_nil]
    refine ⟨_, _, virtioCustdevHandleOutbuf_of_up up avail, ?_⟩
    rw [block?_storeMessage vqe room, copied, exact_size]

/-- A message in one segment is stored whole. -/
theorem storesWhole_single : StoresWhole {} virtioCustdevDeviceRealize
    { avail := [{ outSg := [[1, 2]] }] } { outSg := [[1, 2]] } :=
  (storesWhole_iff rfl rfl (by decide)).mpr ⟨by decide, by decide⟩

/-- Of a message in two segments the second is lost. -/
theorem not_storesWhole_pair : ¬StoresWhole {} virtioCustdevDeviceRealize
    { avail := [{ outSg := [[1], [2]] }] } { outSg := [[1], [2]] } := by
  rintro ⟨after, later, served, stored⟩
  cases served
  revert stored
  decide

/-! ### That it is freed once -/

namespace VirtIOCustdev

/-- One round of the loop of `virtio_custdev_device_unrealize`. -/
def freeSlot (vcust : VirtIOCustdev) (index : ℕ) : VirtIOCustdev :=
  { vcust.noteLoad index with heap := vcust.heap.free (vcust.slot index) }

/-- The blocks that the first `count` slots point to. -/
def pointers (vcust : VirtIOCustdev) (count : ℕ) : List ℕ :=
  (List.range count).filterMap vcust.slot

/-- The blocks in the part of the table that is in use. -/
def held (vcust : VirtIOCustdev) : List ℕ :=
  vcust.pointers vcust.rcvCount.toNat

end VirtIOCustdev

/--
`virtio_custdev_device_unrealize`. Its index is an `int`, which no count of messages in the table
takes out of range; of `virtio_cleanup` nothing is modelled.
-/
def virtioCustdevDeviceUnrealize (vcust : VirtIOCustdev) : VirtIOCustdev :=
  (List.range vcust.rcvCount.toNat).foldl VirtIOCustdev.freeSlot vcust

/-- What the driver's counter guarantees of a kick that is served before the driver goes on. -/
def ServedInTime (vcust : VirtIOCustdev) (note : Notification) : Prop :=
  note.status.up = true →
    match note.queue with
    | .outbuf => vcust.rcvCount.toNat < virtioCustdevBuffers
    | .inbuf => 0 < vcust.rcvCount.toNat

/-- The slots in use hold pairwise distinct blocks that are live. -/
structure DistinctLive (vcust : VirtIOCustdev) : Prop where
  live : ∀ k < vcust.rcvCount.toNat, (vcust.heap.block? (vcust.slot k)).isSome
  distinct : ∀ j < vcust.rcvCount.toNat, ∀ k < vcust.rcvCount.toNat,
    vcust.slot j = vcust.slot k → j = k

/--
The ledger: the blocks freed so far and those held in the table are, together, all blocks ever
allocated, each once.
-/
structure Accounted (vcust : VirtIOCustdev) : Prop where
  holds : ∃ messages, Holds vcust messages
  balanced : (vcust.heap.freed ++ vcust.held).Perm (List.range vcust.heap.next)

namespace VirtIOCustdev

variable {vcust after : VirtIOCustdev} {count : ℕ}

theorem pointers_succ {block : ℕ} (pointer : vcust.slot count = some block) :
    vcust.pointers (count + 1) = vcust.pointers count ++ [block] := by
  simp [pointers, List.range_succ, List.filterMap_append, pointer]

theorem pointers_congr (same : ∀ k < count, after.slot k = vcust.slot k) :
    after.pointers count = vcust.pointers count := by
  apply List.filterMap_congr
  intro k below
  exact same k (List.mem_range.mp below)

end VirtIOCustdev

namespace Holds

variable {vcust : VirtIOCustdev} {messages : List Block}

/-- A slot in use points to a live block, and so it is inside the table. -/
theorem slot_of_lt (holds : Holds vcust messages) {k : ℕ} (used : k < vcust.rcvCount.toNat) :
    ∃ block, vcust.slot k = some block ∧ vcust.rcvBufs k = some block ∧
      (vcust.heap.blocks block).isSome := by
  have counted := holds.count
  have bounded := holds.bounded
  rcases holds.stored k (by omega) with ⟨block, pointer, live⟩
  have inside : k < virtioCustdevBuffers := by omega
  refine ⟨block, ?_, pointer, ?_⟩
  · rw [VirtIOCustdev.slot, if_pos inside, pointer]
  · rw [live, Option.isSome_some]

theorem distinctLive (holds : Holds vcust messages) : DistinctLive vcust where
  live := by
    intro k used
    rcases holds.slot_of_lt used with ⟨block, pointer, _, live⟩
    simpa [Heap.block?, pointer] using live
  distinct := by
    intro j usedJ k usedK same
    have counted := holds.count
    rcases holds.slot_of_lt usedJ with ⟨block, slotJ, pointerJ, _⟩
    rcases holds.slot_of_lt usedK with ⟨other, slotK, pointerK, _⟩
    rw [slotJ, slotK] at same
    apply holds.distinct j k (by omega) (by omega)
    rw [pointerJ, pointerK, same]

end Holds

theorem accounted_virtioCustdevDeviceRealize : Accounted virtioCustdevDeviceRealize where
  holds := ⟨[], holds_virtioCustdevDeviceRealize⟩
  balanced := List.Perm.refl []

namespace Accounted

variable {vcust : VirtIOCustdev}

/-- A new message is a block more on both sides of the ledger. -/
theorem storeMessage (accounted : Accounted vcust) (vqe : VirtQueueElement)
    (room : vcust.rcvCount.toNat < virtioCustdevBuffers) : Accounted (vcust.storeMessage vqe) := by
  rcases accounted with ⟨⟨messages, holds⟩, balanced⟩
  have counted := holds.count
  refine ⟨⟨_, (holds.storeMessage vqe (by omega)).1⟩, ?_⟩
  have counter : (vcust.rcvCount + 1).toNat = vcust.rcvCount.toNat + 1 := by
    simp only [virtioCustdevBuffers] at room
    exact Counter.toNat_add_one (by omega)
  have newest : (vcust.storeMessage vqe).slot vcust.rcvCount.toNat = some vcust.heap.next := by
    simp [VirtIOCustdev.storeMessage_of_room vqe room, VirtIOCustdev.slot, room]
  have older : (vcust.storeMessage vqe).pointers vcust.rcvCount.toNat = vcust.held := by
    apply VirtIOCustdev.pointers_congr
    intro k below
    simp only [VirtIOCustdev.storeMessage_of_room vqe room, VirtIOCustdev.slot,
      Function.update_of_ne (Nat.ne_of_lt below)]
  have held : (vcust.storeMessage vqe).held = vcust.held ++ [vcust.heap.next] := by
    rw [VirtIOCustdev.held, VirtIOCustdev.rcvCount_storeMessage, counter,
      VirtIOCustdev.pointers_succ newest, older]
  rw [held, ← List.append_assoc, VirtIOCustdev.storeMessage_of_room vqe room, List.range_succ]
  apply List.Perm.append_right
  exact balanced

/-- An answered message moves from the table to the freed blocks. -/
theorem dropMessage (accounted : Accounted vcust) (filled : 0 < vcust.rcvCount.toNat) :
    Accounted vcust.dropMessage := by
  rcases accounted with ⟨⟨messages, holds⟩, balanced⟩
  have counted := holds.count
  rcases List.eq_nil_or_concat messages with rfl | ⟨kept, top, rfl⟩
  · rw [counted] at filled
    exact absurd filled (Nat.lt_irrefl 0)
  · rw [List.concat_eq_append] at holds
    refine ⟨⟨kept, holds.dropMessage.1⟩, ?_⟩
    have last : vcust.lastBuf = vcust.rcvCount.toNat - 1 := Counter.toNat_sub_one filled
    have inUse : vcust.rcvCount.toNat - 1 < vcust.rcvCount.toNat := Nat.sub_one_lt_of_lt filled
    rcases holds.slot_of_lt inUse with ⟨block, slot, pointer, live⟩
    rcases Option.isSome_iff_exists.mp live with ⟨stored, live⟩
    have bounded := holds.bounded
    have inside : vcust.lastBuf < virtioCustdevBuffers := by
      rw [last]
      simp only [List.concat_eq_append] at counted
      omega
    have held : vcust.held = vcust.pointers (vcust.rcvCount.toNat - 1) ++ [block] := by
      rw [← VirtIOCustdev.pointers_succ slot, Nat.sub_add_cancel filled, VirtIOCustdev.held]
    rw [VirtIOCustdev.dropMessage_of_live inside (last ▸ pointer) live, VirtIOCustdev.held]
    simp only [Counter.toNat_sub_one filled]
    rw [held] at balanced
    rw [List.append_assoc]
    refine List.Perm.trans ?_ balanced
    apply List.Perm.append_left
    exact List.perm_append_comm

/-- Every notification served in time keeps the ledger. -/
theorem notify {beyond : ℕ → UInt8} {after : VirtIOCustdev} {note : Notification}
    (accounted : Accounted vcust) (inTime : ServedInTime vcust note)
    (served : Virtio.notify beyond vcust note = some after) : Accounted after := by
  cases up : note.status.up with
  | false =>
      rw [notify_of_down up] at served
      exact Option.some.inj served ▸ accounted
  | true =>
      have bound := inTime up
      cases queue : note.queue with
      | outbuf =>
          simp only [queue] at bound
          rw [notify_outbuf up queue] at served
          exact Option.some.inj served ▸ accounted.storeMessage note.element bound
      | inbuf =>
          simp only [queue] at bound
          rw [notify_inbuf up queue] at served
          exact Option.some.inj served ▸ accounted.dropMessage bound

theorem of_reachable {beyond : ℕ → UInt8}
    (reachable : (guestDriven beyond).Reachable ServedInTime vcust) : Accounted vcust := by
  apply reachable.invariant accounted_virtioCustdevDeviceRealize
  intro before note after accounted inTime served
  exact accounted.notify inTime served

end Accounted

theorem reachable_storeMessage {beyond : ℕ → UInt8} {vcust : VirtIOCustdev}
    (vqe : VirtQueueElement) (reachable : (guestDriven beyond).Reachable ServedInTime vcust)
    (room : vcust.rcvCount.toNat < virtioCustdevBuffers) :
    (guestDriven beyond).Reachable ServedInTime (vcust.storeMessage vqe) := by
  let note : Notification := { queue := .outbuf, element := vqe }
  have served : notify beyond vcust note = some (vcust.storeMessage vqe) := notify_outbuf rfl rfl
  have taken : (guestDriven beyond).step vcust note = some (vcust.storeMessage vqe) := served
  exact reachable.step (fun _ => room) taken

theorem reachable_dropMessage {beyond : ℕ → UInt8} {vcust : VirtIOCustdev}
    (reachable : (guestDriven beyond).Reachable ServedInTime vcust)
    (filled : 0 < vcust.rcvCount.toNat) :
    (guestDriven beyond).Reachable ServedInTime vcust.dropMessage := by
  let note : Notification := { queue := .inbuf, element := {} }
  have served : notify beyond vcust note = some vcust.dropMessage := notify_inbuf rfl rfl
  have taken : (guestDriven beyond).step vcust note = some vcust.dropMessage := served
  exact reachable.step (fun _ => filled) taken

/-! ### The removal of the device -/

namespace VirtIOCustdev

@[simp]
theorem slot_freeSlot (vcust : VirtIOCustdev) (index : ℕ) :
    (vcust.freeSlot index).slot = vcust.slot :=
  rfl

@[simp]
theorem next_freeSlot (vcust : VirtIOCustdev) (index : ℕ) :
    (vcust.freeSlot index).heap.next = vcust.heap.next := by
  simp only [freeSlot, Heap.free]
  split <;> rfl

theorem freed_freeSlot (vcust : VirtIOCustdev) (index : ℕ) :
    (vcust.freeSlot index).heap.freed = vcust.heap.freed ++ (vcust.slot index).toList := by
  simp only [freeSlot, Heap.free]
  split <;> simp_all

/-- The loop frees what the slots it visits point to, in their order. -/
theorem foldl_freeSlot (indices : List ℕ) (vcust : VirtIOCustdev) :
    (indices.foldl freeSlot vcust).heap.next = vcust.heap.next ∧
      (indices.foldl freeSlot vcust).heap.freed =
        vcust.heap.freed ++ indices.filterMap vcust.slot := by
  induction indices generalizing vcust with
  | nil => simp
  | cons index rest ih =>
      rcases ih (vcust.freeSlot index) with ⟨next, freed⟩
      refine ⟨by rw [List.foldl_cons, next, next_freeSlot], ?_⟩
      rw [List.foldl_cons, freed, freed_freeSlot, slot_freeSlot, List.append_assoc]
      cases pointer : vcust.slot index <;> simp [pointer]

end VirtIOCustdev

/--
Over every sequence of notifications that are served in time, the slots in use hold pairwise
distinct live blocks; and when the device is then removed, every block that was ever allocated
for a message has been freed exactly once, and nothing else has.
-/
theorem messages_freed_once {beyond : ℕ → UInt8} {vcust : VirtIOCustdev}
    (reachable : (guestDriven beyond).Reachable ServedInTime vcust) :
    DistinctLive vcust ∧
      (virtioCustdevDeviceUnrealize vcust).heap.next = vcust.heap.next ∧
      ∀ block, (virtioCustdevDeviceUnrealize vcust).heap.freed.count block =
        if block < vcust.heap.next then 1 else 0 := by
  rcases Accounted.of_reachable reachable with ⟨⟨messages, holds⟩, balanced⟩
  rcases vcust.foldl_freeSlot (List.range vcust.rcvCount.toNat) with ⟨next, freed⟩
  refine ⟨holds.distinctLive, next, ?_⟩
  intro block
  have once : (virtioCustdevDeviceUnrealize vcust).heap.freed.Perm
      (List.range vcust.heap.next) := by
    rw [virtioCustdevDeviceUnrealize, freed]
    exact balanced
  rw [once.count_eq, List.Nodup.count List.nodup_range]
  simp only [List.mem_range]

/-- Two messages, one of them taken back: the other is freed by the removal. -/
theorem messages_freed_once_two : ∃ vcust,
    (guestDriven fun _ => 0).Reachable ServedInTime vcust ∧ vcust.heap.next = 2 ∧
      ∀ block, (virtioCustdevDeviceUnrealize vcust).heap.freed.count block =
        if block < 2 then 1 else 0 := by
  have start : (guestDriven fun _ => 0).Reachable ServedInTime virtioCustdevDeviceRealize :=
    .initial
  have one := reachable_storeMessage { outSg := [[7]] } start (by decide)
  have two := reachable_storeMessage { outSg := [[8]] } one (by decide)
  have reachable := reachable_dropMessage two (by decide)
  refine ⟨_, reachable, by decide, ?_⟩
  exact (messages_freed_once reachable).2.2

end VirtLearn.Virtio
