import Mathlib.Algebra.GroupWithZero.Nat
import Mathlib.Data.List.Basic

/-!
# Virtqueues

The ring that the front-end driver and the device share, as the driver's `virtqueue_add_*` and
`virtqueue_get_buf` and the device's `virtqueue_pop` and `virtqueue_push` see it: requests made
available and not yet popped, and requests used and not yet collected, both in order.

Buffers are byte strings. Reading past the end of one yields whatever memory holds there, which
is a parameter (`beyond`) of everything that reads with a length of its own.
-/

namespace VirtLearn.Virtio

/-- `length` bytes read from the start of a buffer that holds `stored`. -/
def readBuffer (beyond : ℕ → UInt8) (stored : List UInt8) (length : ℕ) : List UInt8 :=
  (List.range length).map fun offset => stored.getD offset (beyond offset)

@[simp]
theorem length_readBuffer (beyond : ℕ → UInt8) (stored : List UInt8) (length : ℕ) :
    (readBuffer beyond stored length).length = length := by
  simp [readBuffer]

theorem readBuffer_of_le (beyond : ℕ → UInt8) {stored : List UInt8} {length : ℕ}
    (within : length ≤ stored.length) : readBuffer beyond stored length = stored.take length := by
  apply List.ext_getElem
  · simp [within]
  · intro offset inRead inTake
    have inStored : offset < stored.length := by
      simp only [length_readBuffer] at inRead
      omega
    simp [readBuffer, List.getD_eq_getElem?_getD, inStored]

theorem readBuffer_length (beyond : ℕ → UInt8) (stored : List UInt8) :
    readBuffer beyond stored stored.length = stored := by
  rw [readBuffer_of_le beyond (Nat.le_refl _), List.take_length]

/--
One request: the segments the device reads, with their bytes, and the lengths of the segments
it fills. `pastOut` and `pastIn` are what `out_sg->iov_len` and `in_sg->iov_len` yield when the
request has no such segment and the access leaves the descriptor array.
-/
structure VirtQueueElement where
  outSg : List (List UInt8) := []
  inSg : List ℕ := []
  pastOut : ℕ := 0
  pastIn : ℕ := 0
deriving DecidableEq

namespace VirtQueueElement

def outIovLen (vqe : VirtQueueElement) : ℕ :=
  match vqe.outSg with
  | [] => vqe.pastOut
  | segment :: _ => segment.length

def inIovLen (vqe : VirtQueueElement) : ℕ :=
  match vqe.inSg with
  | [] => vqe.pastIn
  | length :: _ => length

/-- The message that a request carries. -/
def message (vqe : VirtQueueElement) : List UInt8 :=
  vqe.outSg.flatten

end VirtQueueElement

/-- A request the device is done with: the bytes it filled in and the length it reported. -/
structure UsedElement where
  request : VirtQueueElement
  filled : List UInt8
  len : ℕ
deriving DecidableEq

/-- The driver's buffer behind a used request; the driver allocates it zeroed. -/
def UsedElement.buffer (used : UsedElement) : List UInt8 :=
  used.filled ++ List.replicate (used.request.inSg.sum - used.filled.length) 0

/-- Requests available to the device and requests it has used, the oldest first. -/
structure VirtQueue where
  avail : List VirtQueueElement := []
  used : List UsedElement := []
deriving DecidableEq

namespace VirtQueue

/-- `virtqueue_add_outbuf` and `virtqueue_add_inbuf`, when they succeed. -/
def add (vq : VirtQueue) (vqe : VirtQueueElement) : VirtQueue :=
  { vq with avail := vq.avail ++ [vqe] }

/-- `virtqueue_get_buf`: collect the oldest used request, or `NULL`. -/
def getBuf (vq : VirtQueue) : Option UsedElement × VirtQueue :=
  match vq.used with
  | [] => (none, vq)
  | used :: rest => (some used, { vq with used := rest })

/-- `virtqueue_pop`: take the oldest available request, or `NULL`. -/
def pop (vq : VirtQueue) : Option (VirtQueueElement × VirtQueue) :=
  match vq.avail with
  | [] => none
  | vqe :: rest => some (vqe, { vq with avail := rest })

/-- `virtqueue_push`: hand a request back with the length written. -/
def push (vq : VirtQueue) (vqe : VirtQueueElement) (filled : List UInt8) (len : ℕ) : VirtQueue :=
  { vq with used := vq.used ++ [⟨vqe, filled, len⟩] }

end VirtQueue

/-- `iov_to_buf` from offset 0: at most `bytes` bytes of the concatenated segments. -/
def iovToBuf (outSg : List (List UInt8)) (bytes : ℕ) : List UInt8 :=
  outSg.flatten.take bytes

theorem outIovLen_of_cons {vqe : VirtQueueElement} {first : List UInt8}
    {others : List (List UInt8)} (segments : vqe.outSg = first :: others) :
    vqe.outIovLen = first.length := by
  simp [VirtQueueElement.outIovLen, segments]

/-- A copy as long as the first segment is the whole message if the others are empty. -/
theorem iovToBuf_eq_message_iff {vqe : VirtQueueElement} {first : List UInt8}
    {others : List (List UInt8)} (segments : vqe.outSg = first :: others) :
    iovToBuf vqe.outSg vqe.outIovLen = vqe.message ↔ others.flatten = [] := by
  rw [outIovLen_of_cons segments, iovToBuf, VirtQueueElement.message, segments,
    List.flatten_cons, List.take_left]
  constructor
  · intro same
    simpa using same
  · intro empty
    rw [empty, List.append_nil]

/-- `iov_from_buf` to offset 0: `bytes` bytes of the buffer, as far as the segments have room. -/
def iovFromBuf (beyond : ℕ → UInt8) (inSg : List ℕ) (stored : List UInt8) (bytes : ℕ) :
    List UInt8 :=
  readBuffer beyond stored (min bytes inSg.sum)

end VirtLearn.Virtio
