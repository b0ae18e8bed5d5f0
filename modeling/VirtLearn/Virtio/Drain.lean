import VirtLearn.Virtio.Device
import VirtLearn.Virtio.Driver

/-!
# Several requests behind one notification

A notification says that a queue has changed, not by how much: by the time a handler runs the queue
may hold any number of requests, or none. The two handlers of the device pop one request each, and
so do the two callbacks of the driver. They empty their queues in the one case in which the count
is right; that the one message is then kept whole is a matter of its segments.
-/

namespace VirtLearn.Virtio

/-! ### The handlers of the device -/

section Handlers

variable {status : QueueStatus} {vcust : VirtIOCustdev} {vq : VirtQueue}

end Handlers

/-- What `virtio_custdev_outbuf_cb` passes to `kfree`. -/
def outbufCbFreed (vcust : VirtioCustomDevice) : List UsedElement :=
  vcust.vqTx.getBuf.1.toList

/-- The counter, the shared pointer and the completion are as they were. -/
def SameCounts (before after : VirtioCustomDevice) : Prop :=
  after.buffers = before.buffers ∧ after.readData = before.readData ∧
    after.dataReady = before.dataReady

/-- The callback frees every buffer that has been sent. -/
def FreesAll (vcust : VirtioCustomDevice) : Prop :=
  outbufCbFreed vcust = vcust.vqTx.used ∧ (virtioCustdevOutbufCb vcust).vqTx.used = [] ∧
    (vcust.vqTx.used = [] → SameCounts vcust (virtioCustdevOutbufCb vcust))

/-- The callback counts down and signals once for every buffer that has been filled. -/
def SignalsAll (vcust : VirtioCustomDevice) : Prop :=
  (virtioCustdevInbufCb vcust).buffers =
      vcust.buffers - BitVec.ofNat 32 vcust.vqRx.used.length ∧
    (virtioCustdevInbufCb vcust).dataReady = vcust.dataReady + vcust.vqRx.used.length ∧
    (virtioCustdevInbufCb vcust).vqRx.used = [] ∧
    (vcust.vqRx.used = [] → SameCounts vcust (virtioCustdevInbufCb vcust))

/--
The transmit callback deals with all used buffers if and only if there is at most one, and the
receive callback if and only if there is exactly one.
-/
theorem callbacks_consume_iff (vcust : VirtioCustomDevice) :
    (FreesAll vcust ↔ vcust.vqTx.used.length ≤ 1) ∧
      (SignalsAll vcust ↔ vcust.vqRx.used.length = 1) := by
  constructor
  · rw [FreesAll, outbufCbFreed, virtioCustdevOutbufCb, VirtQueue.getBuf]
    rcases used : vcust.vqTx.used with _ | ⟨first, _ | ⟨second, rest⟩⟩
    · simp [used, SameCounts]
    · simp
    · simp
  · rw [SignalsAll, virtioCustdevInbufCb, VirtQueue.getBuf]
    rcases used : vcust.vqRx.used with _ | ⟨first, rest⟩
    · simp
    · constructor
      · rintro ⟨_, signalled, _⟩
        simp only [List.length_cons] at signalled ⊢
        omega
      · intro single
        have rest_nil : rest = [] := by simpa using single
        simp [rest_nil]

/-- An interrupt without a used buffer counts a message that nobody read. -/
theorem callbacks_skew : ¬∀ vcust, FreesAll vcust ∧ SignalsAll vcust := by
  intro claimed
  rcases claimed virtioCustdevProbe with ⟨_, counted, _⟩
  revert counted
  decide

end VirtLearn.Virtio
